import Vestibule.Library.Program
import Vestibule.Provisioning.Registry

set_option autoImplicit false

namespace Vestibule.Provisioning

open Library

-- `ensure` and the claim, wait and reclaim flows under it. Every call of the registry or of the store's
-- adapter, and every read of the clock, is one operation. The source loops and recurs without a bound:
-- `fuel` cuts a run off, and what is shown of all fuels is shown of every finite part of a run.

-- What an adapter method raises: an error it classified itself, or anything else.
inductive AdapterError where
  | provisioning (error : ProvisioningError)
  | other (text : String)
  deriving DecidableEq

inductive Op where
  | registry (call : RegistryCall)
  | clock
  | newClaimToken
  | sleep (interval : TimeDelta)
  | indexExists (indexName : String)
  | createIndex (indexName : String) (template : IndexTemplate) (dimensions : Int) (metric : String)
  | describeIndex (indexName : String)
  deriving DecidableEq

def Op.Res : Op → Type
  | registry call => call.Res
  | clock => DateTime
  | newClaimToken => String
  | sleep _ => Unit
  | indexExists _ => Except AdapterError Bool
  | createIndex _ _ _ _ => Except AdapterError Unit
  | describeIndex _ => Except AdapterError (Option IndexDescription)

abbrev Effects : Signature := ⟨Op, Op.Res⟩

abbrev Py (α : Type) := ExceptT Raised (Prog Effects) α

namespace Py

def ofExcept {α : Type} (result : Except ProvisioningError α) : Py α :=
  ExceptT.mk (.ret (result.mapError .provisioning))

def registry (call : RegistryCall) : Py call.Value :=
  ExceptT.mk (.op (.registry call) fun result => .ret (result.mapError .provisioning))

def clock : Py DateTime := ExceptT.mk (.op .clock fun now => .ret (.ok now))

def newClaimToken : Py String := ExceptT.mk (.op .newClaimToken fun token => .ret (.ok token))

def sleep (interval : TimeDelta) : Py Unit := ExceptT.mk (.op (.sleep interval) fun _ => .ret (.ok ()))

end Py

def callAdapter {α : Type} (indexName : String) : Except AdapterError α → Except Raised α
  | .ok value => .ok value
  | .error (.provisioning e) => .error (.provisioning e)
  | .error (.other text) => .error (.provisioning ⟨indexName, text, indexProvisionerUnavailable⟩)

namespace Py

def indexExists (indexName : String) : Py Bool :=
  ExceptT.mk (.op (.indexExists indexName) fun answer => .ret (callAdapter indexName answer))

def createIndex (indexName : String) (template : IndexTemplate) (dimensions : Int) (metric : String) : Py Unit :=
  ExceptT.mk (.op (.createIndex indexName template dimensions metric) fun answer =>
    .ret (callAdapter indexName answer))

def describeIndex (indexName : String) : Py (Option IndexDescription) :=
  ExceptT.mk (.op (.describeIndex indexName) fun answer => .ret (callAdapter indexName answer))

end Py

def failedError (entry : IndexRegistryEntry) : ProvisioningError :=
  let message := entry.lastErrorMessage.getD ""
  ⟨entry.indexName, if message = "" then "index provisioning failed; requires human intervention" else message,
    indexProvisionFailed⟩

def retiredError (entry : IndexRegistryEntry) : ProvisioningError :=
  ⟨entry.indexName, "index has been retired", indexRetired⟩

def absorbConflict {α : Type} (write : Py α) : Py Unit :=
  tryCatch (do let _ ← write) fun
    | .provisioning e => if e.errorCode ≠ indexProvisionConflict then throw (.provisioning e) else pure ()
    | raised => throw raised

structure IndexProvisioner where
  templates : IndexTemplateStore
  config : ProvisioningConfig := {}

namespace IndexProvisioner

variable (provisioner : IndexProvisioner)

def resolveTemplate (scenario : IndexScenario) : Except ProvisioningError (IndexTemplate × Int × String) := do
  let chosen := scenario.indexTemplateId.getD ""
  let templateId := if chosen = "" then provisioner.config.defaultTemplateId else chosen
  let template ← getOrRaise provisioner.templates templateId
  match template.dimensions with
  | none => .ok (template, scenario.indexerDimensions, template.metric.value)
  | some dimensions =>
      if dimensions ≠ scenario.indexerDimensions then
        .error ⟨scenario.indexName, "template " ++ reprStr template.templateId ++ "'s explicit dimensions=" ++
          toString dimensions ++ " disagrees with scenario.indexer.dimensions=" ++
          toString scenario.indexerDimensions, indexTemplateInvalid⟩
      else .ok (template, dimensions, template.metric.value)

-- The clock is read only where there is a time to compare it with.
def timeTest (time : Option DateTime) (test : DateTime → DateTime → Bool) : Py Bool :=
  match time with
  | none => pure false
  | some time => do
      let now ← Py.clock
      return test now time

def recentlyVerified (entry : IndexRegistryEntry) : Py Bool :=
  timeTest entry.lastVerifiedAt fun now verifiedAt =>
    !elapsed now verifiedAt provisioner.config.verificationIntervalSeconds

def invalidLiteral (text : String) : Raised := .other ("invalid literal for int() with base 10: " ++ reprStr text)

-- The versions are parsed only when the live index itself agrees.
def drifted (entry : IndexRegistryEntry) (template : IndexTemplate) (dimensions : Int) (metric : String)
    (description : Option IndexDescription) : Except Raised Bool :=
  if description ≠ some ⟨dimensions, metric⟩ then .ok true
  else
    match int? entry.templateVersion, int? template.templateVersion with
    | none, _ => .error (invalidLiteral entry.templateVersion)
    | _, none => .error (invalidLiteral template.templateVersion)
    | some stored, some resolved => .ok (stored < resolved)

def driftError (entry : IndexRegistryEntry) (template : IndexTemplate) (dimensions : Int) (metric : String)
    (description : Option IndexDescription) : ProvisioningError :=
  ⟨entry.indexName, "live index incompatible with resolved template: description=" ++
    reprDescription description ++ ", resolved_dimensions=" ++ toString dimensions ++ ", resolved_metric=" ++
    reprStr metric ++ ", entry.template_version=" ++ reprStr entry.templateVersion ++
    ", template.template_version=" ++ reprStr template.templateVersion, indexSchemaDrift⟩

def handleReady (scenario : IndexScenario) (entry : IndexRegistryEntry) : Py IndexRegistryEntry := do
  let recent ← provisioner.recentlyVerified entry
  if recent then return entry
  else
    let (template, dimensions, metric) ← Py.ofExcept (provisioner.resolveTemplate scenario)
    let description ← Py.describeIndex entry.indexName
    let drift ← ExceptT.mk (.ret (drifted entry template dimensions metric description))
    if drift then throw (.provisioning (driftError entry template dimensions metric description))
    else Py.registry (.touchVerified entry.indexName)

-- The `assert` that the claim carries its template raises an error without a message.
def createFor (wonEntry : IndexRegistryEntry) : Py Unit :=
  match wonEntry.resolvedTemplate with
  | none => throw (.other "")
  | some template =>
      tryCatch (Py.createIndex wonEntry.indexName template wonEntry.dimensions wonEntry.metric) fun
        | .provisioning e => do
            absorbConflict (Py.registry (.markFailed wonEntry.indexName e.str wonEntry.claimToken))
            throw (.provisioning e)
        | raised => throw raised

def incompatibleReason (wonEntry : IndexRegistryEntry) (description : Option IndexDescription) : String :=
  "index " ++ reprStr wonEntry.indexName ++ " incompatible after creation/existence check: description=" ++
    reprDescription description ++ ", expected dimensions=" ++ toString wonEntry.dimensions ++ ", metric=" ++
    reprStr wonEntry.metric

def isStale (entry : IndexRegistryEntry) : Py Bool :=
  timeTest entry.claimedAt fun now claimedAt =>
    elapsed now claimedAt provisioner.config.provisioningStaleAfterSeconds

def tryReclaim (observed : IndexRegistryEntry) : Py (Option IndexRegistryEntry) := do
  let claimToken ← Py.newClaimToken
  let claimedAt ← Py.clock
  tryCatch (some <$> Py.registry (.reclaim observed.indexName observed (observed.claimedBy claimToken claimedAt))) fun
    | .provisioning e => if e.errorCode = indexProvisionConflict then pure none else throw (.provisioning e)
    | raised => throw raised

def candidate (scenario : IndexScenario) (template : IndexTemplate) (dimensions : Int) (metric : String)
    (now : DateTime) (claimToken : String) : IndexRegistryEntry where
  indexName := scenario.indexName
  vertical := scenario.vertical
  scenarioId := scenario.scenarioId
  templateId := template.templateId
  templateVersion := template.templateVersion
  dimensions := dimensions
  metric := metric
  embeddingModel := scenario.embedderModel
  status := .provisioning
  createdAt := now
  lastVerifiedAt := none
  documentCount := none
  claimToken := some claimToken
  claimedAt := some now
  lastErrorMessage := none
  resolvedTemplate := some template

mutual

def claimNew : Nat → IndexScenario → Py IndexRegistryEntry
  | 0, _ => throw .unfinished
  | fuel + 1, scenario =>
      if provisioner.config.autoCreate then do
        let (template, dimensions, metric) ← Py.ofExcept (provisioner.resolveTemplate scenario)
        let now ← Py.clock
        let claimToken ← Py.newClaimToken
        let wonEntry ← Py.registry (.register (candidate scenario template dimensions metric now claimToken))
        if wonEntry.claimToken = some claimToken then claimAndCreate fuel scenario wonEntry
        else afterLosingClaim fuel scenario wonEntry
      else throw (.provisioning ⟨scenario.indexName, "no index exists and config.auto_create is False",
        indexAutoCreateDisabled⟩)

def claimAndCreate : Nat → IndexScenario → IndexRegistryEntry → Py IndexRegistryEntry
  | 0, _, _ => throw .unfinished
  | fuel + 1, scenario, wonEntry => do
      let alreadyExists ← Py.indexExists wonEntry.indexName
      (if alreadyExists then pure () else createFor wonEntry)
      let description ← Py.describeIndex wonEntry.indexName
      if description ≠ some ⟨wonEntry.dimensions, wonEntry.metric⟩ then do
        let reason := incompatibleReason wonEntry description
        absorbConflict (Py.registry (.markFailed wonEntry.indexName reason wonEntry.claimToken))
        throw (.provisioning ⟨wonEntry.indexName, reason, indexSchemaDrift⟩)
      else finalizeReady fuel scenario wonEntry

def finalizeReady : Nat → IndexScenario → IndexRegistryEntry → Py IndexRegistryEntry
  | 0, _, _ => throw .unfinished
  | fuel + 1, scenario, wonEntry =>
      tryCatch (Py.registry (.markReady wonEntry.indexName wonEntry.claimToken)) fun
        | .provisioning e =>
            if e.errorCode ≠ indexProvisionConflict then throw (.provisioning e)
            else do
              let current ← Py.registry (.get wonEntry.indexName)
              match current with
              | none => claimNew fuel scenario
              | some entry => afterLosingClaim fuel scenario entry
        | raised => throw raised

def afterLosingClaim : Nat → IndexScenario → IndexRegistryEntry → Py IndexRegistryEntry
  | 0, _, _ => throw .unfinished
  | fuel + 1, scenario, entry =>
      match entry.status with
      | .ready => pure entry
      | .provisioning => waitForReady fuel scenario entry
      | .failed => throw (.provisioning (failedError entry))
      | .retired => throw (.provisioning (retiredError entry))

def waitForReady : Nat → IndexScenario → IndexRegistryEntry → Py IndexRegistryEntry
  | 0, _, _ => throw .unfinished
  | fuel + 1, scenario, entry => do
      let now ← Py.clock
      waitLoop fuel scenario entry.indexName (now + provisioner.config.waitForProvisioningTimeoutSeconds) entry

def waitLoop : Nat → IndexScenario → String → DateTime → IndexRegistryEntry → Py IndexRegistryEntry
  | 0, _, _, _, _ => throw .unfinished
  | fuel + 1, scenario, indexName, deadline, current => do
      let stale ← provisioner.isStale current
      let reclaimed ← (if stale then tryReclaim current else pure none)
      match reclaimed with
      | some entry => claimAndCreate fuel scenario entry
      | none => do
          let now ← Py.clock
          if now ≥ deadline then
            throw (.provisioning ⟨indexName,
              "timed out waiting for another worker's provisioning claim to reach ready", indexProvisionTimeout⟩)
          else do
            Py.sleep provisioner.config.waitPollIntervalSeconds
            let refreshed ← Py.registry (.get indexName)
            match refreshed with
            | none => claimNew fuel scenario
            | some entry =>
                if entry.status ≠ .provisioning then afterLosingClaim fuel scenario entry
                else waitLoop fuel scenario indexName deadline entry

end

def dispatchExisting (fuel : Nat) (scenario : IndexScenario) (entry : IndexRegistryEntry) : Py IndexRegistryEntry :=
  match entry.status with
  | .ready => provisioner.handleReady scenario entry
  | .provisioning => provisioner.waitForReady fuel scenario entry
  | .failed => throw (.provisioning (failedError entry))
  | .retired => throw (.provisioning (retiredError entry))

def ensure (fuel : Nat) (scenario : IndexScenario) : Py IndexRegistryEntry := do
  let entry ← Py.registry (.get scenario.indexName)
  match entry with
  | none => provisioner.claimNew fuel scenario
  | some entry => provisioner.dispatchExisting fuel scenario entry

end IndexProvisioner

end Vestibule.Provisioning
