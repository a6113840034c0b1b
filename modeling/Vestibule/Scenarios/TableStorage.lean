import Vestibule.Provisioning.TableStorage
import Vestibule.Scenarios.Model

set_option autoImplicit false

namespace Vestibule.Scenarios

open Library
open Provisioning (TableEntityRecord HttpResponseError conflictStatusCodes Row Table TableWorld)

-- A scenario is one entity: its vertical is the partition key, its id the row key.

/-- How times and nested settings are written as text, and read back. `Json` is the text of a JSON
document; what cannot be read back gives the text of the error. -/
structure Formats (Json : Type) where
  isoformat : DateTime → String
  fromisoformat : String → Except String DateTime
  chunkerJson : ChunkerSettings → Json
  chunkerOfJson : Json → Except String ChunkerSettings
  embedderJson : EmbedderSettings → Json
  embedderOfJson : Json → Except String EmbedderSettings
  indexerJson : IndexerSettings → Json
  indexerOfJson : Json → Except String IndexerSettings
  fromisoformat_isoformat : ∀ time, fromisoformat (isoformat time) = .ok time
  chunkerOfJson_chunkerJson : ∀ settings, chunkerOfJson (chunkerJson settings) = .ok settings
  embedderOfJson_embedderJson : ∀ settings, embedderOfJson (embedderJson settings) = .ok settings
  indexerOfJson_indexerJson : ∀ settings, indexerOfJson (indexerJson settings) = .ok settings

inductive Property (Json : Type) where
  | text (value : String)
  | flag (value : Bool)
  | json (value : Json)
  deriving DecidableEq

abbrev EntityData (Json : Type) := Dict String (Property Json)

variable {Json : Type} (formats : Formats Json)

def scenarioToEntityData (scenario : Scenario) : EntityData Json :=
  let data : EntityData Json := Dict.empty
    |>.insert "scenario_id" (.text scenario.scenarioId)
    |>.insert "vertical" (.text scenario.vertical)
    |>.insert "config_version" (.text scenario.configVersion)
    |>.insert "index_name" (.text scenario.indexName)
    |>.insert "acl_source" (.text scenario.aclSource.value)
    |>.insert "default_trust_tier" (.text scenario.defaultTrustTier)
    |>.insert "enabled" (.flag scenario.enabled)
    |>.insert "created_at" (.text (formats.isoformat scenario.createdAt))
    |>.insert "updated_at" (.text (formats.isoformat scenario.updatedAt))
    |>.insert "chunker_json" (.json (formats.chunkerJson scenario.chunker))
    |>.insert "embedder_json" (.json (formats.embedderJson scenario.embedder))
    |>.insert "indexer_json" (.json (formats.indexerJson scenario.indexer))
  match scenario.indexTemplateId with
  | none => data
  | some templateId => data.insert "index_template_id" (.text templateId)

namespace Property

def truthy : Property Json → Bool
  | text value => value ≠ ""
  | flag value => value
  | json _ => true

-- Properties that hold a document are read as one; every other property is text or a flag.
def str : Property Json → String
  | text value => value
  | flag true => "True"
  | flag false => "False"
  | json _ => ""

end Property

-- Reading an entity. The text of an error is that of the exception the constructor would meet first; a
-- `ValidationError` is cut off before pydantic's own details.

namespace Entity

variable (data : EntityData Json)

def require (key : String) : Except String (Property Json) :=
  match data.get? key with
  | none => .error (reprStr key)
  | some property => .ok property

def invalid (field : String) : String := "1 validation error for Scenario\n" ++ field

def text (field : String) : Property Json → Except String String
  | .text value => .ok value
  | _ => .error (invalid field)

def document (field : String) : Property Json → Except String Json
  | .json value => .ok value
  | _ => .error ("1 validation error for " ++ field)

def parseDatetime (property : Property Json) : Except String DateTime := formats.fromisoformat property.str

def optionalText (field : String) : Option (Property Json) → Except String (Option String)
  | none => .ok none
  | some property => some <$> text field property

def construct (scenarioId vertical configVersion indexName : String) (chunker : ChunkerSettings)
    (embedder : EmbedderSettings) (indexer : IndexerSettings) (aclSource defaultTrustTier : String) (enabled : Bool)
    (createdAt updatedAt : DateTime) (indexTemplateId : Option String) : Except String Scenario :=
  match AclSource.ofValue? aclSource with
  | none => .error (invalid "acl_source")
  | some aclSource =>
      if scenarioIdNonempty : scenarioId ≠ "" then
        if verticalNonempty : vertical ≠ "" then
          if trustTierNonempty : defaultTrustTier ≠ "" then
            if indexNameValid : validateIndexName indexName = .ok () then
              if chunkerBounded : validateChunkerBounds chunker = .ok () then
                if dimensionsConsistent : validateDimensionConsistency embedder indexer = .ok () then
                  .ok { scenarioId, vertical, configVersion, indexName, chunker, embedder, indexer, aclSource,
                        defaultTrustTier, enabled, createdAt, updatedAt, indexTemplateId, scenarioIdNonempty,
                        verticalNonempty, trustTierNonempty, indexNameValid, chunkerBounded, dimensionsConsistent }
                else .error (invalid "")
              else .error (invalid "")
            else .error (invalid "")
          else .error (invalid "default_trust_tier")
        else .error (invalid "vertical")
      else .error (invalid "scenario_id")

def decode : Except String Scenario := do
  let scenarioId ← require data "scenario_id"
  let vertical ← require data "vertical"
  let configVersion ← require data "config_version"
  let indexName ← require data "index_name"
  let chunker ← formats.chunkerOfJson (← document "ChunkerSettings" (← require data "chunker_json"))
  let embedder ← formats.embedderOfJson (← document "EmbedderSettings" (← require data "embedder_json"))
  let indexer ← formats.indexerOfJson (← document "IndexerSettings" (← require data "indexer_json"))
  let aclSource ← require data "acl_source"
  let defaultTrustTier ← require data "default_trust_tier"
  let enabled ← require data "enabled"
  let createdAt ← parseDatetime formats (← require data "created_at")
  let updatedAt ← parseDatetime formats (← require data "updated_at")
  construct (← text "scenario_id" scenarioId) (← text "vertical" vertical) (← text "config_version" configVersion)
    (← text "index_name" indexName) chunker embedder indexer (← text "acl_source" aclSource)
    (← text "default_trust_tier" defaultTrustTier) enabled.truthy createdAt updatedAt
    (← optionalText "index_template_id" (data.get? "index_template_id"))

end Entity

def entityToScenario (data : EntityData Json) : Except ScenarioError Scenario :=
  match Entity.decode formats data with
  | .ok scenario => .ok scenario
  | .error text => .error ⟨((data.get? "scenario_id").map Property.str).getD "", "corrupt table entity: " ++ text,
      scenarioInvalid⟩

theorem construct_self (s : Scenario) :
    Entity.construct s.scenarioId s.vertical s.configVersion s.indexName s.chunker s.embedder s.indexer
      s.aclSource.value s.defaultTrustTier s.enabled s.createdAt s.updatedAt s.indexTemplateId = .ok s := by
  simp [Entity.construct, AclSource.ofValue?_value, s.scenarioIdNonempty, s.verticalNonempty, s.trustTierNonempty,
    s.indexNameValid, s.chunkerBounded, s.dimensionsConsistent]

theorem entityToScenario_data (scenario : Scenario) :
    entityToScenario formats (scenarioToEntityData formats scenario) = .ok scenario := by
  have decoded : Entity.decode formats (scenarioToEntityData formats scenario) = .ok scenario := by
    have rebuilt := construct_self scenario
    cases template : scenario.indexTemplateId with
    | none =>
      rw [template] at rebuilt
      simp [Entity.decode, Entity.require, Entity.text, Entity.document, Entity.parseDatetime, Entity.optionalText,
        Property.str, Property.truthy, scenarioToEntityData, template, formats.fromisoformat_isoformat,
        formats.chunkerOfJson_chunkerJson, formats.embedderOfJson_embedderJson, formats.indexerOfJson_indexerJson,
        Bind.bind, Except.bind, rebuilt]
    | some templateId =>
      rw [template] at rebuilt
      simp [Entity.decode, Entity.require, Entity.text, Entity.document, Entity.parseDatetime, Entity.optionalText,
        Property.str, Property.truthy, scenarioToEntityData, template, formats.fromisoformat_isoformat,
        formats.chunkerOfJson_chunkerJson, formats.embedderOfJson_embedderJson, formats.indexerOfJson_indexerJson,
        Bind.bind, Except.bind, rebuilt, Functor.map, Except.map]
  simp [entityToScenario, decoded]

theorem scenarioToEntityData_injective :
    Function.Injective (scenarioToEntityData formats : Scenario → EntityData Json) := by
  intro first second same
  have reads := entityToScenario_data formats first
  rw [same, entityToScenario_data] at reads
  exact (Except.ok.inj reads).symm

inductive StoreOp (Json : Type) where
  | getEntity (partitionKey rowKey : String)
  | query (partitionKey rowKey : Option String)
  | upsertEntity (partitionKey rowKey : String) (data : EntityData Json) (etag : Option String)
  | deleteEntity (partitionKey rowKey : String)
  | now

abbrev EntityRecord (Json : Type) := TableEntityRecord (EntityData Json)

def StoreOp.Res : StoreOp Json → Type
  | getEntity _ _ => Option (EntityRecord Json)
  | query _ _ => List (EntityRecord Json)
  | upsertEntity _ _ _ _ => Except HttpResponseError String
  | deleteEntity _ _ => Unit
  | now => DateTime

abbrev StoreEffects (Json : Type) : Signature := ⟨StoreOp Json, StoreOp.Res⟩

abbrev StorePy (Json α : Type) := ExceptT Raised (Prog (StoreEffects Json)) α

def mapStatus (e : HttpResponseError) : String :=
  if e.statusCode.any (· ∈ conflictStatusCodes) then scenarioConflict else scenarioStoreUnavailable

namespace StorePy

variable {α : Type}

def ofExcept (result : Except Raised α) : StorePy Json α := ExceptT.mk (.ret result)

def getEntity (partitionKey rowKey : String) : StorePy Json (Option (EntityRecord Json)) :=
  ExceptT.mk (.op (.getEntity partitionKey rowKey) fun found => .ret (.ok found))

def query (partitionKey rowKey : Option String) : StorePy Json (List (EntityRecord Json)) :=
  ExceptT.mk (.op (.query partitionKey rowKey) fun found => .ret (.ok found))

-- Conflicts are never retried, so one failed attempt is the last one.
def upsertEntity (partitionKey rowKey : String) (data : EntityData Json) (etag : Option String) :
    StorePy Json String :=
  ExceptT.mk (.op (.upsertEntity partitionKey rowKey data etag) fun answer =>
    .ret (answer.mapError fun e => .scenario ⟨"", e.text, mapStatus e⟩))

def deleteEntity (partitionKey rowKey : String) : StorePy Json Unit :=
  ExceptT.mk (.op (.deleteEntity partitionKey rowKey) fun _ => .ret (.ok ()))

def now : StorePy Json DateTime := ExceptT.mk (.op .now fun time => .ret (.ok time))

end StorePy

def revalidate (scenario : Scenario) : Except Raised Unit :=
  (do
    validateIndexName scenario.indexName
    validateChunkerBounds scenario.chunker
    validateDimensionConsistency scenario.embedder scenario.indexer).mapError fun text =>
      .scenario ⟨scenario.scenarioId, text, scenarioInvalid⟩

def bumpConfigVersion : Option (Property Json) → String
  | some (.text existing) => match int? existing with
      | some version => toString (version + 1)
      | none => "1"
  | some (.flag existing) => toString (existing.toNat + 1)
  | _ => "1"

namespace TableStorageScenarioStore

def ofRecord (record : EntityRecord Json) : StorePy Json Scenario :=
  StorePy.ofExcept ((entityToScenario formats record.data).mapError .scenario)

def get (scenarioId : String) : StorePy Json (Option Scenario) := do
  let found ← StorePy.query none (some scenarioId)
  match found with
  | [] => pure none
  | record :: _ => some <$> ofRecord formats record

def isEnabled (record : EntityRecord Json) : Bool := (record.data.get? "enabled").any Property.truthy

def getByVertical (vertical : String) : StorePy Json (Option Scenario) := do
  let found ← StorePy.query (some vertical) none
  let candidates ← (found.filter isEnabled).mapM (ofRecord formats)
  return selectEnabledForVertical candidates

def listAll (includeDisabled : Bool) : StorePy Json (List Scenario) := do
  let found ← StorePy.query none none
  let scenarios ← found.mapM (ofRecord formats)
  return if includeDisabled then scenarios else scenarios.filter (·.enabled)

-- The creation time of an entity that is there already is read off the entity.
def createdAtOf (scenario : Scenario) : Option (EntityRecord Json) → Except Raised DateTime
  | none => .ok scenario.createdAt
  | some record =>
      (Entity.require record.data "created_at" >>= Entity.parseDatetime formats).mapError .other

def upsert (scenario : Scenario) : StorePy Json Scenario := do
  StorePy.ofExcept (revalidate scenario)
  let existing ← StorePy.getEntity scenario.vertical scenario.scenarioId
  let configVersion := bumpConfigVersion (existing.bind (·.data.get? "config_version"))
  let createdAt ← StorePy.ofExcept (createdAtOf formats scenario existing)
  let updatedAt ← StorePy.now
  let updated := { scenario with configVersion, createdAt, updatedAt }
  let _ ← StorePy.upsertEntity updated.vertical updated.scenarioId (scenarioToEntityData formats updated)
    (existing.map (·.etag))
  return updated

def delete (scenarioId : String) : StorePy Json Bool := do
  let found ← StorePy.query none (some scenarioId)
  match found with
  | [] => return false
  | record :: _ =>
      StorePy.deleteEntity record.partitionKey record.rowKey
      return true

end TableStorageScenarioStore

def edited (scenario : Scenario) (version : Int) (createdAt updatedAt : DateTime) : Scenario :=
  { scenario with configVersion := toString version, createdAt, updatedAt }

inductive Found (scenario : Scenario) : Option (EntityRecord Json) → Int → DateTime → Prop where
  | absent : Found scenario none 0 scenario.createdAt
  | present {record : EntityRecord Json} {stored : Scenario} {version : Int}
      (decodes : record.data = scenarioToEntityData formats stored)
      (numbered : stored.configVersion = toString version) :
      Found scenario (some record) version stored.createdAt

def outcome (updated : Scenario) : Except HttpResponseError String → Except Raised Scenario
  | .ok _ => .ok updated
  | .error e => .error (.scenario ⟨"", e.text, mapStatus e⟩)

theorem entityData_version (scenario : Scenario) :
    (scenarioToEntityData formats scenario).get? "config_version" = some (.text scenario.configVersion) := by
  cases template : scenario.indexTemplateId <;> simp [scenarioToEntityData, template]

theorem entityData_created (scenario : Scenario) :
    (scenarioToEntityData formats scenario).get? "created_at" = some (.text (formats.isoformat scenario.createdAt)) := by
  cases template : scenario.indexTemplateId <;> simp [scenarioToEntityData, template]

theorem bumpConfigVersion_toString (version : Int) :
    bumpConfigVersion (some (.text (toString version) : Property Json)) = toString (version + 1) := by
  simp only [bumpConfigVersion, int?_toString]

theorem revalidate_valid (scenario : Scenario) : revalidate scenario = .ok () := by
  simp [revalidate, scenario.indexNameValid, scenario.chunkerBounded, scenario.dimensionsConsistent, Bind.bind,
    Except.bind, Except.mapError]

variable {formats} in
theorem Found.createdAt {scenario : Scenario} {existing : Option (EntityRecord Json)} {version : Int}
    {createdAt : DateTime} (found : Found formats scenario existing version createdAt) :
    TableStorageScenarioStore.createdAtOf formats scenario existing = .ok createdAt := by
  cases found with
  | absent => rfl
  | present decodes _ =>
    simp [TableStorageScenarioStore.createdAtOf, Entity.require, Entity.parseDatetime, Property.str, decodes,
      entityData_created, formats.fromisoformat_isoformat, Bind.bind, Except.bind, Except.mapError]

variable {formats} in
theorem Found.version {scenario : Scenario} {existing : Option (EntityRecord Json)} {version : Int}
    {createdAt : DateTime} (found : Found formats scenario existing version createdAt) :
    bumpConfigVersion (existing.bind (·.data.get? "config_version")) = toString (version + 1) := by
  cases found with
  | absent => rfl
  | present decodes numbered =>
    simp only [Option.bind_some, decodes, entityData_version, numbered]
    exact bumpConfigVersion_toString _

/-- What follows once the upsert has read the entity that is there. -/
def submission (scenario : Scenario) (existing : Option (EntityRecord Json)) : StorePy Json Scenario := do
  let configVersion := bumpConfigVersion (existing.bind (·.data.get? "config_version"))
  let createdAt ← StorePy.ofExcept (TableStorageScenarioStore.createdAtOf formats scenario existing)
  let updatedAt ← StorePy.now
  let updated := { scenario with configVersion, createdAt, updatedAt }
  let _ ← StorePy.upsertEntity updated.vertical updated.scenarioId (scenarioToEntityData formats updated)
    (existing.map (·.etag))
  return updated

theorem upsert_run (scenario : Scenario) :
    (TableStorageScenarioStore.upsert formats scenario).run =
      .op (.getEntity scenario.vertical scenario.scenarioId) fun existing =>
        (submission formats scenario existing).run := by
  rw [TableStorageScenarioStore.upsert, revalidate_valid]
  rfl

theorem submission_of_dated {scenario : Scenario} {existing : Option (EntityRecord Json)} {createdAt : DateTime}
    (dated : TableStorageScenarioStore.createdAtOf formats scenario existing = .ok createdAt) :
    (submission formats scenario existing).run = .op .now fun (updatedAt : DateTime) =>
      let updated := { scenario with
        configVersion := bumpConfigVersion (existing.bind (·.data.get? "config_version")), createdAt, updatedAt }
      .op (.upsertEntity scenario.vertical scenario.scenarioId (scenarioToEntityData formats updated)
        (existing.map (·.etag))) fun answer => .ret (outcome updated answer) := by
  rw [submission, dated]
  refine congrArg (Prog.op (S := StoreEffects Json) .now) (funext fun now => ?_)
  refine congrArg (Prog.op (S := StoreEffects Json) _) (funext fun answer => ?_)
  cases answer <;> rfl

variable {formats} in
theorem submission_run {scenario : Scenario} {existing : Option (EntityRecord Json)} {version : Int}
    {createdAt : DateTime} (found : Found formats scenario existing version createdAt) :
    (submission formats scenario existing).run = .op .now fun (now : DateTime) =>
      .op (.upsertEntity scenario.vertical scenario.scenarioId
        (scenarioToEntityData formats (edited scenario (version + 1) createdAt now)) (existing.map (·.etag)))
        fun answer => .ret (outcome (edited scenario (version + 1) createdAt now) answer) := by
  rw [submission_of_dated formats found.createdAt, found.version]
  rfl

abbrev ScenarioTable (Json : Type) := Table (EntityData Json)

abbrev StoreWorld (Json : Type) := TableWorld (EntityData Json)

def queried (table : ScenarioTable Json) (partitionKey rowKey : Option String) : List (EntityRecord Json) :=
  (table.rows.entries.filter fun entry => partitionKey.all (· = entry.1.1) && rowKey.all (· = entry.1.2)).map
    fun entry => Table.recordAt entry.1 entry.2

def removed (table : ScenarioTable Json) (key : String × String) : ScenarioTable Json :=
  { table with rows := table.rows.erase key }

def idealStore (etags : Nat → String) : Handler (StoreEffects Json) (StoreWorld Json) (ScenarioTable Json) :=
  fun w o table =>
    match o with
    | .getEntity partitionKey rowKey => (table.entity partitionKey rowKey, table)
    | .query partitionKey rowKey => (w.arrange (queried table partitionKey rowKey), table)
    | .upsertEntity partitionKey rowKey data etag => table.upsert etags (partitionKey, rowKey) data etag
    | .deleteEntity partitionKey rowKey => ((), removed table (partitionKey, rowKey))
    | .now => (w.now, table)

end Vestibule.Scenarios
