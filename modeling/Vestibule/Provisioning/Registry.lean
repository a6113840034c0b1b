import Vestibule.Provisioning.Model

set_option autoImplicit false

namespace Vestibule.Provisioning

open Library

-- Every method of the in-memory registry holds one lock from its first line to its last, so each call is
-- one atomic operation on the dictionary.

inductive RegistryCall where
  | get (indexName : String)
  | register (entry : IndexRegistryEntry)
  | reclaim (indexName : String) (observed newEntry : IndexRegistryEntry)
  | touchVerified (indexName : String)
  | markReady (indexName : String) (expectedClaimToken : Option String)
  | markFailed (indexName reason : String) (expectedClaimToken : Option String)
  | markRetired (indexName : String)
  deriving DecidableEq

def RegistryCall.Value : RegistryCall → Type
  | get _ => Option IndexRegistryEntry
  | _ => IndexRegistryEntry

abbrev RegistryCall.Res (call : RegistryCall) : Type := Except ProvisioningError call.Value

namespace IndexRegistryEntry

def claimedBy (claimToken : String) (claimedAt : DateTime) (entry : IndexRegistryEntry) : IndexRegistryEntry :=
  { entry with claimToken := some claimToken, claimedAt := some claimedAt }

def verified (now : DateTime) (entry : IndexRegistryEntry) : IndexRegistryEntry :=
  { entry with lastVerifiedAt := some now }

def readied (now : DateTime) (entry : IndexRegistryEntry) : IndexRegistryEntry :=
  { entry with status := .ready, lastVerifiedAt := some now, claimToken := none, claimedAt := none,
               resolvedTemplate := none }

def failedWith (reason : String) (entry : IndexRegistryEntry) : IndexRegistryEntry :=
  { entry with status := .failed, lastErrorMessage := some reason, claimToken := none, claimedAt := none,
               resolvedTemplate := none }

def retired (entry : IndexRegistryEntry) : IndexRegistryEntry := { entry with status := .retired }

end IndexRegistryEntry

def staleSnapshot (indexName : String) : ProvisioningError :=
  ⟨indexName, "reclaim observed a stale snapshot; the stored entry has since changed", indexProvisionConflict⟩

def noEntry (indexName : String) : ProvisioningError :=
  ⟨indexName, "no registry entry exists for index_name", indexProvisionConflict⟩

def tokenMismatch (indexName : String) : ProvisioningError :=
  ⟨indexName, "claim_token no longer matches the stored entry (superseded by a reclaim or a concurrent finalization)",
    indexProvisionConflict⟩

def checkClaimToken (current : IndexRegistryEntry) (expectedClaimToken : Option String) :
    Except ProvisioningError Unit :=
  if expectedClaimToken ≠ none ∧ current.claimToken ≠ expectedClaimToken then
    .error (tokenMismatch current.indexName)
  else .ok ()

theorem checkClaimToken_ok {current : IndexRegistryEntry} {expected : Option String}
    (passed : checkClaimToken current expected = .ok ()) : expected = none ∨ current.claimToken = expected := by
  simp only [checkClaimToken] at passed
  split at passed
  next => simp at passed
  next accepted =>
    by_cases skipped : expected = none
    next => exact .inl skipped
    next => exact .inr (by simpa [skipped] using accepted)

theorem checkClaimToken_error {current : IndexRegistryEntry} {expected : Option String} {e : ProvisioningError}
    (failed : checkClaimToken current expected = .error e) : e = tokenMismatch current.indexName := by
  simp only [checkClaimToken] at failed
  split at failed
  next => exact (Except.error.inj failed).symm
  next => simp at failed

structure InMemoryIndexRegistry where
  entries : Dict String IndexRegistryEntry := .empty
  deriving DecidableEq

namespace InMemoryIndexRegistry

def get (registry : InMemoryIndexRegistry) (indexName : String) : Option IndexRegistryEntry :=
  registry.entries.get? indexName

def listByVertical (registry : InMemoryIndexRegistry) (vertical : String) : List IndexRegistryEntry :=
  registry.entries.values.filter (·.vertical = vertical)

def set (registry : InMemoryIndexRegistry) (indexName : String) (entry : IndexRegistryEntry) :
    InMemoryIndexRegistry :=
  ⟨registry.entries.insert indexName entry⟩

@[simp]
theorem get_set (registry : InMemoryIndexRegistry) (indexName other : String) (entry : IndexRegistryEntry) :
    (registry.set indexName entry).get other = if other = indexName then some entry else registry.get other :=
  Dict.get?_insert registry.entries indexName other entry

def register (registry : InMemoryIndexRegistry) (entry : IndexRegistryEntry) :
    IndexRegistryEntry × InMemoryIndexRegistry :=
  match registry.get entry.indexName with
  | some existing => (existing, registry)
  | none => (entry, registry.set entry.indexName entry)

def reclaim (registry : InMemoryIndexRegistry) (indexName : String) (observed newEntry : IndexRegistryEntry) :
    Except ProvisioningError IndexRegistryEntry × InMemoryIndexRegistry :=
  if registry.get indexName ≠ some observed then (.error (staleSnapshot indexName), registry)
  else (.ok newEntry, registry.set indexName newEntry)

def require (registry : InMemoryIndexRegistry) (indexName : String) : Except ProvisioningError IndexRegistryEntry :=
  match registry.get indexName with
  | none => .error (noEntry indexName)
  | some current => .ok current

-- The body the four methods below share; with no expected token nothing is checked.
def amend (registry : InMemoryIndexRegistry) (indexName : String) (expectedClaimToken : Option String)
    (revise : IndexRegistryEntry → IndexRegistryEntry) :
    Except ProvisioningError IndexRegistryEntry × InMemoryIndexRegistry :=
  match registry.require indexName with
  | .error e => (.error e, registry)
  | .ok current =>
      match checkClaimToken current expectedClaimToken with
      | .error e => (.error e, registry)
      | .ok () => (.ok (revise current), registry.set indexName (revise current))

def touchVerified (registry : InMemoryIndexRegistry) (now : DateTime) (indexName : String) :=
  registry.amend indexName none (·.verified now)

def markReady (registry : InMemoryIndexRegistry) (now : DateTime) (indexName : String)
    (expectedClaimToken : Option String) :=
  registry.amend indexName expectedClaimToken (·.readied now)

def markFailed (registry : InMemoryIndexRegistry) (indexName reason : String)
    (expectedClaimToken : Option String) :=
  registry.amend indexName expectedClaimToken (·.failedWith reason)

def markRetired (registry : InMemoryIndexRegistry) (indexName : String) :=
  registry.amend indexName none (·.retired)

/-- `now` is what `datetime.now` gives within the call. -/
def perform (registry : InMemoryIndexRegistry) (now : DateTime) :
    (call : RegistryCall) → call.Res × InMemoryIndexRegistry
  | .get indexName => (.ok (registry.get indexName), registry)
  | .register entry => (.ok (registry.register entry).1, (registry.register entry).2)
  | .reclaim indexName observed newEntry => registry.reclaim indexName observed newEntry
  | .touchVerified indexName => registry.touchVerified now indexName
  | .markReady indexName expected => registry.markReady now indexName expected
  | .markFailed indexName reason expected => registry.markFailed indexName reason expected
  | .markRetired indexName => registry.markRetired indexName

variable (registry : InMemoryIndexRegistry)

theorem register_cases (entry : IndexRegistryEntry) :
    (∃ existing, registry.get entry.indexName = some existing ∧ registry.register entry = (existing, registry)) ∨
    (registry.get entry.indexName = none ∧
      registry.register entry = (entry, registry.set entry.indexName entry)) := by
  cases found : registry.get entry.indexName with
  | none => exact .inr ⟨rfl, by simp [register, found]⟩
  | some existing => exact .inl ⟨existing, rfl, by simp [register, found]⟩

theorem get_register (entry : IndexRegistryEntry) :
    (registry.register entry).2.get entry.indexName = some (registry.register entry).1 := by
  obtain ⟨existing, found, same⟩ | ⟨_, same⟩ := registry.register_cases entry
  next => rw [same, found]
  next => simp [same]

theorem reclaim_cases (indexName : String) (observed newEntry : IndexRegistryEntry) :
    registry.reclaim indexName observed newEntry = (.error (staleSnapshot indexName), registry) ∨
    (registry.get indexName = some observed ∧
      registry.reclaim indexName observed newEntry = (.ok newEntry, registry.set indexName newEntry)) := by
  by_cases same : registry.get indexName = some observed
  next => exact .inr ⟨same, by simp [reclaim, same]⟩
  next => exact .inl (by simp [reclaim, same])

theorem amend_cases (indexName : String) (expected : Option String)
    (revise : IndexRegistryEntry → IndexRegistryEntry) :
    (∃ e, e.errorCode = indexProvisionConflict ∧ registry.amend indexName expected revise = (.error e, registry)) ∨
    ∃ current, registry.get indexName = some current ∧ (expected = none ∨ current.claimToken = expected) ∧
      registry.amend indexName expected revise = (.ok (revise current), registry.set indexName (revise current)) := by
  cases found : registry.get indexName with
  | none => exact .inl ⟨noEntry indexName, rfl, by simp [amend, require, found]⟩
  | some current =>
    cases checked : checkClaimToken current expected with
    | error e =>
      obtain rfl := checkClaimToken_error checked
      exact .inl ⟨tokenMismatch current.indexName, rfl, by simp [amend, require, found, checked]⟩
    | ok =>
      exact .inr ⟨current, rfl, checkClaimToken_ok checked, by simp [amend, require, found, checked]⟩

theorem perform_error (now : DateTime) (call : RegistryCall) (e : ProvisioningError)
    (rejected : (registry.perform now call).1 = .error e) :
    (registry.perform now call).2 = registry ∧ e.errorCode = indexProvisionConflict := by
  have amended (indexName : String) (expected : Option String) (revise : IndexRegistryEntry → IndexRegistryEntry)
      (rejected : (registry.amend indexName expected revise).1 = .error e) :
      (registry.amend indexName expected revise).2 = registry ∧ e.errorCode = indexProvisionConflict := by
    obtain ⟨e', code, same⟩ | ⟨_, _, _, same⟩ := registry.amend_cases indexName expected revise
    next =>
      rw [same] at rejected ⊢
      obtain rfl := Except.error.inj rejected
      exact ⟨rfl, code⟩
    next => simp [same] at rejected
  cases call with
  | get indexName => simp [perform] at rejected
  | register entry => simp [perform] at rejected
  | reclaim indexName observed newEntry =>
    simp only [perform] at rejected ⊢
    obtain same | ⟨_, same⟩ := registry.reclaim_cases indexName observed newEntry
    next =>
      rw [same] at rejected ⊢
      obtain rfl := Except.error.inj rejected
      exact ⟨rfl, rfl⟩
    next => simp [same] at rejected
  | touchVerified indexName => exact amended indexName none _ rejected
  | markReady indexName expected => exact amended indexName expected _ rejected
  | markFailed indexName reason expected => exact amended indexName expected _ rejected
  | markRetired indexName => exact amended indexName none _ rejected

end InMemoryIndexRegistry

end Vestibule.Provisioning
