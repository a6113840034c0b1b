import Mathlib.Data.List.Perm.Subperm
import Vestibule.Library.Rely
import Vestibule.Provisioning.Provisioner

set_option autoImplicit false

namespace Vestibule.Provisioning

open Library

-- Any number of workers run `ensure` on scenarios of one index name. The run is recorded, and what a worker
-- may count on, and has to promise, is said in terms of that record.

-- A read through a cache may show any version that the registry has gone through.

structure Shared where
  registry : InMemoryIndexRegistry := {}
  past : List InMemoryIndexRegistry := []

structure World where
  now : DateTime := 0
  claimToken : String := ""
  age : Nat := 0
  existing : Except AdapterError Bool := .ok false
  created : Except AdapterError Unit := .ok ()
  description : Except AdapterError (Option IndexDescription) := .ok none

namespace Shared

def versions (s : Shared) : List InMemoryIndexRegistry := s.registry :: s.past

def shown (s : Shared) (age : Nat) : InMemoryIndexRegistry := s.versions.getD age s.registry

def call (s : Shared) (w : World) (call : RegistryCall) : call.Res × Shared :=
  match call with
  | .get indexName => (.ok ((s.shown w.age).get indexName), s)
  | call =>
      let (result, registry) := s.registry.perform w.now call
      (result, { registry, past := s.versions })

@[simp]
theorem call_registry (s : Shared) (w : World) (call : RegistryCall) :
    (s.call w call).2.registry = (s.registry.perform w.now call).2 := by
  cases call <;> rfl

theorem call_error (s : Shared) (w : World) (call : RegistryCall) {e : ProvisioningError}
    (rejected : (s.call w call).1 = .error e) : (s.call w call).2.registry = s.registry := by
  have failed : (s.registry.perform w.now call).1 = .error e := by
    cases call with
    | get indexName => simp [Shared.call] at rejected
    | _ => exact rejected
  rw [call_registry]
  exact (s.registry.perform_error w.now call e failed).1

theorem shown_mem (s : Shared) (age : Nat) : s.shown age ∈ s.versions := by
  by_cases within : age < s.versions.length
  next => simp [shown, within]
  next =>
    have beyond : s.shown age = s.registry := by
      simp [shown, List.getElem?_eq_none (Nat.le_of_not_lt within)]
    simp [beyond, versions]

end Shared

def service : Handler Effects World Shared := fun w o s =>
  match o with
  | .registry call => s.call w call
  | .clock => (w.now, s)
  | .newClaimToken => (w.claimToken, s)
  | .sleep _ => ((), s)
  | .indexExists _ => (w.existing, s)
  | .createIndex _ _ _ _ => (w.created, s)
  | .describeIndex _ => (w.description, s)

variable {ι : Type}

abbrev Record (ι : Type) := Chronicle Effects ι Shared

structure Worker where
  provisioner : IndexProvisioner
  scenario : IndexScenario
  fuel : Nat

def fleet (workers : ι → Worker) :
    Pool Effects (fun _ : ι => Except Raised IndexRegistryEntry) (Shared × Record ι) where
  threads i := ((workers i).provisioner.ensure (workers i).fuel (workers i).scenario).run
  state := ({}, [])

def recordOf [DecidableEq ι] (workers : ι → Worker) (schedule : List (ι × World)) : Record ι :=
  (Pool.runAs (Chronicle.recorded service) schedule (fleet workers)).state.2

def issued : Deed Effects ι Shared → Option String
  | ⟨_, .newClaimToken, token, _, _⟩ => some token
  | _ => none

def stamped : Deed Effects ι Shared → Option String
  | ⟨_, .registry (.register entry), _, _, _⟩ => entry.claimToken
  | ⟨_, .registry (.reclaim _ _ newEntry), _, _, _⟩ => newEntry.claimToken
  | _ => none

def shownEntry : Deed Effects ι Shared → Option IndexRegistryEntry
  | ⟨_, .registry (.get _), .ok entry, _, _⟩ => entry
  | ⟨_, .registry (.register _), .ok entry, _, _⟩ => some entry
  | _ => none

def inserted : Deed Effects ι Shared → Option IndexRegistryEntry
  | ⟨_, .registry (.register entry), _, before, _⟩ =>
      if before.registry.get entry.indexName = none then some entry else none
  | _ => none

/-- What a `reclaim` that went through was given: the observed entry and the new one. -/
def reclaimed : Deed Effects ι Shared → Option (IndexRegistryEntry × IndexRegistryEntry)
  | ⟨_, .registry (.reclaim _ observed newEntry), .ok _, _, _⟩ => some (observed, newEntry)
  | _ => none

def reclaims (deed : Deed Effects ι Shared) : Bool := (reclaimed deed).isSome

/-- A `register` that was answered with the candidate's own token, or a `reclaim` that went through. -/
def claims : Deed Effects ι Shared → Bool
  | ⟨_, .registry (.register entry), .ok won, _, _⟩ => won.claimToken = entry.claimToken
  | deed => reclaims deed

def creates : Deed Effects ι Shared → Bool
  | ⟨_, .createIndex _ _ _ _, _, _, _⟩ => true
  | _ => false

def described (indexName : String) : Deed Effects ι Shared → Option IndexDescription
  | ⟨_, .describeIndex described, .ok description, _, _⟩ => if described = indexName then description else none
  | _ => none

variable (i : ι) (record : Record ι)

def Issued (token : String) : Prop := ∃ deed ∈ record, deed.thread = i ∧ issued deed = some token

def Spent (token : String) : Prop := ∃ deed ∈ record, deed.thread = i ∧ stamped deed = some token

def Shown (entry : IndexRegistryEntry) : Prop := ∃ deed ∈ record, deed.thread = i ∧ shownEntry deed = some entry

def Described (indexName : String) (description : IndexDescription) : Prop :=
  ∃ deed ∈ record, described indexName deed = some description

def rejection : Deed Effects ι Shared → Option ProvisioningError
  | ⟨_, .registry _, .error e, _, _⟩ => some e
  | _ => none

def ClaimTokensUnique : Prop := (record.filterMap issued).Nodup

instance : Decidable (ClaimTokensUnique record) := inferInstanceAs (Decidable (List.Nodup _))

def winners : List IndexRegistryEntry := record.filterMap inserted

def creators : List ι := (record.filter creates).map (·.thread)

def claimants : List ι := (record.filter claims).map (·.thread)

def Stored (indexName : String) (entry : IndexRegistryEntry) (s : Shared) : Prop :=
  ∃ registry ∈ s.versions, registry.get indexName = some entry

def statusOf (indexName : String) (registry : InMemoryIndexRegistry) : Option IndexStatus :=
  (registry.get indexName).map (·.status)

def Neutral (deed : Deed Effects ι Shared) : Prop :=
  stamped deed = none ∧ claims deed = false ∧ creates deed = false

structure Later (i : ι) (s t : Shared × Record ι) : Prop where
  grown : ∃ more, t.2 = more ++ s.2 ∧ ∀ deed ∈ more, deed.thread = i → Neutral deed
  versions : ∀ registry ∈ s.1.versions, registry ∈ t.1.versions

/-- Comes from the candidate that was inserted: in flight with its template, or finished without one. -/
structure Descends (candidate entry : IndexRegistryEntry) : Prop where
  indexName : entry.indexName = candidate.indexName
  createdAt : entry.createdAt = candidate.createdAt
  dimensions : entry.dimensions = candidate.dimensions
  metric : entry.metric = candidate.metric
  phase : (entry.status = .provisioning ∧ entry.resolvedTemplate = candidate.resolvedTemplate ∧
      entry.claimToken ≠ none) ∨
    ((entry.status = .ready ∨ entry.status = .failed) ∧ entry.resolvedTemplate = none ∧ entry.claimToken = none)

structure Unclaimed (indexName : String) (s : Shared × Record ι) : Prop where
  nobody : winners s.2 = []
  absent : ∀ entry, ¬ Stored indexName entry s.1

structure Founded (indexName : String) (candidate : IndexRegistryEntry) (s : Shared × Record ι) : Prop where
  only : winners s.2 = [candidate]
  named : candidate.indexName = indexName
  template : candidate.resolvedTemplate ≠ none
  present : s.1.registry.get indexName ≠ none
  descends : ∀ entry, Stored indexName entry s.1 → Descends candidate entry

namespace Descends

variable {candidate entry : IndexRegistryEntry}

theorem waiting_of_claimed (descends : Descends candidate entry) {token : String}
    (held : entry.claimToken = some token) : entry.status = .provisioning := by
  obtain ⟨waiting, _⟩ | ⟨_, _, cleared⟩ := descends.phase
  next => exact waiting
  next => simp [cleared] at held

theorem template (descends : Descends candidate entry) {template : IndexTemplate}
    (carried : entry.resolvedTemplate = some template) : candidate.resolvedTemplate = some template := by
  obtain ⟨_, same, _⟩ | ⟨_, cleared, _⟩ := descends.phase
  next => exact same ▸ carried
  next => simp [cleared] at carried

theorem self (waiting : candidate.status = .provisioning) (claimed : candidate.claimToken ≠ none) :
    Descends candidate candidate :=
  ⟨rfl, rfl, rfl, rfl, .inl ⟨waiting, rfl, claimed⟩⟩

theorem claimedBy (descends : Descends candidate entry) (waiting : entry.status = .provisioning) (token : String)
    (claimedAt : DateTime) : Descends candidate (entry.claimedBy token claimedAt) := by
  obtain ⟨_, same, _⟩ | ⟨finished, _⟩ := descends.phase
  next =>
    exact ⟨descends.indexName, descends.createdAt, descends.dimensions, descends.metric,
      .inl ⟨waiting, same, by simp [IndexRegistryEntry.claimedBy]⟩⟩
  next => simp [waiting] at finished

theorem verified (descends : Descends candidate entry) (now : DateTime) :
    Descends candidate (entry.verified now) :=
  ⟨descends.indexName, descends.createdAt, descends.dimensions, descends.metric, descends.phase⟩

theorem readied (descends : Descends candidate entry) (now : DateTime) : Descends candidate (entry.readied now) :=
  ⟨descends.indexName, descends.createdAt, descends.dimensions, descends.metric, .inr ⟨.inl rfl, rfl, rfl⟩⟩

theorem failedWith (descends : Descends candidate entry) (reason : String) :
    Descends candidate (entry.failedWith reason) :=
  ⟨descends.indexName, descends.createdAt, descends.dimensions, descends.metric, .inr ⟨.inr rfl, rfl, rfl⟩⟩

end Descends

theorem later_refl (i : ι) (s : Shared × Record ι) : Later i s s :=
  ⟨⟨[], by simp⟩, fun _ member => member⟩

theorem later_trans {i : ι} {s t u : Shared × Record ι} (first : Later i s t) (second : Later i t u) :
    Later i s u := by
  obtain ⟨⟨more, same, own⟩, kept⟩ := first
  obtain ⟨⟨most, same', own'⟩, kept'⟩ := second
  refine ⟨⟨most ++ more, by simp [same, same'], fun deed member mine => ?_⟩, fun registry member => ?_⟩
  next =>
    rcases List.mem_append.mp member with late | early
    next => exact own' deed late mine
    next => exact own deed early mine
  next => exact kept' registry (kept registry member)

variable [DecidableEq ι]

/-- What worker `i` makes sure of before it performs an operation. -/
def Permit (indexName : String) (i : ι) (o : Op) (s : Shared × Record ι) : Prop :=
  match o with
  | .registry (.register entry) =>
      entry.indexName = indexName ∧ entry.status = .provisioning ∧ entry.resolvedTemplate ≠ none ∧
        ∃ token, entry.claimToken = some token ∧ Issued i s.2 token ∧
          (ClaimTokensUnique s.2 → ¬ Spent i s.2 token)
  | .registry (.reclaim name observed newEntry) =>
      name = indexName ∧ observed.status = .provisioning ∧ Shown i s.2 observed ∧
        ∃ token claimedAt, newEntry = observed.claimedBy token claimedAt ∧
          Issued i s.2 token
  | .registry (.markReady name expected) =>
      name = indexName ∧ ∃ token, expected = some token ∧ Issued i s.2 token ∧
        ∃ won, Stored indexName won s.1 ∧ Described s.2 indexName ⟨won.dimensions, won.metric⟩
  | .registry (.markFailed name _ expected) =>
      name = indexName ∧ ∃ token, expected = some token ∧ Issued i s.2 token
  | .registry (.touchVerified name) => name = indexName
  | .registry (.markRetired _) => False
  | .createIndex name template dimensions metric =>
      name = indexName ∧ (creators s.2).count i < (claimants s.2).count i ∧
        ∃ won, Stored indexName won s.1 ∧ won.resolvedTemplate = some template ∧
          won.dimensions = dimensions ∧ won.metric = metric
  | _ => True

structure Sound (indexName : String) (s : Shared × Record ι) : Prop where
  lineage : Unclaimed indexName s ∨ ∃ candidate, Founded indexName candidate s
  listed : ∀ deed ∈ s.2, deed.before.registry ∈ s.1.versions ∧ deed.after.registry ∈ s.1.versions
  spent : ∀ entry token, Stored indexName entry s.1 → entry.claimToken = some token → ∃ i, Spent i s.2 token
  issued : ∀ i token, Spent i s.2 token → Issued i s.2 token
  settled : ∀ deed ∈ s.2, ∀ status, statusOf indexName deed.after.registry = some status →
    status ≠ .provisioning → statusOf indexName s.1.registry = some status
  budget : ∀ i, (creators s.2).count i ≤ (claimants s.2).count i

def treaty (ι : Type) [DecidableEq ι] (indexName : String) : Treaty Effects ι Shared where
  inv := Sound indexName
  rely := Later
  permit := Permit indexName
  rely_refl := later_refl
  rely_trans _ := later_trans

inductive Move (indexName : String) (earlier : Record ι) (deed : Deed Effects ι Shared) : Prop where
  | quiet (same : deed.after.registry.get indexName = deed.before.registry.get indexName)
      (elsewhere : inserted deed = none)
  | inserted (candidate : IndexRegistryEntry) (absent : deed.before.registry.get indexName = none)
      (stored : deed.after.registry.get indexName = some candidate) (noted : inserted deed = some candidate)
      (carried : stamped deed = candidate.claimToken) (named : candidate.indexName = indexName)
      (waiting : candidate.status = .provisioning) (template : candidate.resolvedTemplate ≠ none)
      (claimed : candidate.claimToken ≠ none)
  | reclaimed (observed : IndexRegistryEntry) (token : String) (claimedAt : DateTime)
      (present : deed.before.registry.get indexName = some observed) (waiting : observed.status = .provisioning)
      (stored : deed.after.registry.get indexName = some (observed.claimedBy token claimedAt))
      (elsewhere : inserted deed = none) (carried : stamped deed = some token)
  | verified (entry : IndexRegistryEntry) (now : DateTime)
      (present : deed.before.registry.get indexName = some entry)
      (stored : deed.after.registry.get indexName = some (entry.verified now)) (elsewhere : inserted deed = none)
  | readied (entry : IndexRegistryEntry) (now : DateTime) (token : String)
      (present : deed.before.registry.get indexName = some entry) (held : entry.claimToken = some token)
      (owner : Issued deed.thread earlier token)
      (stored : deed.after.registry.get indexName = some (entry.readied now)) (elsewhere : inserted deed = none)
      (write : deed.op = .registry (.markReady indexName (some token)))
      (checked : ∃ won, Stored indexName won deed.before ∧ Described earlier indexName ⟨won.dimensions, won.metric⟩)
  | failed (entry : IndexRegistryEntry) (reason token : String)
      (present : deed.before.registry.get indexName = some entry) (held : entry.claimToken = some token)
      (owner : Issued deed.thread earlier token)
      (stored : deed.after.registry.get indexName = some (entry.failedWith reason)) (elsewhere : inserted deed = none)
      (write : deed.op = .registry (.markFailed indexName reason (some token)))

theorem move_of_permit {indexName : String} {i : ι} {o : Op} {s : Shared × Record ι}
    (permitted : Permit indexName i o s) (w : World) :
    Move indexName s.2 ⟨i, o, (service w o s.1).1, s.1, (service w o s.1).2⟩ := by
  cases o with
  | registry call =>
    cases call with
    | get name => exact .quiet rfl rfl
    | register entry =>
      obtain ⟨named, waiting, template, token, carried, _⟩ := permitted
      obtain ⟨existing, found, same⟩ | ⟨absent, same⟩ := s.1.registry.register_cases entry
      next =>
        apply Move.quiet
        next => simp [service, InMemoryIndexRegistry.perform, same]
        next => simp [inserted, found]
      next =>
        apply Move.inserted entry (by simpa [named] using absent)
        next => simp [service, InMemoryIndexRegistry.perform, same, named]
        next => simp [inserted, absent]
        next => rfl
        next => exact named
        next => exact waiting
        next => exact template
        next => simp [carried]
    | reclaim name observed newEntry =>
      obtain ⟨rfl, waiting, _, token, claimedAt, rfl, _⟩ := permitted
      obtain same | ⟨present, same⟩ := s.1.registry.reclaim_cases name observed (observed.claimedBy token claimedAt)
      next =>
        apply Move.quiet
        next => simp [service, InMemoryIndexRegistry.perform, same]
        next => rfl
      next =>
        apply Move.reclaimed observed token claimedAt present waiting
        next => simp [service, InMemoryIndexRegistry.perform, same]
        next => rfl
        next => rfl
    | touchVerified name =>
      obtain rfl : name = indexName := permitted
      obtain ⟨e, _, same⟩ | ⟨current, present, _, same⟩ := s.1.registry.amend_cases name none (·.verified w.now)
      next =>
        apply Move.quiet
        next => simp [service, InMemoryIndexRegistry.perform, InMemoryIndexRegistry.touchVerified, same]
        next => rfl
      next =>
        apply Move.verified current w.now present
        next => simp [service, InMemoryIndexRegistry.perform, InMemoryIndexRegistry.touchVerified, same]
        next => rfl
    | markReady name expected =>
      obtain ⟨rfl, token, rfl, owner, checked⟩ := permitted
      obtain ⟨e, _, same⟩ | ⟨current, present, held, same⟩ :=
        s.1.registry.amend_cases name (some token) (·.readied w.now)
      next =>
        apply Move.quiet
        next => simp [service, InMemoryIndexRegistry.perform, InMemoryIndexRegistry.markReady, same]
        next => rfl
      next =>
        apply Move.readied current w.now token present (by simpa using held) owner
        next => simp [service, InMemoryIndexRegistry.perform, InMemoryIndexRegistry.markReady, same]
        next => rfl
        next => rfl
        next => exact checked
    | markFailed name reason expected =>
      obtain ⟨rfl, token, rfl, owner⟩ := permitted
      obtain ⟨e, _, same⟩ | ⟨current, present, held, same⟩ :=
        s.1.registry.amend_cases name (some token) (·.failedWith reason)
      next =>
        apply Move.quiet
        next => simp [service, InMemoryIndexRegistry.perform, InMemoryIndexRegistry.markFailed, same]
        next => rfl
      next =>
        apply Move.failed current reason token present (by simpa using held) owner
        next => simp [service, InMemoryIndexRegistry.perform, InMemoryIndexRegistry.markFailed, same]
        next => rfl
        next => rfl
    | markRetired name => exact permitted.elim
  | clock => exact .quiet rfl rfl
  | newClaimToken => exact .quiet rfl rfl
  | sleep interval => exact .quiet rfl rfl
  | indexExists name => exact .quiet rfl rfl
  | createIndex name template dimensions metric => exact .quiet rfl rfl
  | describeIndex name => exact .quiet rfl rfl

theorem service_versions (w : World) (o : Op) (s : Shared) :
    (service w o s).2.versions = s.versions ∨
      (service w o s).2.versions = (service w o s).2.registry :: s.versions := by
  cases o with
  | registry call =>
    cases call with
    | get name => exact .inl rfl
    | _ => exact .inr rfl
  | _ => exact .inl rfl

theorem versions_kept (w : World) (o : Op) (s : Shared) {registry : InMemoryIndexRegistry}
    (member : registry ∈ s.versions) : registry ∈ (service w o s).2.versions := by
  obtain same | same := service_versions w o s
  next => rwa [same]
  next =>
    rw [same]
    exact List.mem_cons_of_mem _ member

theorem stored_cases {indexName : String} {entry : IndexRegistryEntry} {s : Shared} {w : World} {o : Op}
    (stored : Stored indexName entry (service w o s).2) :
    Stored indexName entry s ∨ (service w o s).2.registry.get indexName = some entry := by
  obtain ⟨registry, member, found⟩ := stored
  obtain same | same := service_versions w o s
  next => exact .inl ⟨registry, same ▸ member, found⟩
  next =>
    rw [same] at member
    rcases List.mem_cons.mp member with rfl | old
    next => exact .inr found
    next => exact .inl ⟨registry, old, found⟩

theorem stored_current {indexName : String} {entry : IndexRegistryEntry} {s : Shared}
    (found : s.registry.get indexName = some entry) : Stored indexName entry s :=
  ⟨s.registry, List.mem_cons_self .., found⟩

section Step

variable {indexName : String} {i : ι} {o : Op} {s : Shared × Record ι}

omit [DecidableEq ι] in
-- The entry is replaced by one of the same descent.
theorem Founded.replaced {candidate old new : IndexRegistryEntry} (founded : Founded indexName candidate s)
    {w : World} (elsewhere : inserted ⟨i, o, (service w o s.1).1, s.1, (service w o s.1).2⟩ = none)
    (present : s.1.registry.get indexName = some old)
    (stored : (service w o s.1).2.registry.get indexName = some new)
    (inherits : Descends candidate old → Descends candidate new) :
    Founded indexName candidate (Chronicle.recorded service i w o s).2 where
  only := by simpa [winners, Chronicle.recorded, List.filterMap_cons, elsewhere] using founded.only
  named := founded.named
  template := founded.template
  present := by simp [Chronicle.recorded, stored]
  descends := by
    intro entry held
    obtain before | now := stored_cases held
    next => exact founded.descends entry before
    next =>
      obtain rfl : new = entry := Option.some.inj (stored.symm.trans now)
      exact inherits (founded.descends old (stored_current present))

theorem Sound.founded (sound : Sound indexName s) {entry : IndexRegistryEntry} (stored : Stored indexName entry s.1) :
    ∃ candidate, Founded indexName candidate s := by
  obtain unclaimed | founded := sound.lineage
  next => exact (unclaimed.absent entry stored).elim
  next => exact founded

theorem lineage_step (sound : Sound indexName s) (permitted : Permit indexName i o s) (w : World) :
    Unclaimed indexName (Chronicle.recorded service i w o s).2 ∨
      ∃ candidate, Founded indexName candidate (Chronicle.recorded service i w o s).2 := by
  cases move_of_permit permitted w with
  | quiet same elsewhere =>
    obtain unclaimed | ⟨candidate, founded⟩ := sound.lineage
    next =>
      left
      constructor
      next => simpa [winners, Chronicle.recorded, List.filterMap_cons, elsewhere] using unclaimed.nobody
      next =>
        intro entry held
        obtain before | now := stored_cases held
        next => exact unclaimed.absent entry before
        next => exact unclaimed.absent entry (stored_current (same.symm.trans now))
    next =>
      obtain ⟨entry, found⟩ := Option.ne_none_iff_exists'.mp founded.present
      exact .inr ⟨candidate, founded.replaced elsewhere found (same.trans found) id⟩
  | inserted candidate absent stored noted carried named waiting template claimed =>
    obtain unclaimed | ⟨_, founded⟩ := sound.lineage
    next =>
      right
      refine ⟨candidate, ?_, named, template, by simp [Chronicle.recorded, stored], fun entry held => ?_⟩
      next => simp [winners, Chronicle.recorded, noted, show s.2.filterMap inserted = [] from unclaimed.nobody]
      next =>
        obtain before | now := stored_cases held
        next => exact (unclaimed.absent entry before).elim
        next =>
          obtain rfl : candidate = entry := Option.some.inj (stored.symm.trans now)
          exact Descends.self waiting claimed
    next => exact (founded.present absent).elim
  | reclaimed observed token claimedAt present waiting stored elsewhere carried =>
    obtain ⟨candidate, founded⟩ := sound.founded (stored_current present)
    exact .inr ⟨candidate, founded.replaced elsewhere present stored fun descends =>
      descends.claimedBy waiting token claimedAt⟩
  | verified entry now present stored elsewhere =>
    obtain ⟨candidate, founded⟩ := sound.founded (stored_current present)
    exact .inr ⟨candidate, founded.replaced elsewhere present stored fun descends => descends.verified now⟩
  | readied entry now token present held owner stored elsewhere write checked =>
    obtain ⟨candidate, founded⟩ := sound.founded (stored_current present)
    exact .inr ⟨candidate, founded.replaced elsewhere present stored fun descends => descends.readied now⟩
  | failed entry reason token present held owner stored elsewhere write =>
    obtain ⟨candidate, founded⟩ := sound.founded (stored_current present)
    exact .inr ⟨candidate, founded.replaced elsewhere present stored fun descends => descends.failedWith reason⟩

theorem listed_step (sound : Sound indexName s) (w : World) :
    ∀ deed ∈ (Chronicle.recorded service i w o s).2.2,
      deed.before.registry ∈ (service w o s.1).2.versions ∧ deed.after.registry ∈ (service w o s.1).2.versions := by
  intro deed member
  rcases List.mem_cons.mp member with rfl | old
  next => exact ⟨versions_kept w o s.1 (List.mem_cons_self ..), List.mem_cons_self ..⟩
  next =>
    obtain ⟨before, after⟩ := sound.listed deed old
    exact ⟨versions_kept w o s.1 before, versions_kept w o s.1 after⟩

omit [DecidableEq ι] in
theorem Spent.kept {j : ι} {token : String} {record : Record ι} (deed : Deed Effects ι Shared)
    (spent : Spent j record token) : Spent j (deed :: record) token := by
  obtain ⟨old, member, facts⟩ := spent
  exact ⟨old, List.mem_cons_of_mem _ member, facts⟩

theorem spent_step (sound : Sound indexName s) (permitted : Permit indexName i o s) (w : World)
    {entry : IndexRegistryEntry} {token : String} (stored : Stored indexName entry (service w o s.1).2)
    (held : entry.claimToken = some token) : ∃ j, Spent j (Chronicle.recorded service i w o s).2.2 token := by
  have earlier {entry : IndexRegistryEntry} (stored : Stored indexName entry s.1)
      (held : entry.claimToken = some token) : ∃ j, Spent j (Chronicle.recorded service i w o s).2.2 token := by
    obtain ⟨j, spent⟩ := sound.spent entry token stored held
    exact ⟨j, spent.kept _⟩
  obtain before | now := stored_cases stored
  next => exact earlier before held
  next =>
    cases move_of_permit permitted w with
    | quiet same elsewhere => exact earlier (stored_current (same.symm.trans now)) held
    | inserted candidate absent stored noted carried named waiting template claimed =>
      obtain rfl : candidate = entry := Option.some.inj (stored.symm.trans now)
      exact ⟨i, _, List.mem_cons_self .., rfl, carried.trans held⟩
    | reclaimed observed newToken claimedAt present waiting stored elsewhere carried =>
      obtain rfl : observed.claimedBy newToken claimedAt = entry := Option.some.inj (stored.symm.trans now)
      exact ⟨i, _, List.mem_cons_self .., rfl, carried.trans held⟩
    | verified old time present stored elsewhere =>
      obtain rfl : old.verified time = entry := Option.some.inj (stored.symm.trans now)
      exact earlier (stored_current present) held
    | readied old time oldToken present oldHeld owner stored elsewhere write checked =>
      obtain rfl : old.readied time = entry := Option.some.inj (stored.symm.trans now)
      simp [IndexRegistryEntry.readied] at held
    | failed old reason oldToken present oldHeld owner stored elsewhere write =>
      obtain rfl : old.failedWith reason = entry := Option.some.inj (stored.symm.trans now)
      simp [IndexRegistryEntry.failedWith] at held

theorem issued_of_stamped (permitted : Permit indexName i o s) {answer : Op.Res o} {before after : Shared}
    {token : String} (carried : stamped ⟨i, o, answer, before, after⟩ = some token) : Issued i s.2 token := by
  cases o with
  | registry call =>
    cases call with
    | register entry =>
      obtain ⟨_, _, _, own, same, owner, _⟩ := permitted
      obtain rfl : own = token := Option.some.inj (same.symm.trans carried)
      exact owner
    | reclaim name observed newEntry =>
      obtain ⟨_, _, _, own, claimedAt, rfl, owner⟩ := permitted
      obtain rfl : own = token := Option.some.inj carried
      exact owner
    | _ => simp [stamped] at carried
  | _ => simp [stamped] at carried

theorem status_kept (sound : Sound indexName s) (permitted : Permit indexName i o s) (w : World)
    {status : IndexStatus} (current : statusOf indexName s.1.registry = some status)
    (finished : status ≠ .provisioning) : statusOf indexName (service w o s.1).2.registry = some status := by
  obtain ⟨entry, found, rfl⟩ := Option.map_eq_some_iff.mp current
  obtain ⟨candidate, founded⟩ := sound.founded (stored_current found)
  have descends := founded.descends entry (stored_current found)
  cases move_of_permit permitted w with
  | quiet same elsewhere => exact (congrArg _ same).trans current
  | inserted candidate absent stored noted carried named waiting template claimed =>
    simp [absent] at found
  | reclaimed observed token claimedAt present waiting stored elsewhere carried =>
    obtain rfl : observed = entry := Option.some.inj (present.symm.trans found)
    exact (finished waiting).elim
  | verified old now present stored elsewhere =>
    obtain rfl : old = entry := Option.some.inj (present.symm.trans found)
    exact congrArg _ stored
  | readied old now token present held owner stored elsewhere write checked =>
    obtain rfl : old = entry := Option.some.inj (present.symm.trans found)
    exact (finished (descends.waiting_of_claimed held)).elim
  | failed old reason token present held owner stored elsewhere write =>
    obtain rfl : old = entry := Option.some.inj (present.symm.trans found)
    exact (finished (descends.waiting_of_claimed held)).elim

omit [DecidableEq ι] in
theorem creators_cons (deed : Deed Effects ι Shared) (record : Record ι) :
    creators (deed :: record) = if creates deed then deed.thread :: creators record else creators record := by
  by_cases yes : creates deed <;> simp [creators, yes]

omit [DecidableEq ι] in
theorem claimants_cons (deed : Deed Effects ι Shared) (record : Record ι) :
    claimants (deed :: record) = if claims deed then deed.thread :: claimants record else claimants record := by
  by_cases yes : claims deed <;> simp [claimants, yes]

theorem claimants_grow (deed : Deed Effects ι Shared) (record : Record ι) (j : ι) :
    (claimants record).count j ≤ (claimants (deed :: record)).count j := by
  rw [claimants_cons]
  split
  next => exact List.count_le_count_cons
  next => exact Nat.le_refl _

theorem budget_of_creates (permitted : Permit indexName i o s) {answer : Op.Res o} {before after : Shared}
    (creating : creates ⟨i, o, answer, before, after⟩) : (creators s.2).count i < (claimants s.2).count i := by
  cases o with
  | createIndex name template dimensions metric => exact permitted.2.1
  | _ => simp [creates] at creating

theorem budget_step (sound : Sound indexName s) (permitted : Permit indexName i o s) (w : World) (j : ι) :
    (creators (Chronicle.recorded service i w o s).2.2).count j ≤
      (claimants (Chronicle.recorded service i w o s).2.2).count j := by
  have grown := claimants_grow ⟨i, o, (service w o s.1).1, s.1, (service w o s.1).2⟩ s.2 j
  have before := sound.budget j
  simp only [Chronicle.recorded, creators_cons]
  split
  next creating =>
    have room := budget_of_creates permitted creating
    by_cases same : j = i
    next =>
      subst same
      rw [List.count_cons_self]
      omega
    next =>
      rw [List.count_cons_of_ne (Ne.symm same)]
      omega
  next => omega

theorem sound_step (sound : Sound indexName s) (permitted : Permit indexName i o s) (w : World) :
    Sound indexName (Chronicle.recorded service i w o s).2 where
  lineage := lineage_step sound permitted w
  listed := listed_step sound w
  spent entry token := spent_step sound permitted w
  issued := by
    intro j token spent
    obtain ⟨deed, member, mine, carried⟩ := spent
    have owner : Issued j s.2 token := by
      rcases List.mem_cons.mp member with rfl | old
      next =>
        obtain rfl : i = j := mine
        exact issued_of_stamped permitted carried
      next => exact sound.issued j token ⟨deed, old, mine, carried⟩
    obtain ⟨source, found, facts⟩ := owner
    exact ⟨source, List.mem_cons_of_mem _ found, facts⟩
  settled := by
    intro deed member status reached finished
    rcases List.mem_cons.mp member with rfl | old
    next => exact reached
    next => exact status_kept sound permitted w (sound.settled deed old status reached finished) finished
  budget := budget_step sound permitted w

theorem treaty_sustained (indexName : String) : (treaty ι indexName).Sustained service where
  kept _ _ w _ sound permitted := sound_step sound permitted w
  tolerated := by
    intro i j other o w s _ _
    refine ⟨⟨[_], rfl, fun deed member mine => ?_⟩, fun registry member => versions_kept w o s.1 member⟩
    obtain rfl := List.mem_singleton.mp member
    exact (other mine.symm).elim

theorem sound_start (workers : ι → Worker) (indexName : String) : Sound indexName (fleet workers).state where
  lineage := .inl ⟨rfl, by simp [Stored, fleet, Shared.versions, InMemoryIndexRegistry.get]⟩
  listed := by simp [fleet]
  spent := by simp [Stored, fleet, Shared.versions, InMemoryIndexRegistry.get]
  issued := by simp [Spent, fleet]
  settled := by simp [fleet]
  budget := by simp [fleet, creators]

end Step

end Vestibule.Provisioning
