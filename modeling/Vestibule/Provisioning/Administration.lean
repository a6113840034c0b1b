import Vestibule.Provisioning.Conduct

set_option autoImplicit false

namespace Vestibule.Provisioning

open Library

-- Workers of any index names share the registry with administrators, who retire an index at any moment.
-- Nothing is assumed about the order of their steps.

inductive Party where
  | worker (worker : Worker)
  | administrator (indexName : String)

def Party.program : Party → Prog Effects (Except Raised IndexRegistryEntry)
  | worker ⟨provisioner, scenario, fuel⟩ => (provisioner.ensure fuel scenario).run
  | administrator indexName => (Py.registry (.markRetired indexName)).run

variable {ι : Type}

abbrev Office (ι : Type) := Pool Effects (fun _ : ι => Except Raised IndexRegistryEntry) (Shared × Record ι)

def office (parties : ι → Party) : Office ι := ⟨fun i => (parties i).program, ({}, [])⟩

def atWork [DecidableEq ι] (parties : ι → Party) (schedule : List (ι × World)) : Office ι :=
  Pool.runAs (Chronicle.recorded service) schedule (office parties)

def RetiresFinished (record : Record ι) : Prop :=
  ∀ deed ∈ record, ∀ name, deed.op = .registry (.markRetired name) →
    statusOf name deed.before.registry ≠ some .provisioning

theorem RetiresFinished.subset {record more : Record ι} (finished : RetiresFinished more) (within : record ⊆ more) :
    RetiresFinished record := fun deed member => finished deed (within member)

/-- What every party makes sure of before it performs an operation. -/
def Orderly : Op → Prop
  | .registry (.register entry) => entry.status = .provisioning ∧ entry.claimToken ≠ none
  | .registry (.reclaim _ observed newEntry) =>
      observed.status = .provisioning ∧ ∃ token claimedAt, newEntry = observed.claimedBy token claimedAt
  | .registry (.markReady _ expected) => expected ≠ none
  | .registry (.markFailed _ _ expected) => expected ≠ none
  | _ => True

/-- The dimensions and the metric, which no write to an entry changes. -/
def KeepsTerms (old entry : IndexRegistryEntry) : Prop :=
  entry.dimensions = old.dimensions ∧ entry.metric = old.metric

theorem KeepsTerms.trans {first second third : IndexRegistryEntry} (left : KeepsTerms first second)
    (right : KeepsTerms second third) : KeepsTerms first third :=
  ⟨right.1.trans left.1, right.2.trans left.2⟩

inductive Change (name : String) (o : Op) (before after : Option IndexRegistryEntry) : Prop where
  | none (same : after = before)
  | inserted (entry : IndexRegistryEntry) (absent : before = .none) (stored : after = some entry)
      (named : entry.indexName = name) (waiting : entry.status = .provisioning) (claimed : entry.claimToken ≠ .none)
  | reclaimed (old : IndexRegistryEntry) (token : String) (claimedAt : DateTime) (present : before = some old)
      (waiting : old.status = .provisioning) (stored : after = some (old.claimedBy token claimedAt))
  | verified (old : IndexRegistryEntry) (now : DateTime) (present : before = some old)
      (stored : after = some (old.verified now))
  | readied (old : IndexRegistryEntry) (now : DateTime) (present : before = some old) (held : old.claimToken ≠ .none)
      (stored : after = some (old.readied now))
  | failed (old : IndexRegistryEntry) (reason : String) (present : before = some old) (held : old.claimToken ≠ .none)
      (stored : after = some (old.failedWith reason))
  | retired (old : IndexRegistryEntry) (present : before = some old) (stored : after = some old.retired)
      (write : o = .registry (.markRetired name))

section Change

variable {name : String} {o : Op}

-- The four methods that share a body change nothing but the entry that they name.
theorem change_of_amend (registry : InMemoryIndexRegistry) (target : String) (expected : Option String)
    (revise : IndexRegistryEntry → IndexRegistryEntry)
    (revised : ∀ old, registry.get target = some old → expected = none ∨ old.claimToken = expected → target = name →
      Change name o (some old) (some (revise old))) :
    Change name o (registry.get name) ((registry.amend target expected revise).2.get name) := by
  obtain ⟨_, _, same⟩ | ⟨old, present, checked, same⟩ := registry.amend_cases target expected revise
  next =>
    rw [same]
    exact .none rfl
  next =>
    rw [same]
    by_cases hit : target = name
    next =>
      have changed := revised old present checked hit
      subst hit
      simpa [present] using changed
    next => exact .none (by simp [Ne.symm hit])

variable (name) in
theorem change_of_orderly (orderly : Orderly o) (w : World) (s : Shared) :
    Change name o (s.registry.get name) ((service w o s).2.registry.get name) := by
  cases o with
  | registry call =>
    change Change name _ _ ((s.call w call).2.registry.get name)
    rw [Shared.call_registry]
    cases call with
    | get target => exact .none rfl
    | register entry =>
      obtain ⟨waiting, claimed⟩ := orderly
      obtain ⟨_, _, same⟩ | ⟨absent, same⟩ := s.registry.register_cases entry
      next => exact .none (by simp [InMemoryIndexRegistry.perform, same])
      next =>
        by_cases hit : entry.indexName = name
        next =>
          subst hit
          exact .inserted entry absent (by simp [InMemoryIndexRegistry.perform, same]) rfl waiting claimed
        next => exact .none (by simp [InMemoryIndexRegistry.perform, same, Ne.symm hit])
    | reclaim target observed newEntry =>
      obtain ⟨waiting, token, claimedAt, rfl⟩ := orderly
      obtain same | ⟨present, same⟩ := s.registry.reclaim_cases target observed (observed.claimedBy token claimedAt)
      next => exact .none (by simp [InMemoryIndexRegistry.perform, same])
      next =>
        by_cases hit : target = name
        next =>
          subst hit
          exact .reclaimed observed token claimedAt present waiting (by simp [InMemoryIndexRegistry.perform, same])
        next => exact .none (by simp [InMemoryIndexRegistry.perform, same, Ne.symm hit])
    | touchVerified target =>
      exact change_of_amend s.registry target none _ fun old _ _ _ => .verified old w.now rfl rfl
    | markReady target expected =>
      refine change_of_amend s.registry target expected _ fun old _ checked _ => .readied old w.now rfl ?_ rfl
      exact fun cleared => checked.elim orderly fun same => orderly (same.symm.trans cleared)
    | markFailed target reason expected =>
      refine change_of_amend s.registry target expected _ fun old _ checked _ => .failed old reason rfl ?_ rfl
      exact fun cleared => checked.elim orderly fun same => orderly (same.symm.trans cleared)
    | markRetired target =>
      refine change_of_amend s.registry target none _ fun old _ _ hit => .retired old rfl rfl ?_
      rw [hit]
  | _ => exact .none rfl

theorem Change.keepsTerms {before after : Option IndexRegistryEntry} (change : Change name o before after)
    {old : IndexRegistryEntry} (present : before = some old) : ∃ entry, after = some entry ∧ KeepsTerms old entry := by
  cases change with
  | none same => exact ⟨old, same.trans present, rfl, rfl⟩
  | inserted new absent => simp [absent] at present
  | reclaimed current token claimedAt present' _ stored =>
    obtain rfl : current = old := Option.some.inj (present'.symm.trans present)
    exact ⟨_, stored, rfl, rfl⟩
  | verified current time present' stored =>
    obtain rfl : current = old := Option.some.inj (present'.symm.trans present)
    exact ⟨_, stored, rfl, rfl⟩
  | readied current time present' _ stored =>
    obtain rfl : current = old := Option.some.inj (present'.symm.trans present)
    exact ⟨_, stored, rfl, rfl⟩
  | failed current reason present' _ stored =>
    obtain rfl : current = old := Option.some.inj (present'.symm.trans present)
    exact ⟨_, stored, rfl, rfl⟩
  | retired current present' stored =>
    obtain rfl : current = old := Option.some.inj (present'.symm.trans present)
    exact ⟨_, stored, rfl, rfl⟩

end Change

structure Regular (s : Shared × Record ι) : Prop where
  named : ∀ name entry, Stored name entry s.1 → entry.indexName = name
  waiting : ∀ name entry, s.1.registry.get name = some entry → entry.status = .provisioning → entry.claimToken ≠ none
  settled : ∀ name entry, Stored name entry s.1 → entry.status = .ready →
    ∃ current, s.1.registry.get name = some current ∧ (current.status = .ready ∨ current.status = .retired) ∧
      current.claimToken = none
  lasting : ∀ deed ∈ s.2, ∀ name old, deed.after.registry.get name = some old →
    ∃ entry, s.1.registry.get name = some entry ∧ KeepsTerms old entry
  cleared : RetiresFinished s.2 → ∀ name entry, s.1.registry.get name = some entry →
    entry.claimToken ≠ none ∨ entry.resolvedTemplate ≠ none → entry.status = .provisioning

def Closed (name : String) (registry : InMemoryIndexRegistry) : Prop :=
  statusOf name registry = some .retired ∨ statusOf name registry = some .failed

section Step

variable {i : ι} {o : Op} {s : Shared × Record ι}

theorem regular_named (regular : Regular s) (orderly : Orderly o) (w : World) {name : String}
    {entry : IndexRegistryEntry} (stored : Stored name entry (service w o s.1).2) : entry.indexName = name := by
  obtain before | now := stored_cases stored
  next => exact regular.named name entry before
  next =>
    have known (old : IndexRegistryEntry) (present : s.1.registry.get name = some old) :=
      regular.named name old (stored_current present)
    cases change_of_orderly name orderly w s.1 with
    | none same => exact known entry (same.symm.trans now)
    | inserted new absent stored named waiting claimed =>
      obtain rfl : new = entry := Option.some.inj (stored.symm.trans now)
      exact named
    | reclaimed old token claimedAt present waiting stored =>
      obtain rfl := Option.some.inj (stored.symm.trans now)
      exact known old present
    | verified old time present stored =>
      obtain rfl := Option.some.inj (stored.symm.trans now)
      exact known old present
    | readied old time present held stored =>
      obtain rfl := Option.some.inj (stored.symm.trans now)
      exact known old present
    | failed old reason present held stored =>
      obtain rfl := Option.some.inj (stored.symm.trans now)
      exact known old present
    | retired old present stored write =>
      obtain rfl := Option.some.inj (stored.symm.trans now)
      exact known old present

theorem regular_lasting (regular : Regular s) (orderly : Orderly o) (w : World) {deed : Deed Effects ι Shared}
    (member : deed ∈ (Chronicle.recorded service i w o s).2.2) {name : String} {old : IndexRegistryEntry}
    (present : deed.after.registry.get name = some old) :
    ∃ entry, (service w o s.1).2.registry.get name = some entry ∧ KeepsTerms old entry := by
  rcases List.mem_cons.mp member with rfl | earlier
  next => exact ⟨old, present, rfl, rfl⟩
  next =>
    obtain ⟨entry, held, kept⟩ := regular.lasting deed earlier name old present
    obtain ⟨new, stored, same⟩ := (change_of_orderly name orderly w s.1).keepsTerms held
    exact ⟨new, stored, kept.trans same⟩

theorem regular_waiting (regular : Regular s) (orderly : Orderly o) (w : World) {name : String}
    {entry : IndexRegistryEntry} (now : (service w o s.1).2.registry.get name = some entry)
    (waiting : entry.status = .provisioning) : entry.claimToken ≠ none := by
  cases change_of_orderly name orderly w s.1 with
  | none same => exact regular.waiting name entry (same.symm.trans now) waiting
  | inserted new absent stored named _ claimed =>
    obtain rfl : new = entry := Option.some.inj (stored.symm.trans now)
    exact claimed
  | reclaimed old token claimedAt present _ stored =>
    obtain rfl := Option.some.inj (stored.symm.trans now)
    simp [IndexRegistryEntry.claimedBy]
  | verified old time present stored =>
    obtain rfl := Option.some.inj (stored.symm.trans now)
    exact regular.waiting name old present waiting
  | readied old time present held stored =>
    obtain rfl := Option.some.inj (stored.symm.trans now)
    simp [IndexRegistryEntry.readied] at waiting
  | failed old reason present held stored =>
    obtain rfl := Option.some.inj (stored.symm.trans now)
    simp [IndexRegistryEntry.failedWith] at waiting
  | retired old present stored write =>
    obtain rfl := Option.some.inj (stored.symm.trans now)
    simp [IndexRegistryEntry.retired] at waiting

-- What was ready once is ready or retired, and nobody holds a claim on it.
theorem regular_settled (regular : Regular s) (orderly : Orderly o) (w : World) {name : String}
    {entry : IndexRegistryEntry} (stored : Stored name entry (service w o s.1).2) (ready : entry.status = .ready) :
    ∃ current, (service w o s.1).2.registry.get name = some current ∧
      (current.status = .ready ∨ current.status = .retired) ∧ current.claimToken = none := by
  have change := change_of_orderly name orderly w s.1
  obtain before | now := stored_cases stored
  next =>
    obtain ⟨current, present, status, free⟩ := regular.settled name entry before ready
    cases change with
    | none same => exact ⟨current, same.trans present, status, free⟩
    | inserted new absent => simp [absent] at present
    | reclaimed old token claimedAt present' waiting =>
      obtain rfl : old = current := Option.some.inj (present'.symm.trans present)
      simp [waiting] at status
    | verified old time present' stored' =>
      obtain rfl : old = current := Option.some.inj (present'.symm.trans present)
      exact ⟨_, stored', status, free⟩
    | readied old time present' held =>
      obtain rfl : old = current := Option.some.inj (present'.symm.trans present)
      exact (held free).elim
    | failed old reason present' held =>
      obtain rfl : old = current := Option.some.inj (present'.symm.trans present)
      exact (held free).elim
    | retired old present' stored' write =>
      obtain rfl : old = current := Option.some.inj (present'.symm.trans present)
      exact ⟨_, stored', .inr rfl, free⟩
  next =>
    cases change with
    | none same =>
      obtain ⟨current, present, facts⟩ := regular.settled name entry (stored_current (same.symm.trans now)) ready
      exact ⟨current, same.trans present, facts⟩
    | inserted new absent stored' named waiting =>
      obtain rfl : new = entry := Option.some.inj (stored'.symm.trans now)
      simp [waiting] at ready
    | reclaimed old token claimedAt present waiting stored' =>
      obtain rfl := Option.some.inj (stored'.symm.trans now)
      simp [IndexRegistryEntry.claimedBy, waiting] at ready
    | verified old time present stored' =>
      obtain rfl := Option.some.inj (stored'.symm.trans now)
      obtain ⟨current, present', facts⟩ := regular.settled name old (stored_current present) ready
      obtain rfl : old = current := Option.some.inj (present.symm.trans present')
      exact ⟨_, stored', facts⟩
    | readied old time present held stored' =>
      obtain rfl := Option.some.inj (stored'.symm.trans now)
      exact ⟨_, now, .inl rfl, rfl⟩
    | failed old reason present held stored' =>
      obtain rfl := Option.some.inj (stored'.symm.trans now)
      simp [IndexRegistryEntry.failedWith] at ready
    | retired old present stored' write =>
      obtain rfl := Option.some.inj (stored'.symm.trans now)
      simp [IndexRegistryEntry.retired] at ready

theorem regular_cleared (regular : Regular s) (orderly : Orderly o) (w : World)
    (finished : RetiresFinished (Chronicle.recorded service i w o s).2.2) {name : String} {entry : IndexRegistryEntry}
    (now : (service w o s.1).2.registry.get name = some entry)
    (held : entry.claimToken ≠ none ∨ entry.resolvedTemplate ≠ none) : entry.status = .provisioning := by
  have before := regular.cleared (finished.subset (List.subset_cons_self _ _)) name
  cases change_of_orderly name orderly w s.1 with
  | none same => exact before entry (same.symm.trans now) held
  | inserted new absent stored named waiting claimed =>
    obtain rfl : new = entry := Option.some.inj (stored.symm.trans now)
    exact waiting
  | reclaimed old token claimedAt present waiting stored =>
    obtain rfl := Option.some.inj (stored.symm.trans now)
    exact waiting
  | verified old time present stored =>
    obtain rfl := Option.some.inj (stored.symm.trans now)
    exact before old present held
  | readied old time present _ stored =>
    obtain rfl := Option.some.inj (stored.symm.trans now)
    simp [IndexRegistryEntry.readied] at held
  | failed old reason present _ stored =>
    obtain rfl := Option.some.inj (stored.symm.trans now)
    simp [IndexRegistryEntry.failedWith] at held
  | retired old present stored write =>
    obtain rfl := Option.some.inj (stored.symm.trans now)
    have provisioning := before old present held
    have spared := finished _ List.mem_cons_self name write
    simp [statusOf, present, provisioning] at spared

theorem closed_step (regular : Regular s) (orderly : Orderly o) (w : World)
    (finished : RetiresFinished s.2) {name : String} (closed : Closed name s.1.registry) :
    Closed name (service w o s.1).2.registry := by
  have status (old : IndexRegistryEntry) (present : s.1.registry.get name = some old) :
      old.status = .retired ∨ old.status = .failed := by
    simpa [Closed, statusOf, present] using closed
  have unclaimed (old : IndexRegistryEntry) (present : s.1.registry.get name = some old)
      (held : old.claimToken ≠ none) : False := by
    have waiting := regular.cleared finished name old present (.inl held)
    simpa [waiting] using status old present
  cases change_of_orderly name orderly w s.1 with
  | none same => simpa [Closed, statusOf, same] using closed
  | inserted new absent => simp [Closed, statusOf, absent] at closed
  | reclaimed old token claimedAt present waiting => simpa [waiting] using status old present
  | verified old time present stored =>
    simpa [Closed, statusOf, stored, IndexRegistryEntry.verified] using status old present
  | readied old time present held => exact (unclaimed old present held).elim
  | failed old reason present held => exact (unclaimed old present held).elim
  | retired old present stored => simp [Closed, statusOf, stored, IndexRegistryEntry.retired]

theorem regular_step (regular : Regular s) (orderly : Orderly o) (w : World) :
    Regular (Chronicle.recorded service i w o s).2 where
  named _ _ := regular_named regular orderly w
  waiting _ _ := regular_waiting regular orderly w
  settled _ _ := regular_settled regular orderly w
  lasting _ member _ _ := regular_lasting regular orderly w member
  cleared finished _ _ := regular_cleared regular orderly w finished

theorem regular_start (parties : ι → Party) : Regular (office parties).state := by
  have nothing (name : String) : ({} : Shared).registry.get name = none := rfl
  have never (name : String) (entry : IndexRegistryEntry) (stored : Stored name entry {}) : False := by
    simp [Stored, Shared.versions, nothing] at stored
  constructor
  next => exact fun name entry stored => (never name entry stored).elim
  next => simp [office, nothing]
  next => exact fun name entry stored => (never name entry stored).elim
  next => simp [office]
  next => simp [office, nothing]

end Step

theorem grown_refl (s : Shared × Record ι) : Grown s s := ⟨List.Subset.refl _, fun _ member => member⟩

def officeTreaty (ι : Type) : Treaty Effects ι Shared where
  inv := Regular
  rely _ := Grown
  permit _ o _ := Orderly o
  rely_refl _ := grown_refl
  rely_trans _ _ _ _ := Grown.trans

theorem officeTreaty_sustained : (officeTreaty ι).Sustained service where
  kept _ _ w _ regular orderly := regular_step regular orderly w
  tolerated i _ _ o w s _ _ := grown_own i w o s

def touchedEntry : Deed Effects ι Shared → Option IndexRegistryEntry
  | ⟨_, .registry (.touchVerified name), .ok _, before, _⟩ => before.registry.get name
  | _ => none

/-- The entry was retired after the worker had read it. -/
def TouchesRetired (i : ι) (record : Record ι) : Prop :=
  ∃ deed ∈ record, deed.thread = i ∧ ∃ entry, touchedEntry deed = some entry ∧ entry.status = .retired

structure Delivers (i : ι) (name : String) (entry : IndexRegistryEntry) (s : Shared × Record ι) : Prop where
  named : entry.indexName = name
  ready : entry.status = .ready ∨ TouchesRetired i s.2

structure OnFile (name : String) (entry : IndexRegistryEntry) (s : Shared × Record ι) : Prop where
  stored : Stored name entry s.1
  named : entry.indexName = name

section Conduct

variable {α β : Type} {i : ι} {name : String} {s t : Shared × Record ι}
  {ok : α → Shared × Record ι → Prop} {raised : Raised → Shared × Record ι → Prop}

theorem OnFile.grown {entry : IndexRegistryEntry} (onFile : OnFile name entry s) (grown : Grown s t) :
    OnFile name entry t := ⟨onFile.stored.grown grown, onFile.named⟩

theorem Regular.onFile (regular : Regular s) {entry : IndexRegistryEntry} (stored : Stored name entry s.1) :
    OnFile name entry s :=
  ⟨stored, regular.named name entry stored⟩

theorem OnFile.delivers {entry : IndexRegistryEntry} (onFile : OnFile name entry s) (ready : entry.status = .ready)
    (t : Shared × Record ι) : Delivers i name entry t := ⟨onFile.named, .inl ready⟩

def Follows (i : ι) (p : Py α) (ok : α → Shared × Record ι → Prop)
    (raised : Raised → Shared × Record ι → Prop) (s : Shared × Record ι) : Prop :=
  ((officeTreaty ι).contract service i).KeptRun p ok raised s

abbrev Complies (i : ι) (name : String) (p : Py IndexRegistryEntry) (s : Shared × Record ι) : Prop :=
  Follows i p (Delivers i name) (fun _ _ => True) s

theorem follows_bind {p : Py β} {f : β → Py α}
    (kept : Follows i p (fun value => Follows i (f value) ok raised) raised s) :
    Follows i (p >>= f) ok raised s :=
  Contract.keptRun_bind kept

theorem follows_seq {p : Py β} {f : β → Py α} (mid : β → Shared × Record ι → Prop)
    (first : Follows i p mid raised s)
    (rest : ∀ value t, mid value t → Follows i (f value) ok raised t) :
    Follows i (p >>= f) ok raised s :=
  Contract.keptRun_seq first rest

theorem follows_tryCatch {p : Py α} {handle : Raised → Py α}
    (kept : Follows i p ok (fun e => Follows i (handle e) ok raised) s) :
    Follows i (tryCatch p handle) ok raised s :=
  Contract.keptRun_tryCatch kept

theorem follows_pure {value : α} (holds : ∀ t, Grown s t → ok value t) : Follows i (pure value) ok raised s :=
  Contract.keptRun_pure holds

theorem follows_throw {e : Raised} (holds : ∀ t, Grown s t → raised e t) : Follows i (throw e) ok raised s :=
  Contract.keptRun_throw holds

theorem follows_of_result {result : Except Raised α} (holds : ∀ t, Grown s t → Contract.ends ok raised result t) :
    Follows i (ExceptT.mk (.ret result)) ok raised s := holds

theorem follows_op {o : Op} {decode : Op.Res o → Except Raised α} (orderly : Orderly o)
    (continued : ∀ w t, Regular t → Grown s t → ∀ u, Grown (Chronicle.recorded service i w o t).2 u →
      Contract.ends ok raised (decode (service w o t.1).1) u) :
    Follows i (ExceptT.mk (.op o fun answer => .ret (decode answer))) ok raised s := by
  intro t grown regular
  exact ⟨orderly, fun w u more => continued w t regular grown u more⟩

-- Whatever it is answered.
theorem follows_any {o : Op} {decode : Op.Res o → Except Raised α} (orderly : Orderly o)
    (continued : ∀ answer t, Grown s t → Contract.ends ok raised (decode answer) t) :
    Follows i (ExceptT.mk (.op o fun answer => .ret (decode answer))) ok raised s := by
  apply follows_op orderly
  intro w t _ grown u more
  exact continued _ u (grown.trans ((grown_own i w o t).trans more))

theorem follows_get {ok : Option IndexRegistryEntry → Shared × Record ι → Prop}
    (continued : ∀ found t, Grown s t → (∀ entry, found = some entry → OnFile name entry t) → ok found t) :
    Follows i (Py.registry (.get name)) ok raised s := by
  apply follows_op (o := .registry (.get name)) trivial
  intro w t regular grown u more
  have later := (grown_own i w (.registry (.get name)) t).trans more
  refine continued ((t.1.shown w.age).get name) u (grown.trans later) fun entry found => ?_
  exact (regular.onFile ⟨_, t.1.shown_mem w.age, found⟩).grown later

theorem follows_register {ok : IndexRegistryEntry → Shared × Record ι → Prop} {candidate : IndexRegistryEntry}
    (orderly : Orderly (.registry (.register candidate)))
    (continued : ∀ won t, Grown s t → OnFile candidate.indexName won t → ok won t) :
    Follows i (Py.registry (.register candidate)) ok raised s := by
  apply follows_op orderly
  intro w t regular grown u more
  have later := (grown_own i w (.registry (.register candidate)) t).trans more
  have after := regular_step (i := i) regular orderly w
  refine continued (t.1.registry.register candidate).1 u (grown.trans later) ?_
  exact (after.onFile (stored_current (t.1.registry.get_register candidate))).grown more

theorem follows_reclaim {ok : IndexRegistryEntry → Shared × Record ι → Prop} {observed newEntry : IndexRegistryEntry}
    (orderly : Orderly (.registry (.reclaim name observed newEntry)))
    (continued : ∀ t, Grown s t → ok newEntry t) (failed : ∀ e t, Grown s t → raised (.provisioning e) t) :
    Follows i (Py.registry (.reclaim name observed newEntry)) ok raised s := by
  apply follows_op orderly
  intro w t regular grown u more
  have later := grown.trans ((grown_own i w (.registry (.reclaim name observed newEntry)) t).trans more)
  obtain same | ⟨present, same⟩ := t.1.registry.reclaim_cases name observed newEntry
  next =>
    simp only [service, Shared.call, InMemoryIndexRegistry.perform, same, Except.mapError]
    exact failed _ u later
  next =>
    simp only [service, Shared.call, InMemoryIndexRegistry.perform, same, Except.mapError]
    exact continued u later

theorem follows_markReady {won : IndexRegistryEntry} (named : won.indexName = name) (claimed : won.claimToken ≠ none)
    (failed : ∀ e t, Grown s t → raised (.provisioning e) t) :
    Follows i (Py.registry (.markReady won.indexName won.claimToken)) (Delivers i name) raised s := by
  subst named
  apply follows_op (o := .registry (.markReady won.indexName won.claimToken)) claimed
  intro w t regular grown u more
  have later := grown.trans ((grown_own i w (.registry (.markReady won.indexName won.claimToken)) t).trans more)
  obtain ⟨e, _, same⟩ | ⟨current, present, _, same⟩ :=
    t.1.registry.amend_cases won.indexName won.claimToken (·.readied w.now)
  next =>
    simp only [service, Shared.call, InMemoryIndexRegistry.perform, InMemoryIndexRegistry.markReady, same,
      Except.mapError]
    exact failed e u later
  next =>
    simp only [service, Shared.call, InMemoryIndexRegistry.perform, InMemoryIndexRegistry.markReady, same,
      Except.mapError]
    exact ⟨regular.named _ current (stored_current present), .inl rfl⟩

theorem follows_touchVerified {entry : IndexRegistryEntry} (onFile : OnFile name entry s)
    (ready : entry.status = .ready) : Complies i name (Py.registry (.touchVerified entry.indexName)) s := by
  rw [onFile.named]
  apply follows_op (o := .registry (.touchVerified name)) trivial
  intro w t regular grown u more
  obtain ⟨current, present, status, _⟩ := regular.settled name entry (onFile.stored.grown grown) ready
  obtain ⟨e, _, same⟩ | ⟨current', present', _, same⟩ := t.1.registry.amend_cases name none (·.verified w.now)
  next =>
    simp only [service, Shared.call, InMemoryIndexRegistry.perform, InMemoryIndexRegistry.touchVerified, same,
      Except.mapError]
    exact trivial
  next =>
    obtain rfl : current = current' := Option.some.inj (present.symm.trans present')
    simp only [service, Shared.call, InMemoryIndexRegistry.perform, InMemoryIndexRegistry.touchVerified, same,
      Except.mapError]
    refine ⟨regular.named name current (stored_current present), status.imp id fun retired => ?_⟩
    refine ⟨_, more.record List.mem_cons_self, rfl, current, ?_, retired⟩
    simp only [service, Shared.call, InMemoryIndexRegistry.perform, InMemoryIndexRegistry.touchVerified, same]
    exact present

variable {provisioner : IndexProvisioner} {scenario : IndexScenario} {entry : IndexRegistryEntry}

theorem follows_absorbConflict {ok : Unit → Shared × Record ι → Prop} {won : IndexRegistryEntry} {reason : String}
    (claimed : won.claimToken ≠ none) (continued : ∀ t, Grown s t → ok () t) :
    Follows i (absorbConflict (Py.registry (.markFailed won.indexName reason won.claimToken))) ok
      (fun _ _ => True) s := by
  apply follows_tryCatch
  apply follows_bind
  apply follows_any (o := .registry (.markFailed won.indexName reason won.claimToken)) claimed
  intro answer t grown
  cases answer with
  | ok entry => exact follows_pure fun u more => continued u (grown.trans more)
  | error e =>
    by_cases conflict : e.errorCode = indexProvisionConflict
    next =>
      simp only [Except.mapError, Contract.ends, conflict, ne_eq, not_true_eq_false, if_false]
      exact follows_pure fun u more => continued u (grown.trans more)
    next =>
      simp only [Except.mapError, Contract.ends, conflict, ne_eq, not_false_eq_true, if_true]
      exact follows_throw fun _ _ => trivial

theorem follows_timeTest {time : Option DateTime} {test : DateTime → DateTime → Bool}
    {ok : Bool → Shared × Record ι → Prop} (continued : ∀ passed t, Grown s t → ok passed t) :
    Follows i (IndexProvisioner.timeTest time test) ok raised s := by
  cases time with
  | none => exact follows_pure fun t grown => continued _ t grown
  | some time =>
    apply follows_bind
    apply follows_any (o := .clock) trivial
    exact fun now t grown => follows_pure fun u more => continued _ u (grown.trans more)

theorem handleReady_complies (onFile : OnFile name entry s) (ready : entry.status = .ready) :
    Complies i name (provisioner.handleReady scenario entry) s := by
  apply follows_bind
  apply follows_timeTest
  intro recent t grown
  cases recent with
  | true => exact follows_pure fun u _ => onFile.delivers ready u
  | false =>
    apply follows_bind
    apply follows_of_result
    intro u more
    cases provisioner.resolveTemplate scenario with
    | error e => trivial
    | ok resolved =>
      apply follows_bind
      apply follows_any (o := .describeIndex entry.indexName) trivial
      intro answer v later
      have onFile := onFile.grown (grown.trans (more.trans later))
      cases callAdapter entry.indexName answer with
      | error e => trivial
      | ok description =>
        apply follows_bind
        apply follows_of_result
        intro x latest
        cases IndexProvisioner.drifted entry resolved.1 resolved.2.1 resolved.2.2 description with
        | error e => trivial
        | ok drift =>
          cases drift with
          | true => exact follows_throw fun _ _ => trivial
          | false => exact follows_touchVerified (onFile.grown latest) ready

theorem follows_createFor {ok : Unit → Shared × Record ι → Prop} {won : IndexRegistryEntry}
    (claimed : won.claimToken ≠ none) (continued : ∀ t, Grown s t → ok () t) :
    Follows i (IndexProvisioner.createFor won) ok (fun _ _ => True) s := by
  simp only [IndexProvisioner.createFor]
  split
  next => exact follows_throw fun _ _ => trivial
  next template _ =>
    apply follows_tryCatch
    apply follows_any (o := .createIndex won.indexName template won.dimensions won.metric) trivial
    intro answer t grown
    cases callAdapter won.indexName answer with
    | ok => exact continued t grown
    | error e =>
      cases e with
      | provisioning e =>
        apply follows_bind
        exact follows_absorbConflict claimed fun _ _ => follows_throw fun _ _ => trivial
      | other text => exact follows_throw fun _ _ => trivial
      | unfinished => exact follows_throw fun _ _ => trivial

theorem follows_tryReclaim {ok : Option IndexRegistryEntry → Shared × Record ι → Prop} {observed : IndexRegistryEntry}
    (waiting : observed.status = .provisioning)
    (won : ∀ token claimedAt t, Grown s t → ok (some (observed.claimedBy token claimedAt)) t)
    (lost : ∀ t, Grown s t → ok none t) :
    Follows i (IndexProvisioner.tryReclaim observed) ok (fun _ _ => True) s := by
  apply follows_bind
  apply follows_any (o := .newClaimToken) trivial
  intro token t drawn
  apply follows_bind
  apply follows_any (o := .clock) trivial
  intro claimedAt u told
  have later := drawn.trans told
  apply follows_tryCatch
  apply follows_bind
  apply follows_reclaim ⟨waiting, token, claimedAt, rfl⟩
  next => exact fun v more => follows_pure fun x latest => won token claimedAt x (later.trans (more.trans latest))
  next =>
    intro e v more
    by_cases conflict : e.errorCode = indexProvisionConflict
    next =>
      simp only [conflict, if_true]
      exact follows_pure fun x latest => lost x (later.trans (more.trans latest))
    next =>
      simp only [conflict, if_false]
      exact follows_throw fun _ _ => trivial

structure Compliant (provisioner : IndexProvisioner) (scenario : IndexScenario) (i : ι) (fuel : Nat) :
    Prop where
  claimNew : ∀ {s}, Complies i scenario.indexName (provisioner.claimNew fuel scenario) s
  claimAndCreate : ∀ {won s}, won.indexName = scenario.indexName → won.claimToken ≠ none →
    Complies i scenario.indexName (provisioner.claimAndCreate fuel scenario won) s
  finalizeReady : ∀ {won s}, won.indexName = scenario.indexName → won.claimToken ≠ none →
    Complies i scenario.indexName (provisioner.finalizeReady fuel scenario won) s
  afterLosingClaim : ∀ {entry s}, OnFile scenario.indexName entry s →
    Complies i scenario.indexName (provisioner.afterLosingClaim fuel scenario entry) s
  waitForReady : ∀ {entry s}, OnFile scenario.indexName entry s → entry.status = .provisioning →
    Complies i scenario.indexName (provisioner.waitForReady fuel scenario entry) s
  waitLoop : ∀ {deadline current s}, OnFile scenario.indexName current s → current.status = .provisioning →
    Complies i scenario.indexName (provisioner.waitLoop fuel scenario scenario.indexName deadline current) s

theorem compliant_zero : Compliant provisioner scenario i 0 where
  claimNew := follows_throw fun _ _ => trivial
  claimAndCreate _ _ := follows_throw fun _ _ => trivial
  finalizeReady _ _ := follows_throw fun _ _ => trivial
  afterLosingClaim _ := follows_throw fun _ _ => trivial
  waitForReady _ _ := follows_throw fun _ _ => trivial
  waitLoop _ _ := follows_throw fun _ _ => trivial

section Successor

variable {fuel : Nat} (flows : Compliant provisioner scenario i fuel)

include flows

theorem claimNew_complies :
    Complies i scenario.indexName (provisioner.claimNew (fuel + 1) scenario) s := by
  simp only [IndexProvisioner.claimNew]
  split
  next =>
    apply follows_bind
    apply follows_of_result
    intro t _
    cases resolved : provisioner.resolveTemplate scenario with
    | error e => trivial
    | ok resolution =>
      obtain ⟨template, dimensions, metric⟩ := resolution
      apply follows_bind
      apply follows_any (o := .clock) trivial
      intro (now : DateTime) t _
      apply follows_bind
      apply follows_any (o := .newClaimToken) trivial
      intro (token : String) t _
      have orderly : Orderly (.registry (.register
          (IndexProvisioner.candidate scenario template dimensions metric now token))) :=
        ⟨rfl, by simp [IndexProvisioner.candidate]⟩
      apply follows_bind
      apply follows_register orderly
      intro won t _ onFile
      by_cases mine : won.claimToken = some token
      next =>
        simp only [mine, if_true]
        exact flows.claimAndCreate onFile.named (by simp [mine])
      next =>
        simp only [mine, if_false]
        exact flows.afterLosingClaim onFile
  next => exact follows_throw fun _ _ => trivial

theorem claimAndCreate_complies {won : IndexRegistryEntry} (named : won.indexName = scenario.indexName)
    (claimed : won.claimToken ≠ none) :
    Complies i scenario.indexName (provisioner.claimAndCreate (fuel + 1) scenario won) s := by
  simp only [IndexProvisioner.claimAndCreate]
  apply follows_bind
  apply follows_any (o := .indexExists won.indexName) trivial
  intro answer t _
  cases callAdapter won.indexName answer with
  | error e => trivial
  | ok alreadyExists =>
    apply follows_seq (fun _ _ => True)
    next =>
      cases alreadyExists with
      | true => exact follows_pure fun _ _ => trivial
      | false => exact follows_createFor claimed fun _ _ => trivial
    next =>
      intro _ t _
      apply follows_bind
      apply follows_any (o := .describeIndex won.indexName) trivial
      intro answer u _
      cases callAdapter won.indexName answer with
      | error e => trivial
      | ok description =>
        by_cases agrees : description = some ⟨won.dimensions, won.metric⟩
        next =>
          simp only [Contract.ends, agrees, ne_eq, not_true_eq_false, if_false]
          exact flows.finalizeReady named claimed
        next =>
          simp only [Contract.ends, agrees, ne_eq, not_false_eq_true, if_true]
          apply follows_bind
          exact follows_absorbConflict claimed fun _ _ => follows_throw fun _ _ => trivial

theorem finalizeReady_complies {won : IndexRegistryEntry} (named : won.indexName = scenario.indexName)
    (claimed : won.claimToken ≠ none) :
    Complies i scenario.indexName (provisioner.finalizeReady (fuel + 1) scenario won) s := by
  simp only [IndexProvisioner.finalizeReady]
  apply follows_tryCatch
  apply follows_markReady named claimed
  intro e t _
  by_cases conflict : e.errorCode = indexProvisionConflict
  next =>
    simp only [conflict, ne_eq, not_true_eq_false, if_false]
    apply follows_bind
    rw [named]
    apply follows_get
    intro found u _ known
    cases found with
    | none => exact flows.claimNew
    | some entry => exact flows.afterLosingClaim (known entry rfl)
  next =>
    simp only [conflict, ne_eq, not_false_eq_true, if_true]
    exact follows_throw fun _ _ => trivial

theorem afterLosingClaim_complies (onFile : OnFile scenario.indexName entry s) :
    Complies i scenario.indexName (provisioner.afterLosingClaim (fuel + 1) scenario entry) s := by
  simp only [IndexProvisioner.afterLosingClaim]
  split
  next ready => exact follows_pure fun t _ => onFile.delivers ready t
  next waiting => exact flows.waitForReady onFile waiting
  next => exact follows_throw fun _ _ => trivial
  next => exact follows_throw fun _ _ => trivial

theorem waitForReady_complies (onFile : OnFile scenario.indexName entry s)
    (waiting : entry.status = .provisioning) :
    Complies i scenario.indexName (provisioner.waitForReady (fuel + 1) scenario entry) s := by
  simp only [IndexProvisioner.waitForReady, onFile.named]
  apply follows_bind
  apply follows_any (o := .clock) trivial
  intro now t grown
  exact flows.waitLoop (onFile.grown grown) waiting

theorem waitLoop_complies {deadline : DateTime} {current : IndexRegistryEntry}
    (onFile : OnFile scenario.indexName current s) (waiting : current.status = .provisioning) :
    Complies i scenario.indexName
      (provisioner.waitLoop (fuel + 1) scenario scenario.indexName deadline current) s := by
  simp only [IndexProvisioner.waitLoop]
  apply follows_bind
  apply follows_timeTest
  intro stale t _
  -- A claim that was taken over is one of this index, with a token.
  apply follows_seq fun reclaimed _ => ∀ entry, reclaimed = some entry →
    entry.indexName = scenario.indexName ∧ entry.claimToken ≠ none
  next =>
    cases stale with
    | false => exact follows_pure fun _ _ _ taken => (Option.some_ne_none _ taken.symm).elim
    | true =>
      apply follows_tryReclaim waiting
      next =>
        rintro token claimedAt u _ entry taken
        obtain rfl := Option.some.inj taken
        exact ⟨onFile.named, by simp [IndexRegistryEntry.claimedBy]⟩
      next => exact fun _ _ _ taken => (Option.some_ne_none _ taken.symm).elim
  next =>
    intro reclaimed t known
    cases reclaimed with
    | some entry => exact flows.claimAndCreate (known entry rfl).1 (known entry rfl).2
    | none =>
      apply follows_bind
      apply follows_any (o := .clock) trivial
      intro now u _
      simp only [Contract.ends]
      split
      next => exact follows_throw fun _ _ => trivial
      next =>
        apply follows_bind
        apply follows_any (o := .sleep _) trivial
        intro _ v _
        apply follows_bind
        apply follows_get
        intro found x _ known
        cases found with
        | none => exact flows.claimNew
        | some entry =>
          by_cases still : entry.status = .provisioning
          next =>
            simp only [still, ne_eq, not_true_eq_false, if_false]
            exact flows.waitLoop (known entry rfl) still
          next =>
            simp only [still, ne_eq, not_false_eq_true, if_true]
            exact flows.afterLosingClaim (known entry rfl)

end Successor

theorem compliant (i : ι) (fuel : Nat) :
    Compliant provisioner scenario i fuel := by
  induction fuel with
  | zero => exact compliant_zero
  | succ fuel ih =>
    constructor
    next => exact claimNew_complies ih
    next => exact claimAndCreate_complies ih
    next => exact finalizeReady_complies ih
    next => exact afterLosingClaim_complies ih
    next => exact waitForReady_complies ih
    next => exact waitLoop_complies ih

theorem ensure_complies (fuel : Nat) :
    Complies i scenario.indexName (provisioner.ensure fuel scenario) s := by
  have flows : Compliant provisioner scenario i fuel := compliant i fuel
  apply follows_bind
  apply follows_get
  intro found t _ known
  cases found with
  | none => exact flows.claimNew
  | some entry =>
    have onFile := known entry rfl
    simp only [IndexProvisioner.dispatchExisting]
    split
    next ready => exact handleReady_complies onFile ready
    next waiting => exact flows.waitForReady onFile waiting
    next => exact follows_throw fun _ _ => trivial
    next => exact follows_throw fun _ _ => trivial

end Conduct

def Party.Delivered (i : ι) : Party → Except Raised IndexRegistryEntry → Shared × Record ι → Prop
  | worker w, .ok entry, s => Delivers i w.scenario.indexName entry s
  | _, _, _ => True

theorem party_complies (party : Party) (i : ι) (s : Shared × Record ι) :
    ((officeTreaty ι).contract service i).Kept party.program (party.Delivered i) s := by
  cases party with
  | worker w =>
    refine Contract.kept_mono (fun result t ended => ?_) (ensure_complies w.fuel)
    cases result with
    | ok entry => exact ended
    | error e => exact trivial
  | administrator name =>
    intro t _ _
    exact ⟨trivial, fun _ _ _ => trivial⟩

variable [DecidableEq ι]

theorem office_lawful (parties : ι → Party) (schedule : List (ι × World)) :
    Chronicle.Each ((officeTreaty ι).Lawful service) (atWork parties schedule).state.2 ∧
      Regular (atWork parties schedule).state ∧
      ∀ i, ((officeTreaty ι).contract service i).Kept ((atWork parties schedule).threads i)
        ((parties i).Delivered i) (atWork parties schedule).state :=
  Treaty.lawful_run officeTreaty_sustained (c := office parties) rfl (regular_start parties)
    (fun i => party_complies (parties i) i _) schedule

end Vestibule.Provisioning
