import Vestibule.Provisioning.Fleet

set_option autoImplicit false

namespace Vestibule.Provisioning

open Library

-- What a worker knows stays true while the others go on: the entries it was shown, the tokens it drew, the
-- descriptions it received. That is enough at each of its writes.

variable {ι : Type} {i : ι} {indexName : String} {s t : Shared × Record ι}

structure Grown (s t : Shared × Record ι) : Prop where
  record : s.2 ⊆ t.2
  versions : ∀ registry ∈ s.1.versions, registry ∈ t.1.versions

theorem Later.toGrown (later : Later i s t) : Grown s t where
  record := by
    obtain ⟨more, same, _⟩ := later.grown
    rw [same]
    exact List.subset_append_right more s.2
  versions := later.versions

theorem grown_own (i : ι) (w : World) (o : Op) (t : Shared × Record ι) :
    Grown t (Chronicle.recorded service i w o t).2 :=
  ⟨List.subset_cons_self _ _, fun _ member => versions_kept w o t.1 member⟩

theorem Grown.trans {u : Shared × Record ι} (first : Grown s t) (second : Grown t u) : Grown s u :=
  ⟨List.Subset.trans first.record second.record,
    fun registry member => second.versions registry (first.versions registry member)⟩

theorem later_own {w : World} {o : Op}
    (neutral : Neutral (⟨i, o, (service w o t.1).1, t.1, (service w o t.1).2⟩ : Deed Effects ι Shared)) :
    Later i t (Chronicle.recorded service i w o t).2 := by
  refine ⟨⟨[_], rfl, fun deed member _ => ?_⟩, fun registry member => versions_kept w o t.1 member⟩
  obtain rfl := List.mem_singleton.mp member
  exact neutral

structure Knows (indexName : String) (i : ι) (entry : IndexRegistryEntry) (s : Shared × Record ι) : Prop where
  shown : Shown i s.2 entry
  named : entry.indexName = indexName

structure Holds (indexName : String) (i : ι) (entry : IndexRegistryEntry) (s : Shared × Record ι) : Prop where
  stored : Stored indexName entry s.1
  named : entry.indexName = indexName
  token : ∃ token, entry.claimToken = some token ∧ Issued i s.2 token

theorem Issued.mono {record more : Record ι} {token : String} (issued : Issued i record token)
    (within : record ⊆ more) : Issued i more token := by
  obtain ⟨deed, member, facts⟩ := issued
  exact ⟨deed, within member, facts⟩

theorem Issued.grown {token : String} (issued : Issued i s.2 token) (grown : Grown s t) : Issued i t.2 token :=
  issued.mono grown.record

theorem Described.grown {description : IndexDescription} (described : Described s.2 indexName description)
    (grown : Grown s t) : Described t.2 indexName description := by
  obtain ⟨deed, member, facts⟩ := described
  exact ⟨deed, grown.record member, facts⟩

theorem Stored.grown {entry : IndexRegistryEntry} (stored : Stored indexName entry s.1) (grown : Grown s t) :
    Stored indexName entry t.1 := by
  obtain ⟨registry, member, found⟩ := stored
  exact ⟨registry, grown.versions registry member, found⟩

theorem Knows.grown {entry : IndexRegistryEntry} (knows : Knows indexName i entry s) (grown : Grown s t) :
    Knows indexName i entry t := by
  obtain ⟨⟨deed, member, facts⟩, named⟩ := knows
  exact ⟨⟨deed, grown.record member, facts⟩, named⟩

theorem Holds.grown {entry : IndexRegistryEntry} (holds : Holds indexName i entry s) (grown : Grown s t) :
    Holds indexName i entry t := by
  obtain ⟨token, held, issued⟩ := holds.token
  exact ⟨holds.stored.grown grown, holds.named, token, held, issued.grown grown⟩

theorem Later.not_spent {token : String} (later : Later i s t) (unspent : ¬ Spent i s.2 token) :
    ¬ Spent i t.2 token := by
  obtain ⟨⟨more, same, neutral⟩, _⟩ := later
  rintro ⟨deed, member, mine, carried⟩
  rw [same] at member
  rcases List.mem_append.mp member with new | old
  next => simp [(neutral deed new mine).1] at carried
  next => exact unspent ⟨deed, old, mine, carried⟩

theorem Later.unique (later : Later i s t) (unique : ClaimTokensUnique t.2) : ClaimTokensUnique s.2 := by
  obtain ⟨⟨more, same, _⟩, _⟩ := later
  rw [ClaimTokensUnique, same, List.filterMap_append] at unique
  exact unique.of_append_right

variable [DecidableEq ι]

/-- As many creations as claims at most, so far. -/
def Even (i : ι) (s : Shared × Record ι) : Prop := (creators s.2).count i ≤ (claimants s.2).count i

/-- A claim of the worker's own is still to be made good. -/
def Entitled (i : ι) (s : Shared × Record ι) : Prop := (creators s.2).count i < (claimants s.2).count i

theorem Later.counts (later : Later i s t) :
    (creators t.2).count i = (creators s.2).count i ∧ (claimants t.2).count i = (claimants s.2).count i := by
  obtain ⟨⟨more, same, neutral⟩, _⟩ := later
  rw [same]
  clear same
  induction more with
  | nil => exact ⟨rfl, rfl⟩
  | cons deed rest ih =>
    obtain ⟨created, claimed⟩ := ih fun deed member => neutral deed (List.mem_cons_of_mem _ member)
    rw [List.cons_append, creators_cons, claimants_cons]
    by_cases mine : deed.thread = i
    next =>
      obtain ⟨_, noClaim, noCreate⟩ := neutral deed (List.mem_cons_self ..) mine
      simp [noClaim, noCreate, created, claimed]
    next =>
      split <;> split <;> simp [List.count_cons_of_ne mine, created, claimed]

theorem Even.later (even : Even i s) (later : Later i s t) : Even i t := by
  obtain ⟨created, claimed⟩ := later.counts
  simpa [Even, created, claimed] using even

theorem Entitled.later (entitled : Entitled i s) (later : Later i s t) : Entitled i t := by
  obtain ⟨created, claimed⟩ := later.counts
  simpa [Entitled, created, claimed] using entitled

theorem Entitled.even (entitled : Entitled i s) : Even i s := Nat.le_of_lt entitled

/-- Worker `i` keeps the treaty from `s` on, and ends with `ok` or with `raised`. -/
def Obeys (indexName : String) (i : ι) {α : Type} (p : Py α) (ok : α → Shared × Record ι → Prop)
    (raised : Raised → Shared × Record ι → Prop) (s : Shared × Record ι) : Prop :=
  ((treaty ι indexName).contract service i).KeptRun p ok raised s

variable {α β : Type} {ok : α → Shared × Record ι → Prop} {raised : Raised → Shared × Record ι → Prop}

theorem obeys_bind {p : Py β} {f : β → Py α}
    (kept : Obeys indexName i p (fun value => Obeys indexName i (f value) ok raised) raised s) :
    Obeys indexName i (p >>= f) ok raised s :=
  Contract.keptRun_bind kept

theorem obeys_seq {p : Py β} {f : β → Py α} (mid : β → Shared × Record ι → Prop)
    (first : Obeys indexName i p mid raised s)
    (rest : ∀ value t, mid value t → Obeys indexName i (f value) ok raised t) :
    Obeys indexName i (p >>= f) ok raised s :=
  Contract.keptRun_seq first rest

theorem obeys_tryCatch {p : Py α} {handle : Raised → Py α}
    (kept : Obeys indexName i p ok (fun e => Obeys indexName i (handle e) ok raised) s) :
    Obeys indexName i (tryCatch p handle) ok raised s :=
  Contract.keptRun_tryCatch kept

theorem obeys_pure {value : α} (holds : ∀ t, Later i s t → ok value t) :
    Obeys indexName i (pure value) ok raised s :=
  Contract.keptRun_pure holds

theorem obeys_throw {e : Raised} (holds : ∀ t, Later i s t → raised e t) :
    Obeys indexName i (throw e) ok raised s :=
  Contract.keptRun_throw holds

theorem obeys_of_result {result : Except Raised α} (holds : ∀ t, Later i s t → Contract.ends ok raised result t) :
    Obeys indexName i (ExceptT.mk (.ret result)) ok raised s := holds

-- An operation that neither claims nor creates, whatever it is answered.
theorem obeys_neutral {o : Op} {decode : Op.Res o → Except Raised α}
    (permitted : ∀ t, Later i s t → Permit indexName i o t)
    (neutral : ∀ answer before after, Neutral (⟨i, o, answer, before, after⟩ : Deed Effects ι Shared))
    (continued : ∀ w t, Sound indexName t → ∀ u, Later i (Chronicle.recorded service i w o t).2 u → Later i s u →
      Contract.ends ok raised (decode (service w o t.1).1) u) :
    Obeys indexName i (ExceptT.mk (.op o fun answer => .ret (decode answer))) ok raised s := by
  intro t later sound
  refine ⟨permitted t later, fun w u more => ?_⟩
  exact continued w t sound u more (later_trans later (later_trans (later_own (neutral _ _ _)) more))

theorem obeys_clock {ok : DateTime → Shared × Record ι → Prop} (continued : ∀ now t, Later i s t → ok now t) :
    Obeys indexName i Py.clock ok raised s := by
  apply obeys_neutral
  next => exact fun _ _ => trivial
  next => exact fun _ _ _ => ⟨rfl, rfl, rfl⟩
  next => exact fun w t _ u _ later => continued _ u later

theorem obeys_sleep {ok : Unit → Shared × Record ι → Prop} {interval : TimeDelta}
    (continued : ∀ t, Later i s t → ok () t) : Obeys indexName i (Py.sleep interval) ok raised s := by
  apply obeys_neutral
  next => exact fun _ _ => trivial
  next => exact fun _ _ _ => ⟨rfl, rfl, rfl⟩
  next => exact fun w t _ u _ later => continued u later

theorem obeys_indexExists {ok : Bool → Shared × Record ι → Prop} {name : String}
    (continued : ∀ answer t, Later i s t → ok answer t) (failed : ∀ e t, Later i s t → raised e t) :
    Obeys indexName i (Py.indexExists name) ok raised s := by
  apply obeys_neutral
  next => exact fun _ _ => trivial
  next => exact fun _ _ _ => ⟨rfl, rfl, rfl⟩
  next =>
    intro w t _ u _ later
    cases callAdapter name (service w (.indexExists name) t.1).1 with
    | ok answer => exact continued answer u later
    | error e => exact failed e u later

theorem obeys_describeIndex {ok : Option IndexDescription → Shared × Record ι → Prop} {name : String}
    (named : name = indexName)
    (continued : ∀ answer t, Later i s t →
      (∀ description, answer = some description → Described t.2 indexName description) → ok answer t)
    (failed : ∀ e t, Later i s t → raised e t) : Obeys indexName i (Py.describeIndex name) ok raised s := by
  apply obeys_neutral
  next => exact fun _ _ => trivial
  next => exact fun _ _ _ => ⟨rfl, rfl, rfl⟩
  next =>
    intro w t _ u own later
    cases answered : w.description with
    | error e =>
      simp only [service, answered]
      cases e <;> exact failed _ u later
    | ok answer =>
      simp only [service, answered, callAdapter]
      refine continued answer u later fun description given => ?_
      refine Described.grown ⟨_, List.mem_cons_self .., ?_⟩ own.toGrown
      simp [described, service, answered, named, given]

theorem obeys_newClaimToken {ok : String → Shared × Record ι → Prop}
    (continued : ∀ token t, Later i s t → Issued i t.2 token →
      (ClaimTokensUnique t.2 → ¬ Spent i t.2 token) → ok token t) :
    Obeys indexName i Py.newClaimToken ok raised s := by
  apply obeys_neutral
  next => exact fun _ _ => trivial
  next => exact fun _ _ _ => ⟨rfl, rfl, rfl⟩
  next =>
    intro w t sound u own later
    have drawn : Issued i (Chronicle.recorded service i w .newClaimToken t).2.2 w.claimToken :=
      ⟨_, List.mem_cons_self .., rfl, rfl⟩
    refine continued w.claimToken u later (drawn.grown own.toGrown) fun unique => own.not_spent ?_
    rintro ⟨deed, member, mine, carried⟩
    rcases List.mem_cons.mp member with rfl | old
    next => simp [stamped] at carried
    next =>
      obtain ⟨source, found, _, same⟩ := sound.issued i _ ⟨deed, old, mine, carried⟩
      have distinct := own.unique unique
      have again : w.claimToken ∈ t.2.filterMap issued := List.mem_filterMap.mpr ⟨source, found, same⟩
      simp only [ClaimTokensUnique, Chronicle.recorded, List.filterMap_cons, issued, service,
        List.nodup_cons] at distinct
      exact distinct.1 again

theorem Sound.named (sound : Sound indexName s) {entry : IndexRegistryEntry} (stored : Stored indexName entry s.1) :
    entry.indexName = indexName := by
  obtain ⟨candidate, founded⟩ := sound.founded stored
  exact (founded.descends entry stored).indexName.trans founded.named

theorem obeys_get {ok : Option IndexRegistryEntry → Shared × Record ι → Prop} {name : String}
    (named : name = indexName)
    (continued : ∀ found t, Later i s t → (∀ entry, found = some entry → Knows indexName i entry t) → ok found t) :
    Obeys indexName i (Py.registry (.get name)) ok raised s := by
  apply obeys_neutral
  next => exact fun _ _ => trivial
  next => exact fun _ _ _ => ⟨rfl, rfl, rfl⟩
  next =>
    intro w t sound u own later
    subst named
    refine continued ((t.1.shown w.age).get name) u later fun entry found => ?_
    have stored : Stored name entry t.1 := ⟨_, t.1.shown_mem w.age, found⟩
    have shown : Shown i (Chronicle.recorded service i w (.registry (.get name)) t).2.2 entry :=
      ⟨_, List.mem_cons_self .., rfl, found⟩
    exact Knows.grown ⟨shown, sound.named stored⟩ own.toGrown

-- A registry call that claims nothing.
theorem obeys_call {call : RegistryCall} {ok : call.Value → Shared × Record ι → Prop}
    (permitted : ∀ t, Later i s t → Permit indexName i (.registry call) t)
    (neutral : ∀ answer before after, Neutral (⟨i, .registry call, answer, before, after⟩ : Deed Effects ι Shared))
    (continued : ∀ value t, Later i s t → ok value t) (failed : ∀ e t, Later i s t → raised e t) :
    Obeys indexName i (Py.registry call) ok raised s := by
  apply obeys_neutral permitted neutral
  intro w t _ u _ later
  cases (service w (.registry call) t.1).1 with
  | ok value => exact continued value u later
  | error e => exact failed _ u later

theorem obeys_touchVerified {ok : IndexRegistryEntry → Shared × Record ι → Prop} {name : String}
    (named : name = indexName) (continued : ∀ entry t, Later i s t → ok entry t)
    (failed : ∀ e t, Later i s t → raised e t) :
    Obeys indexName i (Py.registry (.touchVerified name)) ok raised s :=
  obeys_call (fun _ _ => named) (fun _ _ _ => ⟨rfl, rfl, rfl⟩) continued failed

theorem obeys_markFailed {ok : IndexRegistryEntry → Shared × Record ι → Prop} {won : IndexRegistryEntry}
    {reason : String} (holds : Holds indexName i won s) (continued : ∀ entry t, Later i s t → ok entry t)
    (failed : ∀ e t, Later i s t → raised e t) :
    Obeys indexName i (Py.registry (.markFailed won.indexName reason won.claimToken)) ok raised s := by
  refine obeys_call (fun t later => ?_) (fun _ _ _ => ⟨rfl, rfl, rfl⟩) continued failed
  obtain ⟨token, held, owner⟩ := (holds.grown later.toGrown).token
  exact ⟨holds.named, token, held, owner⟩

theorem obeys_markReady {ok : IndexRegistryEntry → Shared × Record ι → Prop} {won : IndexRegistryEntry}
    (holds : Holds indexName i won s) (checked : Described s.2 indexName ⟨won.dimensions, won.metric⟩)
    (continued : ∀ entry t, Later i s t → ok entry t) (failed : ∀ e t, Later i s t → raised e t) :
    Obeys indexName i (Py.registry (.markReady won.indexName won.claimToken)) ok raised s := by
  refine obeys_call (fun t later => ?_) (fun _ _ _ => ⟨rfl, rfl, rfl⟩) continued failed
  obtain ⟨stored, _, token, held, owner⟩ := holds.grown later.toGrown
  exact ⟨holds.named, token, held, owner, won, stored, checked.grown later.toGrown⟩

theorem entitled_of_claim {o : Op} {w : World} (even : Even i t)
    (claimed : claims (⟨i, o, (service w o t.1).1, t.1, (service w o t.1).2⟩ : Deed Effects ι Shared))
    (idle : creates (⟨i, o, (service w o t.1).1, t.1, (service w o t.1).2⟩ : Deed Effects ι Shared) = false) :
    Entitled i (Chronicle.recorded service i w o t).2 := by
  simp only [Entitled, Chronicle.recorded, creators_cons, claimants_cons, claimed, idle, if_true,
    List.count_cons_self, Bool.false_eq_true, if_false]
  exact Nat.lt_succ_of_le even

theorem even_of_idle {o : Op} {w : World} (even : Even i t)
    (idle : creates (⟨i, o, (service w o t.1).1, t.1, (service w o t.1).2⟩ : Deed Effects ι Shared) = false) :
    Even i (Chronicle.recorded service i w o t).2 := by
  have grown := claimants_grow ⟨i, o, (service w o t.1).1, t.1, (service w o t.1).2⟩ t.2 i
  simp only [Even, Chronicle.recorded, creators_cons, idle, Bool.false_eq_true, if_false]
  exact Nat.le_trans even grown

theorem obeys_register {ok : IndexRegistryEntry → Shared × Record ι → Prop} {entry : IndexRegistryEntry}
    (token : String) (named : entry.indexName = indexName) (waiting : entry.status = .provisioning)
    (template : entry.resolvedTemplate ≠ none) (carried : entry.claimToken = some token)
    (owner : Issued i s.2 token) (unspent : ClaimTokensUnique s.2 → ¬ Spent i s.2 token) (even : Even i s)
    (won : ∀ won t, won.claimToken = some token → Holds indexName i won t → Entitled i t → ok won t)
    (lost : ∀ won t, won.claimToken ≠ some token → Knows indexName i won t → Even i t → ok won t) :
    Obeys indexName i (Py.registry (.register entry)) ok raised s := by
  intro t later sound
  refine ⟨⟨named, waiting, template, token, carried, owner.grown later.toGrown,
    fun unique => later.not_spent (unspent (later.unique unique))⟩, fun w u more => ?_⟩
  have after : (service w (.registry (.register entry)) t.1).2.registry.get indexName =
      some (t.1.registry.register entry).1 := by
    rw [← named]
    exact t.1.registry.get_register entry
  have drawn : Issued i (Chronicle.recorded service i w (.registry (.register entry)) t).2.2 token :=
    owner.grown (later.toGrown.trans (grown_own i w _ t))
  have matching : (t.1.registry.register entry).1.indexName = indexName := by
    obtain ⟨existing, found, same⟩ | ⟨_, same⟩ := t.1.registry.register_cases entry
    next =>
      rw [same]
      exact sound.named (stored_current (named ▸ found))
    next => rw [same, named]
  by_cases mine : (t.1.registry.register entry).1.claimToken = some token
  next =>
    have claimed : claims (⟨i, .registry (.register entry), .ok (t.1.registry.register entry).1, t.1,
        (service w (.registry (.register entry)) t.1).2⟩ : Deed Effects ι Shared) := by
      simp [claims, mine, carried]
    have holds : Holds indexName i (t.1.registry.register entry).1
        (Chronicle.recorded service i w (.registry (.register entry)) t).2 :=
      ⟨stored_current after, matching, token, mine, drawn⟩
    exact won _ u mine (holds.grown more.toGrown)
      ((entitled_of_claim (even.later later) claimed rfl).later more)
  next =>
    have knows : Knows indexName i (t.1.registry.register entry).1
        (Chronicle.recorded service i w (.registry (.register entry)) t).2 :=
      ⟨⟨_, List.mem_cons_self .., rfl, rfl⟩, matching⟩
    exact lost _ u mine (knows.grown more.toGrown) ((even_of_idle (even.later later) rfl).later more)

theorem obeys_reclaim {ok : IndexRegistryEntry → Shared × Record ι → Prop} {observed newEntry : IndexRegistryEntry}
    {token : String} {claimedAt : DateTime} (same : newEntry = observed.claimedBy token claimedAt)
    (knows : Knows indexName i observed s) (waiting : observed.status = .provisioning) (owner : Issued i s.2 token)
    (even : Even i s) (won : ∀ t, Holds indexName i newEntry t → Entitled i t → ok newEntry t)
    (lost : ∀ e t, Knows indexName i observed t → Even i t → raised (.provisioning e) t) :
    Obeys indexName i (Py.registry (.reclaim observed.indexName observed newEntry)) ok raised s := by
  intro t later sound
  have seen := knows.grown later.toGrown
  have drawn := owner.grown later.toGrown
  refine ⟨⟨knows.named, waiting, seen.shown, token, claimedAt, same, drawn⟩, fun w u more => ?_⟩
  have own := grown_own i w (.registry (.reclaim observed.indexName observed newEntry)) t
  obtain rejected | ⟨_, accepted⟩ := t.1.registry.reclaim_cases observed.indexName observed newEntry
  next =>
    have answer : (service w (.registry (.reclaim observed.indexName observed newEntry)) t.1).1 =
        .error (staleSnapshot observed.indexName) := congrArg Prod.fst rejected
    have idle := even_of_idle (w := w) (o := .registry (.reclaim observed.indexName observed newEntry))
      (even.later later) rfl
    simp only [Treaty.contract, Chronicle.recorded, answer]
    exact lost _ u (seen.grown (own.trans more.toGrown)) (idle.later more)
  next =>
    have answer : (service w (.registry (.reclaim observed.indexName observed newEntry)) t.1).1 = .ok newEntry :=
      congrArg Prod.fst accepted
    have after : (service w (.registry (.reclaim observed.indexName observed newEntry)) t.1).2.registry.get
        indexName = some newEntry := by
      rw [← knows.named]
      simp [service, InMemoryIndexRegistry.perform, accepted]
    have holds : Holds indexName i newEntry
        (Chronicle.recorded service i w (.registry (.reclaim observed.indexName observed newEntry)) t).2 := by
      refine ⟨stored_current after, ?_, token, ?_, drawn.grown own⟩
      next => exact same ▸ knows.named
      next => simp [same, IndexRegistryEntry.claimedBy]
    have claimed : claims (⟨i, .registry (.reclaim observed.indexName observed newEntry),
        (service w (.registry (.reclaim observed.indexName observed newEntry)) t.1).1, t.1,
        (service w (.registry (.reclaim observed.indexName observed newEntry)) t.1).2⟩ : Deed Effects ι Shared) := by
      simp [claims, reclaims, reclaimed, answer]
    have entitled := entitled_of_claim (even.later later) claimed rfl
    simp only [Treaty.contract, Chronicle.recorded, answer]
    exact won u (holds.grown more.toGrown) (entitled.later more)

theorem obeys_createIndex {ok : Unit → Shared × Record ι → Prop} {won : IndexRegistryEntry} {template : IndexTemplate}
    (holds : Holds indexName i won s) (carried : won.resolvedTemplate = some template) (entitled : Entitled i s)
    (continued : ∀ t, Holds indexName i won t → Even i t → ok () t)
    (failed : ∀ e t, Holds indexName i won t → Even i t → raised e t) :
    Obeys indexName i (Py.createIndex won.indexName template won.dimensions won.metric) ok raised s := by
  intro t later sound
  have held := holds.grown later.toGrown
  have room := entitled.later later
  refine ⟨⟨holds.named, room, won, held.stored, carried, rfl, rfl⟩, fun w u more => ?_⟩
  have even : Even i (Chronicle.recorded service i w
      (.createIndex won.indexName template won.dimensions won.metric) t).2 := by
    simp only [Even, Chronicle.recorded, creators_cons, claimants_cons, creates, claims, reclaims, reclaimed,
      Option.isSome_none, if_true, List.count_cons_self, Bool.false_eq_true, if_false]
    exact room
  have kept := held.grown ((grown_own i w _ t).trans more.toGrown)
  simp only [Treaty.contract, Chronicle.recorded]
  cases callAdapter won.indexName
      (service w (.createIndex won.indexName template won.dimensions won.metric) t.1).1 with
  | ok value => exact continued u kept (even.later more)
  | error e => exact failed e u kept (even.later more)

abbrev Behaves (indexName : String) (i : ι) {α : Type} (p : Py α) (s : Shared × Record ι) : Prop :=
  Obeys indexName i p (fun _ _ => True) (fun _ _ => True) s

theorem obeys_absorbConflict {ok : Unit → Shared × Record ι → Prop} {won : IndexRegistryEntry} {reason : String}
    (holds : Holds indexName i won s) (continued : ∀ t, Later i s t → ok () t)
    (failed : ∀ e t, Later i s t → raised e t) :
    Obeys indexName i (absorbConflict (Py.registry (.markFailed won.indexName reason won.claimToken))) ok raised
      s := by
  apply obeys_tryCatch
  apply obeys_bind
  apply obeys_markFailed holds
  next => exact fun _ t later => obeys_pure fun u more => continued u (later_trans later more)
  next =>
    intro e t later
    cases e with
    | provisioning e =>
      by_cases conflict : e.errorCode = indexProvisionConflict
      next =>
        simp only [conflict, ne_eq, not_true_eq_false, if_false]
        exact obeys_pure fun u more => continued u (later_trans later more)
      next =>
        simp only [conflict, ne_eq, not_false_eq_true, if_true]
        exact obeys_throw fun u more => failed _ u (later_trans later more)
    | other text => exact obeys_throw fun u more => failed _ u (later_trans later more)
    | unfinished => exact obeys_throw fun u more => failed _ u (later_trans later more)

variable {provisioner : IndexProvisioner} {scenario : IndexScenario} {entry : IndexRegistryEntry}

theorem obeys_timeTest {time : Option DateTime} {test : DateTime → DateTime → Bool}
    {ok : Bool → Shared × Record ι → Prop} (continued : ∀ passed t, Later i s t → ok passed t) :
    Obeys indexName i (IndexProvisioner.timeTest time test) ok raised s := by
  cases time with
  | none => exact obeys_pure fun t later => continued _ t later
  | some time =>
    apply obeys_bind
    exact obeys_clock fun now t later => obeys_pure fun u more => continued _ u (later_trans later more)

theorem handleReady_behaves (named : entry.indexName = indexName) :
    Behaves indexName i (provisioner.handleReady scenario entry) s := by
  apply obeys_bind
  apply obeys_timeTest
  intro recent t _
  cases recent with
  | true => exact obeys_pure fun _ _ => trivial
  | false =>
    apply obeys_bind
    apply obeys_of_result
    intro t _
    cases provisioner.resolveTemplate scenario with
    | error e => trivial
    | ok resolved =>
      apply obeys_bind
      apply obeys_describeIndex named
      next =>
        intro description t _ _
        apply obeys_bind
        apply obeys_of_result
        intro t _
        cases IndexProvisioner.drifted entry resolved.1 resolved.2.1 resolved.2.2 description with
        | error e => trivial
        | ok drift =>
          cases drift with
          | true => exact obeys_throw fun _ _ => trivial
          | false => exact obeys_touchVerified named (fun _ _ _ => trivial) (fun _ _ _ => trivial)
      next => exact fun _ _ _ => trivial

theorem obeys_createFor {ok : Unit → Shared × Record ι → Prop} {won : IndexRegistryEntry}
    (holds : Holds indexName i won s) (entitled : Entitled i s)
    (continued : ∀ t, Holds indexName i won t → Even i t → ok () t) :
    Obeys indexName i (IndexProvisioner.createFor won) ok (fun _ _ => True) s := by
  simp only [IndexProvisioner.createFor]
  split
  next => exact obeys_throw fun _ _ => trivial
  next template carried =>
    apply obeys_tryCatch
    apply obeys_createIndex holds carried entitled continued
    intro e t held _
    cases e with
    | provisioning e =>
      apply obeys_bind
      apply obeys_absorbConflict held
      next => exact fun _ _ => obeys_throw fun _ _ => trivial
      next => exact fun _ _ _ => trivial
    | other text => exact obeys_throw fun _ _ => trivial
    | unfinished => exact obeys_throw fun _ _ => trivial

theorem obeys_tryReclaim {ok : Option IndexRegistryEntry → Shared × Record ι → Prop} {observed : IndexRegistryEntry}
    (knows : Knows indexName i observed s) (waiting : observed.status = .provisioning) (even : Even i s)
    (won : ∀ entry t, Holds indexName i entry t → Entitled i t → ok (some entry) t)
    (lost : ∀ t, Knows indexName i observed t → Even i t → ok none t) :
    Obeys indexName i (IndexProvisioner.tryReclaim observed) ok (fun _ _ => True) s := by
  apply obeys_bind
  apply obeys_newClaimToken
  intro token t drawnLater drawn _
  apply obeys_bind
  apply obeys_clock
  intro claimedAt u clockLater
  have later := later_trans drawnLater clockLater
  apply obeys_tryCatch
  apply obeys_bind
  apply obeys_reclaim rfl (knows.grown later.toGrown) waiting (drawn.grown clockLater.toGrown) (even.later later)
  next =>
    intro t holds entitled
    exact obeys_pure fun u more => won _ u (holds.grown more.toGrown) (entitled.later more)
  next =>
    intro e t known even
    by_cases conflict : e.errorCode = indexProvisionConflict
    next =>
      simp only [conflict, if_true]
      exact obeys_pure fun u more => lost u (known.grown more.toGrown) (even.later more)
    next =>
      simp only [conflict, if_false]
      exact obeys_throw fun _ _ => trivial

structure Flows (provisioner : IndexProvisioner) (indexName : String) (i : ι) (fuel : Nat) : Prop where
  claimNew : ∀ {scenario s}, scenario.indexName = indexName → Even i s →
    Behaves indexName i (provisioner.claimNew fuel scenario) s
  claimAndCreate : ∀ {scenario won s}, scenario.indexName = indexName → Holds indexName i won s → Entitled i s →
    Behaves indexName i (provisioner.claimAndCreate fuel scenario won) s
  finalizeReady : ∀ {scenario won s}, scenario.indexName = indexName → Holds indexName i won s → Even i s →
    Described s.2 indexName ⟨won.dimensions, won.metric⟩ →
    Behaves indexName i (provisioner.finalizeReady fuel scenario won) s
  afterLosingClaim : ∀ {scenario entry s}, scenario.indexName = indexName → Knows indexName i entry s → Even i s →
    Behaves indexName i (provisioner.afterLosingClaim fuel scenario entry) s
  waitForReady : ∀ {scenario entry s}, scenario.indexName = indexName → Knows indexName i entry s →
    entry.status = .provisioning → Even i s → Behaves indexName i (provisioner.waitForReady fuel scenario entry) s
  waitLoop : ∀ {scenario deadline current s}, scenario.indexName = indexName → Knows indexName i current s →
    current.status = .provisioning → Even i s →
    Behaves indexName i (provisioner.waitLoop fuel scenario indexName deadline current) s

theorem flows_zero : Flows provisioner indexName i 0 where
  claimNew _ _ := obeys_throw fun _ _ => trivial
  claimAndCreate _ _ _ := obeys_throw fun _ _ => trivial
  finalizeReady _ _ _ _ := obeys_throw fun _ _ => trivial
  afterLosingClaim _ _ _ := obeys_throw fun _ _ => trivial
  waitForReady _ _ _ _ := obeys_throw fun _ _ => trivial
  waitLoop _ _ _ _ := obeys_throw fun _ _ => trivial

section Successor

variable {fuel : Nat} (flows : Flows provisioner indexName i fuel) (named : scenario.indexName = indexName)

include flows named

theorem claimNew_behaves (even : Even i s) : Behaves indexName i (provisioner.claimNew (fuel + 1) scenario) s := by
  simp only [IndexProvisioner.claimNew]
  split
  next =>
    apply obeys_bind
    apply obeys_of_result
    intro t resolvedLater
    cases provisioner.resolveTemplate scenario with
    | error e => trivial
    | ok resolved =>
      obtain ⟨template, dimensions, metric⟩ := resolved
      apply obeys_bind
      apply obeys_clock
      intro now t clockLater
      apply obeys_bind
      apply obeys_newClaimToken
      intro token t drawnLater drawn unspent
      have later := later_trans resolvedLater (later_trans clockLater drawnLater)
      apply obeys_bind
      apply obeys_register token named rfl (by simp [IndexProvisioner.candidate]) rfl drawn unspent
        (even.later later)
      next =>
        intro won t mine holds entitled
        simp only [mine, if_true]
        exact flows.claimAndCreate named holds entitled
      next =>
        intro won t other knows even
        simp only [other, if_false]
        exact flows.afterLosingClaim named knows even
  next => exact obeys_throw fun _ _ => trivial

theorem claimAndCreate_behaves {won : IndexRegistryEntry} (holds : Holds indexName i won s)
    (entitled : Entitled i s) :
    Behaves indexName i (provisioner.claimAndCreate (fuel + 1) scenario won) s := by
  simp only [IndexProvisioner.claimAndCreate]
  apply obeys_bind
  apply obeys_indexExists
  next =>
    intro alreadyExists t later
    have held := holds.grown later.toGrown
    have room := entitled.later later
    -- There already or just created: the claim is held, and made good.
    apply obeys_seq (fun _ t => Holds indexName i won t ∧ Even i t)
    next =>
      cases alreadyExists with
      | true => exact obeys_pure fun u more => ⟨held.grown more.toGrown, (room.later more).even⟩
      | false => exact obeys_createFor held room fun u kept even => ⟨kept, even⟩
    next =>
      intro _ t made
      apply obeys_bind
      apply obeys_describeIndex held.named
      next =>
        intro description u later reported
        have held := made.1.grown later.toGrown
        by_cases agrees : description = some ⟨won.dimensions, won.metric⟩
        next =>
          simp only [agrees, ne_eq, not_true_eq_false, if_false]
          exact flows.finalizeReady named held (made.2.later later) (reported _ agrees)
        next =>
          simp only [agrees, ne_eq, not_false_eq_true, if_true]
          apply obeys_bind
          apply obeys_absorbConflict held
          next => exact fun _ _ => obeys_throw fun _ _ => trivial
          next => exact fun _ _ _ => trivial
      next => exact fun _ _ _ => trivial
  next => exact fun _ _ _ => trivial

theorem finalizeReady_behaves {won : IndexRegistryEntry} (holds : Holds indexName i won s) (even : Even i s)
    (checked : Described s.2 indexName ⟨won.dimensions, won.metric⟩) :
    Behaves indexName i (provisioner.finalizeReady (fuel + 1) scenario won) s := by
  simp only [IndexProvisioner.finalizeReady]
  apply obeys_tryCatch
  apply obeys_markReady holds checked (fun _ _ _ => trivial)
  intro e t later
  cases e with
  | provisioning e =>
    by_cases conflict : e.errorCode = indexProvisionConflict
    next =>
      simp only [conflict, ne_eq, not_true_eq_false, if_false]
      apply obeys_bind
      apply obeys_get holds.named
      intro found u more known
      have even := even.later (later_trans later more)
      cases found with
      | none => exact flows.claimNew named even
      | some entry => exact flows.afterLosingClaim named (known entry rfl) even
    next =>
      simp only [conflict, ne_eq, not_false_eq_true, if_true]
      exact obeys_throw fun _ _ => trivial
  | other text => exact obeys_throw fun _ _ => trivial
  | unfinished => exact obeys_throw fun _ _ => trivial

theorem afterLosingClaim_behaves (knows : Knows indexName i entry s) (even : Even i s) :
    Behaves indexName i (provisioner.afterLosingClaim (fuel + 1) scenario entry) s := by
  simp only [IndexProvisioner.afterLosingClaim]
  split
  next => exact obeys_pure fun _ _ => trivial
  next waiting => exact flows.waitForReady named knows waiting even
  next => exact obeys_throw fun _ _ => trivial
  next => exact obeys_throw fun _ _ => trivial

theorem waitForReady_behaves (knows : Knows indexName i entry s) (waiting : entry.status = .provisioning)
    (even : Even i s) : Behaves indexName i (provisioner.waitForReady (fuel + 1) scenario entry) s := by
  simp only [IndexProvisioner.waitForReady, knows.named]
  apply obeys_bind
  apply obeys_clock
  intro now t later
  exact flows.waitLoop named (knows.grown later.toGrown) waiting (even.later later)

theorem waitLoop_behaves {deadline : DateTime} {current : IndexRegistryEntry} (knows : Knows indexName i current s)
    (waiting : current.status = .provisioning) (even : Even i s) :
    Behaves indexName i (provisioner.waitLoop (fuel + 1) scenario indexName deadline current) s := by
  simp only [IndexProvisioner.waitLoop]
  apply obeys_bind
  apply obeys_timeTest
  intro stale t later
  have known := knows.grown later.toGrown
  have even := even.later later
  apply obeys_seq fun reclaimed t => reclaimed.elim (Even i t) fun entry => Holds indexName i entry t ∧ Entitled i t
  next =>
    cases stale with
    | false => exact obeys_pure fun u more => even.later more
    | true =>
      exact obeys_tryReclaim known waiting even (fun _ _ holds entitled => ⟨holds, entitled⟩) fun _ _ even => even
  next =>
    intro reclaimed t state
    cases reclaimed with
    | some entry => exact flows.claimAndCreate named state.1 state.2
    | none =>
      apply obeys_bind
      apply obeys_clock
      intro now u clockLater
      split
      next => exact obeys_throw fun _ _ => trivial
      next =>
        apply obeys_bind
        apply obeys_sleep
        intro v sleepLater
        apply obeys_bind
        apply obeys_get rfl
        intro found x getLater known
        have even := Even.later state (later_trans clockLater (later_trans sleepLater getLater))
        cases found with
        | none => exact flows.claimNew named even
        | some entry =>
          by_cases still : entry.status = .provisioning
          next =>
            simp only [still, ne_eq, not_true_eq_false, if_false]
            exact flows.waitLoop named (known entry rfl) still even
          next =>
            simp only [still, ne_eq, not_false_eq_true, if_true]
            exact flows.afterLosingClaim named (known entry rfl) even

end Successor

theorem flows (provisioner : IndexProvisioner) (indexName : String) (i : ι) (fuel : Nat) :
    Flows provisioner indexName i fuel := by
  induction fuel with
  | zero => exact flows_zero
  | succ fuel ih =>
    constructor
    next => exact fun named even => claimNew_behaves ih named even
    next => exact fun named holds entitled => claimAndCreate_behaves ih named holds entitled
    next => exact fun named holds even checked => finalizeReady_behaves ih named holds even checked
    next => exact fun named knows even => afterLosingClaim_behaves ih named knows even
    next => exact fun named knows waiting even => waitForReady_behaves ih named knows waiting even
    next => exact fun named knows waiting even => waitLoop_behaves ih named knows waiting even

theorem ensure_behaves (provisioner : IndexProvisioner) (fuel : Nat) (named : scenario.indexName = indexName)
    (even : Even i s) : Behaves indexName i (provisioner.ensure fuel scenario) s := by
  have flows := flows provisioner indexName i fuel
  apply obeys_bind
  apply obeys_get named
  intro found t later known
  have even := even.later later
  cases found with
  | none => exact flows.claimNew named even
  | some entry =>
    have knows := known entry rfl
    simp only [IndexProvisioner.dispatchExisting]
    split
    next => exact handleReady_behaves knows.named
    next waiting => exact flows.waitForReady named knows waiting even
    next => exact obeys_throw fun _ _ => trivial
    next => exact obeys_throw fun _ _ => trivial

theorem fleet_lawful (workers : ι → Worker) (shared : ∀ i, (workers i).scenario.indexName = indexName)
    (schedule : List (ι × World)) :
    Chronicle.Each ((treaty ι indexName).Lawful service) (recordOf workers schedule) ∧
      Sound indexName (Pool.runAs (Chronicle.recorded service) schedule (fleet workers)).state := by
  obtain ⟨lawful, sound, _⟩ := Treaty.lawful_run (treaty_sustained indexName) (c := fleet workers) rfl
    (sound_start workers indexName)
    (fun i => ensure_behaves (workers i).provisioner (workers i).fuel (shared i) (Nat.le_refl _)) schedule
  exact ⟨lawful, sound⟩

end Vestibule.Provisioning
