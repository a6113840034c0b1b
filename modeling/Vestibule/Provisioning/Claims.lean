import Mathlib.Data.List.Pairwise
import Vestibule.Provisioning.Conduct

set_option autoImplicit false

namespace Vestibule.Provisioning

open Library

-- What holds of every interleaving of any number of `ensure` calls: the claim is finalized once, by its
-- holder, and the index is only ever created with what the winning candidate carried.

variable {ι : Type} {indexName : String}

def Finalizes (indexName : String) (deed : Deed Effects ι Shared) : Prop :=
  statusOf indexName deed.before.registry = some .provisioning ∧
    (statusOf indexName deed.after.registry = some .ready ∨ statusOf indexName deed.after.registry = some .failed)

def FinalizesWith (indexName token : String) (o : Op) : Prop :=
  o = .registry (.markReady indexName (some token)) ∨
    ∃ reason, o = .registry (.markFailed indexName reason (some token))

def Seen (indexName : String) (deed : Deed Effects ι Shared) (entry : IndexRegistryEntry) : Prop :=
  deed.before.registry.get indexName = some entry ∨ deed.after.registry.get indexName = some entry

structure ClaimSafety (indexName : String) (record : Record ι) : Prop where
  moves : ∀ deed ∈ record, statusOf indexName deed.after.registry = statusOf indexName deed.before.registry ∨
    (statusOf indexName deed.before.registry = none ∧
      statusOf indexName deed.after.registry = some .provisioning) ∨
    Finalizes indexName deed
  finalizedOnce : record.Pairwise fun later earlier => Finalizes indexName earlier → ¬ Finalizes indexName later
  statusFinal : record.Pairwise fun later earlier => ∀ status, status ≠ .provisioning →
    statusOf indexName earlier.after.registry = some status →
    statusOf indexName later.before.registry = some status ∧ statusOf indexName later.after.registry = some status
  finalizedByHolder : Chronicle.Each (fun earlier deed => Finalizes indexName deed →
    ∃ token, FinalizesWith indexName token deed.op ∧
      (deed.before.registry.get indexName).bind (·.claimToken) = some token ∧
      Issued deed.thread earlier token ∧ ∀ j, Issued j record token → j = deed.thread) record
  reclaimsWhatItSaw : Chronicle.Each (fun earlier deed => ∀ observed newEntry,
    reclaimed deed = some (observed, newEntry) →
      Shown deed.thread earlier observed ∧ deed.before.registry.get indexName = some observed ∧
        observed.status = .provisioning ∧ deed.after.registry.get indexName = some newEntry) record
  createdAtFixed : ∀ first ∈ record, ∀ second ∈ record, ∀ entry other, Seen indexName first entry →
    Seen indexName second other → other.createdAt = entry.createdAt
  rejectedUnchanged : ∀ deed ∈ record, ∀ e, rejection deed = some e → e.errorCode = indexProvisionConflict →
    deed.after.registry = deed.before.registry

section Deeds

variable [DecidableEq ι] {earlier : Record ι} {deed : Deed Effects ι Shared}

theorem lawful_move (lawful : (treaty ι indexName).Lawful service earlier deed) : Move indexName earlier deed := by
  obtain ⟨w, same⟩ := lawful.eq_handled
  rw [same]
  exact move_of_permit lawful.permitted w

theorem lawful_status_kept (lawful : (treaty ι indexName).Lawful service earlier deed) {status : IndexStatus}
    (current : statusOf indexName deed.before.registry = some status) (finished : status ≠ .provisioning) :
    statusOf indexName deed.after.registry = some status := by
  obtain ⟨w, same⟩ := lawful.handled
  rw [← show (service w deed.op deed.before).2 = deed.after from congrArg Prod.snd same]
  exact status_kept lawful.sound lawful.permitted w current finished

omit [DecidableEq ι] in
theorem statusOf_of_get {registry : InMemoryIndexRegistry} {entry : IndexRegistryEntry}
    (found : registry.get indexName = some entry) : statusOf indexName registry = some entry.status := by
  simp [statusOf, found]

theorem lawful_waiting (lawful : (treaty ι indexName).Lawful service earlier deed) {entry : IndexRegistryEntry}
    (present : deed.before.registry.get indexName = some entry) {token : String}
    (held : entry.claimToken = some token) : statusOf indexName deed.before.registry = some .provisioning := by
  obtain ⟨candidate, founded⟩ := Sound.founded lawful.sound (stored_current present)
  have descends := founded.descends entry (stored_current present)
  rw [statusOf_of_get present, descends.waiting_of_claimed held]

theorem lawful_moves (lawful : (treaty ι indexName).Lawful service earlier deed) :
    statusOf indexName deed.after.registry = statusOf indexName deed.before.registry ∨
    (statusOf indexName deed.before.registry = none ∧
      statusOf indexName deed.after.registry = some .provisioning) ∨
    Finalizes indexName deed := by
  cases lawful_move lawful with
  | quiet same elsewhere => exact .inl (by simp [statusOf, same])
  | inserted candidate absent stored noted carried named waiting template claimed =>
    exact .inr (.inl ⟨by simp [statusOf, absent], by rw [statusOf_of_get stored, waiting]⟩)
  | reclaimed observed token claimedAt present waiting stored elsewhere carried =>
    exact .inl (by simp [statusOf, present, stored, IndexRegistryEntry.claimedBy])
  | verified entry now present stored elsewhere =>
    exact .inl (by simp [statusOf, present, stored, IndexRegistryEntry.verified])
  | readied entry now token present held owner stored elsewhere write checked =>
    exact .inr (.inr ⟨lawful_waiting lawful present held, .inl (statusOf_of_get stored)⟩)
  | failed entry reason token present held owner stored elsewhere write =>
    exact .inr (.inr ⟨lawful_waiting lawful present held, .inr (statusOf_of_get stored)⟩)

theorem lawful_holder (lawful : (treaty ι indexName).Lawful service earlier deed)
    (finalizes : Finalizes indexName deed) :
    ∃ token, FinalizesWith indexName token deed.op ∧
      (deed.before.registry.get indexName).bind (·.claimToken) = some token ∧ Issued deed.thread earlier token := by
  obtain ⟨waiting, ready⟩ := finalizes
  -- Everything but a finalizing write leaves the entry as it was, or in provisioning.
  have changed (same : statusOf indexName deed.after.registry = some .provisioning) : False := by
    simp [same] at ready
  cases lawful_move lawful with
  | quiet same elsewhere => exact (changed (by simpa [statusOf, same] using waiting)).elim
  | inserted candidate absent stored noted carried named started template claimed =>
    exact (changed (by rw [statusOf_of_get stored, started])).elim
  | reclaimed observed token claimedAt present started stored elsewhere carried =>
    exact (changed (by rw [statusOf_of_get stored, ← started]; rfl)).elim
  | verified entry now present stored elsewhere =>
    rw [statusOf_of_get present] at waiting
    exact (changed (by rw [statusOf_of_get stored, ← waiting]; rfl)).elim
  | readied entry now token present held owner stored elsewhere write checked =>
    exact ⟨token, .inl write, by simp [present, held], owner⟩
  | failed entry reason token present held owner stored elsewhere write =>
    exact ⟨token, .inr ⟨reason, write⟩, by simp [present, held], owner⟩

theorem lawful_reclaimed (lawful : (treaty ι indexName).Lawful service earlier deed)
    {observed newEntry : IndexRegistryEntry} (applied : reclaimed deed = some (observed, newEntry)) :
    Shown deed.thread earlier observed ∧ deed.before.registry.get indexName = some observed ∧
      observed.status = .provisioning ∧ deed.after.registry.get indexName = some newEntry := by
  obtain ⟨w, same⟩ := lawful.eq_handled
  have permitted := lawful.permitted
  obtain ⟨i, o, answer, before, after⟩ := deed
  simp only [Deed.mk.injEq, heq_eq_eq, true_and] at same
  obtain ⟨rfl, rfl⟩ := same
  cases o with
  | registry call =>
    cases call with
    | reclaim name given replacement =>
      obtain ⟨rfl, waiting, shown, _⟩ := permitted
      obtain rejected | ⟨present, accepted⟩ := before.registry.reclaim_cases name given replacement
      next => simp [reclaimed, service, Shared.call, InMemoryIndexRegistry.perform, rejected] at applied
      next =>
        obtain ⟨rfl, rfl⟩ : given = observed ∧ replacement = newEntry := by
          simpa [reclaimed, service, Shared.call, InMemoryIndexRegistry.perform, accepted] using applied
        exact ⟨shown, present, waiting, by simp [service, InMemoryIndexRegistry.perform, accepted]⟩
    | _ => simp [reclaimed] at applied
  | _ => simp [reclaimed] at applied

theorem lawful_rejected (lawful : (treaty ι indexName).Lawful service earlier deed) {e : ProvisioningError}
    (rejected : rejection deed = some e) : deed.after.registry = deed.before.registry := by
  obtain ⟨w, same⟩ := lawful.eq_handled
  obtain ⟨i, o, answer, before, after⟩ := deed
  simp only [Deed.mk.injEq, heq_eq_eq, true_and] at same
  obtain ⟨rfl, rfl⟩ := same
  cases o with
  | registry call =>
    have failed : (before.call w call).1 = .error e := by
      cases answered : (before.call w call).1 with
      | error e' => simpa [rejection, service, answered] using rejected
      | ok value => simp [rejection, service, answered] at rejected
    exact before.call_error w call failed
  | _ => simp [rejection] at rejected

theorem issuer_unique {record : Record ι} (unique : ClaimTokensUnique record) {i j : ι} {token : String}
    (first : Issued i record token) (second : Issued j record token) : j = i := by
  obtain ⟨deed, member, rfl, drawn⟩ := first
  obtain ⟨other, member', rfl, drawn'⟩ := second
  have distinct := List.pairwise_filterMap.mp unique
  have symmetric : Std.Symm fun first second : Deed Effects ι Shared =>
      ∀ token, issued first = some token → ∀ token', issued second = some token' → token ≠ token' :=
    ⟨fun _ _ apart token held token' held' => (apart token' held' token held).symm⟩
  by_contra different
  have apart : deed ≠ other := fun same => different (by rw [same])
  exact distinct.forall member member' apart token drawn token drawn' rfl

theorem Sound.stored_of_seen {s : Shared × Record ι} (sound : Sound indexName s) (member : deed ∈ s.2)
    {entry : IndexRegistryEntry} (seen : Seen indexName deed entry) : Stored indexName entry s.1 := by
  obtain before | after := seen
  next => exact ⟨_, (sound.listed deed member).1, before⟩
  next => exact ⟨_, (sound.listed deed member).2, after⟩

end Deeds

variable [DecidableEq ι]

theorem statusFinal_of_lawful {record : Record ι}
    (lawful : Chronicle.Each ((treaty ι indexName).Lawful service) record) :
    record.Pairwise fun later earlier => ∀ status, status ≠ .provisioning →
      statusOf indexName earlier.after.registry = some status →
      statusOf indexName later.before.registry = some status ∧
        statusOf indexName later.after.registry = some status := by
  refine Chronicle.each_pairwise (Chronicle.each_mono (fun earlier deed lawful => ?_) lawful)
  intro old member status finished reached
  have before := Sound.settled lawful.sound old member status reached finished
  exact ⟨before, lawful_status_kept lawful before finished⟩

theorem claims_finalized_once_by_their_holder (workers : ι → Worker)
    (shared : ∀ i, (workers i).scenario.indexName = indexName) (schedule : List (ι × World))
    (unique : ClaimTokensUnique (recordOf workers schedule)) :
    ClaimSafety indexName (recordOf workers schedule) := by
  obtain ⟨lawful, sound⟩ := fleet_lawful workers shared schedule
  have statusFinal := statusFinal_of_lawful lawful
  constructor
  next =>
    intro deed member
    obtain ⟨_, _, _, lawful⟩ := Chronicle.each_mem lawful member
    exact lawful_moves lawful
  next =>
    refine statusFinal.imp fun {later earlier} kept finalizes again => ?_
    obtain ready | failed := finalizes.2
    next => simp [(kept _ (by decide) ready).1, Finalizes] at again
    next => simp [(kept _ (by decide) failed).1, Finalizes] at again
  next => exact statusFinal
  next =>
    refine Chronicle.each_mono (fun earlier deed facts finalizes => ?_) (Chronicle.each_within lawful)
    obtain ⟨token, write, held, owner⟩ := lawful_holder facts.2 finalizes
    exact ⟨token, write, held, owner, fun j other => issuer_unique unique (owner.mono facts.1.subset) other⟩
  next => exact Chronicle.each_mono (fun _ _ lawful _ _ applied => lawful_reclaimed lawful applied) lawful
  next =>
    intro first member second member' entry other seen seen'
    have stored := sound.stored_of_seen member seen
    obtain ⟨candidate, founded⟩ := sound.founded stored
    rw [(founded.descends entry stored).createdAt,
      (founded.descends other (sound.stored_of_seen member' seen')).createdAt]
  next =>
    intro deed member e rejected _
    obtain ⟨_, _, _, lawful⟩ := Chronicle.each_mem lawful member
    exact lawful_rejected lawful rejected

-- The first worker creates the index but is slow to finish; the second reclaims and finalizes.

def sampleTemplate : IndexTemplate where
  templateId := "standard-v1"
  templateVersion := "1"
  dimensions := none
  metric := .cosine
  hnsw := ⟨4, 400, 500⟩
  fields := [⟨"chunk_id", .key, false⟩, ⟨"vector", .vector, false⟩]
  semanticRankerEnabled := false
  hybridEnabled := true
  versionIsInteger := by decide
  oneKey := by decide
  someVector := by decide
  namesUnique := by decide

def sampleScenario : IndexScenario where
  scenarioId := "hr-policies"
  vertical := "hr"
  indexName := "policies"
  indexTemplateId := none
  embedderModel := "e5"
  indexerDimensions := 3

def sampleWorker : Worker where
  provisioner := { templates := Dict.empty.insert "standard-v1" sampleTemplate }
  scenario := sampleScenario
  fuel := 9

def sampleDescription : World := { description := .ok (some ⟨3, "cosine"⟩) }

def handover : List (Bool × World) :=
  [(false, {}), (false, {}), (false, { claimToken := "a" }), (false, {}), (false, {}), (false, {}),
   (true, {}), (true, { now := seconds 300 }), (true, { now := seconds 300 }), (true, { claimToken := "b" }),
   (true, { now := seconds 300 }), (true, {}), (false, sampleDescription), (false, {}),
   (true, { existing := .ok true }), (true, sampleDescription), (true, { now := seconds 301 })]

def handoverRecord : Record Bool := recordOf (fun _ => sampleWorker) handover

theorem claims_finalized_once_after_handover :
    (ClaimTokensUnique handoverRecord ∧ handoverRecord.countP reclaims = 1) ∧
      ClaimSafety "policies" handoverRecord := by
  refine ⟨by decide, ?_⟩
  exact claims_finalized_once_by_their_holder (fun _ : Bool => sampleWorker) (fun _ => rfl) handover (by decide)

structure OneSchema (indexName : String) (record : Record ι) : Prop where
  createdAsClaimed : ∀ deed ∈ record, ∀ name template dimensions metric,
    deed.op = .createIndex name template dimensions metric →
      name = indexName ∧ ∃ candidate, winners record = [candidate] ∧
        candidate.resolvedTemplate = some template ∧ candidate.dimensions = dimensions ∧ candidate.metric = metric
  createdPerClaim : ClaimTokensUnique record → record.countP creates ≤ 1 + record.countP reclaims
  readyAsDescribed : Chronicle.Each (fun earlier deed => ∀ entry,
    deed.after.registry.get indexName = some entry → entry.status = .ready →
    statusOf indexName deed.before.registry ≠ some .ready →
    Described earlier indexName ⟨entry.dimensions, entry.metric⟩) record

section Schema

variable {earlier : Record ι} {deed : Deed Effects ι Shared}

theorem lawful_created (lawful : (treaty ι indexName).Lawful service earlier deed) {name metric : String}
    {template : IndexTemplate} {dimensions : Int}
    (creating : deed.op = .createIndex name template dimensions metric) :
    name = indexName ∧ ∃ candidate ∈ winners earlier, candidate.resolvedTemplate = some template ∧
      candidate.dimensions = dimensions ∧ candidate.metric = metric := by
  have permitted : Permit indexName deed.thread deed.op (deed.before, earlier) := lawful.permitted
  rw [creating] at permitted
  obtain ⟨named, _, won, stored, carried, rfl, rfl⟩ := permitted
  obtain ⟨candidate, founded⟩ := Sound.founded lawful.sound stored
  have descends := founded.descends won stored
  refine ⟨named, candidate, ?_, descends.template carried, descends.dimensions.symm, descends.metric.symm⟩
  simp [founded.only]

-- A worker that is answered with its own token inserted it: nobody else can have stored it before.
theorem lawful_claim (lawful : (treaty ι indexName).Lawful service earlier deed)
    (unique : ClaimTokensUnique earlier) (claimed : claims deed) : (inserted deed).isSome ∨ reclaims deed := by
  obtain ⟨w, same⟩ := lawful.eq_handled
  have permitted := lawful.permitted
  have sound : Sound indexName (deed.before, earlier) := lawful.sound
  obtain ⟨i, o, answer, before, after⟩ := deed
  simp only [Deed.mk.injEq, heq_eq_eq, true_and] at same
  obtain ⟨rfl, rfl⟩ := same
  cases o with
  | registry call =>
    cases call with
    | register entry =>
      obtain ⟨named, _, _, token, carried, owner, unspent⟩ := permitted
      obtain ⟨existing, found, answered⟩ | ⟨absent, _⟩ := before.registry.register_cases entry
      next =>
        have held : existing.claimToken = some token := by
          simpa [claims, service, Shared.call, InMemoryIndexRegistry.perform, answered, carried] using claimed
        obtain ⟨other, spent⟩ := sound.spent existing token (stored_current (named ▸ found)) held
        obtain rfl := issuer_unique unique owner (sound.issued other token spent)
        exact (unspent unique spent).elim
      next => exact .inl (by simp [inserted, absent])
    | _ => exact .inr claimed
  | _ => exact .inr claimed

theorem lawful_ready (lawful : (treaty ι indexName).Lawful service earlier deed) {entry : IndexRegistryEntry}
    (after : deed.after.registry.get indexName = some entry) (ready : entry.status = .ready)
    (before : statusOf indexName deed.before.registry ≠ some .ready) :
    Described earlier indexName ⟨entry.dimensions, entry.metric⟩ := by
  have now : statusOf indexName deed.after.registry = some .ready := by rw [statusOf_of_get after, ready]
  cases lawful_move lawful with
  | quiet same elsewhere => exact (before (by simpa [statusOf, same] using now)).elim
  | inserted candidate absent stored noted carried named waiting template claimed =>
    simp [statusOf_of_get stored, waiting] at now
  | reclaimed observed token claimedAt present waiting stored elsewhere carried =>
    simp [statusOf_of_get stored, IndexRegistryEntry.claimedBy, waiting] at now
  | verified old time present stored elsewhere =>
    rw [statusOf_of_get stored] at now
    exact (before (by rw [statusOf_of_get present, ← now]; rfl)).elim
  | readied old time token present held owner stored elsewhere write checked =>
    obtain ⟨won, wonStored, described⟩ := checked
    obtain rfl : old.readied time = entry := Option.some.inj (stored.symm.trans after)
    obtain ⟨candidate, founded⟩ := Sound.founded lawful.sound wonStored
    have descends := founded.descends won wonStored
    have current := founded.descends old (stored_current present)
    rw [descends.dimensions, ← current.dimensions, descends.metric, ← current.metric] at described
    exact described
  | failed old reason token present held owner stored elsewhere write =>
    simp [statusOf_of_get stored, IndexRegistryEntry.failedWith] at now

omit [DecidableEq ι] in
theorem claims_le {record : Record ι} (each : ∀ deed ∈ record, claims deed → (inserted deed).isSome ∨ reclaims deed) :
    (claimants record).length ≤ (winners record).length + record.countP reclaims := by
  induction record with
  | nil => simp [claimants]
  | cons deed record ih =>
    have rest := ih fun deed member => each deed (List.mem_cons_of_mem _ member)
    have head := each deed (List.mem_cons_self ..)
    have won : (winners (deed :: record)).length =
        (winners record).length + if (inserted deed).isSome then 1 else 0 := by
      cases found : inserted deed <;> simp [winners, found]
    rw [claimants_cons, won, List.countP_cons]
    by_cases claimed : claims deed
    next =>
      obtain first | again := head claimed
      next =>
        simp only [claimed, first, if_true, List.length_cons]
        omega
      next =>
        simp only [claimed, again, if_true, List.length_cons]
        omega
    next =>
      simp only [claimed, Bool.false_eq_true, if_false]
      omega

theorem Sound.winners_le {s : Shared × Record ι} (sound : Sound indexName s) : (winners s.2).length ≤ 1 := by
  obtain unclaimed | ⟨candidate, founded⟩ := sound.lineage
  next => simp [unclaimed.nobody]
  next => simp [founded.only]

theorem Sound.creates_le {s : Shared × Record ι} (sound : Sound indexName s) :
    s.2.countP creates ≤ (claimants s.2).length := by
  have fewer : (creators s.2).Subperm (claimants s.2) := List.subperm_ext_iff.mpr fun i _ => sound.budget i
  simpa [creators, List.countP_eq_length_filter] using fewer.length_le

end Schema

theorem index_created_as_first_claimed (workers : ι → Worker)
    (shared : ∀ i, (workers i).scenario.indexName = indexName) (schedule : List (ι × World)) :
    OneSchema indexName (recordOf workers schedule) := by
  obtain ⟨lawful, sound⟩ := fleet_lawful workers shared schedule
  have within := Chronicle.each_within lawful
  constructor
  next =>
    intro deed member name template dimensions metric creating
    obtain ⟨_, earlier, _, suffix, lawful⟩ := Chronicle.each_mem within member
    obtain ⟨named, candidate, won, facts⟩ := lawful_created lawful creating
    have kept : candidate ∈ winners (recordOf workers schedule) := (suffix.sublist.filterMap inserted).subset won
    refine ⟨named, candidate, ?_, facts⟩
    obtain unclaimed | ⟨other, founded⟩ := sound.lineage
    next =>
      have nobody : winners (recordOf workers schedule) = [] := unclaimed.nobody
      simp [nobody] at kept
    next =>
      have only : winners (recordOf workers schedule) = [other] := founded.only
      obtain rfl : candidate = other := by simpa [only] using kept
      exact only
  next =>
    intro unique
    have each : ∀ deed ∈ recordOf workers schedule, claims deed → (inserted deed).isSome ∨ reclaims deed := by
      intro deed member claimed
      obtain ⟨_, earlier, _, suffix, lawful⟩ := Chronicle.each_mem within member
      exact lawful_claim lawful (unique.sublist (suffix.sublist.filterMap issued)) claimed
    calc (recordOf workers schedule).countP creates
        ≤ (claimants (recordOf workers schedule)).length := sound.creates_le
      _ ≤ (winners (recordOf workers schedule)).length + (recordOf workers schedule).countP reclaims := claims_le each
      _ ≤ 1 + (recordOf workers schedule).countP reclaims := Nat.add_le_add_right sound.winners_le _
  next =>
    exact Chronicle.each_mono (fun _ _ lawful _ after ready before => lawful_ready lawful after ready before) lawful

theorem index_created_as_first_claimed_after_handover :
    (ClaimTokensUnique handoverRecord ∧ handoverRecord.countP creates = 1) ∧ OneSchema "policies" handoverRecord := by
  refine ⟨by decide, ?_⟩
  exact index_created_as_first_claimed (fun _ : Bool => sampleWorker) (fun _ => rfl) handover

end Vestibule.Provisioning
