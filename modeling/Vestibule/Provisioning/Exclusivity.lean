import Vestibule.Provisioning.Backend
import Vestibule.Provisioning.Codec

set_option autoImplicit false

namespace Vestibule.Provisioning

open Library

-- The conditional create runs under the pair of vertical and index name, and `get` reads by the index name
-- alone.

variable {Data ι : Type} (codec : EntityCodec Data) (etags : Nat → String)

def tableKey (entry : IndexRegistryEntry) : String × String := (entry.vertical, entry.indexName)

def ReadsAs (entry stored : IndexRegistryEntry) (table : Table Data) : Prop :=
  ∃ row, table.row (tableKey entry) = some row ∧ codec.entityToEntry row.data = .ok stored

def Extends (s t : Table Data) : Prop := ∀ key row, s.row key = some row → t.row key = some row

def Creates (entry : IndexRegistryEntry) : TableOp Data → Prop
  | .upsertEntity partitionKey rowKey data etag =>
      (partitionKey, rowKey) = tableKey entry ∧ data = codec.entryToEntityData entry ∧ etag = none
  | _ => True

def registering (entry : IndexRegistryEntry) : Contract (TableEffects Data) (TableWorld Data) (Table Data) where
  handler := idealTable etags
  inv _ := True
  rely := Extends
  permit o _ := Creates codec entry o
  rely_refl _ _ _ found := found
  rely_trans first second key row found := second key row (first key row found)

variable {codec}

theorem creates_cases {entry : IndexRegistryEntry} {o : TableOp Data} (creates : Creates codec entry o)
    (w : TableWorld Data) (table : Table Data) :
    (idealTable etags w o table).2 = table ∨ (table.row (tableKey entry) = none ∧
      (idealTable etags w o table).2 = (table.install etags (tableKey entry) (codec.entryToEntityData entry)).2) := by
  cases o with
  | upsertEntity partitionKey rowKey data etag =>
    obtain ⟨key, rfl, rfl⟩ := creates
    simp only [idealTable, key]
    cases found : table.row (tableKey entry) with
    | none => exact .inr ⟨rfl, by rw [table.upsert_create _ _ found]⟩
    | some row => exact .inl (by rw [table.upsert_taken _ _ found])
  | _ => exact .inl rfl

theorem extends_install {table : Table Data} {key : String × String} (absent : table.row key = none) (data : Data) :
    Extends table (table.install etags key data).2 := by
  intro other row found
  have apart : other ≠ key := by
    rintro rfl
    simp [absent] at found
  simpa [apart] using found

theorem extends_step {entry : IndexRegistryEntry} {o : TableOp Data} (creates : Creates codec entry o)
    (w : TableWorld Data) (table : Table Data) : Extends table (idealTable etags w o table).2 := by
  obtain same | ⟨absent, same⟩ := creates_cases etags creates w table
  next => rw [same]; exact fun _ _ found => found
  next => rw [same]; exact extends_install etags absent _

theorem register_kept (entry : IndexRegistryEntry) (s : Table Data) :
    (registering codec etags entry).KeptRun (TableStorageIndexRegistry.register codec entry) (ReadsAs codec entry)
      (fun _ _ => True) s := by
  apply Contract.keptRun_tryCatch
  apply Contract.keptRun_bind
  intro t _ _
  refine ⟨⟨rfl, rfl, rfl⟩, fun w => ?_⟩
  cases found : t.row (tableKey entry) with
  | none =>
    have created : (registering codec etags entry).handler w (.upsertEntity entry.vertical entry.indexName
        (codec.entryToEntityData entry) none) t = t.install etags (tableKey entry) (codec.entryToEntityData entry) :=
      t.upsert_create _ _ found
    rw [created]
    intro u later
    refine Contract.keptRun_pure fun v more => ?_
    have stored := more _ _ (later (tableKey entry) ⟨codec.entryToEntityData entry, etags t.writes⟩ (by simp))
    exact ⟨_, stored, codec.roundTrips entry⟩
  | some row =>
    have taken : (registering codec etags entry).handler w (.upsertEntity entry.vertical entry.indexName
        (codec.entryToEntityData entry) none) t = (.error ⟨some 409, "The specified entity already exists."⟩, t) :=
      t.upsert_taken _ _ found
    rw [taken]
    intro u _
    apply Contract.keptRun_bind
    intro v _ _
    refine ⟨trivial, fun w => ?_⟩
    simp only [registering, idealTable, Table.entity]
    cases found : v.row (entry.vertical, entry.indexName) with
    | none => exact fun _ _ => Contract.keptRun_throw fun _ _ => trivial
    | some row =>
      intro u later
      simp only [Option.map_some, Contract.ends, Table.recordAt]
      cases decoded : codec.entityToEntry row.data with
      | error e => exact fun _ _ => trivial
      | ok stored => exact fun _ more => ⟨row, more _ _ (later _ _ found), decoded⟩

variable (codec) (candidate : ι → IndexRegistryEntry)

abbrev Registrants (Data ι : Type) :=
  Pool (TableEffects Data) (fun _ : ι => Except ProvisioningError IndexRegistryEntry) (Table Data)

def registrants (table : Table Data) : Registrants Data ι :=
  ⟨fun i => (TableStorageIndexRegistry.register codec (candidate i)).run, table⟩

abbrev contest [DecidableEq ι] (table : Table Data) (schedule : List (ι × TableWorld Data)) : Registrants Data ι :=
  Pool.run (idealTable etags) schedule (registrants codec candidate table)

/-- The table as it was at the start, plus what the registrants created. -/
structure Claimed (start table : Table Data) : Prop where
  kept : Extends start table
  created : ∀ key row, table.row key = some row → start.row key = some row ∨
    ∃ i, key = tableKey (candidate i) ∧ row.data = codec.entryToEntityData (candidate i)

def Won (c : Registrants Data ι) (i : ι) : Prop :=
  ∃ entry, c.threads i = .ret (.ok entry) ∧ entry.claimToken = (candidate i).claimToken

variable {codec candidate}

theorem claimed_step {start table : Table Data} (claimed : Claimed codec candidate start table) {i : ι}
    {o : TableOp Data} (creates : Creates codec (candidate i) o) (w : TableWorld Data) :
    Claimed codec candidate start (idealTable etags w o table).2 := by
  obtain same | ⟨absent, same⟩ := creates_cases etags creates w table
  next => rw [same]; exact claimed
  next =>
    rw [same]
    constructor
    next => exact fun key row found => extends_install etags absent _ key row (claimed.kept key row found)
    next =>
      intro key row found
      rw [Table.row_install] at found
      split at found
      next hit =>
        obtain rfl := Option.some.inj found
        exact .inr ⟨i, hit, rfl⟩
      next => exact claimed.created key row found

variable (codec candidate) in
theorem claimed_run [DecidableEq ι] (table : Table Data) (schedule : List (ι × TableWorld Data)) :
    Claimed codec candidate table (contest codec etags candidate table schedule).state ∧
      ∀ i entry, (contest codec etags candidate table schedule).threads i = .ret (.ok entry) →
        ReadsAs codec (candidate i) entry
          (contest codec etags candidate table schedule).state := by
  have honoured : Pool.Honoured (fun i => registering codec etags (candidate i)) (Claimed codec candidate table)
      (fun i => Contract.ends (ReadsAs codec (candidate i)) fun _ _ => True)
      (Pool.runAs (fun i => (registering codec etags (candidate i)).handler) schedule
        (registrants codec candidate table)) := by
    apply Pool.honoured_run
    next => exact fun _ _ _ => trivial
    next => exact fun _ _ w _ claimed creates => claimed_step etags claimed creates w
    next => exact fun _ _ _ _ w _ _ creates => extends_step etags creates w _
    next =>
      exact ⟨⟨fun _ _ found => found, fun _ _ found => .inl found⟩, fun i => register_kept etags (candidate i) table⟩
  have same := Pool.runAs_shared (idealTable etags) schedule (registrants codec candidate table)
  obtain ⟨claimed, threads⟩ := honoured
  simp only [registering, same] at claimed threads
  refine ⟨claimed, fun i entry returned => ?_⟩
  have kept := threads i
  rw [returned] at kept
  exact kept _ fun _ _ found => found

variable (codec)

def readBack (w : TableWorld Data) (indexName : String) (table : Table Data) :
    Except ProvisioningError (Option IndexRegistryEntry) :=
  ((TableStorageIndexRegistry.get codec indexName).run.run (idealTable etags) (fun _ => w) table).1

variable (candidate) in
structure Exclusive (indexName : String) (c : Registrants Data ι) : Prop where
  oneWinner : ∀ i j, Won candidate c i → Won candidate c j → i = j
  readsWinner : ∀ i, Won candidate c i → ∀ w, readBack codec etags w indexName c.state = .ok (some (candidate i))

variable (candidate) in
/-- Nobody can win, or all candidates compete for one key and nothing else is stored under the name. -/
def OneKey (indexName : String) (table : Table Data) : Prop :=
  (∀ i, table.row ((candidate i).vertical, indexName) ≠ none) ∨
    ((∀ vertical, table.row (vertical, indexName) = none) ∧ ∀ i j, (candidate i).vertical = (candidate j).vertical)

theorem readBack_eq (w : TableWorld Data) (indexName : String) (table : Table Data) :
    readBack codec etags w indexName table =
      match w.arrange (table.matching indexName) with
      | [] => .ok none
      | record :: _ => (codec.entityToEntry record.data).map some := by
  simp only [readBack, TableStorageIndexRegistry.get]
  change (Prog.run (idealTable etags) (ExceptT.run (match w.arrange (table.matching indexName) with
    | [] => pure none
    | record :: _ => some <$> TablePy.ofExcept (codec.entityToEntry record.data))) _ table).1 = _
  cases w.arrange (table.matching indexName) with
  | nil => rfl
  | cons record rest => cases decoded : codec.entityToEntry record.data <;> simp only [decoded] <;> rfl

variable {codec} in
theorem readBack_only {table : Table Data} {vertical indexName : String} {row : Row Data} {entry : IndexRegistryEntry}
    (found : table.row (vertical, indexName) = some row) (decoded : codec.entityToEntry row.data = .ok entry)
    (only : ∀ other, table.row (other, indexName) ≠ none → other = vertical) (w : TableWorld Data) :
    readBack codec etags w indexName table = .ok (some entry) := by
  rw [readBack_eq]
  cases listed : w.arrange (table.matching indexName) with
  | nil => simp [absent_of_query_nil listed] at found
  | cons record rest =>
    obtain ⟨other, stored, present, rfl⟩ := present_of_query_cons listed
    obtain rfl : other = vertical := only other (by simp [present])
    obtain rfl := Option.some.inj (found.symm.trans present)
    simp [Table.recordAt, decoded, Except.map]

/-- A query may list the entities of other verticals first. -/
def othersFirst (vertical : String) : TableWorld Data where
  arrange found := found.filter (·.partitionKey ≠ vertical) ++ found.filter (·.partitionKey = vertical)
  complete found := by
    simpa using List.filter_append_perm (fun record => decide (record.partitionKey ≠ vertical)) found

variable {codec} in
theorem readBack_other {table : Table Data} {vertical other indexName : String} {entry : IndexRegistryEntry}
    (present : table.row (other, indexName) ≠ none) (apart : other ≠ vertical)
    (read : readBack codec etags (othersFirst vertical) indexName table = .ok (some entry)) :
    ∃ owner row, owner ≠ vertical ∧ table.row (owner, indexName) = some row ∧
      codec.entityToEntry row.data = .ok entry := by
  obtain ⟨row, present⟩ := Option.ne_none_iff_exists'.mp present
  have member : Table.recordAt (other, indexName) row ∈
      (table.matching indexName).filter (·.partitionKey ≠ vertical) := by
    exact List.mem_filter.mpr ⟨table.mem_matching.mpr ⟨_, row, present, rfl, rfl⟩, decide_eq_true apart⟩
  rw [readBack_eq] at read
  cases listed : (table.matching indexName).filter (·.partitionKey ≠ vertical) with
  | nil =>
    rw [listed] at member
    simp at member
  | cons record rest =>
    have first : record ∈ (table.matching indexName).filter (·.partitionKey ≠ vertical) := by
      rw [listed]
      exact List.mem_cons_self
    obtain ⟨stored, owner⟩ := List.mem_filter.mp first
    obtain ⟨⟨partition, name⟩, row, found, rfl, rfl⟩ := table.mem_matching.mp stored
    simp only [othersFirst, listed, List.cons_append, Table.recordAt] at read
    refine ⟨partition, row, of_decide_eq_true owner, found, ?_⟩
    cases decoded : codec.entityToEntry row.data with
    | error e => simp [decoded, Except.map] at read
    | ok stored => simpa [decoded, Except.map] using read

variable (candidate) in
def NoTokenStored (indexName : String) (table : Table Data) : Prop :=
  ∀ vertical row entry, table.row (vertical, indexName) = some row → codec.entityToEntry row.data = .ok entry →
    ∀ i, entry.claimToken ≠ (candidate i).claimToken

section Winners

variable [DecidableEq ι] {codec etags} {indexName : String} (named : ∀ i, (candidate i).indexName = indexName)
  (distinct : Function.Injective fun i => (candidate i).claimToken) {table : Table Data}
  (unclaimed : NoTokenStored codec candidate indexName table)

include named distinct unclaimed

theorem won_created {schedule : List (ι × TableWorld Data)} {i : ι}
    (won : Won candidate (contest codec etags candidate table schedule) i) :
    table.row ((candidate i).vertical, indexName) = none ∧ ∃ row,
      (contest codec etags candidate table schedule).state.row
        ((candidate i).vertical, indexName) = some row ∧ row.data = codec.entryToEntityData (candidate i) := by
  obtain ⟨claimed, held⟩ := claimed_run codec etags candidate table schedule
  obtain ⟨entry, returned, own⟩ := won
  obtain ⟨row, found, decoded⟩ := held i entry returned
  simp only [tableKey, named] at found
  have late : table.row ((candidate i).vertical, indexName) ≠ some row := by
    intro early
    exact unclaimed _ row entry early decoded i own
  constructor
  next =>
    cases early : table.row ((candidate i).vertical, indexName) with
    | none => rfl
    | some first =>
      have kept := claimed.kept _ _ early
      rw [found] at kept
      exact absurd (early.trans kept.symm) late
  next =>
    refine ⟨row, found, ?_⟩
    obtain early | ⟨j, _, data⟩ := claimed.created _ _ found
    next => exact absurd early late
    next =>
      rw [data, codec.roundTrips] at decoded
      obtain rfl := Except.ok.inj decoded
      rw [data, distinct own]

theorem exclusive_of_oneKey (oneKey : OneKey candidate indexName table) (schedule : List (ι × TableWorld Data)) :
    Exclusive codec etags candidate indexName (contest codec etags candidate table schedule) := by
  obtain taken | ⟨free, alike⟩ := oneKey
  next =>
    have nobody (i : ι) (won : Won candidate (contest codec etags candidate table schedule) i) :
        False := taken i (won_created named distinct unclaimed won).1
    exact ⟨fun i _ won => (nobody i won).elim, fun i won => (nobody i won).elim⟩
  next =>
    obtain ⟨claimed, _⟩ := claimed_run codec etags candidate table schedule
    constructor
    next =>
      intro i j won won'
      obtain ⟨_, row, found, data⟩ := won_created named distinct unclaimed won
      obtain ⟨_, row', found', data'⟩ := won_created named distinct unclaimed won'
      rw [alike i j, found'] at found
      obtain rfl := Option.some.inj found
      have same : candidate i = candidate j := by
        simpa [data', codec.roundTrips] using congrArg codec.entityToEntry data.symm
      exact distinct (congrArg (·.claimToken) same)
    next =>
      intro i won w
      obtain ⟨_, row, found, data⟩ := won_created named distinct unclaimed won
      refine readBack_only etags found (by rw [data, codec.roundTrips]) (fun other present => ?_) w
      obtain ⟨stored, present⟩ := Option.ne_none_iff_exists'.mp present
      obtain early | ⟨j, key, _⟩ := claimed.created _ _ present
      next => simp [free] at early
      next =>
        rw [alike i j]
        exact congrArg Prod.fst key

variable (etags) in
omit named distinct unclaimed in
theorem register_wins {c : Registrants Data ι} {i : ι}
    (ready : c.threads i = (TableStorageIndexRegistry.register codec (candidate i)).run)
    (absent : c.state.row (tableKey (candidate i)) = none) (w : TableWorld Data) :
    (Pool.step (idealTable etags) i w c).threads i = .ret (.ok (candidate i)) ∧
      (Pool.step (idealTable etags) i w c).state =
        (c.state.install etags (tableKey (candidate i)) (codec.entryToEntityData (candidate i))).2 := by
  have created : idealTable etags w (.upsertEntity (candidate i).vertical (candidate i).indexName
      (codec.entryToEntityData (candidate i)) none) c.state =
        c.state.install etags (tableKey (candidate i)) (codec.entryToEntityData (candidate i)) :=
    c.state.upsert_create _ _ absent
  obtain ⟨next, same, wins⟩ : ∃ next, (TableStorageIndexRegistry.register codec (candidate i)).run =
      .op (.upsertEntity (candidate i).vertical (candidate i).indexName (codec.entryToEntityData (candidate i)) none)
        next ∧ ∀ etag, next (.ok etag) = .ret (.ok (candidate i)) := ⟨_, rfl, fun _ => rfl⟩
  rw [Pool.step_threads_self]
  simp only [Pool.step, ready, same, Prog.advance, created]
  exact ⟨wins _, trivial⟩

omit distinct unclaimed in
theorem two_winners {i j : ι} (free : ∀ vertical, table.row (vertical, indexName) = none)
    (apart : (candidate i).vertical ≠ (candidate j).vertical) :
    ∃ schedule, Won candidate (contest codec etags candidate table schedule) i ∧
      Won candidate (contest codec etags candidate table schedule) j := by
  have different : j ≠ i := by
    rintro rfl
    exact apart rfl
  have keyFree (k : ι) : table.row (tableKey (candidate k)) = none := by simp [tableKey, named, free]
  obtain ⟨first, state⟩ := register_wins etags (c := registrants codec candidate table) rfl (keyFree i) {}
  have still : (Pool.step (idealTable etags) i {} (registrants codec candidate table)).state.row
      (tableKey (candidate j)) = none := by
    have keys : tableKey (candidate j) ≠ tableKey (candidate i) := by simp [tableKey, Ne.symm apart]
    rw [state, Table.row_install, if_neg keys]
    exact keyFree j
  obtain ⟨second, _⟩ := register_wins etags (Pool.step_threads_other _ different _ _) still {}
  refine ⟨[(i, {}), (j, {})], ⟨candidate i, ?_, rfl⟩, ⟨candidate j, second, rfl⟩⟩
  exact (Pool.step_threads_other _ different.symm _ _).trans first

omit distinct in
theorem another_read {i : ι} {vertical : String} (free : table.row ((candidate i).vertical, indexName) = none)
    (present : table.row (vertical, indexName) ≠ none) :
    ∃ schedule w, Won candidate (contest codec etags candidate table schedule) i ∧
      readBack codec etags w indexName (contest codec etags candidate table schedule).state ≠
        .ok (some (candidate i)) := by
  obtain ⟨first, state⟩ := register_wins etags (c := registrants codec candidate table) rfl
    (by simpa [tableKey, named, registrants] using free) {}
  refine ⟨[(i, {})], othersFirst (candidate i).vertical, ⟨candidate i, first, rfl⟩, fun read => ?_⟩
  have apart : vertical ≠ (candidate i).vertical := by
    rintro rfl
    exact present free
  simp only [Pool.run, state] at read
  have kept (other : String) (other_ne : other ≠ (candidate i).vertical) :
      ((registrants codec candidate table).state.install etags (tableKey (candidate i))
        (codec.entryToEntityData (candidate i))).2.row (other, indexName) = table.row (other, indexName) := by
    simp [tableKey, other_ne, registrants]
  have still := (kept vertical apart).trans_ne present
  obtain ⟨owner, row, owner_ne, found, decoded⟩ := readBack_other etags still apart read
  rw [kept owner owner_ne] at found
  exact unclaimed owner row (candidate i) found decoded i rfl

omit distinct in
theorem oneKey_of_exclusive (exclusive : ∀ schedule, Exclusive codec etags candidate indexName
    (contest codec etags candidate table schedule)) : OneKey candidate indexName table := by
  by_contra broken
  simp only [OneKey, not_or, not_forall, not_and, ne_eq, not_not] at broken
  obtain ⟨⟨i, free⟩, crowded⟩ := broken
  by_cases empty : ∀ vertical, table.row (vertical, indexName) = none
  next =>
    obtain ⟨j, k, apart⟩ := crowded empty
    obtain ⟨schedule, won, won'⟩ := two_winners named empty apart
    have same := (exclusive schedule).oneWinner j k won won'
    exact apart (congrArg (fun i => (candidate i).vertical) same)
  next =>
    obtain ⟨vertical, present⟩ := not_forall.mp empty
    obtain ⟨schedule, w, won, read⟩ := another_read named unclaimed free present
    exact read ((exclusive schedule).readsWinner i won w)

end Winners

variable {codec etags} in
theorem claim_exclusive_iff [DecidableEq ι] {indexName : String} (named : ∀ i, (candidate i).indexName = indexName)
    (distinct : Function.Injective fun i => (candidate i).claimToken) {table : Table Data}
    (unclaimed : NoTokenStored codec candidate indexName table) :
    (∀ schedule, Exclusive codec etags candidate indexName
      (contest codec etags candidate table schedule)) ↔ OneKey candidate indexName table :=
  ⟨oneKey_of_exclusive named unclaimed, exclusive_of_oneKey named distinct unclaimed⟩

def rivals (verticals : Bool → String) : Bool → IndexRegistryEntry
  | false => sampleEntry (verticals false) "a"
  | true => sampleEntry (verticals true) "b"

theorem rivals_distinct (verticals : Bool → String) :
    Function.Injective fun i => (rivals verticals i).claimToken := by
  intro i j same
  cases i <;> cases j <;> simp [rivals, sampleEntry] at same ⊢

theorem rivals_noTokenStored {Data : Type} (codec : EntityCodec Data) (verticals : Bool → String) :
    NoTokenStored codec (rivals verticals) "policies" {} := by
  intro vertical row entry found
  simp [Table.row] at found

theorem claim_exclusive_in_one_vertical :
    OneKey (rivals fun _ => "hr") "policies" ({} : Table (EntryData IndexTemplate)) ∧
      ∀ schedule, Exclusive (entryCodec plainFormats) countedEtags (rivals fun _ => "hr") "policies"
        (Pool.run (idealTable countedEtags) schedule
          (registrants (entryCodec plainFormats) (rivals fun _ => "hr") {})) := by
  have oneKey : OneKey (rivals fun _ => "hr") "policies" ({} : Table (EntryData IndexTemplate)) :=
    .inr ⟨fun _ => rfl, by decide⟩
  exact ⟨oneKey, (claim_exclusive_iff (by decide) (rivals_distinct _) (rivals_noTokenStored _ _)).mpr oneKey⟩

def twoVerticals : Bool → String
  | false => "hr"
  | true => "legal"

theorem both_verticals_win :
    (∀ i, (rivals twoVerticals i).indexName = "policies") ∧
    Function.Injective (fun i => (rivals twoVerticals i).claimToken) ∧
    ¬ Exclusive (entryCodec plainFormats) countedEtags (rivals twoVerticals) "policies"
      (Pool.run (idealTable countedEtags) [(false, {}), (true, {})]
        (registrants (entryCodec plainFormats) (rivals twoVerticals) {})) := by
  refine ⟨by decide, rivals_distinct _, fun exclusive => ?_⟩
  have same := exclusive.oneWinner false true ⟨_, rfl, rfl⟩ ⟨_, rfl, rfl⟩
  simp at same

end Vestibule.Provisioning
