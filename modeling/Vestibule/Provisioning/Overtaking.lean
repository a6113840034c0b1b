import Vestibule.Library.Layers
import Vestibule.Provisioning.Backend
import Vestibule.Provisioning.Fleet

set_option autoImplicit false

namespace Vestibule.Provisioning

open Library

-- Workers run `ensure` on Table Storage, and others may act between any two backend calls. An update is
-- refused where another write has come between it and its read.

inductive BackendOp (Data : Type) where
  -- A backend call, and the call of the registry that it is made for.
  | table (call : RegistryCall) (o : TableOp Data)
  | host (o : Op)

def BackendOp.Res {Data : Type} : BackendOp Data → Type
  | table _ o => o.Res
  | host o => o.Res

abbrev BackendEffects (Data : Type) : Signature := ⟨BackendOp Data, BackendOp.Res⟩

variable {Data ι : Type} (codec : EntityCodec Data) (etags : Nat → String)

def madeFor (call : RegistryCall) (o : TableOp Data) : Prog (BackendEffects Data) o.Res := .op (.table call o) .ret

def onTableStorage : (o : Op) → Prog (BackendEffects Data) o.Res
  | .registry call => (TableStorageIndexRegistry.perform codec call).run.lower (madeFor call)
  | o => .op (.host o) .ret

def Classified {α : Type} : Except AdapterError α → Prop
  | .error (.provisioning e) => e.errorCode = indexProvisionerUnavailable ∨ e.errorCode = indexSchemaDrift
  | _ => True

structure Surroundings (Data : Type) where
  table : TableWorld Data
  host : World
  existing : Classified host.existing
  created : Classified host.created
  description : Classified host.description

def backend : Handler (BackendEffects Data) (Surroundings Data) (Table Data) := fun w o table =>
  match o with
  | .table _ o => idealTable etags w.table o table
  | .host o => ((service w.host o {}).1, table)

abbrev BackendDeed (Data ι : Type) := Deed (BackendEffects Data) ι (Table Data)

abbrev BackendRecord (Data ι : Type) := Chronicle (BackendEffects Data) ι (Table Data)

abbrev BackendState (Data ι : Type) := Table Data × BackendRecord Data ι

abbrev TableFleet (Data ι : Type) :=
  Pool (BackendEffects Data) (fun _ : ι => Except Raised IndexRegistryEntry) (BackendState Data ι)

def tableFleet (workers : ι → Worker) (table : Table Data) : TableFleet Data ι where
  threads i := ((workers i).provisioner.ensure (workers i).fuel (workers i).scenario).run.lower (onTableStorage codec)
  state := (table, [])

def ensuring [DecidableEq ι] (workers : ι → Worker) (table : Table Data) (schedule : List (ι × Surroundings Data)) :
    TableFleet Data ι :=
  Pool.runAs (Chronicle.recorded (backend etags)) schedule (tableFleet codec workers table)

def RegistryCall.isTouch : RegistryCall → Bool
  | touchVerified _ => true
  | _ => false

def wrote : BackendDeed Data ι → Option (String × String)
  | ⟨_, .table _ (.upsertEntity partitionKey rowKey _ _), .ok _, _, _⟩ => some (partitionKey, rowKey)
  | _ => none

/-- The key that a `touch_verified` comes to write. -/
def touches : BackendDeed Data ι → Option (String × String)
  | ⟨_, .table call (.upsertEntity partitionKey rowKey _ _), _, _, _⟩ =>
      if call.isTouch then some (partitionKey, rowKey) else none
  | _ => none

def queries : BackendDeed Data ι → Bool
  | ⟨_, .table _ (.query _), _, _, _⟩ => true
  | _ => false

section Record

variable [DecidableEq ι]

/-- What was done since the last query of `i`. -/
def sinceQuery (i : ι) (record : BackendRecord Data ι) : BackendRecord Data ι :=
  record.takeWhile fun deed => !(decide (deed.thread = i) && queries deed)

/-- The entity was written after the `touch_verified` that now comes to write it had read it. -/
def Overtaken (earlier : BackendRecord Data ι) (deed : BackendDeed Data ι) : Prop :=
  ∃ key ∈ touches deed, ∃ other ∈ sinceQuery deed.thread earlier, wrote other = some key

instance (earlier : BackendRecord Data ι) (deed : BackendDeed Data ι) : Decidable (Overtaken earlier deed) :=
  inferInstanceAs (Decidable (∃ key ∈ touches deed, ∃ other ∈ sinceQuery deed.thread earlier, wrote other = some key))

def NoneOvertaken (record : BackendRecord Data ι) : Prop :=
  Chronicle.Each (fun earlier deed => ¬ Overtaken earlier deed) record

instance (record : BackendRecord Data ι) : Decidable (NoneOvertaken record) :=
  inferInstanceAs (Decidable (Chronicle.Each _ record))

def OvertakenIn (i : ι) : BackendRecord Data ι → Prop
  | [] => False
  | deed :: earlier => deed.thread = i ∧ Overtaken earlier deed ∨ OvertakenIn i earlier

theorem noneOvertaken_iff (record : BackendRecord Data ι) : NoneOvertaken record ↔ ∀ i, ¬ OvertakenIn i record := by
  induction record with
  | nil => simp [NoneOvertaken, Chronicle.Each, OvertakenIn]
  | cons deed earlier ih =>
    simp only [NoneOvertaken, Chronicle.Each, OvertakenIn] at ih ⊢
    rw [ih]
    constructor
    next =>
      rintro ⟨inTime, before⟩ i (⟨_, overtaken⟩ | old)
      next => exact inTime overtaken
      next => exact before i old
    next =>
      intro each
      exact ⟨fun overtaken => each deed.thread (.inl ⟨rfl, overtaken⟩), fun i old => each i (.inr old)⟩

theorem overtakenIn_append {i : ι} {more record : BackendRecord Data ι} (others : ∀ deed ∈ more, deed.thread ≠ i) :
    OvertakenIn i (more ++ record) ↔ OvertakenIn i record := by
  induction more with
  | nil => rfl
  | cons deed rest ih =>
    have other : deed.thread ≠ i := others deed (by simp)
    simp only [List.cons_append, OvertakenIn, other, false_and, false_or]
    exact ih fun deed member => others deed (by simp [member])

theorem sinceQuery_append {i : ι} {more record : BackendRecord Data ι} (others : ∀ deed ∈ more, deed.thread ≠ i) :
    sinceQuery i (more ++ record) = more ++ sinceQuery i record := by
  apply List.takeWhile_append_of_pos
  intro deed member
  simp [others deed member]

end Record

structure Filed (table : Table Data) : Prop where
  keyed : ∀ key row, table.row key = some row →
    ∃ entry, codec.entityToEntry row.data = .ok entry ∧ key = (entry.vertical, entry.indexName)
  dated : ∀ key row, table.row key = some row → ∃ n < table.writes, row.etag = etags n

/-- What `more` made of a table: the rows that it wrote carry ETags of their own. -/
structure Since (more : BackendRecord Data ι) (s t : Table Data) : Prop where
  writes : s.writes ≤ t.writes
  kept : ∀ key, (∀ deed ∈ more, wrote deed ≠ some key) → t.row key = s.row key
  replaced : ∀ key, (∃ deed ∈ more, wrote deed = some key) →
    ∃ data n, s.writes ≤ n ∧ n < t.writes ∧ t.row key = some ⟨data, etags n⟩

variable {codec etags}

theorem filed_empty : Filed codec etags {} := by
  constructor <;> intro key row found <;> simp [Table.row] at found

theorem filed_upsert {table : Table Data} (filed : Filed codec etags table) (entry : IndexRegistryEntry)
    (etag : Option String) :
    Filed codec etags
      (table.upsert etags (entry.vertical, entry.indexName) (codec.entryToEntityData entry) etag).2 := by
  obtain ⟨e, same⟩ | same := table.upsert_cases (entry.vertical, entry.indexName) (codec.entryToEntityData entry)
    etags etag
  next => simpa [same] using filed
  next =>
    rw [same]
    constructor
    next =>
      intro key row found
      rw [Table.row_install] at found
      split at found
      next hit =>
        obtain rfl := Option.some.inj found
        exact ⟨entry, codec.roundTrips entry, hit⟩
      next => exact filed.keyed key row found
    next =>
      intro key row found
      rw [Table.row_install] at found
      split at found
      next =>
        obtain rfl := Option.some.inj found
        exact ⟨table.writes, Nat.lt_succ_self _, rfl⟩
      next =>
        obtain ⟨n, bound, same⟩ := filed.dated key row found
        exact ⟨n, Nat.lt_succ_of_lt bound, same⟩

theorem since_refl (s : Table Data) : Since etags ([] : BackendRecord Data ι) s s :=
  ⟨Nat.le_refl _, fun _ _ => rfl, by simp⟩

theorem since_trans {more most : BackendRecord Data ι} {s t u : Table Data} (first : Since etags more s t)
    (second : Since etags most t u) : Since etags (most ++ more) s u := by
  have early := first.writes
  have late := second.writes
  constructor
  next => omega
  next =>
    intro key untouched
    rw [second.kept key fun deed member => untouched deed (by simp [member])]
    exact first.kept key fun deed member => untouched deed (by simp [member])
  next =>
    rintro key ⟨deed, member, write⟩
    by_cases again : ∃ deed ∈ most, wrote deed = some key
    next =>
      obtain ⟨data, n, fresh, bound, replaced⟩ := second.replaced key again
      exact ⟨data, n, by omega, bound, replaced⟩
    next =>
      have old : deed ∈ more := (List.mem_append.mp member).resolve_left fun new => again ⟨deed, new, write⟩
      obtain ⟨data, n, fresh, bound, replaced⟩ := first.replaced key ⟨deed, old, write⟩
      refine ⟨data, n, fresh, by omega, ?_⟩
      rw [second.kept key fun deed member write => again ⟨deed, member, write⟩, replaced]

theorem Since.advances {more : BackendRecord Data ι} {s t : Table Data} (since : Since etags more s t) :
    Advances etags s t := by
  refine ⟨since.writes, fun key => ?_⟩
  by_cases written : ∃ deed ∈ more, wrote deed = some key
  next => exact .inr (since.replaced key written)
  next => exact .inl (since.kept key fun deed member write => written ⟨deed, member, write⟩)

def backendDeed (etags : Nat → String) (i : ι) (w : Surroundings Data) (o : BackendOp Data) (table : Table Data) :
    BackendDeed Data ι :=
  ⟨i, o, (backend etags w o table).1, table, (backend etags w o table).2⟩

theorem since_step (i : ι) (w : Surroundings Data) (o : BackendOp Data) (table : Table Data) :
    Since etags [backendDeed etags i w o table] table (backend etags w o table).2 := by
  have idle (silent : wrote (backendDeed etags i w o table) = none) (same : (backend etags w o table).2 = table) :
      Since etags [backendDeed etags i w o table] table (backend etags w o table).2 := by
    rw [same]
    exact ⟨Nat.le_refl _, fun _ _ => rfl, by simp [silent]⟩
  cases o with
  | host o => exact idle rfl rfl
  | table call o =>
    cases o with
    | getEntity partitionKey rowKey => exact idle rfl rfl
    | query rowKey => exact idle rfl rfl
    | now => exact idle rfl rfl
    | upsertEntity partitionKey rowKey data etag =>
      obtain ⟨e, failed⟩ | stored := table.upsert_cases (partitionKey, rowKey) data etags etag
      next =>
        apply idle
        next => simp only [wrote, backendDeed, backend, idealTable, failed]
        next => simp only [backend, idealTable, failed]
      next =>
        have write : wrote (backendDeed etags i w (.table call (.upsertEntity partitionKey rowKey data etag)) table) =
            some (partitionKey, rowKey) := by
          simp only [wrote, backendDeed, backend, idealTable, stored, Table.install]
        have after : (backend etags w (.table call (.upsertEntity partitionKey rowKey data etag)) table).2 =
            (table.install etags (partitionKey, rowKey) data).2 := by
          simp only [backend, idealTable, stored]
        rw [after]
        constructor
        next => exact Nat.le_succ _
        next =>
          intro key untouched
          have other : key ≠ (partitionKey, rowKey) := by
            rintro rfl
            exact untouched _ (by simp) write
          simp [other]
        next =>
          rintro key ⟨deed, member, same⟩
          obtain rfl := List.mem_singleton.mp member
          obtain rfl := Option.some.inj (write.symm.trans same)
          exact ⟨data, table.writes, Nat.le_refl _, Nat.lt_succ_self _, by simp⟩

section Treaty

variable [DecidableEq ι]

def Apart (etags : Nat → String) (i : ι) (s t : BackendState Data ι) : Prop :=
  ∃ more, t.2 = more ++ s.2 ∧ (∀ deed ∈ more, deed.thread ≠ i) ∧ Since etags more s.1 t.1

omit [DecidableEq ι] in
theorem apart_refl (i : ι) (s : BackendState Data ι) : Apart etags i s s := ⟨[], rfl, by simp, since_refl s.1⟩

omit [DecidableEq ι] in
theorem apart_trans {i : ι} {s t u : BackendState Data ι} (first : Apart etags i s t) (second : Apart etags i t u) :
    Apart etags i s u := by
  obtain ⟨more, same, others, since⟩ := first
  obtain ⟨most, same', others', since'⟩ := second
  refine ⟨most ++ more, by simp [same, same'], fun deed member => ?_, since_trans since since'⟩
  rcases List.mem_append.mp member with late | early
  next => exact others' deed late
  next => exact others deed early

variable (ι) in
def raceTreaty (codec : EntityCodec Data) (etags : Nat → String) : Treaty (BackendEffects Data) ι (Table Data) where
  inv s := Filed codec etags s.1
  rely := Apart etags
  permit i o s := ¬ OvertakenIn i s.2 ∧ ∀ w, Filed codec etags (backend etags w o s.1).2
  rely_refl := apart_refl
  rely_trans _ _ _ _ := apart_trans

theorem raceTreaty_sustained : (raceTreaty ι codec etags).Sustained (backend etags) := by
  constructor
  next => exact fun i o w s _ permitted => permitted.2 w
  next =>
    intro i j other o w s _ _
    exact ⟨[backendDeed etags i w o s.1], rfl, by simpa [backendDeed] using other.symm, since_step i w o s.1⟩

abbrev raceContract (codec : EntityCodec Data) (etags : Nat → String) (i : ι) :
    Contract (BackendEffects Data) (Surroundings Data) (BackendState Data ι) :=
  (raceTreaty ι codec etags).contract (backend etags) i

/-- What a thread that was not overtaken in between can count on. -/
structure Unharmed (etags : Nat → String) (i : ι) (s t : BackendState Data ι) : Prop where
  advances : Advances etags s.1 t.1
  overtaken : OvertakenIn i t.2 ↔ OvertakenIn i s.2

theorem Unharmed.trans {i : ι} {s t u : BackendState Data ι} (first : Unharmed etags i s t)
    (second : Unharmed etags i t u) : Unharmed etags i s u :=
  ⟨advances_trans first.advances second.advances, second.overtaken.trans first.overtaken⟩

theorem Unharmed.inTime {i : ι} {s t : BackendState Data ι} (unharmed : Unharmed etags i s t)
    (inTime : ¬ OvertakenIn i s.2) : ¬ OvertakenIn i t.2 :=
  fun lost => inTime (unharmed.overtaken.mp lost)

theorem unharmed_apart {i : ι} {s t : BackendState Data ι} (apart : Apart etags i s t) : Unharmed etags i s t := by
  obtain ⟨more, same, others, since⟩ := apart
  refine ⟨since.advances, ?_⟩
  rw [same]
  exact overtakenIn_append others

theorem unharmed_step {i : ι} {s : BackendState Data ι} {w : Surroundings Data} {o : BackendOp Data}
    (inTime : ¬ Overtaken s.2 (backendDeed etags i w o s.1)) :
    Unharmed etags i s (Chronicle.recorded (backend etags) i w o s).2 := by
  refine ⟨(since_step i w o s.1).advances, ?_⟩
  have added : OvertakenIn i (backendDeed etags i w o s.1 :: s.2) ↔ OvertakenIn i s.2 := by
    simp [OvertakenIn, inTime]
  exact added

theorem unharmed_plain {i : ι} {s : BackendState Data ι} {w : Surroundings Data} {o : BackendOp Data}
    (plain : touches (backendDeed etags i w o s.1) = none) :
    Unharmed etags i s (Chronicle.recorded (backend etags) i w o s).2 := by
  apply unharmed_step
  rintro ⟨key, touched, _⟩
  simp [plain] at touched

end Treaty

section Calls

variable [DecidableEq ι] {call : RegistryCall} {i : ι} {s : BackendState Data ι}

def callContract (codec : EntityCodec Data) (etags : Nat → String) (call : RegistryCall) (i : ι) :
    Contract (TableEffects Data) (Surroundings Data) (BackendState Data ι) where
  handler w o s := (raceContract codec etags i).handler w (.table call o) s
  inv := (raceContract codec etags i).inv
  rely := (raceContract codec etags i).rely
  permit o := (raceContract codec etags i).permit (.table call o)
  rely_refl := (raceContract codec etags i).rely_refl
  rely_trans := (raceContract codec etags i).rely_trans

theorem kept_madeFor {α : Type} {p : Prog (TableEffects Data) α} {Q : α → BackendState Data ι → Prop}
    (kept : (callContract codec etags call i).Kept p Q s) :
    (raceContract codec etags i).Kept (p.lower (madeFor call)) Q s := by
  induction p generalizing s with
  | ret value => exact kept
  | op o next ih =>
    intro t later sound
    obtain ⟨permitted, continued⟩ := kept t later sound
    exact ⟨permitted, fun w => ih _ (continued w)⟩

variable {α : Type} {ok : α → BackendState Data ι → Prop} {raised : ProvisioningError → BackendState Data ι → Prop}

theorem keeps_call {o : TableOp Data} {decode : o.Res → Except ProvisioningError α} (inTime : ¬ OvertakenIn i s.2)
    (filed : ∀ w table, Filed codec etags table → Filed codec etags (idealTable etags w o table).2)
    (continued : ∀ t w u, Apart etags i s t → Filed codec etags t.1 →
      Apart etags i (Chronicle.recorded (backend etags) i w (.table call o) t).2 u →
      Contract.ends ok raised (decode (idealTable etags w.table o t.1).1) u) :
    (callContract codec etags call i).KeptRun (ExceptT.mk (.op o fun answer => .ret (decode answer))) ok raised s := by
  intro t apart sound
  have still := (unharmed_apart apart).inTime inTime
  exact ⟨⟨still, fun w => filed w.table t.1 sound⟩, fun w u more => continued t w u apart sound more⟩

-- A backend call that is no write of `touch_verified`.
theorem keeps_plain {o : TableOp Data} {decode : o.Res → Except ProvisioningError α} (inTime : ¬ OvertakenIn i s.2)
    (plain : ∀ answer before after, touches (⟨i, .table call o, answer, before, after⟩ : BackendDeed Data ι) = none)
    (filed : ∀ w table, Filed codec etags table → Filed codec etags (idealTable etags w o table).2)
    (continued : ∀ w table u, Filed codec etags table → Advances etags s.1 table →
      Advances etags (idealTable etags w o table).2 u.1 → Unharmed etags i s u →
      Contract.ends ok raised (decode (idealTable etags w o table).1) u) :
    (callContract codec etags call i).KeptRun (ExceptT.mk (.op o fun answer => .ret (decode answer))) ok raised s := by
  apply keeps_call inTime filed
  intro t w u apart sound later
  have own : Unharmed etags i t (Chronicle.recorded (backend etags) i w (.table call o) t).2 :=
    unharmed_plain (plain _ _ _)
  have before := unharmed_apart apart
  have after := unharmed_apart later
  exact continued w.table t.1 u sound before.advances after.advances (before.trans (own.trans after))

omit [DecidableEq ι] in
theorem query_found {table : Table Data} (filed : Filed codec etags table) (w : TableWorld Data) (indexName : String) :
    (w.arrange (table.matching indexName) = [] ∧ ∀ vertical, table.row (vertical, indexName) = none) ∨
    ∃ entry row rest, table.row (entry.vertical, indexName) = some row ∧ entry.indexName = indexName ∧
      codec.entityToEntry row.data = .ok entry ∧
      w.arrange (table.matching indexName) = Table.recordAt (entry.vertical, indexName) row :: rest := by
  cases found : w.arrange (table.matching indexName) with
  | nil => exact .inl ⟨rfl, absent_of_query_nil found⟩
  | cons record rest =>
    obtain ⟨vertical, row, present, rfl⟩ := present_of_query_cons found
    obtain ⟨entry, decoded, keys⟩ := filed.keyed _ row present
    obtain ⟨rfl, rfl⟩ := Prod.mk.inj keys
    exact .inr ⟨entry, row, rest, present, rfl, decoded, rfl⟩

theorem get_answers (indexName : String) (inTime : ¬ OvertakenIn i s.2) :
    (callContract codec etags call i).KeptRun (TableStorageIndexRegistry.get codec indexName)
      (fun found t => (∀ entry ∈ found, ∃ vertical row, t.1.row (vertical, entry.indexName) = some row) ∧
        Unharmed etags i s t)
      (fun _ _ => False) s := by
  apply Contract.keptRun_bind
  apply keeps_plain (o := .query indexName) inTime (fun _ _ _ => rfl) (fun _ _ filed => filed)
  intro w table u filed _ later unharmed
  simp only [idealTable] at later ⊢
  obtain ⟨empty, _⟩ | ⟨entry, row, rest, present, named, decoded, first⟩ := query_found filed w indexName
  next =>
    simp only [empty]
    exact Contract.keptRun_pure fun t more => ⟨by simp, unharmed.trans (unharmed_apart more)⟩
  next =>
    simp only [first, Contract.ends, Table.recordAt, decoded]
    refine Contract.keptRun_pure fun t more => ⟨?_, unharmed.trans (unharmed_apart more)⟩
    intro found same
    obtain rfl : entry = found := Option.some.inj same
    obtain ⟨row, still⟩ := present_later (advances_trans later (unharmed_apart more).advances) present
    exact ⟨entry.vertical, row, by rw [named]; exact still⟩

omit [DecidableEq ι] in
theorem touches_upsert (plain : call.isTouch = false) (partitionKey rowKey : String) (data : Data)
    (etag : Option String) (answer : Except HttpResponseError String) (before after : Table Data) :
    touches (⟨i, .table call (.upsertEntity partitionKey rowKey data etag), answer, before, after⟩ :
      BackendDeed Data ι) = none := by
  simp [touches, plain]

theorem register_answers (plain : call.isTouch = false) (entry : IndexRegistryEntry) (inTime : ¬ OvertakenIn i s.2) :
    (callContract codec etags call i).KeptRun (TableStorageIndexRegistry.register codec entry)
      (fun _ t => Unharmed etags i s t) (fun _ _ => False) s := by
  apply Contract.keptRun_tryCatch
  apply Contract.keptRun_bind
  apply keeps_plain (o := .upsertEntity entry.vertical entry.indexName (codec.entryToEntityData entry) none) inTime
    (touches_upsert plain _ _ _ _) (fun _ _ filed => filed_upsert filed entry none)
  intro w table u filed _ later unharmed
  simp only [idealTable] at later ⊢
  cases found : table.row (entry.vertical, entry.indexName) with
  | none =>
    simp only [table.upsert_create _ _ found, Table.install]
    exact Contract.keptRun_pure fun t more => unharmed.trans (unharmed_apart more)
  | some row =>
    rw [table.upsert_taken _ _ found] at later ⊢
    simp only [Except.mapError, Contract.ends, mapStatus, conflictStatusCodes, Option.any_some, List.mem_cons, true_or,
      decide_true, if_true, ne_eq, not_true_eq_false, if_false]
    apply Contract.keptRun_bind
    apply keeps_plain (o := .getEntity entry.vertical entry.indexName)
      (unharmed.inTime inTime) (fun _ _ _ => rfl) (fun _ _ filed => filed)
    intro w' table' u' filed' more _ unharmed'
    -- Whoever took the key, its entity is still there to be read.
    obtain ⟨row', present⟩ := present_later (advances_trans later more) found
    obtain ⟨stored, decoded, _⟩ := filed'.keyed _ row' present
    simp only [idealTable, Table.entity, present, Option.map_some, Contract.ends, Table.recordAt, decoded]
    exact Contract.keptRun_pure fun t most => unharmed.trans (unharmed'.trans (unharmed_apart most))

theorem reclaim_answers (plain : call.isTouch = false) {indexName : String} {observed newEntry : IndexRegistryEntry}
    (named : newEntry.indexName = indexName) (inTime : ¬ OvertakenIn i s.2) :
    (callContract codec etags call i).KeptRun (TableStorageIndexRegistry.reclaim codec indexName observed newEntry)
      (fun _ t => Unharmed etags i s t) (fun _ t => Unharmed etags i s t) s := by
  subst named
  apply Contract.keptRun_bind
  apply keeps_plain (o := .getEntity observed.vertical newEntry.indexName) inTime (fun _ _ _ => rfl)
    (fun _ _ filed => filed)
  intro w table u filed _ _ unharmed
  simp only [idealTable, Table.entity]
  cases found : table.row (observed.vertical, newEntry.indexName) with
  | none => exact Contract.keptRun_throw fun t more => unharmed.trans (unharmed_apart more)
  | some row =>
    obtain ⟨stored, decoded, _⟩ := filed.keyed _ row found
    simp only [Option.map_some, Contract.ends, Table.recordAt, decoded]
    apply Contract.keptRun_bind
    refine Contract.keptRun_pure fun t more => ?_
    have unharmed := unharmed.trans (unharmed_apart more)
    by_cases same : stored = observed
    next =>
      simp only [same, ne_eq, not_true_eq_false, if_false]
      apply Contract.keptRun_bind
      apply keeps_plain
        (o := .upsertEntity newEntry.vertical newEntry.indexName (codec.entryToEntityData newEntry) (some row.etag))
        (unharmed.inTime inTime) (touches_upsert plain _ _ _ _)
        (fun _ _ filed => filed_upsert filed newEntry _)
      intro w' table' u' _ _ _ unharmed'
      simp only [idealTable]
      cases (table'.upsert etags (newEntry.vertical, newEntry.indexName) (codec.entryToEntityData newEntry)
        (some row.etag)).1 with
      | ok etag => exact Contract.keptRun_pure fun t most => unharmed.trans (unharmed'.trans (unharmed_apart most))
      | error e => exact unharmed.trans unharmed'
    next =>
      simp only [same, ne_eq, not_false_eq_true, if_true]
      exact Contract.keptRun_throw fun t more => unharmed.trans (unharmed_apart more)

def Remembers (codec : EntityCodec Data) (etags : Nat → String) (i : ι) (key : String × String) (row : Row Data)
    (t : BackendState Data ι) : Prop :=
  ∃ table, Filed codec etags table ∧ table.row key = some row ∧ Since etags (sinceQuery i t.2) table t.1

variable {key : String × String} {row : Row Data}

theorem Remembers.apart {t : BackendState Data ι} (remembers : Remembers codec etags i key row s)
    (apart : Apart etags i s t) : Remembers codec etags i key row t := by
  obtain ⟨table, filed, present, since⟩ := remembers
  obtain ⟨more, same, others, later⟩ := apart
  refine ⟨table, filed, present, ?_⟩
  rw [same, sinceQuery_append others]
  exact since_trans since later

theorem Remembers.step {w : Surroundings Data} {o : BackendOp Data}
    (silent : queries (backendDeed etags i w o s.1) = false) (remembers : Remembers codec etags i key row s) :
    Remembers codec etags i key row (Chronicle.recorded (backend etags) i w o s).2 := by
  obtain ⟨table, filed, present, since⟩ := remembers
  have longer : sinceQuery i (backendDeed etags i w o s.1 :: s.2) =
      [backendDeed etags i w o s.1] ++ sinceQuery i s.2 := by
    simp [sinceQuery, silent]
  have later : Since etags (sinceQuery i (backendDeed etags i w o s.1 :: s.2)) table (backend etags w o s.1).2 := by
    rw [longer]
    exact since_trans since (since_step i w o s.1)
  exact ⟨table, filed, present, later⟩

/-- An update that came to nothing; one of `touch_verified` did so because it was overtaken. -/
structure Refused (etags : Nat → String) (call : RegistryCall) (i : ι) (s : BackendState Data ι)
    (e : ProvisioningError) (t : BackendState Data ι) : Prop where
  conflict : e.errorCode = indexProvisionConflict
  advances : Advances etags s.1 t.1
  overtaken : OvertakenIn i t.2 ↔ call.isTouch = true

theorem update_answers (fresh : Function.Injective etags) {entry : IndexRegistryEntry}
    (remembers : Remembers codec etags i (entry.vertical, entry.indexName) row s) (inTime : ¬ OvertakenIn i s.2) :
    (callContract codec etags call i).KeptRun
      (TablePy.upsertEntity entry.vertical entry.indexName (codec.entryToEntityData entry) (some row.etag))
      (fun _ t => Unharmed etags i s t) (Refused etags call i s) s := by
  apply keeps_call
    (o := .upsertEntity entry.vertical entry.indexName (codec.entryToEntityData entry) (some row.etag)) inTime
    (fun _ _ filed => filed_upsert filed entry _)
  intro t w u apart _ later
  obtain ⟨table, filed, present, since⟩ := remembers.apart apart
  have before := unharmed_apart apart
  have after := unharmed_apart later
  by_cases written : ∃ deed ∈ sinceQuery i t.2, wrote deed = some (entry.vertical, entry.indexName)
  next =>
    obtain ⟨data, n, late, _, replaced⟩ := since.replaced _ written
    obtain ⟨m, early, dated⟩ := filed.dated _ row present
    have stale : (⟨data, etags n⟩ : Row Data).etag ≠ row.etag := by
      intro same
      have numbers : n = m := fresh (same.trans dated)
      omega
    have still := before.inTime inTime
    simp only [idealTable, t.1.upsert_stale _ _ replaced stale]
    refine ⟨rfl, ?_, ?_⟩
    next => exact advances_trans before.advances (advances_trans (since_step i w _ t.1).advances after.advances)
    next =>
      rw [after.overtaken]
      simp only [Chronicle.recorded, OvertakenIn, still, or_false, true_and, Overtaken, touches]
      cases touch : call.isTouch with
      | true => simpa using written
      | false => simp
  next =>
    have current : t.1.row (entry.vertical, entry.indexName) = some row := by
      rw [since.kept _ fun deed member write => written ⟨deed, member, write⟩]
      exact present
    have own : Unharmed etags i t (Chronicle.recorded (backend etags) i w (.table call
        (.upsertEntity entry.vertical entry.indexName (codec.entryToEntityData entry) (some row.etag))) t).2 := by
      apply unharmed_step
      rintro ⟨key, touched, other, member, write⟩
      cases touch : call.isTouch with
      | true =>
        obtain rfl : (entry.vertical, entry.indexName) = key := by simpa [touches, backendDeed, touch] using touched
        exact written ⟨other, member, write⟩
      | false => simp [touches, backendDeed, touch] at touched
    simp only [idealTable, t.1.upsert_current _ _ current, Table.install]
    exact before.trans (own.trans after)

theorem requireRecord_answers (indexName : String) (inTime : ¬ OvertakenIn i s.2) :
    (callContract codec etags call i).KeptRun (TableStorageIndexRegistry.requireRecord indexName)
      (fun record t => ∃ entry row, record = Table.recordAt (entry.vertical, entry.indexName) row ∧
        entry.indexName = indexName ∧ codec.entityToEntry row.data = .ok entry ∧
        Remembers codec etags i (entry.vertical, entry.indexName) row t ∧ Unharmed etags i s t)
      (fun e t => e.errorCode = indexProvisionConflict ∧ (∀ vertical, s.1.row (vertical, indexName) = none) ∧
        Unharmed etags i s t) s := by
  apply Contract.keptRun_bind
  apply keeps_call (o := .query indexName) inTime (fun _ _ filed => filed)
  intro t w u apart filed later
  have before := unharmed_apart apart
  have own : Unharmed etags i t (Chronicle.recorded (backend etags) i w (.table call (.query indexName)) t).2 :=
    unharmed_plain rfl
  have unharmed := before.trans (own.trans (unharmed_apart later))
  simp only [idealTable]
  obtain ⟨empty, absent⟩ | ⟨entry, row, rest, present, rfl, decoded, first⟩ := query_found filed w.table indexName
  next =>
    simp only [empty]
    refine Contract.keptRun_throw fun t' more => ⟨rfl, fun vertical => ?_, unharmed.trans (unharmed_apart more)⟩
    by_contra present
    obtain ⟨row, present⟩ := Option.ne_none_iff_exists'.mp present
    obtain ⟨row', present'⟩ := present_later before.advances present
    simp [absent vertical] at present'
  next =>
    simp only [first]
    refine Contract.keptRun_pure fun t' more => ?_
    refine ⟨entry, row, rfl, rfl, decoded, ?_, unharmed.trans (unharmed_apart more)⟩
    have read : Remembers codec etags i (entry.vertical, entry.indexName) row
        (Chronicle.recorded (backend etags) i w (.table call (.query entry.indexName)) t).2 := by
      refine ⟨t.1, filed, present, ?_⟩
      have nothing : sinceQuery i (Chronicle.recorded (backend etags) i w
          (.table call (.query entry.indexName)) t).2.2 = [] := by
        simp [Chronicle.recorded, sinceQuery, queries]
      rw [nothing]
      exact since_refl t.1
    exact (read.apart later).apart more

/-- The keys of the entry are left alone, and nothing that was read is forgotten. -/
structure Revising (codec : EntityCodec Data) (etags : Nat → String) (i : ι) (s : BackendState Data ι)
    (revise : IndexRegistryEntry → IndexRegistryEntry) (t : BackendState Data ι) : Prop where
  vertical : ∀ entry, (revise entry).vertical = entry.vertical
  indexName : ∀ entry, (revise entry).indexName = entry.indexName
  unharmed : Unharmed etags i s t
  remembered : ∀ {key row}, Remembers codec etags i key row s → Remembers codec etags i key row t

theorem atTime_answers {revise : DateTime → IndexRegistryEntry → IndexRegistryEntry}
    (vertical : ∀ now entry, (revise now entry).vertical = entry.vertical)
    (indexName : ∀ now entry, (revise now entry).indexName = entry.indexName) (inTime : ¬ OvertakenIn i s.2) :
    (callContract codec etags call i).KeptRun (TableStorageIndexRegistry.atTime revise)
      (Revising codec etags i s) (fun _ _ => False) s := by
  apply Contract.keptRun_bind
  apply keeps_call (o := .now) inTime (fun _ _ filed => filed)
  intro t w u apart _ later
  have own : Unharmed etags i t (Chronicle.recorded (backend etags) i w (.table call .now) t).2 :=
    unharmed_plain rfl
  refine Contract.keptRun_pure fun t' more => ⟨vertical w.table.now, indexName w.table.now, ?_, fun remembers => ?_⟩
  next => exact (unharmed_apart apart).trans (own.trans ((unharmed_apart later).trans (unharmed_apart more)))
  next => exact (((remembers.apart apart).step rfl).apart later).apart more

theorem pure_answers {revise : IndexRegistryEntry → IndexRegistryEntry}
    (vertical : ∀ entry, (revise entry).vertical = entry.vertical)
    (indexName : ∀ entry, (revise entry).indexName = entry.indexName) :
    (callContract codec etags call i).KeptRun (pure revise : TablePy Data (IndexRegistryEntry → IndexRegistryEntry))
      (Revising codec etags i s) (fun _ _ => False) s :=
  Contract.keptRun_pure fun _ more => ⟨vertical, indexName, unharmed_apart more, fun remembers => remembers.apart more⟩

theorem amend_answers (fresh : Function.Injective etags) {indexName : String} {expected : Option String}
    {revision : TablePy Data (IndexRegistryEntry → IndexRegistryEntry)}
    (revises : ∀ s : BackendState Data ι, ¬ OvertakenIn i s.2 → (callContract codec etags call i).KeptRun revision
      (Revising codec etags i s) (fun _ _ => False) s)
    (known : call.isTouch = true → expected = none ∧ ∃ vertical row, s.1.row (vertical, indexName) = some row)
    (inTime : ¬ OvertakenIn i s.2) :
    (callContract codec etags call i).KeptRun (TableStorageIndexRegistry.amend codec indexName expected revision)
      (fun _ t => Unharmed etags i s t) (Refused etags call i s) s := by
  -- What a call that gives up before its write leaves behind.
  have givenUp (e : ProvisioningError) (t : BackendState Data ι) (conflict : e.errorCode = indexProvisionConflict)
      (unharmed : Unharmed etags i s t) (other : call.isTouch = false) : Refused etags call i s e t :=
    ⟨conflict, unharmed.advances, by simp [unharmed.overtaken, inTime, other]⟩
  apply Contract.keptRun_bind
  refine Contract.kept_mono (fun result t ended => ?_) (requireRecord_answers indexName inTime)
  cases result with
  | error e =>
    obtain ⟨conflict, absent, unharmed⟩ := ended
    apply givenUp e t conflict unharmed
    by_contra touch
    obtain ⟨_, vertical, row, present⟩ := known (by simpa using touch)
    simp [absent vertical] at present
  | ok record =>
    obtain ⟨entry, row, rfl, rfl, decoded, remembers, unharmed⟩ := ended
    simp only [Contract.ends, Table.recordAt, decoded]
    apply Contract.keptRun_bind
    refine Contract.keptRun_pure fun u later => ?_
    have unharmed := unharmed.trans (unharmed_apart later)
    cases checked : checkClaimToken entry expected with
    | error e =>
      obtain rfl := checkClaimToken_error checked
      refine Contract.keptRun_throw fun v more => givenUp _ v rfl (unharmed.trans (unharmed_apart more)) ?_
      by_contra touch
      obtain ⟨rfl, _⟩ := known (by simpa using touch)
      simp [checkClaimToken] at checked
    | ok =>
      apply Contract.keptRun_bind
      refine Contract.keptRun_pure fun v more => ?_
      have unharmed := unharmed.trans (unharmed_apart more)
      apply Contract.keptRun_bind
      refine Contract.kept_mono (fun result x ended => ?_) (revises v (unharmed.inTime inTime))
      cases result with
      | error e => exact ended.elim
      | ok revise =>
        have unharmed := unharmed.trans ended.unharmed
        have remembers := ended.remembered ((remembers.apart later).apart more)
        have still := unharmed.inTime inTime
        simp only [Contract.ends]
        rw [← ended.vertical entry, ← ended.indexName entry] at remembers
        rw [← ended.vertical entry, ← ended.indexName entry]
        apply Contract.keptRun_bind
        refine Contract.kept_mono (fun result y ended => ?_) (update_answers fresh remembers still)
        cases result with
        | ok etag => exact Contract.keptRun_pure fun z latest => unharmed.trans (ended.trans (unharmed_apart latest))
        | error e => exact ⟨ended.conflict, advances_trans unharmed.advances ended.advances, ended.overtaken⟩

end Calls

end Vestibule.Provisioning
