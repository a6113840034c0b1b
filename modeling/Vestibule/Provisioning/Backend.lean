import Vestibule.Library.Rely
import Vestibule.Provisioning.TableStorage

set_option autoImplicit false

namespace Vestibule.Provisioning

open Library

-- Each call takes effect at one of its backend calls: at its write, or at its read if it only reads. What
-- it checked at an earlier read still holds at the write, because the ETag has not changed.

variable {Data ι : Type} (codec : EntityCodec Data) (etags : Nat → String) (verticalOf : String → String)

abbrev TableDeed (Data ι : Type) := Deed (TableEffects Data) ι (Table Data)

abbrev TableRecord (Data ι : Type) := Chronicle (TableEffects Data) ι (Table Data)

abbrev TableState (Data ι : Type) := Table Data × TableRecord Data ι

/-- A call on the in-memory registry, at a given time. -/
abbrev Atomic (Value : Type) :=
  DateTime → InMemoryIndexRegistry → Except ProvisioningError Value × InMemoryIndexRegistry

abbrev atomically (call : RegistryCall) : Atomic call.Value := fun now registry => registry.perform now call

/-- Every entity is one that the registry wrote, and each index name has its one vertical. -/
structure Aligned (table : Table Data) : Prop where
  keyed : ∀ key row, table.row key = some row → key.1 = verticalOf key.2 ∧
    ∃ entry, codec.entityToEntry row.data = .ok entry ∧ entry.vertical = key.1
  dated : ∀ key row, table.row key = some row → ∃ n < table.writes, row.etag = etags n

def entryAt (table : Table Data) (indexName : String) : Option IndexRegistryEntry :=
  (table.row (verticalOf indexName, indexName)).bind fun row => (codec.entityToEntry row.data).toOption

def Represents (registry : InMemoryIndexRegistry) (table : Table Data) : Prop :=
  ∀ indexName, registry.get indexName = entryAt codec verticalOf table indexName

def written : TableDeed Data ι → Option IndexRegistryEntry
  | ⟨_, .upsertEntity _ _ data _, .ok _, _, _⟩ => (codec.entityToEntry data).toOption
  | _ => none

def fetched : TableDeed Data ι → Option IndexRegistryEntry
  | ⟨_, .getEntity _ _, found, _, _⟩ => found.bind fun record => (codec.entityToEntry record.data).toOption
  | _ => none

def listed : TableDeed Data ι → Option (Option IndexRegistryEntry)
  | ⟨_, .query _, found, _, _⟩ =>
      some (found.head?.bind fun record => (codec.entityToEntry record.data).toOption)
  | _ => none

def effectOf : (call : RegistryCall) → TableDeed Data ι → Option call.Value
  | .get _, deed => listed codec deed
  | .register _, deed => (written codec deed).or (fetched codec deed)
  | .reclaim _ _ _, deed => written codec deed
  | .touchVerified _, deed => written codec deed
  | .markReady _ _, deed => written codec deed
  | .markFailed _ _ _, deed => written codec deed
  | .markRetired _, deed => written codec deed

def effects [DecidableEq ι] {Value : Type} (effect : TableDeed Data ι → Option Value) (i : ι)
    (record : TableRecord Data ι) : List Value :=
  (record.filter (·.thread = i)).filterMap effect

/-- The calls, in the order in which they take effect, are what the in-memory registry goes through. -/
inductive Sequential (calls : ι → RegistryCall) (start : InMemoryIndexRegistry) :
    TableRecord Data ι → InMemoryIndexRegistry → Prop where
  | start : Sequential calls start [] start
  | effect {earlier : TableRecord Data ι} {registry registry' : InMemoryIndexRegistry} (deed : TableDeed Data ι)
      (now : DateTime) (value : (calls deed.thread).Value) (before : Sequential calls start earlier registry)
      (takes : effectOf codec (calls deed.thread) deed = some value)
      (performed : registry.perform now (calls deed.thread) = (.ok value, registry')) :
      Sequential calls start (deed :: earlier) registry'
  | silent {earlier : TableRecord Data ι} {registry : InMemoryIndexRegistry} (deed : TableDeed Data ι)
      (before : Sequential calls start earlier registry) (idle : effectOf codec (calls deed.thread) deed = none) :
      Sequential calls start (deed :: earlier) registry

section Treaty

variable {Value : Type} (effect : TableDeed Data ι → Option Value)
  (performs : Atomic Value)

/-- Either nothing changes, or the in-memory registry does the same in one step. -/
def Justified (deed : TableDeed Data ι) : Prop :=
  match effect deed with
  | none => deed.after = deed.before
  | some value => ∃ now, ∀ registry, Represents codec verticalOf registry deed.before →
      ∃ registry', performs now registry = (.ok value, registry') ∧ Represents codec verticalOf registry' deed.after

def deedOf (i : ι) (w : TableWorld Data) (o : TableOp Data) (table : Table Data) : TableDeed Data ι :=
  ⟨i, o, (idealTable etags w o table).1, table, (idealTable etags w o table).2⟩

/-- A call turns to the backend only until it has taken effect. -/
def Permitted [DecidableEq ι] (i : ι) (o : TableOp Data) (s : TableState Data ι) : Prop :=
  effects effect i s.2 = [] ∧ ∀ w, Justified codec verticalOf effect performs (deedOf etags i w o s.1) ∧
    Aligned codec etags verticalOf (idealTable etags w o s.1).2

abbrev Meanwhile (i : ι) (s t : TableState Data ι) : Prop := Chronicle.Meanwhile (Advances etags) i s t

variable {etags}

theorem advances_step (w : TableWorld Data) (o : TableOp Data) (table : Table Data) :
    Advances etags table (idealTable etags w o table).2 := by
  cases o with
  | upsertEntity partitionKey rowKey data etag => exact advances_upsert table (partitionKey, rowKey) data etag
  | _ => exact advances_refl table

theorem meanwhile_refl (i : ι) (s : TableState Data ι) : Meanwhile etags i s s :=
  Chronicle.meanwhile_refl advances_refl s

theorem meanwhile_trans {i : ι} {s t u : TableState Data ι} (first : Meanwhile etags i s t)
    (second : Meanwhile etags i t u) : Meanwhile etags i s u := by
  apply Chronicle.meanwhile_trans _ first second
  exact fun _ _ _ => advances_trans

variable (etags)

/-- What binds the thread `i`, given what its call does to the in-memory registry. -/
def duty [DecidableEq ι] (inv : TableState Data ι → Prop) (i : ι) :
    Contract (TableEffects Data) (TableWorld Data) (TableState Data ι) where
  handler := Chronicle.recorded (idealTable etags) i
  inv := inv
  rely := Meanwhile etags i
  permit := Permitted codec etags verticalOf effect performs i
  rely_refl := meanwhile_refl i
  rely_trans := meanwhile_trans

end Treaty

variable [DecidableEq ι]

theorem effects_meanwhile {Value : Type} (effect : TableDeed Data ι → Option Value) {i : ι}
    {s t : TableState Data ι} (meanwhile : Meanwhile etags i s t) :
    effects effect i t.2 = effects effect i s.2 := by
  obtain ⟨more, same, others⟩ := meanwhile.others
  have none : more.filter (·.thread = i) = [] := by
    rw [List.filter_eq_nil_iff]
    intro deed member
    simpa using others deed member
  simp [effects, same, none]

theorem effects_own {Value : Type} (effect : TableDeed Data ι → Option Value) {i : ι} {w : TableWorld Data}
    {o : TableOp Data} {s : TableState Data ι} :
    effects effect i (Chronicle.recorded (idealTable etags) i w o s).2.2 =
      (effect (deedOf etags i w o s.1)).toList ++ effects effect i s.2 := by
  simp only [effects, Chronicle.recorded, deedOf, List.filter_cons, decide_true, if_true, List.filterMap_cons]
  cases effect ⟨i, o, (idealTable etags w o s.1).1, s.1, (idealTable etags w o s.1).2⟩ <;> rfl

section Calls

variable {codec etags verticalOf} {i : ι} {s : TableState Data ι}

theorem represents_install {registry : InMemoryIndexRegistry} {table : Table Data}
    (represents : Represents codec verticalOf registry table) (indexName : String) (value : IndexRegistryEntry) :
    Represents codec verticalOf (registry.set indexName value)
      (table.install etags (verticalOf indexName, indexName) (codec.entryToEntityData value)).2 := by
  intro other
  by_cases same : other = indexName
  next => simp [entryAt, same, codec.roundTrips, Except.toOption]
  next =>
    have apart : (verticalOf other, other) ≠ (verticalOf indexName, indexName) := by simp [same]
    simpa [entryAt, same] using represents other

theorem aligned_empty : Aligned codec etags verticalOf {} := by
  constructor <;> intro key row found <;> simp [Table.row] at found

theorem aligned_install {table : Table Data} (aligned : Aligned codec etags verticalOf table) {indexName : String}
    {value : IndexRegistryEntry} (owned : value.vertical = verticalOf indexName) :
    Aligned codec etags verticalOf
      (table.install etags (verticalOf indexName, indexName) (codec.entryToEntityData value)).2 := by
  constructor
  next =>
    intro key row found
    rw [Table.row_install] at found
    split at found
    next hit =>
      obtain rfl := Option.some.inj found
      exact ⟨by rw [hit], value, codec.roundTrips value, by rw [hit]; exact owned⟩
    next => exact aligned.keyed key row found
  next =>
    intro key row found
    rw [Table.row_install] at found
    split at found
    next hit =>
      obtain rfl := Option.some.inj found
      exact ⟨table.writes, Nat.lt_succ_self _, rfl⟩
    next =>
      obtain ⟨n, bound, same⟩ := aligned.dated key row found
      exact ⟨n, Nat.lt_succ_of_lt bound, same⟩

variable {Value α : Type} {effect : TableDeed Data ι → Option Value}
  {performs : Atomic Value}
  {inv : TableState Data ι → Prop} (holds : ∀ s, inv s → Aligned codec etags verticalOf s.1)
  {ok : α → TableState Data ι → Prop}
  {raised : ProvisioningError → TableState Data ι → Prop}

include holds

-- A read, at which the call does not take effect yet.
theorem serves_read {o : TableOp Data} {decode : TableOp.Res o → Except ProvisioningError α}
    (reads : ∀ w table, (idealTable etags w o table).2 = table)
    (silent : ∀ answer before after, effect ⟨i, o, answer, before, after⟩ = none)
    (unserved : effects effect i s.2 = [])
    (continued : ∀ w table u, Aligned codec etags verticalOf table → Advances etags s.1 table →
      Advances etags table u.1 → effects effect i u.2 = [] →
      Contract.ends ok raised (decode (idealTable etags w o table).1) u) :
    (duty codec etags verticalOf effect performs inv i).KeptRun
      (ExceptT.mk (.op o fun answer => .ret (decode answer))) ok raised s := by
  intro t meanwhile sound
  have aligned := holds t sound
  have still := (effects_meanwhile etags effect meanwhile).trans unserved
  refine ⟨⟨still, fun w => ⟨?_, by rw [reads]; exact aligned⟩⟩, fun w u more => ?_⟩
  next => simp [Justified, deedOf, silent, reads]
  next =>
    refine continued w t.1 u aligned meanwhile.advances ?_ ?_
    next =>
      have advances := more.advances
      simp only [duty, Chronicle.recorded, reads] at advances
      exact advances
    next =>
      rw [effects_meanwhile etags effect more]
      simp only [duty]
      rw [effects_own, still]
      simp [deedOf, silent]

-- A read at which the call takes effect.
theorem serves_effect {o : TableOp Data} {decode : TableOp.Res o → Except ProvisioningError α}
    (reads : ∀ w table, (idealTable etags w o table).2 = table) (unserved : effects effect i s.2 = [])
    (value : TableWorld Data → Table Data → Value)
    (takes : ∀ w table, Aligned codec etags verticalOf table → Advances etags s.1 table →
      effect (deedOf etags i w o table) = some (value w table) ∧ ∃ now, ∀ registry,
        Represents codec verticalOf registry table → performs now registry = (.ok (value w table), registry))
    (continued : ∀ w table u, Aligned codec etags verticalOf table → Advances etags s.1 table →
      effects effect i u.2 = [value w table] → Contract.ends ok raised (decode (idealTable etags w o table).1) u) :
    (duty codec etags verticalOf effect performs inv i).KeptRun
      (ExceptT.mk (.op o fun answer => .ret (decode answer))) ok raised s := by
  intro t meanwhile sound
  have aligned := holds t sound
  have still := (effects_meanwhile etags effect meanwhile).trans unserved
  refine ⟨⟨still, fun w => ⟨?_, by rw [reads]; exact aligned⟩⟩, fun w u more => ?_⟩
  next =>
    obtain ⟨taken, now, performed⟩ := takes w t.1 aligned meanwhile.advances
    simp only [Justified, taken]
    refine ⟨now, fun registry represents => ⟨registry, performed registry represents, ?_⟩⟩
    simpa [deedOf, reads] using represents
  next =>
    apply continued w t.1 u aligned meanwhile.advances
    obtain ⟨taken, _⟩ := takes w t.1 aligned meanwhile.advances
    rw [effects_meanwhile etags effect more]
    simp only [duty]
    rw [effects_own, still, taken]
    rfl

-- The write; where it goes through, the in-memory registry stores the same entry.
theorem serves_write {ok : String → TableState Data ι → Prop} {indexName vertical : String}
    {entry : IndexRegistryEntry} {etag : Option String} {value : Value}
    (named : vertical = verticalOf indexName) (owned : entry.vertical = verticalOf indexName)
    (unserved : effects effect i s.2 = [])
    (takes : ∀ answer before after,
      effect ⟨i, .upsertEntity vertical indexName (codec.entryToEntityData entry) etag, .ok answer, before, after⟩ =
        some value)
    (idle : ∀ e before after,
      effect ⟨i, .upsertEntity vertical indexName (codec.entryToEntityData entry) etag, .error e, before, after⟩ =
        none)
    (performed : ∀ table, Aligned codec etags verticalOf table → Advances etags s.1 table →
      table.upsert etags (vertical, indexName) (codec.entryToEntityData entry) etag =
        table.install etags (vertical, indexName) (codec.entryToEntityData entry) →
      ∃ now, ∀ registry, Represents codec verticalOf registry table →
        performs now registry = (.ok value, registry.set indexName entry))
    (won : ∀ answer u, effects effect i u.2 = [value] → ok answer u)
    (lost : ∀ table e u, Aligned codec etags verticalOf table → Advances etags s.1 table →
      table.upsert etags (vertical, indexName) (codec.entryToEntityData entry) etag = (.error e, table) →
      Advances etags table u.1 → effects effect i u.2 = [] → raised ⟨"", e.text, mapStatus e⟩ u) :
    (duty codec etags verticalOf effect performs inv i).KeptRun
      (TablePy.upsertEntity vertical indexName (codec.entryToEntityData entry) etag) ok raised s := by
  subst named
  intro t meanwhile sound
  have aligned := holds t sound
  have still := (effects_meanwhile etags effect meanwhile).trans unserved
  obtain ⟨e, failed⟩ | stored := t.1.upsert_cases (verticalOf indexName, indexName) (codec.entryToEntityData entry)
    etags etag
  next =>
    refine ⟨⟨still, fun w => ⟨?_, by simpa [idealTable, failed] using aligned⟩⟩, fun w u more => ?_⟩
    next => simp [Justified, deedOf, idealTable, failed, idle]
    next =>
      have advances := more.advances
      have counted := effects_meanwhile etags effect more
      simp only [duty] at advances counted
      rw [effects_own, still] at counted
      simp only [Chronicle.recorded, idealTable, failed] at advances
      simp only [deedOf, idealTable, failed, idle] at counted
      simp only [duty, Chronicle.recorded, idealTable, failed]
      exact lost t.1 e u aligned meanwhile.advances failed advances counted
  next =>
    refine ⟨⟨still, fun w => ⟨?_, ?_⟩⟩, fun w u more => ?_⟩
    next =>
      obtain ⟨now, performed⟩ := performed t.1 aligned meanwhile.advances stored
      simp only [Justified, deedOf, idealTable, stored, Table.install, takes]
      exact ⟨now, fun registry represents => ⟨_, performed registry represents,
        represents_install represents indexName entry⟩⟩
    next => simpa [idealTable, stored] using aligned_install aligned owned
    next =>
      have counted := effects_meanwhile etags effect more
      simp only [duty] at counted
      rw [effects_own, still] at counted
      simp only [deedOf, idealTable, stored, Table.install, takes] at counted
      simp only [duty, Chronicle.recorded, idealTable, stored, Table.install]
      exact won _ u counted

end Calls

section Methods

variable {codec etags verticalOf} {i : ι} {s : TableState Data ι}
  {inv : TableState Data ι → Prop} (holds : ∀ s, inv s → Aligned codec etags verticalOf s.1)

def Served {Value : Type} (effect : TableDeed Data ι → Option Value) (i : ι) :
    Except ProvisioningError Value → TableState Data ι → Prop :=
  Contract.ends (fun value s => effects effect i s.2 = [value])
    (fun e s => e.errorCode = indexProvisionConflict ∧ effects effect i s.2 = [])

theorem value_served {Value : Type} {effect : TableDeed Data ι → Option Value}
    {performs : Atomic Value} {value : Value}
    (counted : effects effect i s.2 = [value]) :
    (duty codec etags verticalOf effect performs inv i).Kept (pure value : TablePy Data Value).run
      (Served effect i) s :=
  Contract.keptRun_pure fun _ later => (effects_meanwhile etags effect later).trans counted

theorem conflict_served {Value : Type} {effect : TableDeed Data ι → Option Value}
    {performs : Atomic Value}
    {e : ProvisioningError} (conflict : e.errorCode = indexProvisionConflict) (unserved : effects effect i s.2 = []) :
    (duty codec etags verticalOf effect performs inv i).Kept (throw e : TablePy Data Value).run
      (Served effect i) s :=
  Contract.keptRun_throw fun _ later => ⟨conflict, (effects_meanwhile etags effect later).trans unserved⟩

omit [DecidableEq ι] in
theorem query_cases {table : Table Data} (aligned : Aligned codec etags verticalOf table) (w : TableWorld Data)
    (indexName : String) :
    (w.arrange (table.matching indexName) = [] ∧ table.row (verticalOf indexName, indexName) = none) ∨
    ∃ row entry rest, table.row (verticalOf indexName, indexName) = some row ∧
      codec.entityToEntry row.data = .ok entry ∧ entry.vertical = verticalOf indexName ∧
      w.arrange (table.matching indexName) = Table.recordAt (verticalOf indexName, indexName) row :: rest := by
  cases found : w.arrange (table.matching indexName) with
  | nil => exact .inl ⟨rfl, absent_of_query_nil found _⟩
  | cons record rest =>
    obtain ⟨vertical, row, present, rfl⟩ := present_of_query_cons found
    obtain ⟨owner, entry, decoded, owned⟩ := aligned.keyed _ row present
    obtain rfl : vertical = verticalOf indexName := owner
    exact .inr ⟨row, entry, rest, present, decoded, owned, rfl⟩

include holds

theorem get_served (indexName : String) (unserved : effects (listed codec) i s.2 = []) :
    (duty codec etags verticalOf (listed codec) (atomically (.get indexName)) inv i).Kept
      (TableStorageIndexRegistry.get codec indexName).run (Served (listed codec) i) s := by
  apply Contract.keptRun_bind
  apply serves_effect holds (fun _ _ => rfl) unserved (fun _ table => entryAt codec verticalOf table indexName)
  next =>
    intro w table aligned _
    constructor
    next =>
      simp only [deedOf, listed, idealTable, entryAt]
      obtain ⟨empty, absent⟩ | ⟨row, entry, rest, present, decoded, _, first⟩ := query_cases aligned w indexName
      next => simp [empty, absent]
      next => simp [first, present, Table.recordAt]
    next => exact ⟨0, fun registry represents => by rw [← represents indexName]; rfl⟩
  next =>
    intro w table u aligned _ counted
    simp only [entryAt] at counted
    obtain ⟨empty, absent⟩ | ⟨row, entry, rest, present, decoded, _, first⟩ := query_cases aligned w indexName
    next =>
      simp only [absent, Option.bind_none] at counted
      simp only [idealTable, empty]
      exact value_served counted
    next =>
      simp only [present, Option.bind_some, decoded, Except.toOption] at counted
      simp only [idealTable, first, Contract.ends, Table.recordAt, decoded]
      exact value_served counted

theorem register_served (entry : IndexRegistryEntry) (owned : entry.vertical = verticalOf entry.indexName)
    (unserved : effects (effectOf codec (.register entry)) i s.2 = []) :
    (duty codec etags verticalOf (effectOf codec (.register entry)) (atomically (.register entry)) inv i).Kept
      (TableStorageIndexRegistry.register codec entry).run (Served (effectOf codec (.register entry)) i) s := by
  apply Contract.keptRun_tryCatch
  apply Contract.keptRun_bind
  apply serves_write holds owned owned unserved
  next =>
    intro answer before after
    simp only [effectOf, written, codec.roundTrips, Except.toOption]
    rfl
  next => exact fun _ _ _ => rfl
  next =>
    intro table _ _ stored
    refine ⟨0, fun registry represents => ?_⟩
    have absent : table.row (entry.vertical, entry.indexName) = none := by
      cases found : table.row (entry.vertical, entry.indexName) with
      | none => rfl
      | some row =>
        rw [table.upsert_taken _ _ found] at stored
        simp [Table.install] at stored
    have free : registry.get entry.indexName = none := by
      simp [represents entry.indexName, entryAt, ← owned, absent]
    simp [InMemoryIndexRegistry.perform, InMemoryIndexRegistry.register, free]
  next =>
    intro answer u counted
    exact value_served counted
  next =>
    intro table e u aligned _ failed advances counted
    obtain ⟨row, present⟩ : ∃ row, table.row (entry.vertical, entry.indexName) = some row := by
      cases found : table.row (entry.vertical, entry.indexName) with
      | some row => exact ⟨row, rfl⟩
      | none =>
        rw [table.upsert_create _ _ found] at failed
        simp [Table.install] at failed
    obtain rfl : e = ⟨some 409, "The specified entity already exists."⟩ := by
      rw [table.upsert_taken _ _ present] at failed
      exact (Except.error.inj (Prod.mk.inj failed).1).symm
    simp only [mapStatus, conflictStatusCodes, Option.any_some, List.mem_cons, true_or, decide_true, if_true, ne_eq,
      not_true_eq_false, if_false]
    apply Contract.keptRun_bind
    -- Whoever took the key, its entity is still there to be read.
    have known (later : Table Data) (aligned : Aligned codec etags verticalOf later)
        (more : Advances etags u.1 later) :
        ∃ row stored, later.row (entry.vertical, entry.indexName) = some row ∧
          codec.entityToEntry row.data = .ok stored ∧
          entryAt codec verticalOf later entry.indexName = some stored := by
      obtain ⟨row, found⟩ := present_later (advances_trans advances more) present
      obtain ⟨_, stored, decoded, _⟩ := aligned.keyed _ row found
      exact ⟨row, stored, found, decoded, by simp [entryAt, ← owned, found, decoded, Except.toOption]⟩
    apply serves_effect holds (fun _ _ => rfl) counted
      (fun _ table => (entryAt codec verticalOf table entry.indexName).getD entry)
    next =>
      intro w later aligned more
      obtain ⟨row, stored, found, decoded, held⟩ := known later aligned more
      constructor
      next =>
        simp only [effectOf, deedOf, written, fetched, idealTable, Table.entity, found, Option.map_some,
          Table.recordAt, Option.bind_some, decoded, Except.toOption, Option.none_or, held, Option.getD_some]
        rfl
      next =>
        refine ⟨0, fun registry represents => ?_⟩
        have taken := represents entry.indexName
        rw [held] at taken
        simp [InMemoryIndexRegistry.perform, InMemoryIndexRegistry.register, taken, held]
    next =>
      intro w later u aligned more counted
      obtain ⟨row, stored, found, decoded, held⟩ := known later aligned more
      simp only [held, Option.getD_some] at counted
      simp only [idealTable, Table.entity, found, Option.map_some, Contract.ends, Table.recordAt, decoded]
      exact value_served counted

-- The write that follows a read; the ETag vouches for everything that was read.
theorem update_served (fresh : Function.Injective etags)
    {performs : Atomic IndexRegistryEntry}
    {indexName vertical : String} {row : Row Data} {current revised : IndexRegistryEntry} {table : Table Data}
    (aligned : Aligned codec etags verticalOf table)
    (present : table.row (verticalOf indexName, indexName) = some row)
    (decoded : codec.entityToEntry row.data = .ok current) (advances : Advances etags table s.1)
    (named : vertical = verticalOf indexName) (owned : revised.vertical = verticalOf indexName)
    (unserved : effects (written codec) i s.2 = [])
    (performed : ∃ now, ∀ registry, registry.get indexName = some current →
      performs now registry = (.ok revised, registry.set indexName revised)) :
    (duty codec etags verticalOf (written codec) performs inv i).Kept (do
        let _ ← TablePy.upsertEntity vertical indexName (codec.entryToEntityData revised) (some row.etag)
        return revised : TablePy Data IndexRegistryEntry).run (Served (written codec) i) s := by
  subst named
  apply Contract.keptRun_bind
  apply serves_write holds rfl owned unserved
  next =>
    intro answer before after
    simp only [written, codec.roundTrips, Except.toOption]
    rfl
  next => exact fun _ _ _ => rfl
  next =>
    intro later _ more stored
    obtain ⟨now, performed⟩ := performed
    refine ⟨now, fun registry represents => performed registry ?_⟩
    have advances := advances_trans advances more
    obtain ⟨row', present'⟩ := present_later advances present
    by_cases same : row'.etag = row.etag
    next =>
      obtain rfl := row_of_etag advances present fresh (aligned.dated _ _ present) present' same
      simp [represents indexName, entryAt, present', decoded, Except.toOption]
    next =>
      rw [later.upsert_stale _ _ present' same] at stored
      simp [Table.install] at stored
  next =>
    intro answer u counted
    exact value_served counted
  next =>
    intro later e u _ more failed _ counted
    obtain ⟨row', present'⟩ := present_later (advances_trans advances more) present
    by_cases same : row'.etag = row.etag
    next =>
      rw [← same, later.upsert_current _ _ present'] at failed
      simp [Table.install] at failed
    next =>
      rw [later.upsert_stale _ _ present' same] at failed
      obtain rfl := Except.error.inj (Prod.mk.inj failed).1
      exact ⟨rfl, counted⟩

theorem reclaim_served (fresh : Function.Injective etags) (indexName : String)
    (observed newEntry : IndexRegistryEntry) (owned : newEntry.vertical = verticalOf indexName)
    (unserved : effects (written codec) i s.2 = []) :
    (duty codec etags verticalOf (written codec) (atomically (.reclaim indexName observed newEntry)) inv i).Kept
      (TableStorageIndexRegistry.reclaim codec indexName observed newEntry).run (Served (written codec) i) s := by
  apply Contract.keptRun_bind
  apply serves_read holds (fun _ _ => rfl) (fun _ _ _ => rfl) unserved
  intro w table u aligned _ advances counted
  simp only [idealTable, Contract.ends, Table.entity]
  cases found : table.row (observed.vertical, indexName) with
  | none => exact conflict_served rfl counted
  | some row =>
    obtain ⟨owner, stored, decoded, _⟩ := aligned.keyed _ row found
    obtain owner : observed.vertical = verticalOf indexName := owner
    simp only [Option.map_some, Table.recordAt, decoded]
    apply Contract.keptRun_bind
    refine Contract.keptRun_pure fun t later => ?_
    have counted := (effects_meanwhile etags _ later).trans counted
    by_cases same : stored = observed
    next =>
      subst same
      simp only [ne_eq, not_true_eq_false, if_false]
      apply update_served holds fresh aligned (by rw [← owner]; exact found) decoded
        (advances_trans advances later.advances) owned owned counted
      refine ⟨0, fun registry held => ?_⟩
      change registry.reclaim indexName stored newEntry = _
      simp [InMemoryIndexRegistry.reclaim, held]
    next =>
      simp only [ne_eq, same, not_false_eq_true, if_true]
      exact conflict_served rfl counted

section Amend

variable {performs : Atomic IndexRegistryEntry}

structure Revises (etags : Nat → String) (codec : EntityCodec Data)
    (performs : Atomic IndexRegistryEntry)
    (indexName : String) (expected : Option String) (i : ι) (s : TableState Data ι)
    (revise : IndexRegistryEntry → IndexRegistryEntry) (t : TableState Data ι) : Prop where
  unserved : effects (written codec) i t.2 = []
  advances : Advances etags s.1 t.1
  owner : ∀ entry, (revise entry).vertical = entry.vertical
  performed : ∃ now, ∀ registry, performs now registry = registry.amend indexName expected revise

theorem amend_served (fresh : Function.Injective etags) (indexName : String) (expected : Option String)
    {revision : TablePy Data (IndexRegistryEntry → IndexRegistryEntry)}
    (revises : ∀ s, effects (written codec) i s.2 = [] →
      (duty codec etags verticalOf (written codec) performs inv i).KeptRun revision
        (Revises etags codec performs indexName expected i s) (fun e => Served (written codec) i (.error e)) s)
    (unserved : effects (written codec) i s.2 = []) :
    (duty codec etags verticalOf (written codec) performs inv i).Kept
      (TableStorageIndexRegistry.amend codec indexName expected revision).run (Served (written codec) i) s := by
  apply Contract.keptRun_bind
  apply Contract.keptRun_bind
  apply serves_read holds (fun _ _ => rfl) (fun _ _ _ => rfl) unserved
  intro w table u aligned _ advances counted
  simp only [idealTable]
  obtain ⟨empty, absent⟩ | ⟨row, entry, rest, present, decoded, owned, first⟩ := query_cases aligned w indexName
  next =>
    simp only [empty]
    exact conflict_served rfl counted
  next =>
    simp only [first]
    refine Contract.keptRun_pure fun t later => ?_
    simp only [Table.recordAt, decoded]
    apply Contract.keptRun_bind
    refine Contract.keptRun_pure fun t' later' => ?_
    have later := meanwhile_trans later later'
    have counted := (effects_meanwhile etags _ later).trans counted
    cases checked : checkClaimToken entry expected with
    | error e =>
      obtain rfl := checkClaimToken_error checked
      exact conflict_served rfl counted
    | ok =>
      apply Contract.keptRun_bind
      refine Contract.keptRun_pure fun t'' more => ?_
      have later := meanwhile_trans later more
      apply Contract.keptRun_seq (revises t'' ((effects_meanwhile etags _ more).trans counted))
      intro revise v known
      have advances := advances_trans advances (advances_trans later.advances known.advances)
      have owner := (known.owner entry).trans owned
      apply update_served holds fresh aligned present decoded advances owned owner known.unserved
      obtain ⟨now, performed⟩ := known.performed
      refine ⟨now, fun registry held => ?_⟩
      rw [performed registry]
      simp [InMemoryIndexRegistry.amend, InMemoryIndexRegistry.require, held, checked]

theorem atTime_revises {indexName : String} {expected : Option String}
    {revise : DateTime → IndexRegistryEntry → IndexRegistryEntry}
    (owner : ∀ now entry, (revise now entry).vertical = entry.vertical)
    (performed : ∀ now registry, performs now registry = registry.amend indexName expected (revise now))
    (unserved : effects (written codec) i s.2 = []) :
    (duty codec etags verticalOf (written codec) performs inv i).KeptRun (TableStorageIndexRegistry.atTime revise)
      (Revises etags codec performs indexName expected i s) (fun e => Served (written codec) i (.error e)) s := by
  apply Contract.keptRun_bind
  apply serves_read holds (fun _ _ => rfl) (fun _ _ _ => rfl) unserved
  intro w table u _ before advances counted
  refine Contract.keptRun_pure fun t later => ?_
  constructor
  next => exact (effects_meanwhile etags _ later).trans counted
  next => exact advances_trans before (advances_trans advances later.advances)
  next => exact owner w.now
  next => exact ⟨w.now, performed w.now⟩

omit holds in
theorem pure_revises {indexName : String} {expected : Option String}
    {revise : IndexRegistryEntry → IndexRegistryEntry}
    (owner : ∀ entry, (revise entry).vertical = entry.vertical)
    (performed : ∀ now registry, performs now registry = registry.amend indexName expected revise)
    (unserved : effects (written codec) i s.2 = []) :
    (duty codec etags verticalOf (written codec) performs inv i).KeptRun (pure revise)
      (Revises etags codec performs indexName expected i s) (fun e => Served (written codec) i (.error e)) s := by
  refine Contract.keptRun_pure fun t later => ?_
  constructor
  next => exact (effects_meanwhile etags _ later).trans unserved
  next => exact later.advances
  next => exact owner
  next => exact ⟨0, performed 0⟩

end Amend

end Methods

def OneVertical : RegistryCall → Prop
  | .register entry => entry.vertical = verticalOf entry.indexName
  | .reclaim indexName _ newEntry => newEntry.vertical = verticalOf indexName
  | _ => True

variable {codec etags verticalOf} in
theorem perform_served (fresh : Function.Injective etags) {inv : TableState Data ι → Prop}
    (holds : ∀ s, inv s → Aligned codec etags verticalOf s.1) {i : ι} {s : TableState Data ι}
    (call : RegistryCall) (owned : OneVertical verticalOf call)
    (unserved : effects (effectOf codec call) i s.2 = []) :
    (duty codec etags verticalOf (effectOf codec call) (atomically call) inv i).Kept
      (TableStorageIndexRegistry.perform codec call).run (Served (effectOf codec call) i) s := by
  cases call with
  | get indexName => exact get_served holds indexName unserved
  | register entry => exact register_served holds entry owned unserved
  | reclaim indexName observed newEntry => exact reclaim_served holds fresh indexName observed newEntry owned unserved
  | touchVerified indexName =>
    apply amend_served holds fresh indexName none _ unserved
    exact fun s => atTime_revises holds (fun _ _ => rfl) (fun _ _ => rfl)
  | markReady indexName expected =>
    apply amend_served holds fresh indexName expected _ unserved
    exact fun s => atTime_revises holds (fun _ _ => rfl) (fun _ _ => rfl)
  | markFailed indexName reason expected =>
    apply amend_served holds fresh indexName expected _ unserved
    exact fun s => pure_revises (fun _ => rfl) (fun _ _ => rfl)
  | markRetired indexName =>
    apply amend_served holds fresh indexName none _ unserved
    exact fun s => pure_revises (fun _ => rfl) (fun _ _ => rfl)

variable (calls : ι → RegistryCall) (start : InMemoryIndexRegistry)

structure Consistent (s : TableState Data ι) : Prop where
  aligned : Aligned codec etags verticalOf s.1
  sequential : ∃ registry, Sequential codec calls start s.2 registry ∧ Represents codec verticalOf registry s.1
  silent : ∀ deed ∈ s.2, effectOf codec (calls deed.thread) deed = none → deed.after = deed.before
  once : ∀ i, (effects (effectOf codec (calls i)) i s.2).length ≤ 1

def callsTreaty : Treaty (TableEffects Data) ι (Table Data) where
  inv := Consistent codec etags verticalOf calls start
  rely := Meanwhile etags
  permit i := Permitted codec etags verticalOf (effectOf codec (calls i)) (atomically (calls i)) i
  rely_refl := meanwhile_refl
  rely_trans _ _ _ _ := meanwhile_trans

omit [DecidableEq ι] in
theorem meanwhile_step {i j : ι} (other : j ≠ i) (w : TableWorld Data) (o : TableOp Data)
    (s : TableState Data ι) : Meanwhile etags j s (Chronicle.recorded (idealTable etags) i w o s).2 := by
  refine ⟨⟨[deedOf etags i w o s.1], rfl, ?_⟩, advances_step w o s.1⟩
  simpa [deedOf] using other.symm

theorem callsTreaty_sustained : (callsTreaty codec etags verticalOf calls start).Sustained (idealTable etags) := by
  constructor
  next =>
    intro i o w s consistent permitted
    obtain ⟨unserved, permitted⟩ := permitted
    obtain ⟨justified, aligned⟩ := permitted w
    obtain ⟨registry, sequential, represents⟩ := consistent.sequential
    have once (j : ι) : (effects (effectOf codec (calls j)) j
        (Chronicle.recorded (idealTable etags) i w o s).2.2).length ≤ 1 := by
      by_cases same : j = i
      next =>
        subst same
        rw [effects_own, unserved]
        cases effectOf codec (calls j) (deedOf etags j w o s.1) <;> simp
      next =>
        rw [effects_meanwhile etags _ (meanwhile_step etags same w o s)]
        exact consistent.once j
    cases effect : effectOf codec (calls i) (deedOf etags i w o s.1) with
    | none =>
      have unchanged : (idealTable etags w o s.1).2 = s.1 := by
        simp only [Justified, effect] at justified
        exact justified
      refine ⟨aligned, ⟨registry, .silent _ sequential effect, ?_⟩, ?_, once⟩
      next => simpa [Chronicle.recorded, unchanged] using represents
      next =>
        intro deed member idle
        rcases List.mem_cons.mp member with rfl | old
        next => exact unchanged
        next => exact consistent.silent deed old idle
    | some value =>
      simp only [Justified, effect] at justified
      obtain ⟨now, justified⟩ := justified
      obtain ⟨registry', performed, represents'⟩ := justified registry represents
      refine ⟨aligned, ⟨registry', .effect _ now value sequential effect performed, represents'⟩, ?_, once⟩
      intro deed member idle
      rcases List.mem_cons.mp member with rfl | old
      next => exact absurd (effect.symm.trans idle) (Option.some_ne_none value)
      next => exact consistent.silent deed old idle
  next => exact fun i j other o w s _ _ => meanwhile_step etags other w o s

abbrev Clients (Data : Type) := Pool (TableEffects Data) (fun i => (calls i).Res) (TableState Data ι)

def clients (table : Table Data) : Clients calls Data :=
  ⟨fun i => (TableStorageIndexRegistry.perform codec (calls i)).run, (table, [])⟩

/-- What the clients have done and been told is what the in-memory registry does and answers if each call
is performed at once, where it takes effect. -/
structure Linearizable (c : Clients calls Data) : Prop where
  sequential : ∃ registry, Sequential codec calls start c.state.2 registry ∧
    Represents codec verticalOf registry c.state.1
  once : ∀ i, (effects (effectOf codec (calls i)) i c.state.2).length ≤ 1
  returned : ∀ i value, c.threads i = .ret (.ok value) → effects (effectOf codec (calls i)) i c.state.2 = [value]
  raised : ∀ i e, c.threads i = .ret (.error e) → e.errorCode = indexProvisionConflict ∧
    effects (effectOf codec (calls i)) i c.state.2 = [] ∧
    ∀ deed ∈ c.state.2, deed.thread = i → deed.after = deed.before

variable {codec etags verticalOf calls start} in
theorem table_storage_linearizable (fresh : Function.Injective etags)
    (oneVertical : ∀ i, OneVertical verticalOf (calls i)) {table : Table Data}
    (aligned : Aligned codec etags verticalOf table) (represents : Represents codec verticalOf start table)
    (schedule : List (ι × TableWorld Data)) :
    Linearizable codec verticalOf calls start
      (Pool.runAs (Chronicle.recorded (idealTable etags)) schedule (clients codec calls table)) := by
  have initial : Consistent codec etags verticalOf calls start (table, ([] : TableRecord Data ι)) :=
    ⟨aligned, ⟨start, .start, represents⟩, by simp, by simp [effects]⟩
  obtain ⟨_, consistent, threads⟩ := Treaty.lawful_run (callsTreaty_sustained codec etags verticalOf calls start)
    (c := clients codec calls table) rfl initial
    (fun i => perform_served fresh (fun _ consistent => consistent.aligned) (calls i) (oneVertical i) rfl) schedule
  have served (i : ι) (result : (calls i).Res) (finished :
      (Pool.runAs (Chronicle.recorded (idealTable etags)) schedule (clients codec calls table)).threads i = .ret result) :
      Served (effectOf codec (calls i)) i result
        (Pool.runAs (Chronicle.recorded (idealTable etags)) schedule (clients codec calls table)).state := by
    have kept := threads i
    rw [finished] at kept
    exact kept _ (meanwhile_refl i _)
  refine ⟨consistent.sequential, consistent.once, fun i value returned => served i _ returned, fun i e raised => ?_⟩
  obtain ⟨conflict, unserved⟩ := served i _ raised
  refine ⟨conflict, unserved, fun deed member own => consistent.silent deed member ?_⟩
  subst own
  cases effect : effectOf codec (calls deed.thread) deed with
  | none => rfl
  | some value =>
    have taken : value ∈ effects (effectOf codec (calls deed.thread)) deed.thread _ :=
      List.mem_filterMap.mpr ⟨deed, List.mem_filter.mpr ⟨member, by simp⟩, effect⟩
    rw [unserved] at taken
    simp at taken

def plainCodec : EntityCodec IndexRegistryEntry := ⟨id, .ok, fun _ => rfl⟩

def countedEtags (n : Nat) : String := String.ofList (List.replicate n '+')

theorem countedEtags_injective : Function.Injective countedEtags := by
  intro n m same
  have lengths := congrArg (fun etag => etag.toList.length) same
  simpa [countedEtags] using lengths

def sampleEntry (vertical claimToken : String) : IndexRegistryEntry where
  indexName := "policies"
  vertical := vertical
  scenarioId := vertical ++ "-policies"
  templateId := "standard-v1"
  templateVersion := "1"
  dimensions := 3
  metric := "cosine"
  embeddingModel := "e5"
  status := .provisioning
  createdAt := 0
  lastVerifiedAt := none
  documentCount := none
  claimToken := some claimToken
  claimedAt := some 0
  lastErrorMessage := none
  resolvedTemplate := none

def overtakenCalls : Fin 3 → RegistryCall
  | 0 => .register (sampleEntry "hr" "a")
  | 1 => .markReady "policies" (some "a")
  | 2 => .touchVerified "policies"

def overtakenClients : Clients overtakenCalls IndexRegistryEntry :=
  Pool.runAs (Chronicle.recorded (idealTable countedEtags)) ([0, 2, 1, 1, 1, 2, 2].map fun i => (i, {}))
    (clients plainCodec overtakenCalls {})

theorem table_storage_linearizable_when_overtaken :
    (overtakenClients.threads 1 = .ret (.ok ((sampleEntry "hr" "a").readied 0)) ∧
      ∃ e, overtakenClients.threads 2 = .ret (.error e)) ∧
    Linearizable plainCodec (fun _ => "hr") overtakenCalls {} overtakenClients := by
  refine ⟨⟨rfl, _, rfl⟩, ?_⟩
  apply table_storage_linearizable countedEtags_injective
  next =>
    intro i
    match i with
    | 0 => rfl
    | 1 => trivial
    | 2 => trivial
  next => exact aligned_empty
  next => exact fun _ => rfl

end Vestibule.Provisioning
