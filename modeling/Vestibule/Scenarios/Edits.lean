import Vestibule.Library.Rely
import Vestibule.Scenarios.Laws

set_option autoImplicit false

namespace Vestibule.Scenarios

open Library
open Provisioning (Row Table Advances advances_refl advances_trans advances_upsert present_later row_of_etag)

-- An upsert reads the entity and writes it back under the ETag that it read, so the versions and the
-- creation time are handed on from one accepted write to the next.

variable {Json ι : Type} (formats : Formats Json) (etags : Nat → String) (key : String × String)
  (scenarios : ι → Scenario)

abbrev StoreDeed (Json ι : Type) := Deed (StoreEffects Json) ι (ScenarioTable Json)

abbrev StoreLog (Json ι : Type) := Chronicle (StoreEffects Json) ι (ScenarioTable Json)

abbrev StoreState (Json ι : Type) := ScenarioTable Json × StoreLog Json ι

abbrev Editors (Json ι : Type) := Pool (StoreEffects Json) (fun _ : ι => Except Raised Scenario) (StoreState Json ι)

def editors (table : ScenarioTable Json) : Editors Json ι :=
  ⟨fun i => (TableStorageScenarioStore.upsert formats (scenarios i)).run, (table, [])⟩

def accepted : StoreDeed Json ι → Option (ι × Scenario)
  | ⟨i, .upsertEntity _ _ data _, .ok _, _, _⟩ => (entityToScenario formats data).toOption.map (i, ·)
  | _ => none

-- Newest first, as the log is.
def accepts (log : StoreLog Json ι) : List (ι × Scenario) := log.filterMap (accepted formats)

def edits (log : StoreLog Json ι) : List (ι × Scenario) := (accepts formats log).reverse

structure NoEditLost (c : Editors Json ι) : Prop where
  numbered : (edits formats c.state.2).map (·.2.configVersion) =
    (List.range (edits formats c.state.2).length).map fun n => toString (n + 1)
  once : ((edits formats c.state.2).map (·.1)).Nodup
  returned : ∀ i stored, c.threads i = .ret (.ok stored) ↔ (i, stored) ∈ edits formats c.state.2
  created : ∀ first, (edits formats c.state.2).head? = some first →
    first.2.createdAt = (scenarios first.1).createdAt ∧
      ∀ edit ∈ edits formats c.state.2, edit.2.createdAt = first.2.createdAt
  stored : (c.state.1.row key).map (fun row => entityToScenario formats row.data) =
    (edits formats c.state.2).getLast?.map fun edit => .ok edit.2
  raised : ∀ i e, c.threads i = .ret (.error e) →
    (∃ text, e = .scenario ⟨"", text, scenarioConflict⟩) ∧
      ∀ deed ∈ c.state.2, deed.thread = i → deed.after = deed.before

/-- Newest first: each edit takes its number and its creation time from the one before. -/
def Lineage : List (ι × Scenario) → Prop
  | [] => True
  | (i, stored) :: earlier =>
      (∃ now, stored = edited (scenarios i) (earlier.length + 1)
        ((earlier.head?.map (·.2.createdAt)).getD (scenarios i).createdAt) now) ∧ Lineage earlier

structure Chained (s : StoreState Json ι) : Prop where
  lineage : Lineage scenarios (accepts formats s.2)
  once : ((accepts formats s.2).map Prod.fst).Nodup
  stored : (s.1.row key).map (·.data) =
    (accepts formats s.2).head?.map fun edit => scenarioToEntityData formats edit.2
  dated : ∀ row, s.1.row key = some row → ∃ n < s.1.writes, row.etag = etags n
  silent : ∀ deed ∈ s.2, accepted formats deed = none → deed.after = deed.before

def Edited (i : ι) (log : StoreLog Json ι) : Prop := i ∈ (accepts formats log).map Prod.fst

/-- If the write goes through, it continues from the entity that is there. -/
def Fitting (i : ι) (table : ScenarioTable Json) : StoreOp Json → Prop
  | .upsertEntity partitionKey rowKey data etag => (partitionKey, rowKey) = key ∧ ∃ version createdAt now,
      data = scenarioToEntityData formats (edited (scenarios i) (version + 1) createdAt now) ∧
      ∀ tag, (table.upsert etags key data etag).1 = .ok tag →
        Found formats (scenarios i) (table.entity partitionKey rowKey) version createdAt
  | .deleteEntity _ _ => False
  | _ => True

abbrev EditsMeanwhile (i : ι) (s t : StoreState Json ι) : Prop := Chronicle.Meanwhile (Advances etags) i s t

variable {formats etags key scenarios}

variable (formats etags key scenarios) in
def editsTreaty : Treaty (StoreEffects Json) ι (ScenarioTable Json) where
  inv := Chained formats etags key scenarios
  rely := EditsMeanwhile etags
  permit i o s := ¬ Edited formats i s.2 ∧ Fitting formats etags key scenarios i s.1 o
  rely_refl _ := Chronicle.meanwhile_refl advances_refl
  rely_trans _ _ _ _ first second := by
    apply Chronicle.meanwhile_trans _ first second
    exact fun _ _ _ => advances_trans

theorem accepted_thread {deed : StoreDeed Json ι} {edit : ι × Scenario} (taken : accepted formats deed = some edit) :
    edit.1 = deed.thread := by
  obtain ⟨i, o, answer, before, after⟩ := deed
  cases o with
  | upsertEntity partitionKey rowKey data etag =>
    cases answer with
    | ok tag =>
      obtain ⟨stored, _, rfl⟩ := Option.map_eq_some_iff.mp taken
      rfl
    | error e => simp [accepted] at taken
  | _ => simp [accepted] at taken

theorem edited_meanwhile {i : ι} {s t : StoreState Json ι} (meanwhile : EditsMeanwhile etags i s t) :
    Edited formats i t.2 ↔ Edited formats i s.2 := by
  obtain ⟨more, same, others⟩ := meanwhile.others
  have none : i ∉ (accepts formats more).map Prod.fst := by
    intro member
    obtain ⟨edit, listed, rfl⟩ := List.mem_map.mp member
    obtain ⟨deed, performed, taken⟩ := List.mem_filterMap.mp listed
    exact others deed performed (accepted_thread taken).symm
  simp only [Edited, same, accepts, List.filterMap_append, List.map_append, List.mem_append]
  exact or_iff_right none

theorem found_lineage {table : ScenarioTable Json} {earlier : List (ι × Scenario)} {i : ι}
    {version : Int} {createdAt : DateTime} (lineage : Lineage scenarios earlier)
    (stored : (table.row key).map (·.data) = earlier.head?.map fun edit => scenarioToEntityData formats edit.2)
    (found : Found formats (scenarios i) (table.entity key.1 key.2) version createdAt) :
    version = earlier.length ∧ createdAt = (earlier.head?.map (·.2.createdAt)).getD (scenarios i).createdAt := by
  cases earlier with
  | nil =>
    have absent : table.entity key.1 key.2 = none := by
      simpa [Table.entity] using stored
    rw [absent] at found
    cases found
    simp
  | cons last older =>
    obtain ⟨row, present, holds⟩ := Option.map_eq_some_iff.mp stored
    have there : table.entity key.1 key.2 = some (Table.recordAt key row) := by
      simp [Table.entity, present]
    rw [there] at found
    cases found with
    | present decodes numbered =>
      obtain rfl := scenarioToEntityData_injective formats (decodes.symm.trans holds)
      obtain ⟨⟨_, numbering⟩, _⟩ := lineage
      have counted : toString version = toString ((older.length : Int) + 1) := by
        rw [← numbered, numbering]
        rfl
      have same := congrArg int? counted
      rw [int?_toString, int?_toString] at same
      simpa using same

theorem exists_found_of_chained {s : StoreState Json ι} (chained : Chained formats etags key scenarios s) (i : ι) :
    ∃ version createdAt, Found formats (scenarios i) (s.1.entity key.1 key.2) version createdAt := by
  have stored := chained.stored
  have lineage := chained.lineage
  cases present : s.1.row key with
  | none =>
    refine ⟨0, (scenarios i).createdAt, ?_⟩
    simp only [Table.entity, present]
    exact .absent
  | some row =>
    rw [present] at stored
    cases told : accepts formats s.2 with
    | nil => simp [told] at stored
    | cons last older =>
      rw [told] at stored lineage
      obtain ⟨⟨now, numbering⟩, _⟩ := lineage
      refine ⟨older.length + 1, last.2.createdAt, ?_⟩
      simp only [Table.entity, present]
      apply Found.present
      next => exact Option.some.inj stored
      next =>
        rw [numbering]
        rfl

section Treaty

variable {i : ι} {s : StoreState Json ι}

theorem editsMeanwhile_step {j : ι} (other : j ≠ i) (w : StoreWorld Json) {o : StoreOp Json}
    (fitting : Fitting formats etags key scenarios i s.1 o) :
    EditsMeanwhile etags j s (Chronicle.recorded (idealStore etags) i w o s).2 := by
  refine ⟨⟨[⟨i, o, (idealStore etags w o s.1).1, s.1, (idealStore etags w o s.1).2⟩], rfl, ?_⟩, ?_⟩
  next => simpa using other.symm
  next =>
    cases o with
    | upsertEntity partitionKey rowKey data etag => exact advances_upsert s.1 (partitionKey, rowKey) data etag
    | deleteEntity partitionKey rowKey => exact fitting.elim
    | _ => exact advances_refl s.1

-- An operation that writes nothing leaves a log that says so.
theorem chained_silent (chained : Chained formats etags key scenarios s) {w : StoreWorld Json} {o : StoreOp Json}
    (unchanged : (idealStore etags w o s.1).2 = s.1)
    (none : accepted formats ⟨i, o, (idealStore etags w o s.1).1, s.1, (idealStore etags w o s.1).2⟩ = none) :
    Chained formats etags key scenarios (Chronicle.recorded (idealStore etags) i w o s).2 := by
  have same : accepts formats (Chronicle.recorded (idealStore etags) i w o s).2.2 = accepts formats s.2 := by
    simp only [Chronicle.recorded, accepts, List.filterMap_cons, none]
  constructor
  next =>
    rw [same]
    exact chained.lineage
  next =>
    rw [same]
    exact chained.once
  next =>
    rw [same]
    simpa [Chronicle.recorded, unchanged] using chained.stored
  next => simpa [Chronicle.recorded, unchanged] using chained.dated
  next =>
    intro deed member idle
    rcases List.mem_cons.mp member with rfl | old
    next => exact unchanged
    next => exact chained.silent deed old idle

theorem chained_edit (chained : Chained formats etags key scenarios s) (unedited : ¬ Edited formats i s.2)
    {w : StoreWorld Json} {version : Int} {createdAt now : DateTime} {etag : Option String}
    (found : Found formats (scenarios i) (s.1.entity key.1 key.2) version createdAt)
    (through : s.1.upsert etags key (scenarioToEntityData formats (edited (scenarios i) (version + 1) createdAt now))
      etag = s.1.install etags key
        (scenarioToEntityData formats (edited (scenarios i) (version + 1) createdAt now))) :
    Chained formats etags key scenarios (Chronicle.recorded (idealStore etags) i w (.upsertEntity key.1 key.2
      (scenarioToEntityData formats (edited (scenarios i) (version + 1) createdAt now)) etag) s).2 := by
  generalize written : edited (scenarios i) (version + 1) createdAt now = stored at through ⊢
  have handled : idealStore etags w (.upsertEntity key.1 key.2 (scenarioToEntityData formats stored) etag) s.1 =
      s.1.install etags key (scenarioToEntityData formats stored) := through
  have taken : accepts formats (Chronicle.recorded (idealStore etags) i w
      (.upsertEntity key.1 key.2 (scenarioToEntityData formats stored) etag) s).2.2 =
        (i, stored) :: accepts formats s.2 := by
    simp [Chronicle.recorded, accepts, handled, Table.install, accepted, entityToScenario_data, Except.toOption]
  obtain ⟨counted, inherited⟩ := found_lineage chained.lineage chained.stored found
  constructor
  next =>
    rw [taken]
    refine ⟨⟨now, ?_⟩, chained.lineage⟩
    rw [← written, counted, inherited]
  next =>
    rw [taken]
    exact List.nodup_cons.mpr ⟨unedited, chained.once⟩
  next =>
    rw [taken]
    simp [Chronicle.recorded, handled]
  next =>
    intro row present
    simp only [Chronicle.recorded, handled, Table.row_install, if_true] at present
    obtain rfl := Option.some.inj present
    exact ⟨s.1.writes, by simp [Chronicle.recorded, handled, Table.install], rfl⟩
  next =>
    intro deed member idle
    rcases List.mem_cons.mp member with rfl | old
    next => simp [handled, Table.install, accepted, entityToScenario_data, Except.toOption] at idle
    next => exact chained.silent deed old idle

theorem editsTreaty_sustained : (editsTreaty formats etags key scenarios).Sustained (idealStore etags) := by
  constructor
  next =>
    intro i o w s chained permitted
    obtain ⟨unedited, fitting⟩ := permitted
    cases o with
    | upsertEntity partitionKey rowKey data etag =>
      obtain ⟨rfl, version, createdAt, now, rfl, fits⟩ := fitting
      obtain ⟨e, failed⟩ | through := s.1.upsert_cases (partitionKey, rowKey)
        (scenarioToEntityData formats (edited (scenarios i) (version + 1) createdAt now)) etags etag
      next =>
        apply chained_silent chained
        next => simp [idealStore, failed]
        next => simp [idealStore, failed, accepted]
      next => exact chained_edit chained unedited (fits _ (by rw [through]; rfl)) through
    | deleteEntity partitionKey rowKey => exact fitting.elim
    | getEntity partitionKey rowKey => exact chained_silent chained rfl rfl
    | query partitionKey rowKey => exact chained_silent chained rfl rfl
    | now => exact chained_silent chained rfl rfl
  next => exact fun i j other o w s _ permitted => editsMeanwhile_step other w permitted.2

end Treaty

section OneUpsert

variable {table later : ScenarioTable Json}

-- The condition of the write vouches for what was read.
theorem entity_of_accepted (fresh : Function.Injective etags)
    (dated : ∀ row, table.row key = some row → ∃ n < table.writes, row.etag = etags n)
    (advances : Advances etags table later) {data : EntityData Json} {tag : String}
    (through : (later.upsert etags key data ((table.entity key.1 key.2).map (·.etag))).1 = .ok tag) :
    later.entity key.1 key.2 = table.entity key.1 key.2 := by
  cases present : table.row key with
  | none =>
    cases present' : later.row key with
    | none => simp [Table.entity, present, present']
    | some row' =>
      simp [Table.entity, present, later.upsert_taken key data present'] at through
  | some row =>
    obtain ⟨row', present'⟩ := present_later advances present
    by_cases same : row'.etag = row.etag
    next =>
      obtain rfl := row_of_etag advances present fresh (dated row present) present' same
      simp [Table.entity, present, present']
    next =>
      simp [Table.entity, present, Table.recordAt, later.upsert_stale key data present' same] at through

theorem conflict_of_refused (advances : Advances etags table later) {data : EntityData Json} {e : Provisioning.HttpResponseError}
    (refused : (later.upsert etags key data ((table.entity key.1 key.2).map (·.etag))).1 = .error e) :
    mapStatus e = scenarioConflict := by
  cases present : table.row key with
  | none =>
    cases present' : later.row key with
    | none =>
      simp [Table.entity, present, later.upsert_create key data present', Table.install] at refused
    | some row' =>
      simp only [Table.entity, present, Option.map_none, later.upsert_taken key data present'] at refused
      obtain rfl := Except.error.inj refused
      rfl
  | some row =>
    obtain ⟨row', present'⟩ := present_later advances present
    simp only [Table.entity, present, Option.map_some, Table.recordAt] at refused
    by_cases same : row'.etag = row.etag
    next =>
      rw [← same, later.upsert_current key data present'] at refused
      simp [Table.install] at refused
    next =>
      rw [later.upsert_stale key data present' same] at refused
      obtain rfl := Except.error.inj refused
      rfl

variable (formats) in
def Told (i : ι) : Except Raised Scenario → StoreState Json ι → Prop
  | .ok stored, s => (i, stored) ∈ accepts formats s.2
  | .error e, s => (∃ text, e = .scenario ⟨"", text, scenarioConflict⟩) ∧ ¬ Edited formats i s.2

theorem told_meanwhile {i : ι} {result : Except Raised Scenario} {s t : StoreState Json ι}
    (meanwhile : EditsMeanwhile etags i s t) (told : Told formats i result s) : Told formats i result t := by
  cases result with
  | ok stored =>
    obtain ⟨more, same, _⟩ := meanwhile.others
    simp only [Told, same, accepts, List.filterMap_append, List.mem_append]
    exact .inr told
  | error e => exact ⟨told.1, fun edit => told.2 ((edited_meanwhile meanwhile).mp edit)⟩

variable (etags) in
-- Performed by the thread itself, and without a write.
theorem unedited_silent {i : ι} (w : StoreWorld Json) (o : StoreOp Json) {s : StoreState Json ι}
    (unedited : ¬ Edited formats i s.2)
    (none : accepted formats ⟨i, o, (idealStore etags w o s.1).1, s.1, (idealStore etags w o s.1).2⟩ = none) :
    ¬ Edited formats i (Chronicle.recorded (idealStore etags) i w o s).2.2 := by
  simp only [Edited, Chronicle.recorded, accepts, List.filterMap_cons, none]
  exact unedited

variable {i : ι} {s : StoreState Json ι} (addressed : ((scenarios i).vertical, (scenarios i).scenarioId) = key)

include addressed

theorem write_kept (fresh : Function.Injective etags)
    (dated : ∀ row, table.row key = some row → ∃ n < table.writes, row.etag = etags n)
    (advances : Advances etags table s.1) {version : Int} {createdAt : DateTime}
    (found : Found formats (scenarios i) (table.entity key.1 key.2) version createdAt)
    (unedited : ¬ Edited formats i s.2) (now : DateTime) :
    ((editsTreaty formats etags key scenarios).contract (idealStore etags) i).Kept
      (.op (.upsertEntity (scenarios i).vertical (scenarios i).scenarioId
        (scenarioToEntityData formats (edited (scenarios i) (version + 1) createdAt now))
          ((table.entity key.1 key.2).map (·.etag)))
        fun answer => .ret (outcome (edited (scenarios i) (version + 1) createdAt now) answer)) (Told formats i) s := by
  intro t meanwhile _
  subst addressed
  generalize written : edited (scenarios i) (version + 1) createdAt now = stored
  have unedited := (edited_meanwhile meanwhile).not.mpr unedited
  have advances := advances_trans advances meanwhile.advances
  refine ⟨⟨unedited, rfl, version, createdAt, now, by rw [written], fun tag through => ?_⟩, fun w u after => ?_⟩
  next =>
    rw [entity_of_accepted fresh dated advances through]
    exact found
  next =>
    apply told_meanwhile after
    obtain ⟨e, failed⟩ | through := t.1.upsert_cases ((scenarios i).vertical, (scenarios i).scenarioId)
      (scenarioToEntityData formats stored) etags
      ((table.entity (scenarios i).vertical (scenarios i).scenarioId).map (·.etag))
    next =>
      have conflict := conflict_of_refused advances (congrArg Prod.fst failed)
      simp only [Treaty.contract, Chronicle.recorded, idealStore, failed, outcome, conflict]
      refine ⟨⟨e.text, rfl⟩, ?_⟩
      simpa [Edited, accepts, accepted] using unedited
    next =>
      simp only [Treaty.contract, Chronicle.recorded, idealStore, through, Table.install, outcome]
      simp [Told, accepts, accepted, entityToScenario_data, Except.toOption]

theorem upsert_kept (fresh : Function.Injective etags) (unedited : ¬ Edited formats i s.2) :
    ((editsTreaty formats etags key scenarios).contract (idealStore etags) i).Kept
      (TableStorageScenarioStore.upsert formats (scenarios i)).run (Told formats i) s := by
  rw [upsert_run]
  intro t sooner chained
  have unedited := (edited_meanwhile sooner).not.mpr unedited
  refine ⟨⟨unedited, trivial⟩, fun w => ?_⟩
  obtain ⟨version, createdAt, found⟩ := exists_found_of_chained chained i
  have read : (((editsTreaty formats etags key scenarios).contract (idealStore etags) i).handler w
      (.getEntity (scenarios i).vertical (scenarios i).scenarioId) t).1 = t.1.entity key.1 key.2 := by
    rw [← addressed]
    rfl
  rw [read]
  beta_reduce
  rw [submission_run found]
  have unedited := unedited_silent etags w (.getEntity (scenarios i).vertical (scenarios i).scenarioId) unedited rfl
  intro u later _
  have unedited := (edited_meanwhile later).not.mpr unedited
  refine ⟨⟨unedited, trivial⟩, fun w' => ?_⟩
  exact write_kept (s := (Chronicle.recorded (idealStore etags) i w' .now u).2) addressed fresh chained.dated
    later.advances found (unedited_silent etags w' .now unedited rfl) w'.now

end OneUpsert

section Lineages

variable {edited : List (ι × Scenario)}

theorem numbered_of_lineage (lineage : Lineage scenarios edited) :
    edited.reverse.map (·.2.configVersion) = (List.range edited.length).map fun n => toString (n + 1) := by
  induction edited with
  | nil => rfl
  | cons last earlier ih =>
    obtain ⟨⟨now, numbering⟩, earlier⟩ := lineage
    rw [List.reverse_cons, List.map_append, ih earlier, List.length_cons, List.range_succ, List.map_append]
    simp only [List.map_cons, List.map_nil, numbering]
    rfl

theorem created_of_lineage (lineage : Lineage scenarios edited) {first : ι × Scenario}
    (begins : edited.reverse.head? = some first) :
    first.2.createdAt = (scenarios first.1).createdAt ∧ ∀ edit ∈ edited, edit.2.createdAt = first.2.createdAt := by
  induction edited with
  | nil => simp at begins
  | cons last earlier ih =>
    obtain ⟨⟨now, numbering⟩, rest⟩ := lineage
    cases earlier with
    | nil =>
      obtain rfl : last = first := by simpa using begins
      refine ⟨?_, by simp⟩
      rw [numbering]
      rfl
    | cons previous older =>
      obtain ⟨own, shared⟩ := ih rest (by simpa using begins)
      refine ⟨own, fun edit member => ?_⟩
      rcases List.mem_cons.mp member with rfl | old
      next =>
        rw [numbering]
        exact shared previous List.mem_cons_self
      next => exact shared edit old

end Lineages

variable [DecidableEq ι]

theorem no_edit_lost (fresh : Function.Injective etags)
    (addressed : ∀ i, ((scenarios i).vertical, (scenarios i).scenarioId) = key) {table : ScenarioTable Json}
    (absent : table.row key = none) (schedule : List (ι × StoreWorld Json)) :
    NoEditLost formats key scenarios
      (Pool.runAs (Chronicle.recorded (idealStore etags)) schedule (editors formats scenarios table)) := by
  have initial : Chained formats etags key scenarios (table, ([] : StoreLog Json ι)) :=
    ⟨trivial, .nil, by simp [absent, accepts], by simp [absent], by simp⟩
  obtain ⟨_, chained, threads⟩ := Treaty.lawful_run editsTreaty_sustained (c := editors formats scenarios table) rfl
    initial (fun i => upsert_kept (addressed i) fresh (by simp [Edited, accepts, editors])) schedule
  generalize Pool.runAs (Chronicle.recorded (idealStore etags)) schedule (editors formats scenarios table) = c
    at chained threads ⊢
  have told (i : ι) (result : Except Raised Scenario) (finished : c.threads i = .ret result) :
      Told formats i result c.state := by
    have kept := threads i
    rw [finished] at kept
    exact kept _ (Chronicle.meanwhile_refl advances_refl _)
  constructor
  next => simpa [edits] using numbered_of_lineage chained.lineage
  next => simpa [edits] using chained.once
  next =>
    intro i stored
    constructor
    next => exact fun finished => List.mem_reverse.mpr (told i _ finished)
    next =>
      intro member
      have member := List.mem_reverse.mp member
      have edit : Edited formats i c.state.2 := List.mem_map.mpr ⟨_, member, rfl⟩
      have kept := threads i
      cases current : c.threads i with
      | op o next =>
        -- A thread turns to the backend only until its edit is accepted.
        rw [current] at kept
        exact absurd edit (kept c.state (Chronicle.meanwhile_refl advances_refl _) chained).1.1
      | ret result =>
        cases result with
        | error e => exact absurd edit (told i _ current).2
        | ok stored' =>
          have same := List.inj_on_of_nodup_map chained.once (told i _ current) member rfl
          rw [(Prod.mk.inj same).2]
  next =>
    intro first begins
    obtain ⟨own, shared⟩ := created_of_lineage chained.lineage begins
    exact ⟨own, fun edit member => shared edit (List.mem_reverse.mp member)⟩
  next =>
    have stored := congrArg (Option.map (entityToScenario formats)) chained.stored
    simpa [edits, List.getLast?_reverse, entityToScenario_data, Function.comp_def] using stored
  next =>
    intro i e finished
    obtain ⟨conflict, unedited⟩ := told i _ finished
    refine ⟨conflict, fun deed member own => chained.silent deed member ?_⟩
    cases taken : accepted formats deed with
    | none => rfl
    | some edit =>
      subst own
      rw [← accepted_thread taken] at unedited
      exact absurd (List.mem_map.mpr ⟨edit, List.mem_filterMap.mpr ⟨deed, member, taken⟩, rfl⟩) unedited

-- Two creations at once, and an update: both of the first two find nothing, and one creates the entity.

def numberedEtags (n : Nat) : String := toString (n : Int)

theorem numberedEtags_injective : Function.Injective numberedEtags := by
  intro n m same
  have values := congrArg int? same
  simpa only [numberedEtags, int?_toString, Option.some.injEq, Int.natCast_inj] using values

def rivals (i : Nat) : Scenario := { sampleScenario "hr" hr_nonempty with createdAt := i }

def rivalEditors : Editors JsonObject Nat :=
  Pool.runAs (Chronicle.recorded (idealStore numberedEtags)) ([0, 1, 1, 1, 0, 0, 2, 2, 2].map fun i => (i, listedAsFound))
    (editors documentFormats rivals {})

theorem no_edit_lost_among_rivals :
    ((∃ e, rivalEditors.threads 0 = .ret (.error e)) ∧
      rivalEditors.threads 1 = .ret (.ok (edited (rivals 1) 1 1 0)) ∧
      rivalEditors.threads 2 = .ret (.ok (edited (rivals 2) 2 1 0))) ∧
    NoEditLost documentFormats ("hr", "policies") rivals rivalEditors := by
  refine ⟨⟨⟨_, rfl⟩, rfl, rfl⟩, ?_⟩
  apply no_edit_lost numberedEtags_injective
  next => exact fun _ => rfl
  next => rfl

end Vestibule.Scenarios
