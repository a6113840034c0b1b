import Mathlib.Data.List.Induction
import Vestibule.Scenarios.TableStorage

set_option autoImplicit false

namespace Vestibule.Scenarios

open Library
open Provisioning (Row Table)

-- Lookups and deletes go by the scenario's id alone, upserts by its vertical and its id.

inductive StoreCall where
  | upsert (scenario : Scenario)
  | delete (scenarioId : String)

def StoreCall.Value : StoreCall → Type
  | upsert _ => Scenario
  | delete _ => Bool

variable {Json : Type} (formats : Formats Json) (etags : Nat → String)

def StoreCall.program : (call : StoreCall) → StorePy Json call.Value
  | upsert scenario => TableStorageScenarioStore.upsert formats scenario
  | delete scenarioId => TableStorageScenarioStore.delete scenarioId

structure StoreTurn (Json : Type) where
  call : StoreCall
  oracle : Nat → StoreWorld Json

def StoreTurn.run (turn : StoreTurn Json) (table : ScenarioTable Json) :
    Except Raised turn.call.Value × ScenarioTable Json :=
  Prog.run (idealStore etags) (turn.call.program formats).run turn.oracle table

def tableAfter (turns : List (StoreTurn Json)) : ScenarioTable Json :=
  turns.foldl (fun table turn => (turn.run formats etags table).2) {}

def lookUp (table : ScenarioTable Json) (scenarioId : String) (oracle : Nat → StoreWorld Json) :
    Except Raised (Option Scenario) :=
  (Prog.run (idealStore etags) (TableStorageScenarioStore.get formats scenarioId).run oracle table).1

structure Laws (turns : List (StoreTurn Json)) : Prop where
  unique : ∀ before, before <+: turns → ∀ scenarioId vertical vertical',
    (tableAfter formats etags before).row (vertical, scenarioId) ≠ none →
    (tableAfter formats etags before).row (vertical', scenarioId) ≠ none → vertical = vertical'
  upserted : ∀ before scenario oracle after, turns = before ++ ⟨.upsert scenario, oracle⟩ :: after → ∀ stored,
    (StoreTurn.run formats etags ⟨.upsert scenario, oracle⟩ (tableAfter formats etags before)).1 = .ok stored →
    ∀ view, lookUp formats etags (tableAfter formats etags (before ++ [⟨.upsert scenario, oracle⟩]))
      scenario.scenarioId view = .ok (some stored)
  deleted : ∀ before scenarioId oracle after, turns = before ++ ⟨.delete scenarioId, oracle⟩ :: after → ∀ answer,
    (StoreTurn.run formats etags ⟨.delete scenarioId, oracle⟩ (tableAfter formats etags before)).1 = .ok answer →
    ∀ view, lookUp formats etags (tableAfter formats etags (before ++ [⟨.delete scenarioId, oracle⟩]))
      scenarioId view = .ok none
  increases : ∀ before first oracle between second oracle' after,
    turns = before ++ ⟨.upsert first, oracle⟩ :: (between ++ ⟨.upsert second, oracle'⟩ :: after) →
    second.scenarioId = first.scenarioId → (∀ turn ∈ between, turn.call ≠ .delete first.scenarioId) →
    ∀ stored stored',
    (StoreTurn.run formats etags ⟨.upsert first, oracle⟩ (tableAfter formats etags before)).1 = .ok stored →
    (StoreTurn.run formats etags ⟨.upsert second, oracle'⟩
      (tableAfter formats etags (before ++ ⟨.upsert first, oracle⟩ :: between))).1 = .ok stored' →
    ∃ n m, int? stored.configVersion = some n ∧ int? stored'.configVersion = some m ∧ n < m

def Standing (turns : List (StoreTurn Json)) (scenario : Scenario) : Prop :=
  ∃ before oracle after, turns = before ++ ⟨.upsert scenario, oracle⟩ :: after ∧
    ∀ turn ∈ after, turn.call ≠ .delete scenario.scenarioId

/-- A scenario is moved to another vertical only after its id has been deleted. -/
def KeepsVerticals (turns : List (StoreTurn Json)) : Prop :=
  ∀ before scenario oracle after, turns = before ++ ⟨.upsert scenario, oracle⟩ :: after →
    ∀ earlier, Standing before earlier → earlier.scenarioId = scenario.scenarioId →
      earlier.vertical = scenario.vertical

theorem standing_append {turns : List (StoreTurn Json)} {turn : StoreTurn Json} {scenario : Scenario} :
    Standing (turns ++ [turn]) scenario ↔
      turn.call = .upsert scenario ∨ Standing turns scenario ∧ turn.call ≠ .delete scenario.scenarioId := by
  constructor
  next =>
    rintro ⟨before, oracle, after, same, kept⟩
    cases after using List.reverseRecOn with
    | nil =>
      obtain ⟨_, rfl⟩ := List.append_inj' same rfl |>.imp_right (List.singleton_inj.mp ·)
      exact .inl rfl
    | append_singleton after last =>
      rw [← List.cons_append, ← List.append_assoc] at same
      obtain ⟨rfl, rfl⟩ := List.append_inj' same rfl |>.imp_right (List.singleton_inj.mp ·)
      exact .inr ⟨⟨before, oracle, after, rfl, fun turn member => kept turn (by simp [member])⟩,
        kept turn (by simp)⟩
  next =>
    rintro (upserted | ⟨⟨before, oracle, after, rfl, kept⟩, stays⟩)
    next =>
      obtain ⟨call, oracle⟩ := turn
      obtain rfl : call = .upsert scenario := upserted
      exact ⟨turns, oracle, [], rfl, by simp⟩
    next =>
      refine ⟨before, oracle, after ++ [turn], by simp, fun other member => ?_⟩
      rcases List.mem_append.mp member with old | new
      next => exact kept other old
      next =>
        rw [List.mem_singleton.mp new]
        exact stays

theorem keepsVerticals_append {turns more : List (StoreTurn Json)} (keeps : KeepsVerticals (turns ++ more)) :
    KeepsVerticals turns := by
  intro before scenario oracle after split
  exact keeps before scenario oracle (after ++ more) (by simp [split])

theorem tableAfter_append (turns : List (StoreTurn Json)) (turn : StoreTurn Json) :
    tableAfter formats etags (turns ++ [turn]) = (turn.run formats etags (tableAfter formats etags turns)).2 := by
  simp [tableAfter]

section OneCall

variable {formats etags} {table : ScenarioTable Json}

def HeldAt (formats : Formats Json) (table : ScenarioTable Json) (key : String × String) (stored : Scenario)
    (version : Int) : Prop :=
  ∃ row, table.row key = some row ∧ row.data = scenarioToEntityData formats stored ∧
    stored.configVersion = toString version

def WellStored (formats : Formats Json) (table : ScenarioTable Json) : Prop :=
  ∀ key, table.row key ≠ none → ∃ stored version, HeldAt formats table key stored version

theorem found_of_heldAt {scenario stored : Scenario} {version : Int}
    (held : HeldAt formats table (scenario.vertical, scenario.scenarioId) stored version) :
    Found formats scenario (table.entity scenario.vertical scenario.scenarioId) version stored.createdAt := by
  obtain ⟨row, present, decodes, numbered⟩ := held
  rw [Table.entity, present]
  exact .present decodes numbered

theorem exists_found (sound : WellStored formats table) (scenario : Scenario) :
    ∃ version createdAt,
      Found formats scenario (table.entity scenario.vertical scenario.scenarioId) version createdAt := by
  cases present : table.row (scenario.vertical, scenario.scenarioId) with
  | none =>
    refine ⟨0, scenario.createdAt, ?_⟩
    rw [Table.entity, present]
    exact .absent
  | some row =>
    obtain ⟨stored, version, held⟩ := sound (scenario.vertical, scenario.scenarioId) (by simp [present])
    exact ⟨version, stored.createdAt, found_of_heldAt held⟩

-- Nobody writes between the read and the write.
theorem upsert_unraced (scenario : Scenario) (data : EntityData Json) :
    table.upsert etags (scenario.vertical, scenario.scenarioId) data
      ((table.entity scenario.vertical scenario.scenarioId).map (·.etag)) =
    table.install etags (scenario.vertical, scenario.scenarioId) data := by
  cases present : table.row (scenario.vertical, scenario.scenarioId) with
  | none => simp [Table.entity, present, Table.upsert_create]
  | some row => simpa [Table.entity, present, Table.recordAt] using Table.upsert_current table _ data present

theorem upsert_turn {scenario : Scenario} {version : Int} {createdAt : DateTime}
    (found : Found formats scenario (table.entity scenario.vertical scenario.scenarioId) version createdAt)
    (oracle : Nat → StoreWorld Json) :
    StoreTurn.run formats etags ⟨.upsert scenario, oracle⟩ table =
      (.ok (edited scenario (version + 1) createdAt (oracle 1).now),
        (table.install etags (scenario.vertical, scenario.scenarioId)
          (scenarioToEntityData formats (edited scenario (version + 1) createdAt (oracle 1).now))).2) := by
  change Prog.run (idealStore etags) (TableStorageScenarioStore.upsert formats scenario).run oracle table = _
  simp only [upsert_run, Prog.run, idealStore, submission_run found, upsert_unraced]
  rfl

@[simp]
theorem row_removed (key other : String × String) :
    (removed table key).row other = if other = key then none else table.row other :=
  Dict.get?_erase table.rows key other

variable (table) in
theorem queried_cases (w : StoreWorld Json) (scenarioId : String) :
    (w.arrange (queried table none (some scenarioId)) = [] ∧ ∀ vertical, table.row (vertical, scenarioId) = none) ∨
      ∃ vertical row rest, table.row (vertical, scenarioId) = some row ∧
        w.arrange (queried table none (some scenarioId)) = Table.recordAt (vertical, scenarioId) row :: rest := by
  have listed (vertical : String) (row : Row (EntityData Json))
      (present : table.row (vertical, scenarioId) = some row) :
      Table.recordAt (vertical, scenarioId) row ∈ w.arrange (queried table none (some scenarioId)) := by
    rw [(w.complete _).mem_iff]
    refine List.mem_map.mpr ⟨((vertical, scenarioId), row), List.mem_filter.mpr ⟨?_, by simp⟩, rfl⟩
    exact (Dict.get?_eq_some ..).mp present
  cases arranged : w.arrange (queried table none (some scenarioId)) with
  | nil =>
    refine .inl ⟨rfl, fun vertical => ?_⟩
    by_contra present
    obtain ⟨row, present⟩ := Option.ne_none_iff_exists'.mp present
    simpa [arranged] using listed vertical row present
  | cons record rest =>
    have member : record ∈ queried table none (some scenarioId) := by
      rw [← (w.complete _).mem_iff, arranged]
      exact List.mem_cons_self
    obtain ⟨⟨⟨vertical, rowKey⟩, row⟩, entry, rfl⟩ := List.mem_map.mp member
    obtain ⟨entry, hit⟩ := List.mem_filter.mp entry
    obtain rfl : scenarioId = rowKey := by simpa using hit
    exact .inr ⟨vertical, row, rest, (Dict.get?_eq_some ..).mpr entry, rfl⟩

theorem lookUp_cases (sound : WellStored formats table) (scenarioId : String) (oracle : Nat → StoreWorld Json) :
    ((∀ vertical, table.row (vertical, scenarioId) = none) ∧ lookUp formats etags table scenarioId oracle = .ok none) ∨
      ∃ vertical stored version, HeldAt formats table (vertical, scenarioId) stored version ∧
        lookUp formats etags table scenarioId oracle = .ok (some stored) := by
  obtain ⟨empty, absent⟩ | ⟨vertical, row, rest, present, first⟩ := queried_cases table (oracle 0) scenarioId
  next =>
    refine .inl ⟨absent, ?_⟩
    change (Prog.run (idealStore etags) (.op (.query none (some scenarioId)) fun found => _) oracle table).1 = _
    simp only [Prog.run, idealStore]
    rw [empty]
    rfl
  next =>
    obtain ⟨stored, version, held⟩ := sound (vertical, scenarioId) (by simp [present])
    refine .inr ⟨vertical, stored, version, held, ?_⟩
    obtain ⟨row', present', decodes, _⟩ := held
    obtain rfl : row = row' := Option.some.inj (present.symm.trans present')
    have reads : TableStorageScenarioStore.ofRecord formats (Table.recordAt (vertical, scenarioId) row) =
        pure stored := by
      simp only [TableStorageScenarioStore.ofRecord, Table.recordAt, decodes, entityToScenario_data]
      rfl
    change (Prog.run (idealStore etags) (.op (.query none (some scenarioId)) fun found => _) oracle table).1 = _
    simp only [Prog.run, idealStore]
    rw [first]
    change (Prog.run (idealStore etags) (some <$> TableStorageScenarioStore.ofRecord formats _ : StorePy _ _).run
      _ table).1 = _
    rw [reads]
    rfl

variable (formats etags table) in
theorem delete_turn (scenarioId : String) (oracle : Nat → StoreWorld Json) :
    ((∀ vertical, table.row (vertical, scenarioId) = none) ∧
        StoreTurn.run formats etags ⟨.delete scenarioId, oracle⟩ table = (.ok false, table)) ∨
      ∃ vertical, table.row (vertical, scenarioId) ≠ none ∧
        StoreTurn.run formats etags ⟨.delete scenarioId, oracle⟩ table =
          (.ok true, removed table (vertical, scenarioId)) := by
  obtain ⟨empty, absent⟩ | ⟨vertical, row, rest, present, first⟩ := queried_cases table (oracle 0) scenarioId
  next =>
    refine .inl ⟨absent, ?_⟩
    change Prog.run (idealStore etags) (.op (.query none (some scenarioId)) fun found => _) oracle table = _
    simp only [Prog.run, idealStore]
    rw [empty]
    rfl
  next =>
    refine .inr ⟨vertical, by simp [present], ?_⟩
    change Prog.run (idealStore etags) (.op (.query none (some scenarioId)) fun found => _) oracle table = _
    simp only [Prog.run, idealStore]
    rw [first]
    rfl

theorem heldAt_install {key other : String × String} {data : EntityData Json} {stored : Scenario} {version : Int}
    (apart : other ≠ key) (held : HeldAt formats table other stored version) :
    HeldAt formats (table.install etags key data).2 other stored version := by
  obtain ⟨row, present, known⟩ := held
  exact ⟨row, by simp [apart, present], known⟩

theorem heldAt_written (scenario : Scenario) (version : Int) (createdAt updatedAt : DateTime) :
    HeldAt formats (table.install etags (scenario.vertical, scenario.scenarioId)
      (scenarioToEntityData formats (edited scenario version createdAt updatedAt))).2
      (scenario.vertical, scenario.scenarioId) (edited scenario version createdAt updatedAt) version :=
  ⟨_, (Table.row_install ..).trans (if_pos rfl), rfl, rfl⟩

theorem wellStored_turn (sound : WellStored formats table) (turn : StoreTurn Json) :
    WellStored formats (turn.run formats etags table).2 := by
  obtain ⟨call, oracle⟩ := turn
  cases call with
  | upsert scenario =>
    obtain ⟨version, createdAt, found⟩ := exists_found sound scenario
    rw [upsert_turn found]
    intro key present
    by_cases hit : key = (scenario.vertical, scenario.scenarioId)
    next =>
      subst hit
      exact ⟨_, _, heldAt_written scenario ..⟩
    next =>
      obtain ⟨stored, version, held⟩ := sound key (by simpa [hit] using present)
      exact ⟨stored, version, heldAt_install hit held⟩
  | delete scenarioId =>
    obtain ⟨_, same⟩ | ⟨vertical, _, same⟩ := delete_turn formats etags table scenarioId oracle
    next =>
      rw [same]
      exact sound
    next =>
      rw [same]
      intro key present
      have apart : key ≠ (vertical, scenarioId) := by
        intro hit
        simp [hit] at present
      obtain ⟨stored, version, row, held⟩ := sound key (by simpa [apart] using present)
      exact ⟨stored, version, row, by simpa [apart] using held⟩

-- An entity stays, and its version grows, until its id is deleted.
theorem heldAt_turn (sound : WellStored formats table) {turn : StoreTurn Json} {vertical scenarioId : String}
    {stored : Scenario} {version : Int} (held : HeldAt formats table (vertical, scenarioId) stored version)
    (kept : turn.call ≠ .delete scenarioId) :
    ∃ stored' version', version ≤ version' ∧
      HeldAt formats (turn.run formats etags table).2 (vertical, scenarioId) stored' version' := by
  obtain ⟨call, oracle⟩ := turn
  cases call with
  | upsert scenario =>
    by_cases hit : (vertical, scenarioId) = (scenario.vertical, scenario.scenarioId)
    next =>
      rw [hit] at held ⊢
      rw [upsert_turn (found_of_heldAt held)]
      exact ⟨_, version + 1, by omega, heldAt_written scenario ..⟩
    next =>
      obtain ⟨_, _, found⟩ := exists_found sound scenario
      rw [upsert_turn found]
      exact ⟨stored, version, Int.le_refl _, heldAt_install hit held⟩
  | delete other =>
    have apart : scenarioId ≠ other := fun same => kept (congrArg StoreCall.delete same.symm)
    obtain ⟨_, same⟩ | ⟨_, _, same⟩ := delete_turn formats etags table other oracle
    next =>
      rw [same]
      exact ⟨stored, version, Int.le_refl _, held⟩
    next =>
      rw [same]
      obtain ⟨row, held⟩ := held
      exact ⟨stored, version, Int.le_refl _, row, by simpa [apart] using held⟩

end OneCall

section Runs

theorem wellStored_run (turns : List (StoreTurn Json)) : WellStored formats (tableAfter formats etags turns) := by
  induction turns using List.reverseRecOn with
  | nil =>
    intro key present
    simp [tableAfter, Table.row] at present
  | append_singleton turns turn ih =>
    rw [tableAfter_append]
    exact wellStored_turn ih turn

variable {formats etags}

theorem heldAt_run {turns : List (StoreTurn Json)} {vertical scenarioId : String} {stored : Scenario} {version : Int}
    (held : HeldAt formats (tableAfter formats etags turns) (vertical, scenarioId) stored version)
    (more : List (StoreTurn Json)) (kept : ∀ turn ∈ more, turn.call ≠ .delete scenarioId) :
    ∃ stored' version', version ≤ version' ∧
      HeldAt formats (tableAfter formats etags (turns ++ more)) (vertical, scenarioId) stored' version' := by
  induction more using List.reverseRecOn with
  | nil => exact ⟨stored, version, Int.le_refl _, by simpa using held⟩
  | append_singleton more turn ih =>
    obtain ⟨stored', version', grown, held'⟩ := ih fun turn member => kept turn (by simp [member])
    obtain ⟨stored'', version'', grown', held''⟩ := heldAt_turn (wellStored_run formats etags _) held' (kept turn (by simp))
    refine ⟨stored'', version'', by omega, ?_⟩
    rw [← List.append_assoc, tableAfter_append]
    exact held''

variable (formats etags) in
theorem upsert_held (before : List (StoreTurn Json)) (scenario : Scenario) (oracle : Nat → StoreWorld Json) :
    ∃ stored version,
      (StoreTurn.run formats etags ⟨.upsert scenario, oracle⟩ (tableAfter formats etags before)).1 = .ok stored ∧
      HeldAt formats (tableAfter formats etags (before ++ [⟨.upsert scenario, oracle⟩]))
        (scenario.vertical, scenario.scenarioId) stored version := by
  obtain ⟨version, createdAt, found⟩ := exists_found (wellStored_run formats etags before) scenario
  rw [tableAfter_append, upsert_turn found]
  exact ⟨_, version + 1, rfl, heldAt_written scenario ..⟩

theorem heldAt_of_standing {turns : List (StoreTurn Json)} {scenario : Scenario} (standing : Standing turns scenario) :
    (tableAfter formats etags turns).row (scenario.vertical, scenario.scenarioId) ≠ none := by
  obtain ⟨before, oracle, after, rfl, kept⟩ := standing
  obtain ⟨stored, version, _, held⟩ := upsert_held formats etags before scenario oracle
  obtain ⟨_, _, _, row, present, _⟩ := heldAt_run held after kept
  simp only [List.append_assoc, List.cons_append, List.nil_append] at present
  simp [present]

theorem standing_agrees {turns : List (StoreTurn Json)} (keeps : KeepsVerticals turns) {first second : Scenario}
    (standing : Standing turns first) (standing' : Standing turns second)
    (same : first.scenarioId = second.scenarioId) : first.vertical = second.vertical := by
  induction turns using List.reverseRecOn with
  | nil =>
    obtain ⟨_, _, _, split, _⟩ := standing
    simp at split
  | append_singleton turns turn ih =>
    obtain ⟨call, oracle⟩ := turn
    rcases standing_append.mp standing with last | ⟨earlier, _⟩
    next =>
      obtain rfl : call = .upsert first := last
      rcases standing_append.mp standing' with last' | ⟨earlier', _⟩
      next => rw [StoreCall.upsert.inj last']
      next => exact (keeps turns first oracle [] rfl second earlier' same.symm).symm
    next =>
      rcases standing_append.mp standing' with last' | ⟨earlier', _⟩
      next =>
        obtain rfl : call = .upsert second := last'
        exact keeps turns second oracle [] rfl first earlier same
      next => exact ih (keepsVerticals_append keeps) earlier earlier'

-- Where no scenario moves without a delete, what the table holds was upserted and not deleted since.
theorem standing_of_stored {turns : List (StoreTurn Json)} (keeps : KeepsVerticals turns) {key : String × String}
    (present : (tableAfter formats etags turns).row key ≠ none) :
    ∃ scenario, Standing turns scenario ∧ scenario.vertical = key.1 ∧ scenario.scenarioId = key.2 := by
  induction turns using List.reverseRecOn generalizing key with
  | nil => simp [tableAfter, Table.row] at present
  | append_singleton turns turn ih =>
    have ih := @ih (keepsVerticals_append keeps)
    rw [tableAfter_append] at present
    obtain ⟨call, oracle⟩ := turn
    cases call with
    | upsert scenario =>
      obtain ⟨_, _, found⟩ := exists_found (wellStored_run formats etags turns) scenario
      rw [upsert_turn found] at present
      by_cases hit : key = (scenario.vertical, scenario.scenarioId)
      next => exact ⟨scenario, standing_append.mpr (.inl rfl), by simp [hit], by simp [hit]⟩
      next =>
        obtain ⟨earlier, standing, named⟩ := ih (by simpa [hit] using present)
        exact ⟨earlier, standing_append.mpr (.inr ⟨standing, by simp⟩), named⟩
    | delete scenarioId =>
      have apart : (tableAfter formats etags turns).row key ≠ none ∧ key.2 ≠ scenarioId := by
        obtain ⟨absent, same⟩ | ⟨vertical, removed, same⟩ := delete_turn formats etags
          (tableAfter formats etags turns) scenarioId oracle
        next =>
          rw [same] at present
          refine ⟨present, fun hit => present ?_⟩
          simpa [← hit] using absent key.1
        next =>
          rw [same, row_removed] at present
          split at present
          next => exact absurd rfl present
          next apart =>
            refine ⟨present, fun hit => apart ?_⟩
            obtain ⟨first, standing, named, known⟩ := ih present
            obtain ⟨second, standing', named', known'⟩ := ih removed
            have agreed := standing_agrees (keepsVerticals_append keeps) standing standing' (by simp [known, known', hit])
            exact Prod.ext (by rw [← named, agreed, named']) hit
      obtain ⟨earlier, standing, named, known⟩ := ih apart.1
      refine ⟨earlier, standing_append.mpr (.inr ⟨standing, fun same => apart.2 ?_⟩), named, known⟩
      rw [← known]
      exact (StoreCall.delete.inj same).symm

theorem unique_of_keepsVerticals {turns : List (StoreTurn Json)} (keeps : KeepsVerticals turns)
    {scenarioId vertical vertical' : String}
    (present : (tableAfter formats etags turns).row (vertical, scenarioId) ≠ none)
    (present' : (tableAfter formats etags turns).row (vertical', scenarioId) ≠ none) : vertical = vertical' := by
  obtain ⟨first, standing, named, known⟩ := standing_of_stored keeps present
  obtain ⟨second, standing', named', known'⟩ := standing_of_stored keeps present'
  have agreed := standing_agrees keeps standing standing' (by simp [known, known'])
  exact named.symm.trans (agreed.trans named')

theorem lookUp_of_heldAt {turns : List (StoreTurn Json)} (keeps : KeepsVerticals turns)
    {vertical scenarioId : String} {stored : Scenario} {version : Int}
    (held : HeldAt formats (tableAfter formats etags turns) (vertical, scenarioId) stored version)
    (view : Nat → StoreWorld Json) :
    lookUp formats etags (tableAfter formats etags turns) scenarioId view = .ok (some stored) := by
  obtain ⟨row, present, decodes, _⟩ := held
  obtain ⟨absent, _⟩ | ⟨vertical', stored', version', held', answer⟩ :=
    lookUp_cases (wellStored_run formats etags turns) scenarioId view
  next => simp [absent vertical] at present
  next =>
    obtain ⟨row', present', decodes', _⟩ := held'
    obtain rfl : vertical = vertical' := unique_of_keepsVerticals keeps
      (Option.ne_none_iff_exists'.mpr ⟨row, present⟩) (Option.ne_none_iff_exists'.mpr ⟨row', present'⟩)
    obtain rfl : row = row' := Option.some.inj (present.symm.trans present')
    have same := scenarioToEntityData_injective formats (decodes'.symm.trans decodes)
    rw [answer, same]

theorem lookUp_of_deleted {before : List (StoreTurn Json)} (keeps : KeepsVerticals before) (scenarioId : String)
    (oracle view : Nat → StoreWorld Json) :
    lookUp formats etags (tableAfter formats etags (before ++ [⟨.delete scenarioId, oracle⟩])) scenarioId view =
      .ok none := by
  have absent (vertical : String) :
      (tableAfter formats etags (before ++ [⟨.delete scenarioId, oracle⟩])).row (vertical, scenarioId) = none := by
    rw [tableAfter_append]
    obtain ⟨absent, same⟩ | ⟨vertical', present, same⟩ := delete_turn formats etags
      (tableAfter formats etags before) scenarioId oracle
    next =>
      rw [same]
      exact absent vertical
    next =>
      rw [same, row_removed]
      split
      next => rfl
      next apart =>
        by_contra other
        exact apart (by rw [unique_of_keepsVerticals keeps other present])
  obtain ⟨_, answer⟩ | ⟨vertical, _, _, ⟨row, present, _⟩, _⟩ :=
    lookUp_cases (wellStored_run formats etags (before ++ [⟨.delete scenarioId, oracle⟩])) scenarioId view
  next => exact answer
  next => simp [absent vertical] at present

theorem version_increases {before between : List (StoreTurn Json)} {first second : Scenario}
    {oracle oracle' : Nat → StoreWorld Json} (named : second.scenarioId = first.scenarioId)
    (stays : second.vertical = first.vertical) (kept : ∀ turn ∈ between, turn.call ≠ .delete first.scenarioId)
    {stored stored' : Scenario}
    (returned : (StoreTurn.run formats etags ⟨.upsert first, oracle⟩ (tableAfter formats etags before)).1 = .ok stored)
    (returned' : (StoreTurn.run formats etags ⟨.upsert second, oracle'⟩
      (tableAfter formats etags (before ++ ⟨.upsert first, oracle⟩ :: between))).1 = .ok stored') :
    ∃ n m, int? stored.configVersion = some n ∧ int? stored'.configVersion = some m ∧ n < m := by
  obtain ⟨held, version, answer, present⟩ := upsert_held formats etags before first oracle
  obtain rfl : held = stored := Except.ok.inj (answer.symm.trans returned)
  obtain ⟨_, version', grown, present'⟩ := heldAt_run present between kept
  obtain ⟨_, _, _, numbered⟩ := present
  simp only [List.append_assoc, List.cons_append, List.nil_append] at present'
  rw [← stays, ← named] at present'
  rw [upsert_turn (found_of_heldAt present')] at returned'
  obtain rfl := Except.ok.inj returned'
  refine ⟨version, version' + 1, ?_, ?_, by omega⟩
  next => rw [numbered, int?_toString]
  next => exact int?_toString _

theorem laws_iff_keepsVerticals (turns : List (StoreTurn Json)) :
    Laws formats etags turns ↔ KeepsVerticals turns := by
  constructor
  next =>
    intro laws before scenario oracle after split earlier standing same
    apply laws.unique (before ++ [⟨.upsert scenario, oracle⟩]) ⟨after, by simp [split]⟩ scenario.scenarioId
    next =>
      rw [← same]
      apply heldAt_of_standing
      exact standing_append.mpr (.inr ⟨standing, by simp⟩)
    next => exact heldAt_of_standing (standing_append.mpr (.inl rfl))
  next =>
    intro keeps
    constructor
    next =>
      rintro before ⟨after, rfl⟩ scenarioId vertical vertical'
      exact unique_of_keepsVerticals (keepsVerticals_append keeps)
    next =>
      intro before scenario oracle after split stored returned view
      rw [split, List.append_cons] at keeps
      obtain ⟨held, _, answer, present⟩ := upsert_held formats etags before scenario oracle
      obtain rfl : held = stored := Except.ok.inj (answer.symm.trans returned)
      exact lookUp_of_heldAt (keepsVerticals_append keeps) present view
    next =>
      intro before scenarioId oracle after split answer _ view
      rw [split] at keeps
      exact lookUp_of_deleted (keepsVerticals_append keeps) scenarioId oracle view
    next =>
      intro before first oracle between second oracle' after split named kept stored stored' returned returned'
      rw [← List.cons_append, ← List.append_assoc] at split
      have stays := keeps (before ++ ⟨.upsert first, oracle⟩ :: between) second oracle' after split first
        ⟨before, oracle, between, rfl, kept⟩ named.symm
      exact version_increases named stays.symm kept returned returned'

end Runs

-- The id of a scenario that changed its vertical is stored twice, and only one of the two entities is found.

inductive JsonValue where
  | null
  | int (value : Int)
  | str (value : String)

abbrev JsonObject := List (String × JsonValue)

namespace JsonObject

def field (object : JsonObject) (name : String) : Except String JsonValue :=
  match object.lookup name with
  | none => .error (name ++ "\n  Field required")
  | some value => .ok value

def int (object : JsonObject) (name : String) : Except String Int := do
  match ← object.field name with
  | .int value => .ok value
  | _ => .error (name ++ "\n  Input should be a valid integer")

def str (object : JsonObject) (name : String) : Except String String := do
  match ← object.field name with
  | .str value => .ok value
  | _ => .error (name ++ "\n  Input should be a valid string")

def optionalInt (object : JsonObject) (name : String) : Except String (Option Int) := do
  match ← object.field name with
  | .null => .ok none
  | .int value => .ok (some value)
  | _ => .error (name ++ "\n  Input should be a valid integer")

def adapter (object : JsonObject) : Except String EmbedderAdapterName := do
  match ← object.str "adapter" with
  | "azure_openai" => .ok .azureOpenai
  | "fastembed" => .ok .fastembed
  | _ => .error "adapter\n  Input should be 'azure_openai' or 'fastembed'"

end JsonObject

def documentFormats : Formats JsonObject where
  isoformat time := toString time
  fromisoformat text := match int? text with
    | some time => .ok time
    | none => .error ("Invalid isoformat string: " ++ reprStr text)
  chunkerJson settings := [("target_chunk_tokens", .int settings.targetChunkTokens),
    ("overlap_tokens", .int settings.overlapTokens), ("min_chunk_tokens", .int settings.minChunkTokens),
    ("max_chunk_tokens", .int settings.maxChunkTokens)]
  chunkerOfJson object := do
    return ⟨← object.int "target_chunk_tokens", ← object.int "overlap_tokens", ← object.int "min_chunk_tokens",
      ← object.int "max_chunk_tokens"⟩
  embedderJson settings := [("adapter", .str settings.adapter.value), ("model", .str settings.model),
    ("target_dimensions", (settings.targetDimensions.map JsonValue.int).getD .null)]
  embedderOfJson object := do
    return ⟨← object.adapter, ← object.str "model", ← object.optionalInt "target_dimensions"⟩
  indexerJson settings := [("metric", .str settings.metric), ("dimensions", .int settings.dimensions),
    ("hnsw_m", .int settings.hnswM), ("hnsw_ef_construction", .int settings.hnswEfConstruction),
    ("hnsw_ef_search", .int settings.hnswEfSearch)]
  indexerOfJson object := do
    return ⟨← object.str "metric", ← object.int "dimensions", ← object.int "hnsw_m",
      ← object.int "hnsw_ef_construction", ← object.int "hnsw_ef_search"⟩
  fromisoformat_isoformat time := by simp only [int?_toString]
  chunkerOfJson_chunkerJson settings := rfl
  embedderOfJson_embedderJson settings := by
    obtain ⟨adapter, model, target⟩ := settings
    cases adapter <;> cases target <;> rfl
  indexerOfJson_indexerJson settings := rfl

def sampleScenario (vertical : String) (known : vertical ≠ "") : Scenario where
  scenarioId := "policies"
  vertical := vertical
  configVersion := "1"
  indexName := "hr-policies"
  chunker := ⟨512, 64, 100, 1024⟩
  embedder := ⟨.fastembed, "nomic-ai/nomic-embed-text-v1.5", none⟩
  indexer := ⟨"cosine", 768, 16, 200, 100⟩
  aclSource := .envelope
  defaultTrustTier := "internal"
  enabled := true
  createdAt := 0
  updatedAt := 0
  scenarioIdNonempty := by decide
  verticalNonempty := known
  trustTierNonempty := by decide
  indexNameValid := rfl
  chunkerBounded := rfl
  dimensionsConsistent := rfl

theorem hr_nonempty : "hr" ≠ "" := by decide

def listedAsFound : StoreWorld JsonObject := {}

def movedTurns : List (StoreTurn JsonObject) :=
  [⟨.upsert (sampleScenario "hr" hr_nonempty), fun _ => listedAsFound⟩,
    ⟨.upsert (sampleScenario "legal" (by decide)), fun _ => listedAsFound⟩]

theorem moved_scenario_stored_twice : ¬ Laws documentFormats toString movedTurns := by
  intro laws
  have same : "hr" = "legal" :=
    laws.unique movedTurns (List.prefix_refl _) "policies" "hr" "legal" (by decide) (by decide)
  exact absurd same (by decide)

end Vestibule.Scenarios
