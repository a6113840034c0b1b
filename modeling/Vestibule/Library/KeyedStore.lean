import Mathlib.Data.List.Nodup

set_option autoImplicit false

-- A store holds at most one value under each key, and every value carries its key. Writing a list of values
-- in order leaves, under each key, the last value of the list that carries it.

namespace Library

namespace KeyedStore

variable {κ ν : Type} [DecidableEq κ] (key : ν → κ)

def last (values : List ν) (k : κ) : Option ν := values.reverse.find? (fun value => key value = k)

def overwrite (store : κ → Option ν) (values : List ν) : κ → Option ν :=
  fun k => (last key values k).or (store k)

theorem last_append (first second : List ν) (k : κ) :
    last key (first ++ second) k = (last key second k).or (last key first k) := by
  simp [last, List.find?_append]

theorem last_eq_none {values : List ν} {k : κ} : last key values k = none ↔ ∀ value ∈ values, key value ≠ k := by
  simp [last]

theorem mem_of_last {values : List ν} {k : κ} {value : ν} (found : last key values k = some value) :
    value ∈ values ∧ key value = k := by
  constructor
  next => simpa using List.mem_of_find?_eq_some found
  next => simpa using List.find?_some found

theorem split_of_last {values : List ν} {k : κ} {value : ν} (found : last key values k = some value) :
    ∃ before after, values = before ++ value :: after ∧ ∀ other ∈ after, key other ≠ k := by
  obtain ⟨_, front, back, reversed, none⟩ := List.find?_eq_some_iff_append.mp found
  refine ⟨back.reverse, front.reverse, ?_, fun other member => by simpa using none other (List.mem_reverse.mp member)⟩
  simpa using congrArg List.reverse reversed

theorem exists_last {values : List ν} {value : ν} (member : value ∈ values) :
    ∃ held ∈ values, key held = key value ∧ last key values (key value) = some held := by
  cases found : last key values (key value) with
  | none => exact ((last_eq_none key).mp found value member rfl).elim
  | some held =>
    obtain ⟨inside, same⟩ := mem_of_last key found
    exact ⟨held, inside, same, rfl⟩

theorem last_of_nodup {values : List ν} (distinct : (values.map key).Nodup) {value : ν} (member : value ∈ values) :
    last key values (key value) = some value := by
  obtain ⟨held, inside, same, found⟩ := exists_last key member
  have equal : held = value := List.inj_on_of_nodup_map distinct inside member same
  rw [found, equal]

theorem last_filter {values : List ν} (chosen : κ → Bool) {k : κ} (keeps : chosen k) :
    last key (values.filter (fun value => chosen (key value))) k = last key values k := by
  simp only [last, ← List.filter_reverse, List.find?_filter]
  congr 1
  funext value
  by_cases same : key value = k
  next => simp [same, keeps]
  next => simp [same]

theorem map_last {f : ν → ν} (agrees : ∀ value, key (f value) = key value) (values : List ν) (k : κ) :
    (last key values k).map f = last key (values.map f) k := by
  simp only [last, ← List.map_reverse, List.find?_map]
  congr 2
  funext value
  simp [agrees]

theorem overwrite_cases (store : κ → Option ν) (values : List ν) (k : κ) :
    overwrite key store values k = store k ∨
      ∃ value ∈ values, key value = k ∧ overwrite key store values k = some value := by
  cases found : last key values k with
  | none => exact .inl (by simp [overwrite, found])
  | some value =>
    obtain ⟨member, same⟩ := mem_of_last key found
    exact .inr ⟨value, member, same, by simp [overwrite, found]⟩

theorem overwrite_overwrite (store : κ → Option ν) (first second : List ν) :
    overwrite key (overwrite key store first) second = overwrite key store (first ++ second) := by
  funext k
  simp [overwrite, last_append, Option.or_assoc]

end KeyedStore

end Library
