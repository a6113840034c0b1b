import Mathlib.Data.List.Basic

set_option autoImplicit false

-- `List.splitOn` undoes `List.intercalate` where no part holds the delimiter; where a part holds it, every
-- occurrence adds a part.

namespace Library

variable {α : Type} [DecidableEq α]

theorem length_splitOn (delimiter : α) (text : List α) :
    (text.splitOn delimiter).length = text.count delimiter + 1 := by
  induction text with
  | nil => rfl
  | cons head rest ih =>
    rw [List.splitOn_cons_eq_if_modifyHead]
    by_cases same : head = delimiter
    next => simp [same, ih]
    next => simp [same, ih]

theorem length_le_count_intercalate (delimiter : α) (first : List α) (rest : List (List α)) :
    rest.length ≤ ([delimiter].intercalate (first :: rest)).count delimiter := by
  induction rest generalizing first with
  | nil => simp
  | cons next rest ih =>
    have tail := ih next
    rw [List.intercalate_cons_cons, List.count_append, List.count_append, List.count_singleton_self, List.length_cons]
    omega

theorem count_add_length_le (delimiter : α) (first : List α) (rest : List (List α)) {part : List α}
    (member : part ∈ first :: rest) :
    part.count delimiter + rest.length ≤ ([delimiter].intercalate (first :: rest)).count delimiter := by
  induction rest generalizing first with
  | nil =>
    obtain rfl := List.mem_singleton.mp member
    simp
  | cons next rest ih =>
    have shorter := length_le_count_intercalate delimiter next rest
    rw [List.intercalate_cons_cons, List.count_append, List.count_append, List.count_singleton_self, List.length_cons]
    rcases List.mem_cons.mp member with rfl | later
    next => omega
    next =>
      have tail := ih next later
      omega

-- As many parts as were put together: none of them holds the delimiter.
theorem not_mem_of_length_splitOn (delimiter : α) (first : List α) (rest : List (List α))
    (kept : (([delimiter].intercalate (first :: rest)).splitOn delimiter).length = rest.length + 1) :
    ∀ part ∈ first :: rest, delimiter ∉ part := by
  intro part member
  rw [length_splitOn] at kept
  have bound := count_add_length_le delimiter first rest member
  exact List.count_eq_zero.mp (by omega)

omit [DecidableEq α] in
theorem mem_intercalate (delimiter : List α) {parts : List α} {rest : List (List α)} {item : α} (listed : parts ∈ rest)
    (member : item ∈ parts) : item ∈ delimiter.intercalate rest := by
  induction rest with
  | nil => simp at listed
  | cons first others ih =>
    cases others with
    | nil =>
      obtain rfl := List.mem_singleton.mp listed
      simpa using member
    | cons next others =>
      rw [List.intercalate_cons_cons]
      rcases List.mem_cons.mp listed with rfl | later
      next => simp [member]
      next => simp [ih later]

omit [DecidableEq α] in
theorem mem_of_mem_intercalate {delimiter : List α} {rest : List (List α)} {item : α}
    (member : item ∈ delimiter.intercalate rest) : item ∈ delimiter ∨ ∃ parts ∈ rest, item ∈ parts := by
  induction rest with
  | nil => simp at member
  | cons first others ih =>
    cases others with
    | nil => exact .inr ⟨first, by simp, by simpa using member⟩
    | cons next others =>
      rw [List.intercalate_cons_cons, List.append_assoc] at member
      rcases List.mem_append.mp member with own | member
      next => exact .inr ⟨first, by simp, own⟩
      rcases List.mem_append.mp member with between | member
      next => exact .inl between
      rcases ih member with between | ⟨parts, listed, held⟩
      next => exact .inl between
      next => exact .inr ⟨parts, by simp [listed], held⟩

end Library
