import Mathlib.Data.List.Induction

set_option autoImplicit false

-- A loop that appends what the accumulator does not hold yet computes `List.eraseDups`.

namespace Library

variable {α : Type} [DecidableEq α]

def addUnseen (seen : List α) (items : List α) : List α :=
  items.foldl (fun seen item => if item ∈ seen then seen else seen ++ [item]) seen

theorem addUnseen_cons (seen : List α) (item : α) (rest : List α) :
    addUnseen seen (item :: rest) = addUnseen (if item ∈ seen then seen else seen ++ [item]) rest := rfl

theorem addUnseen_append (seen first second : List α) :
    addUnseen seen (first ++ second) = addUnseen (addUnseen seen first) second := by
  simp [addUnseen]

theorem subset_addUnseen (seen items : List α) : seen ⊆ addUnseen seen items := by
  induction items generalizing seen with
  | nil => simp [addUnseen]
  | cons item rest ih =>
    rw [addUnseen_cons]
    split
    next => exact ih seen
    next => exact List.Subset.trans (by simp) (ih (seen ++ [item]))

theorem mem_addUnseen (seen items : List α) (item : α) (listed : item ∈ items) : item ∈ addUnseen seen items := by
  induction items generalizing seen with
  | nil => simp at listed
  | cons head rest ih =>
    rw [addUnseen_cons]
    rcases List.mem_cons.mp listed with rfl | later
    next =>
      apply subset_addUnseen
      split
      next present => exact present
      next => simp
    next => exact ih _ later

-- Items that are held already change nothing.
theorem addUnseen_of_subset {seen items : List α} (held : items ⊆ seen) : addUnseen seen items = seen := by
  induction items with
  | nil => rfl
  | cons item rest ih =>
    rw [addUnseen_cons, if_pos (held (by simp))]
    exact ih fun other member => held (by simp [member])

theorem addUnseen_eq (seen items : List α) : addUnseen seen items = seen ++ (items.removeAll seen).eraseDups := by
  induction items generalizing seen with
  | nil => simp [addUnseen]
  | cons item rest ih =>
    rw [addUnseen_cons, List.cons_removeAll]
    by_cases present : item ∈ seen
    next => simp [present, ih]
    next =>
      have filtered : (rest.removeAll seen).filter (fun other => !other == item) =
          rest.removeAll (seen ++ [item]) := by
        simp only [List.removeAll, List.filter_filter]
        apply List.filter_congr
        intro other _
        by_cases same : other = item <;> simp [same]
      simp [present, ih, List.eraseDups_cons, filtered]

theorem addUnseen_nil (items : List α) : addUnseen [] items = items.eraseDups := by
  have whole : items.removeAll [] = items := List.filter_eq_self.mpr (by simp)
  rw [addUnseen_eq, List.nil_append, whole]

-- What a list adds is what its first-seen items add.
theorem addUnseen_eraseDups (seen items : List α) : addUnseen seen items.eraseDups = addUnseen seen items := by
  induction items using List.reverseRecOn with
  | nil => rfl
  | append_singleton items item ih =>
    have same : (items ++ [item]).eraseDups = if item ∈ items.eraseDups then items.eraseDups
        else items.eraseDups ++ [item] := by
      rw [← addUnseen_nil, addUnseen_append, addUnseen_nil]
      rfl
    rw [same, addUnseen_append]
    split
    next present =>
      have held : [item] ⊆ addUnseen seen items := by simpa using ih ▸ mem_addUnseen seen _ item present
      rw [ih, addUnseen_of_subset held]
    next => rw [addUnseen_append, ih]

theorem eraseDups_of_nodup {items : List α} (nodup : items.Nodup) : items.eraseDups = items := by
  induction items with
  | nil => rfl
  | cons item rest ih =>
    obtain ⟨absent, later⟩ := List.nodup_cons.mp nodup
    have kept : rest.filter (fun other => !other == item) = rest := by
      rw [List.filter_eq_self]
      intro other member
      have : other ≠ item := fun same => absent (same ▸ member)
      simpa using this
    rw [List.eraseDups_cons, kept, ih later]

end Library
