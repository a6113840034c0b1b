import Mathlib.Data.List.Basic

set_option autoImplicit false

-- Character classes, bounded repetition and concatenation, between `^` and `$`. Outside multi-line mode `$`
-- holds at the end of the text and before a newline that ends it.

namespace Library

inductive Pattern (α : Type) where
  | one (allowed : α → Bool)
  | repeated (allowed : α → Bool) (least most : Nat)
  | next (first second : Pattern α)

namespace Pattern

variable {α : Type}

def Matches : Pattern α → List α → Prop
  | one allowed, text => ∃ c, text = [c] ∧ allowed c
  | repeated allowed least most, text => least ≤ text.length ∧ text.length ≤ most ∧ ∀ c ∈ text, allowed c
  | next first second, text => ∃ front back, text = front ++ back ∧ first.Matches front ∧ second.Matches back

def classes : Pattern α → List (α → Bool)
  | one allowed => [allowed]
  | repeated allowed _ _ => [allowed]
  | next first second => first.classes ++ second.classes

variable (newline : α) (pattern : Pattern α)

def AnchoredMatch (text : List α) : Prop :=
  ∃ front rest, text = front ++ rest ∧ pattern.Matches front ∧ (rest = [] ∨ rest = [newline])

def Terminated (text : List α) : Prop := ∃ body, pattern.Matches body ∧ text = body ++ [newline]

theorem anchoredMatch_iff (text : List α) :
    pattern.AnchoredMatch newline text ↔ pattern.Matches text ∨ pattern.Terminated newline text := by
  constructor
  next =>
    rintro ⟨front, rest, rfl, found, rfl | rfl⟩
    next => exact .inl (by simpa using found)
    next => exact .inr ⟨front, found, rfl⟩
  next =>
    rintro (found | ⟨body, found, rfl⟩)
    next => exact ⟨text, [], by simp, found, .inl rfl⟩
    next => exact ⟨body, [newline], rfl, found, .inr rfl⟩

variable {newline pattern}

theorem allowed_of_matches {text : List α} (found : pattern.Matches text) {c : α} (member : c ∈ text) :
    ∃ allowed ∈ pattern.classes, allowed c := by
  induction pattern generalizing text with
  | one allowed =>
    obtain ⟨only, rfl, holds⟩ := found
    exact ⟨allowed, by simp [classes], List.mem_singleton.mp member ▸ holds⟩
  | repeated allowed least most => exact ⟨allowed, by simp [classes], found.2.2 c member⟩
  | next first second left right =>
    obtain ⟨front, back, rfl, before, after⟩ := found
    rcases List.mem_append.mp member with early | late
    next =>
      obtain ⟨allowed, listed, holds⟩ := left before early
      exact ⟨allowed, by simp [classes, listed], holds⟩
    next =>
      obtain ⟨allowed, listed, holds⟩ := right after late
      exact ⟨allowed, by simp [classes, listed], holds⟩

section OneLine

variable (oneLine : ∀ allowed ∈ pattern.classes, allowed newline = false)

include oneLine

theorem newline_not_mem {text : List α} (found : pattern.Matches text) : newline ∉ text := by
  intro member
  obtain ⟨allowed, listed, holds⟩ := allowed_of_matches found member
  rw [oneLine allowed listed] at holds
  cases holds

-- The anchors are exact on a text unless it is one of the pattern's with a newline after it.
theorem anchoredMatch_exact_iff (text : List α) :
    (pattern.AnchoredMatch newline text ↔ pattern.Matches text) ↔ ¬ pattern.Terminated newline text := by
  rw [anchoredMatch_iff]
  constructor
  next =>
    rintro exact ⟨body, found, rfl⟩
    have whole := exact.mp (.inr ⟨body, found, rfl⟩)
    exact newline_not_mem oneLine whole (by simp)
  next =>
    intro unterminated
    simp [unterminated]

variable [DecidableEq α]

theorem anchoredMatch_iff_chomped (text : List α) :
    pattern.AnchoredMatch newline text ↔
      pattern.Matches (if text.getLast? = some newline then text.dropLast else text) := by
  rw [anchoredMatch_iff]
  split
  next ends =>
    obtain ⟨body, rfl⟩ := List.getLast?_eq_some_iff.mp ends
    rw [List.dropLast_concat]
    constructor
    next =>
      rintro (found | ⟨other, found, same⟩)
      next => exact (newline_not_mem oneLine found (by simp)).elim
      next => exact (List.append_inj_left' same rfl) ▸ found
    next =>
      intro found
      exact .inr ⟨body, found, rfl⟩
  next open_ =>
    constructor
    next =>
      rintro (found | ⟨body, _, rfl⟩)
      next => exact found
      next => simp at open_
    next => exact .inl

end OneLine

end Pattern

end Library
