import Vestibule.Identity
import Vestibule.Library.Pattern

set_option autoImplicit false

namespace Vestibule

open Library

def newline : PyChar := .scalar '\n'

def hexPattern : Pattern PyChar := .repeated isHexDigit idHexLength idHexLength

structure IsDigest (text : PyStr) : Prop where
  length : text.length = idHexLength
  digits : ∀ c ∈ text, isHexDigit c

theorem hexPattern_matches_iff (text : PyStr) : hexPattern.Matches text ↔ IsDigest text := by
  constructor
  next =>
    rintro ⟨least, most, digits⟩
    exact ⟨Nat.le_antisymm most least, digits⟩
  next =>
    intro digest
    exact ⟨Nat.le_of_eq digest.length.symm, Nat.le_of_eq digest.length, digest.digits⟩

theorem hexPattern_oneLine : ∀ allowed ∈ hexPattern.classes, allowed newline = false := by
  intro allowed listed
  obtain rfl := List.mem_singleton.mp listed
  rfl

theorem hexRe_iff_anchoredMatch (text : PyStr) : hexRe text ↔ hexPattern.AnchoredMatch newline text := by
  rw [Pattern.anchoredMatch_iff_chomped hexPattern_oneLine, hexPattern_matches_iff]
  simp only [hexRe, Bool.and_eq_true, decide_eq_true_eq, List.all_eq_true]
  exact ⟨fun parts => ⟨parts.1, parts.2⟩, fun digest => ⟨digest.length, digest.digits⟩⟩

theorem hexRe_iff (text : PyStr) :
    hexRe text ↔ IsDigest text ∨ ∃ digest, IsDigest digest ∧ text = digest ++ [newline] := by
  rw [hexRe_iff_anchoredMatch, Pattern.anchoredMatch_iff, hexPattern_matches_iff]
  simp only [Pattern.Terminated, hexPattern_matches_iff]

-- The last digits of a number, always as many as asked for.
def lastDigits : Nat → Nat → List Char
  | 0, _ => []
  | width + 1, n => lastDigits width (n / 10) ++ [Nat.digitChar (n % 10)]

theorem lastDigits_length (width n : Nat) : (lastDigits width n).length = width := by
  induction width generalizing n with
  | zero => rfl
  | succ width ih => simp [lastDigits, ih]

theorem lastDigits_hex {width n : Nat} {c : Char} (member : c ∈ lastDigits width n) : isHexDigit (.scalar c) := by
  have each : ∀ digit < 10, isHexDigit (.scalar (Nat.digitChar digit)) := by decide
  induction width generalizing n with
  | zero => cases member
  | succ width ih =>
    rcases List.mem_append.mp member with early | last
    next => exact ih early
    next =>
      obtain rfl := List.mem_singleton.mp last
      exact each _ (Nat.mod_lt n (by decide))

theorem lastDigits_injective {width first second : Nat} (left : first < Nat.pow 10 width)
    (right : second < Nat.pow 10 width) (same : lastDigits width first = lastDigits width second) : first = second := by
  have each : ∀ a < 10, ∀ b < 10, Nat.digitChar a = Nat.digitChar b → a = b := by decide
  induction width generalizing first second with
  | zero =>
    change first < 1 at left
    change second < 1 at right
    omega
  | succ width ih =>
    obtain ⟨early, last⟩ := List.append_inj' same rfl
    have digits := each _ (Nat.mod_lt first (by decide)) _ (Nat.mod_lt second (by decide)) (List.cons.inj last).1
    change first < Nat.pow 10 width * 10 at left
    change second < Nat.pow 10 width * 10 at right
    have quotients := ih (Nat.div_lt_of_lt_mul (by omega)) (Nat.div_lt_of_lt_mul (by omega)) early
    omega

def numberedId (n : Nat) : String := String.ofList (lastDigits idHexLength n)

theorem numberedId_hex (n : Nat) : hexRe (PyStr.ofString (numberedId n)) := by
  rw [hexRe_iff]
  left
  constructor
  next => simp [PyStr.ofString, numberedId, lastDigits_length]
  next =>
    intro c member
    simp only [PyStr.ofString, numberedId, String.toList_ofList, List.mem_map] at member
    obtain ⟨digit, included, rfl⟩ := member
    exact lastDigits_hex included

theorem numberedId_injective {first second : Nat} (left : first < Nat.pow 10 64) (right : second < Nat.pow 10 64)
    (same : numberedId first = numberedId second) : first = second :=
  lastDigits_injective left right (String.ofList_injective same)

end Vestibule
