import Mathlib.Data.List.Basic

set_option autoImplicit false

namespace Vestibule

-- A `str` is a sequence of code points, lone surrogates included. Text that pydantic has validated holds no
-- surrogate and is modelled by `String`.

inductive PyChar where
  | scalar (c : Char)
  | surrogate (code : Fin 2048)
  deriving DecidableEq

abbrev PyStr := List PyChar

namespace PyStr

def ofString (s : String) : PyStr := s.toList.map .scalar

def toString? : PyStr → Option String
  | [] => some ""
  | .scalar c :: rest => (toString? rest).map fun tail => String.ofList (c :: tail.toList)
  | .surrogate _ :: _ => none

theorem toString?_eq_some {s : PyStr} {text : String} (decoded : toString? s = some text) :
    s = ofString text := by
  induction s generalizing text with
  | nil =>
    obtain rfl : "" = text := by simpa [toString?] using decoded
    rfl
  | cons c rest ih =>
    cases c with
    | surrogate code => simp [toString?] at decoded
    | scalar c =>
      obtain ⟨tail, tailDecoded, rfl⟩ : ∃ tail, toString? rest = some tail ∧
          String.ofList (c :: tail.toList) = text := by
        simpa [toString?] using decoded
      simp [ofString, ih tailDecoded]

def Encodable (s : PyStr) : Prop := ∀ code, .surrogate code ∉ s

theorem toString?_isSome (s : PyStr) : s.toString?.isSome ↔ s.Encodable := by
  induction s with
  | nil => simp [toString?, Encodable]
  | cons c rest ih =>
    cases c with
    | scalar c =>
      simp only [toString?, Option.isSome_map]
      rw [ih]
      simp [Encodable]
    | surrogate code => simpa [toString?, Encodable] using ⟨code, fun different => (different rfl).elim⟩

end PyStr

-- `other` is any object of another type, known by its `str()`.
/-- An `int` as it is given, which a `bool` is as well. -/
inductive PyInt where
  | int (value : Int)
  | bool (value : Bool)
  deriving DecidableEq

namespace PyInt

def number : PyInt → Int
  | int value => value
  | bool value => if value then 1 else 0

def text : PyInt → String
  | int value => toString value
  | bool value => if value then "True" else "False"

end PyInt

inductive PyValue where
  | none
  | bool (value : Bool)
  | int (value : Int)
  | str (value : PyStr)
  | ints (items : List PyInt)
  | other (text : PyStr)
  deriving DecidableEq

namespace PyValue

def ofString (s : String) : PyValue := .str (PyStr.ofString s)

def ofInt : PyInt → PyValue
  | .int value => .int value
  | .bool value => .bool value

def toStr : PyValue → PyStr
  | .none => PyStr.ofString "None"
  | .bool true => PyStr.ofString "True"
  | .bool false => PyStr.ofString "False"
  | .int value => PyStr.ofString (toString value)
  | .str value => value
  | .ints items => PyStr.ofString ("[" ++ ", ".intercalate (items.map PyInt.text) ++ "]")
  | .other text => text

end PyValue

def hexDigit (n : Nat) : Char := "0123456789abcdef".toList.getD n '0'

-- Up to U+00FF: of what lies beyond, the characters that do not print are kept as well.
def unprintable (c : Char) : Bool := c.toNat < 32 || (127 ≤ c.toNat && c.toNat ≤ 160) || c.toNat = 173

def escapeChar (quote c : Char) : List Char :=
  if c = '\\' then ['\\', '\\']
  else if c = quote then ['\\', c]
  else if c = '\n' then ['\\', 'n']
  else if c = '\r' then ['\\', 'r']
  else if c = '\t' then ['\\', 't']
  else if unprintable c then ['\\', 'x', hexDigit (c.toNat / 16), hexDigit (c.toNat % 16)]
  else [c]

def reprStr (s : String) : String :=
  let quote := if s.contains '\'' && !s.contains '"' then '"' else '\''
  String.ofList (quote :: s.toList.flatMap (escapeChar quote) ++ [quote])

def isSpace (c : Char) : Bool := (9 ≤ c.toNat && c.toNat ≤ 13) || (28 ≤ c.toNat && c.toNat ≤ 32)

-- Single underscores may stand between digits.
def intDigits (value : Nat) : List Char → Option Nat
  | [] => some value
  | '_' :: c :: rest => if c.isDigit then intDigits (10 * value + (c.toNat - 48)) rest else none
  | c :: rest => if c.isDigit then intDigits (10 * value + (c.toNat - 48)) rest else none

/-- The built-in int of a string; none where it raises. Spaces and digits beyond ASCII are left out. -/
def int? (s : String) : Option Int :=
  let magnitude : List Char → Option Nat
    | c :: rest => if c.isDigit then intDigits 0 (c :: rest) else none
    | [] => none
  match ((s.toList.dropWhile isSpace).reverse.dropWhile isSpace).reverse with
  | '-' :: digits => (magnitude digits).map fun n => -(n : Int)
  | '+' :: digits => (magnitude digits).map fun n => (n : Int)
  | digits => (magnitude digits).map fun n => (n : Int)

theorem intDigits_eq {chars : List Char} (digits : ∀ c ∈ chars, c.isDigit) (value : Nat) :
    intDigits value chars = some (Nat.ofDigitChars 10 chars value) := by
  induction chars generalizing value with
  | nil => simp [intDigits]
  | cons c rest ih =>
    have digit := digits c (by simp)
    have plain : c ≠ '_' := by
      rintro rfl
      exact absurd digit (by decide)
    have later := ih (fun other member => digits other (by simp [member])) (10 * value + (c.toNat - 48))
    rw [Nat.ofDigitChars_cons, intDigits.eq_3 value c rest fun _ _ same => (plain same).elim]
    simp [digit, later]

theorem not_isSpace_of_isDigit {c : Char} (digit : c.isDigit) : isSpace c = false := by
  simp only [Char.isDigit, Bool.and_eq_true, decide_eq_true_eq, ge_iff_le, UInt32.le_iff_toNat_le] at digit
  obtain ⟨low, high⟩ := digit
  have lower : 48 ≤ c.toNat := low
  simp only [isSpace, Bool.or_eq_false_iff, Bool.and_eq_false_iff, decide_eq_false_iff_not]
  omega

-- Neither digits nor a sign are spaces, so nothing is stripped.
theorem stripped_eq {chars : List Char} (solid : ∀ c ∈ chars, isSpace c = false) :
    ((chars.dropWhile isSpace).reverse.dropWhile isSpace).reverse = chars := by
  have kept (text : List Char) (solid : ∀ c ∈ text, isSpace c = false) : text.dropWhile isSpace = text := by
    cases text with
    | nil => rfl
    | cons c rest => simp [List.dropWhile, solid c (by simp)]
  rw [kept chars solid, kept chars.reverse (fun c member => solid c (by simpa using member)), List.reverse_reverse]

theorem toDigits_cons (n : Nat) : ∃ c rest, Nat.toDigits 10 n = c :: rest ∧ c.isDigit := by
  cases digits : Nat.toDigits 10 n with
  | nil => exact (Nat.toDigits_ne_nil digits).elim
  | cons c rest => exact ⟨c, rest, rfl, Nat.isDigit_of_mem_toDigits (by omega) (by omega) (n := n) (b := 10) (by simp [digits])⟩

theorem intDigits_toDigits (n : Nat) : intDigits 0 (Nat.toDigits 10 n) = some n := by
  rw [intDigits_eq fun c member => Nat.isDigit_of_mem_toDigits (by omega) (by omega) member,
    Nat.ofDigitChars_ten_toDigits]

theorem int?_toString (n : Int) : int? (toString n) = some n := by
  cases n with
  | ofNat n =>
    have text : (toString (Int.ofNat n)).toList = Nat.toDigits 10 n := by
      change (toString n).toList = _
      simp
    obtain ⟨c, rest, digits, digit⟩ := toDigits_cons n
    have solid : ∀ c ∈ Nat.toDigits 10 n, isSpace c = false :=
      fun c member => not_isSpace_of_isDigit (Nat.isDigit_of_mem_toDigits (by omega) (by omega) member)
    have parsed := intDigits_toDigits n
    have unsigned : c ≠ '-' ∧ c ≠ '+' := by
      constructor <;> rintro rfl <;> exact absurd digit (by decide)
    simp only [int?, text, stripped_eq solid]
    rw [digits] at parsed ⊢
    split
    next same => exact (unsigned.1 (List.cons.inj same).1).elim
    next same => exact (unsigned.2 (List.cons.inj same).1).elim
    next => simp [digit, parsed]
  | negSucc n =>
    have text : (toString (Int.negSucc n)).toList = '-' :: Nat.toDigits 10 (n + 1) := by
      change ("-" ++ toString (n + 1)).toList = _
      simp
    obtain ⟨c, rest, digits, digit⟩ := toDigits_cons (n + 1)
    have solid : ∀ c ∈ '-' :: Nat.toDigits 10 (n + 1), isSpace c = false := by
      intro c member
      rcases List.mem_cons.mp member with rfl | member
      next => decide
      next => exact not_isSpace_of_isDigit (Nat.isDigit_of_mem_toDigits (by omega) (by omega) member)
    have parsed := intDigits_toDigits (n + 1)
    simp only [int?, text, stripped_eq solid]
    rw [digits] at parsed ⊢
    simp [digit, parsed]
    omega

end Vestibule
