import Vestibule.Envelope
import Vestibule.Scenarios.Model

set_option autoImplicit false

namespace Vestibule.Validators

open Library

-- Identifiers, content hashes and index names are checked by patterns between `^` and `$`, on any `str`.

def dash : PyChar := .scalar '-'

def isNameChar : PyChar → Bool
  | .scalar c => Scenarios.isIndexNameChar c
  | .surrogate _ => false

def isNameCharOrDash (c : PyChar) : Bool := isNameChar c || c = dash

def indexNamePattern : Pattern PyChar :=
  .next (.one isNameChar) (.next (.repeated isNameCharOrDash 0 126) (.one isNameChar))

structure IsIndexName (text : PyStr) : Prop where
  least : 2 ≤ text.length
  most : text.length ≤ 128
  chars : ∀ c ∈ text, isNameCharOrDash c
  start : text.head? ≠ some dash
  finish : text.getLast? ≠ some dash

theorem isNameChar_ne_dash {c : PyChar} (allowed : isNameChar c) : c ≠ dash := by
  rintro rfl
  exact absurd allowed (by decide)

theorem isNameChar_of_ne_dash {c : PyChar} (allowed : isNameCharOrDash c) (other : c ≠ dash) : isNameChar c := by
  simpa [isNameCharOrDash, other] using allowed

theorem isNameCharOrDash_of_isNameChar {c : PyChar} (allowed : isNameChar c) : isNameCharOrDash c := by
  simp [isNameCharOrDash, allowed]

theorem getLast?_framed (first last : PyChar) (middle : PyStr) : (first :: (middle ++ [last])).getLast? = some last := by
  rw [← List.cons_append, List.getLast?_concat]

theorem exists_framed {text : PyStr} (least : 2 ≤ text.length) :
    ∃ first middle last, text = first :: (middle ++ [last]) := by
  cases text with
  | nil => simp at least
  | cons first rest =>
    rcases List.eq_nil_or_concat rest with rfl | ⟨middle, last, rfl⟩
    next => simp at least
    next => exact ⟨first, middle, last, by simp⟩

theorem isIndexName_framed_iff (first last : PyChar) (middle : PyStr) :
    IsIndexName (first :: (middle ++ [last])) ↔
      isNameChar first ∧ middle.length ≤ 126 ∧ (∀ c ∈ middle, isNameCharOrDash c) ∧ isNameChar last := by
  constructor
  next =>
    intro name
    have most := name.most
    have finish := name.finish
    rw [getLast?_framed] at finish
    refine ⟨?_, ?_, ?_, ?_⟩
    next => exact isNameChar_of_ne_dash (name.chars first (by simp)) (by simpa using name.start)
    next =>
      simp only [List.length_cons, List.length_append, List.length_nil] at most
      omega
    next => exact fun c member => name.chars c (by simp [member])
    next => exact isNameChar_of_ne_dash (name.chars last (by simp)) (by simpa using finish)
  next =>
    rintro ⟨firstAllowed, most, allowed, lastAllowed⟩
    constructor
    next => simp
    next =>
      simp only [List.length_cons, List.length_append, List.length_nil]
      omega
    next =>
      intro c member
      rcases List.mem_cons.mp member with rfl | later
      next => exact isNameCharOrDash_of_isNameChar firstAllowed
      next =>
        rcases List.mem_append.mp later with inner | final
        next => exact allowed c inner
        next => exact List.mem_singleton.mp final ▸ isNameCharOrDash_of_isNameChar lastAllowed
    next => simpa using isNameChar_ne_dash firstAllowed
    next => simpa [getLast?_framed] using isNameChar_ne_dash lastAllowed

theorem indexNamePattern_matches_iff (text : PyStr) : indexNamePattern.Matches text ↔ IsIndexName text := by
  constructor
  next =>
    rintro ⟨_, _, rfl, ⟨first, rfl, firstAllowed⟩, middle, _, rfl, ⟨-, most, allowed⟩, last, rfl, lastAllowed⟩
    exact (isIndexName_framed_iff first last middle).mpr ⟨firstAllowed, most, allowed, lastAllowed⟩
  next =>
    intro name
    obtain ⟨first, middle, last, rfl⟩ := exists_framed name.least
    obtain ⟨firstAllowed, most, allowed, lastAllowed⟩ := (isIndexName_framed_iff first last middle).mp name
    exact ⟨[first], middle ++ [last], rfl, ⟨first, rfl, firstAllowed⟩, middle, [last], rfl,
      ⟨Nat.zero_le _, most, allowed⟩, last, rfl, lastAllowed⟩

theorem indexNamePattern_oneLine : ∀ allowed ∈ indexNamePattern.classes, allowed newline = false := by
  decide

-- `$` also matches before a newline that ends the string.
def indexNameRe (name : PyStr) : Bool :=
  let body := if name.getLast? = some newline then name.dropLast else name
  2 ≤ body.length && body.length ≤ 128 && body.all isNameCharOrDash && body.head?.any isNameChar &&
    body.getLast?.any isNameChar

theorem indexNameRe_iff_anchoredMatch (name : PyStr) :
    indexNameRe name ↔ indexNamePattern.AnchoredMatch newline name := by
  rw [Pattern.anchoredMatch_iff_chomped indexNamePattern_oneLine, indexNamePattern_matches_iff, indexNameRe]
  generalize (if name.getLast? = some newline then name.dropLast else name) = body
  simp only [Bool.and_eq_true, decide_eq_true_eq, List.all_eq_true]
  constructor
  next =>
    rintro ⟨⟨⟨⟨least, most⟩, allowed⟩, start⟩, finish⟩
    obtain ⟨first, middle, last, rfl⟩ := exists_framed least
    rw [getLast?_framed] at finish
    refine (isIndexName_framed_iff first last middle).mpr ⟨start, ?_, ?_, finish⟩
    next =>
      simp only [List.length_cons, List.length_append, List.length_nil] at most
      omega
    next => exact fun c member => allowed c (by simp [member])
  next =>
    intro indexName
    obtain ⟨first, middle, last, rfl⟩ := exists_framed indexName.least
    obtain ⟨firstAllowed, -, -, lastAllowed⟩ := (isIndexName_framed_iff first last middle).mp indexName
    rw [getLast?_framed]
    exact ⟨⟨⟨⟨indexName.least, indexName.most⟩, indexName.chars⟩, firstAllowed⟩, lastAllowed⟩

def escape (quote : Char) : PyChar → List Char
  | .scalar c => escapeChar quote c
  | .surrogate code =>
      ['\\', 'u', 'd', hexDigit (8 + code / 256), hexDigit (code / 16 % 16), hexDigit (code % 16)]

def reprText (text : PyStr) : String :=
  let quote := if .scalar '\'' ∈ text ∧ .scalar '"' ∉ text then '"' else '\''
  String.ofList (quote :: text.flatMap (escape quote) ++ [quote])

theorem reprText_ofString (text : String) : reprText (PyStr.ofString text) = reprStr text := by
  have holds (c : Char) : PyChar.scalar c ∈ PyStr.ofString text ↔ text.contains c = true := by
    simp [PyStr.ofString, String.contains_char_eq]
  have quotes : (if .scalar '\'' ∈ PyStr.ofString text ∧ .scalar '"' ∉ PyStr.ofString text then '"' else '\'') =
      if text.contains '\'' && !text.contains '"' then '"' else '\'' := by
    simp [holds]
  rw [reprText, quotes, PyStr.ofString, List.flatMap_map]
  rfl

def validateIndexName (indexName : PyStr) : Except String Unit :=
  if indexNameRe indexName then .ok ()
  else .error ("index_name=" ++ reprText indexName ++ " is invalid: must be 2-128 characters, " ++
    "lowercase alphanumeric or dashes, and not start/end with a dash")

theorem indexNameRe_ofString (name : String) : indexNameRe (PyStr.ofString name) = Scenarios.indexNameRe name := by
  have ends : (PyStr.ofString name).getLast? = some newline ↔ name.toList.getLast? = some '\n' := by
    simp [PyStr.ofString, newline, List.getLast?_map]
  have chomped : (if (PyStr.ofString name).getLast? = some newline then (PyStr.ofString name).dropLast
      else PyStr.ofString name) =
      (if name.toList.getLast? = some '\n' then name.toList.dropLast else name.toList).map .scalar := by
    by_cases terminated : name.toList.getLast? = some '\n'
    next => rw [if_pos (ends.mpr terminated), if_pos terminated, PyStr.ofString, List.map_dropLast]
    next => rw [if_neg (mt ends.mp terminated), if_neg terminated, PyStr.ofString]
  have inner : isNameCharOrDash ∘ PyChar.scalar = fun c => Scenarios.isIndexNameChar c || c = '-' := by
    funext c
    simp [isNameCharOrDash, isNameChar, dash]
  have outer (c : Char) : isNameChar (.scalar c) = Scenarios.isIndexNameChar c := rfl
  simp only [indexNameRe, chomped, Scenarios.indexNameRe, List.length_map, List.all_map, List.head?_map,
    List.getLast?_map, Option.any_map, inner, outer]

theorem validateIndexName_ofString (indexName : String) :
    validateIndexName (PyStr.ofString indexName) = Scenarios.validateIndexName indexName := by
  rw [validateIndexName, indexNameRe_ofString, reprText_ofString, Scenarios.validateIndexName]

def IdFormatExact (value : PyValue) (fieldName : String) : Prop :=
  (∃ text, validateIdFormat value fieldName = .ok text) ↔ ∃ text, value = .str text ∧ IsDigest text

def ContentHashExact (v : PyStr) : Prop := (∃ kept, Envelope.contentHashIsSha256Hex v = .ok kept) ↔ IsDigest v

def IndexNameExact (indexName : PyStr) : Prop := validateIndexName indexName = .ok () ↔ IsIndexName indexName

theorem hexRe_exact_iff (text : PyStr) :
    (hexRe text = true ↔ IsDigest text) ↔ ¬ ∃ digest, IsDigest digest ∧ text = digest ++ [newline] := by
  have anchored := Pattern.anchoredMatch_exact_iff hexPattern_oneLine text
  simpa only [← hexRe_iff_anchoredMatch, hexPattern_matches_iff, Pattern.Terminated] using anchored

theorem idFormatExact_iff (value : PyValue) (fieldName : String) :
    IdFormatExact value fieldName ↔ ¬ ∃ digest, IsDigest digest ∧ value = .str (digest ++ [newline]) := by
  cases value with
  | str text =>
    have anchored := hexRe_exact_iff text
    have accepts : (∃ kept, validateIdFormat (.str text) fieldName = .ok kept) ↔ hexRe text = true := by
      rw [validateIdFormat]
      by_cases format : hexRe text = true <;> simp [format]
    simpa [IdFormatExact, accepts] using anchored
  | _ => simp [IdFormatExact, validateIdFormat]

theorem contentHashExact_iff (v : PyStr) :
    ContentHashExact v ↔ ¬ ∃ digest, IsDigest digest ∧ v = digest ++ [newline] := by
  have accepts : (∃ kept, Envelope.contentHashIsSha256Hex v = .ok kept) ↔ hexRe v = true := by
    simp [Envelope.contentHashIsSha256Hex_eq_ok]
  rw [ContentHashExact, accepts]
  exact hexRe_exact_iff v

theorem indexNameExact_iff (indexName : PyStr) :
    IndexNameExact indexName ↔ ¬ ∃ name, IsIndexName name ∧ indexName = name ++ [newline] := by
  have accepts : validateIndexName indexName = .ok () ↔ indexNameRe indexName = true := by
    rw [validateIndexName]
    by_cases format : indexNameRe indexName = true <;> simp [format]
  have anchored := Pattern.anchoredMatch_exact_iff indexNamePattern_oneLine indexName
  rw [IndexNameExact, accepts]
  simpa only [← indexNameRe_iff_anchoredMatch, indexNamePattern_matches_iff, Pattern.Terminated] using anchored

theorem validators_exact_iff (value : PyValue) (fieldName : String) (v indexName : PyStr) :
    (IdFormatExact value fieldName ↔ ¬ ∃ digest, IsDigest digest ∧ value = .str (digest ++ [newline])) ∧
    (ContentHashExact v ↔ ¬ ∃ digest, IsDigest digest ∧ v = digest ++ [newline]) ∧
    (IndexNameExact indexName ↔ ¬ ∃ name, IsIndexName name ∧ indexName = name ++ [newline]) :=
  ⟨idFormatExact_iff value fieldName, contentHashExact_iff v, indexNameExact_iff indexName⟩

theorem newline_accepted :
    ¬ IdFormatExact (.ofString (digestAbc ++ "\n")) "id" ∧ ¬ ContentHashExact (PyStr.ofString (digestAbc ++ "\n")) ∧
      ¬ IndexNameExact (PyStr.ofString "hr\n") := by
  have digest : IsDigest (PyStr.ofString digestAbc) := ⟨by decide, by decide⟩
  have name : IsIndexName (PyStr.ofString "hr") := ⟨by decide, by decide, by decide, by decide, by decide⟩
  refine ⟨?_, ?_, ?_⟩
  next => exact fun stated => (idFormatExact_iff ..).mp stated ⟨_, digest, by decide⟩
  next => exact fun stated => (contentHashExact_iff _).mp stated ⟨_, digest, by decide⟩
  next => exact fun stated => (indexNameExact_iff _).mp stated ⟨_, name, by decide⟩

end Vestibule.Validators
