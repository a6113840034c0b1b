import Vestibule.Identity.Language
import Vestibule.Library.Dict

set_option autoImplicit false

namespace Vestibule

open Library

-- The index stands in decimal right after the identifier of the document. Digits are hex digits too, but an
-- identifier ends after 64 of them or with a newline, so the text can be cut in one place only. The limit
-- that an interpreter may put on the digits of an `int` is left out.

theorem tail_ne_newline {index : Int} (nonneg : 0 ≤ index) :
    (PyStr.ofString (toString index)).head? ≠ some newline := by
  obtain ⟨n, rfl⟩ := Int.eq_ofNat_of_zero_le nonneg
  have text : (toString (n : Int)).toList = Nat.toDigits 10 n := by
    change (toString n).toList = _
    simp
  obtain ⟨c, rest, digits, digit⟩ := toDigits_cons n
  rw [PyStr.ofString, text, digits]
  intro same
  obtain rfl : c = '\n' := PyChar.scalar.inj (Option.some.inj same)
  exact absurd digit (by decide)

theorem cut_unique {first second tail rest : PyStr} (hexFirst : hexRe first) (hexSecond : hexRe second)
    (tailFirst : tail.head? ≠ some newline) (tailSecond : rest.head? ≠ some newline)
    (same : first ++ tail = second ++ rest) : first = second ∧ tail = rest := by
  rcases (hexRe_iff first).mp hexFirst with digestFirst | ⟨digest, digestFirst, rfl⟩
  next =>
    rcases (hexRe_iff second).mp hexSecond with digestSecond | ⟨other, digestSecond, rfl⟩
    next => exact List.append_inj same (digestFirst.length.trans digestSecond.length.symm)
    next =>
      rw [List.append_assoc] at same
      obtain ⟨-, crossed⟩ := List.append_inj same (digestFirst.length.trans digestSecond.length.symm)
      exact (tailFirst (by simp [crossed])).elim
  next =>
    rw [List.append_assoc] at same
    rcases (hexRe_iff second).mp hexSecond with digestSecond | ⟨other, digestSecond, rfl⟩
    next =>
      obtain ⟨-, crossed⟩ := List.append_inj same (digestFirst.length.trans digestSecond.length.symm)
      exact (tailSecond (by simp [← crossed])).elim
    next =>
      rw [List.append_assoc] at same
      obtain ⟨rfl, tails⟩ := List.append_inj same (digestFirst.length.trans digestSecond.length.symm)
      exact ⟨rfl, List.append_cancel_left tails⟩

theorem hexRe_encodable {text : PyStr} (hex : hexRe text) : text.Encodable := by
  have solid {digest : PyStr} (isDigest : IsDigest digest) : digest.Encodable := by
    intro code member
    exact absurd (isDigest.digits _ member) (by simp [isHexDigit])
  rcases (hexRe_iff text).mp hex with isDigest | ⟨digest, isDigest, rfl⟩
  next => exact solid isDigest
  next =>
    intro code member
    rcases List.mem_append.mp member with early | last
    next => exact solid isDigest code early
    next => simp [newline] at last

section Derivation

variable (hexdigest : ByteArray → String)

theorem deriveChunkId_ok {docId : PyStr} (hex : hexRe docId) {index : Int} (nonneg : 0 ≤ index) :
    ∃ bytes, encodeUtf8 (docId ++ PyStr.ofString (toString index)) = .ok bytes ∧
      deriveChunkId hexdigest (.str docId) (.int index) = .ok (hexdigest bytes) := by
  have encodable : (docId ++ PyStr.ofString (toString index)).Encodable := by
    intro code member
    rcases List.mem_append.mp member with early | late
    next => exact hexRe_encodable hex code early
    next => simp [PyStr.ofString] at late
  obtain ⟨bytes, encoded⟩ := (encodeUtf8_ok _).mpr encodable
  have checked : validateIdFormat (.str docId) "doc_id" = .ok docId := if_pos hex
  have valid : validateChunkIndex (.int index) = .ok index := if_neg (Int.not_lt.mpr nonneg)
  refine ⟨bytes, encoded, ?_⟩
  simp only [deriveChunkId, checked, valid, Bind.bind, Except.bind, encoded]
  rfl

theorem validateIdFormat_eq_ok (value : PyValue) (fieldName : String) (text : PyStr) :
    validateIdFormat value fieldName = .ok text ↔ value = .str text ∧ hexRe text := by
  cases value with
  | str held =>
    rw [validateIdFormat]
    by_cases format : hexRe held
    next =>
      rw [if_pos format]
      constructor
      next =>
        intro same
        obtain rfl := Except.ok.inj same
        exact ⟨rfl, format⟩
      next =>
        intro parts
        exact congrArg Except.ok (PyValue.str.inj parts.1)
    next =>
      rw [if_neg format]
      simp only [reduceCtorEq, PyValue.str.injEq, false_iff, not_and]
      rintro rfl
      exact format
  | _ => simp [validateIdFormat]

def ValidIndex (chunkIndex : PyValue) : Prop := ∃ index, chunkIndex = .int index ∧ 0 ≤ index

theorem deriveChunkId_cases {docId : PyStr} (hex : hexRe docId) (chunkIndex : PyValue) :
    (ValidIndex chunkIndex ∧ ∃ chunkId, deriveChunkId hexdigest (.str docId) chunkIndex = .ok chunkId) ∨
      ¬ ValidIndex chunkIndex ∧ ∃ reason,
        deriveChunkId hexdigest (.str docId) chunkIndex = .error (.identityInvalid "chunk_index" reason) := by
  have checked : validateIdFormat (.str docId) "doc_id" = .ok docId := if_pos hex
  cases chunkIndex with
  | int index =>
    by_cases nonneg : 0 ≤ index
    next =>
      obtain ⟨bytes, -, derived⟩ := deriveChunkId_ok hexdigest hex nonneg
      exact .inl ⟨⟨index, rfl, nonneg⟩, _, derived⟩
    next =>
      refine .inr ⟨?_, "negative int", ?_⟩
      next =>
        rintro ⟨other, same, bound⟩
        exact nonneg (PyValue.int.inj same ▸ bound)
      next => simp [deriveChunkId, checked, validateChunkIndex, Int.not_le.mp nonneg, Bind.bind, Except.bind]
  | _ =>
    right
    simp [ValidIndex, deriveChunkId, checked, validateChunkIndex, Bind.bind, Except.bind]

variable {hexdigest}

theorem deriveChunkId_separates (injective : Function.Injective hexdigest) {first second : PyStr}
    (hexFirst : hexRe first) (hexSecond : hexRe second) {index other : Int} (nonneg : 0 ≤ index) (nonnegOther : 0 ≤ other)
    (same : deriveChunkId hexdigest (.str first) (.int index) = deriveChunkId hexdigest (.str second) (.int other)) :
    first = second ∧ index = other := by
  obtain ⟨bytes, encoded, derived⟩ := deriveChunkId_ok hexdigest hexFirst nonneg
  obtain ⟨otherBytes, otherEncoded, otherDerived⟩ := deriveChunkId_ok hexdigest hexSecond nonnegOther
  have digests : hexdigest bytes = hexdigest otherBytes := Except.ok.inj (derived.symm.trans (same.trans otherDerived))
  obtain rfl := injective digests
  have texts := encodeUtf8_injective encoded otherEncoded
  obtain ⟨ids, indices⟩ := cut_unique hexFirst hexSecond (tail_ne_newline nonneg) (tail_ne_newline nonnegOther) texts
  have numbers := congrArg int? (PyStr.ofString_injective indices)
  rw [int?_toString, int?_toString] at numbers
  exact ⟨ids, Option.some.inj numbers⟩

end Derivation

section Batch

variable (hexdigest : ByteArray → String)

-- The right side of the assignment runs first, so no key is stored for an index that is refused.
def deriveChunkIdsBatch (docId : PyValue) (chunkIndices : List PyValue) :
    Except IdentityFault (Dict PyValue String) :=
  chunkIndices.foldlM (fun result chunkIndex => do
    let chunkId ← deriveChunkId hexdigest docId chunkIndex
    return result.insert chunkIndex chunkId) Dict.empty

structure BatchOf (docId : PyValue) (chunkIndices : List PyValue) (ids : Dict PyValue String) : Prop where
  keys : ∀ chunkIndex, (∃ chunkId, ids.get? chunkIndex = some chunkId) ↔ chunkIndex ∈ chunkIndices
  each : ∀ chunkIndex chunkId, ids.get? chunkIndex = some chunkId →
    deriveChunkId hexdigest docId chunkIndex = .ok chunkId
  distinct : ∀ chunkIndex other chunkId, ids.get? chunkIndex = some chunkId → ids.get? other = some chunkId →
    chunkIndex = other

variable {hexdigest} {docId : PyStr} (hex : hexRe docId) {chunkIndices : List PyValue}

include hex

theorem deriveChunkIdsBatch_ok (injective : Function.Injective hexdigest)
    (valid : ∀ chunkIndex ∈ chunkIndices, ValidIndex chunkIndex) :
    ∃ ids, deriveChunkIdsBatch hexdigest (.str docId) chunkIndices = .ok ids ∧
      BatchOf hexdigest (.str docId) chunkIndices ids := by
  have derives : ∀ chunkIndex ∈ chunkIndices, ∃ chunkId,
      deriveChunkId hexdigest (.str docId) chunkIndex = .ok chunkId := by
    intro chunkIndex member
    rcases deriveChunkId_cases hexdigest hex chunkIndex with ⟨-, derived⟩ | ⟨invalid, -⟩
    next => exact derived
    next => exact (invalid (valid chunkIndex member)).elim
  obtain ⟨ids, ran, holds⟩ := Dict.foldlM_insert_ok (deriveChunkId hexdigest (.str docId)) derives Dict.empty
  have stored (chunkIndex : PyValue) (chunkId : String) : ids.get? chunkIndex = some chunkId ↔
      chunkIndex ∈ chunkIndices ∧ deriveChunkId hexdigest (.str docId) chunkIndex = .ok chunkId := by
    rw [holds]
    by_cases member : chunkIndex ∈ chunkIndices
    next =>
      obtain ⟨derived, computed⟩ := derives chunkIndex member
      simp [member, computed, Except.toOption]
    next => simp [member]
  refine ⟨ids, ran, ?_, ?_, ?_⟩
  next =>
    intro chunkIndex
    constructor
    next =>
      rintro ⟨chunkId, present⟩
      exact ((stored chunkIndex chunkId).mp present).1
    next =>
      intro member
      obtain ⟨chunkId, computed⟩ := derives chunkIndex member
      exact ⟨chunkId, (stored chunkIndex chunkId).mpr ⟨member, computed⟩⟩
  next =>
    intro chunkIndex chunkId present
    exact ((stored chunkIndex chunkId).mp present).2
  next =>
    intro chunkIndex other chunkId present presentOther
    obtain ⟨member, computed⟩ := (stored chunkIndex chunkId).mp present
    obtain ⟨memberOther, computedOther⟩ := (stored other chunkId).mp presentOther
    obtain ⟨index, rfl, nonneg⟩ := valid chunkIndex member
    obtain ⟨index', rfl, nonneg'⟩ := valid other memberOther
    have same := deriveChunkId_separates injective hex hex nonneg nonneg' (computed.trans computedOther.symm)
    exact congrArg PyValue.int same.2

theorem deriveChunkIdsBatch_error (hexdigest : ByteArray → String)
    (invalid : ∃ chunkIndex ∈ chunkIndices, ¬ ValidIndex chunkIndex) :
    ∃ reason, deriveChunkIdsBatch hexdigest (.str docId) chunkIndices =
      .error (.identityInvalid "chunk_index" reason) := by
  have refused : ∃ chunkIndex ∈ chunkIndices, ∀ chunkId,
      deriveChunkId hexdigest (.str docId) chunkIndex ≠ .ok chunkId := by
    obtain ⟨chunkIndex, member, invalid⟩ := invalid
    refine ⟨chunkIndex, member, ?_⟩
    intro chunkId derived
    rcases deriveChunkId_cases hexdigest hex chunkIndex with ⟨valid, -⟩ | ⟨-, reason, raised⟩
    next => exact invalid valid
    next =>
      rw [raised] at derived
      cases derived
  obtain ⟨chunkIndex, -, fault, raised, ran⟩ :=
    Dict.foldlM_insert_error (deriveChunkId hexdigest (.str docId)) refused Dict.empty
  rcases deriveChunkId_cases hexdigest hex chunkIndex with ⟨-, chunkId, derived⟩ | ⟨-, reason, named⟩
  next =>
    rw [raised] at derived
    cases derived
  next =>
    obtain rfl := Except.error.inj (raised.symm.trans named)
    exact ⟨reason, ran⟩

end Batch

end Vestibule
