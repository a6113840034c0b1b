import Vestibule.Python
import Vestibule.Errors

set_option autoImplicit false

namespace Vestibule

-- `sha256(...).hexdigest()` is the parameter `hexdigest`.

inductive IdentityFault where
  | identityInvalid (fieldName reason : String)
  | unicodeEncodeError
  deriving DecidableEq

def isHexDigit : PyChar → Bool
  | .scalar c => ('0' ≤ c && c ≤ '9') || ('a' ≤ c && c ≤ 'f')
  | .surrogate _ => false

def idHexLength : Nat := 64

-- `$` also matches before a newline that ends the string.
def hexRe (value : PyStr) : Bool :=
  let body := if value.getLast? = some (.scalar '\n') then value.dropLast else value
  body.length = idHexLength && body.all isHexDigit

def validateIdFormat (value : PyValue) (fieldName : String := "id") : Except IdentityFault PyStr :=
  match value with
  | .str text =>
      if hexRe text then .ok text else .error (.identityInvalid fieldName "not 64 hex chars")
  | _ => .error (.identityInvalid fieldName "not a string")

def validateNonEmptyStr (value : PyValue) (fieldName : String) : Except IdentityFault PyStr :=
  match value with
  | .str [] => .error (.identityInvalid fieldName "empty string")
  | .str text => .ok text
  | _ => .error (.identityInvalid fieldName "not a string")

def validateChunkIndex (chunkIndex : PyValue) : Except IdentityFault Int :=
  match chunkIndex with
  | .int value =>
      if value < 0 then .error (.identityInvalid "chunk_index" "negative int") else .ok value
  | _ => .error (.identityInvalid "chunk_index" "not an int")

def encodeUtf8 (text : PyStr) : Except IdentityFault ByteArray :=
  match text.toString? with
  | some decoded => .ok decoded.toUTF8
  | none => .error .unicodeEncodeError

section Derivation

variable (hexdigest : ByteArray → String)

def deriveDocId (source blobPath : PyValue) : Except IdentityFault String := do
  let source ← validateNonEmptyStr source "source"
  let blobPath ← validateNonEmptyStr blobPath "blob_path"
  return hexdigest (← encodeUtf8 (source ++ blobPath))

def deriveChunkId (docId chunkIndex : PyValue) : Except IdentityFault String := do
  let validatedDocId ← validateIdFormat docId "doc_id"
  let index ← validateChunkIndex chunkIndex
  return hexdigest (← encodeUtf8 (validatedDocId ++ PyStr.ofString (toString index)))

end Derivation

theorem validateIdFormat_ofString (text fieldName : String) :
    validateIdFormat (.ofString text) fieldName =
      if hexRe (PyStr.ofString text) then .ok (PyStr.ofString text)
      else .error (.identityInvalid fieldName "not 64 hex chars") := rfl

theorem hexRe_of_validateIdFormat {text fieldName : String} {value : PyStr}
    (checked : validateIdFormat (.ofString text) fieldName = .ok value) : hexRe (PyStr.ofString text) := by
  rw [validateIdFormat_ofString] at checked
  split at checked
  · assumption
  · cases checked

theorem encodeUtf8_injective {first second : PyStr} {bytes : ByteArray}
    (left : encodeUtf8 first = .ok bytes) (right : encodeUtf8 second = .ok bytes) :
    first = second := by
  simp only [encodeUtf8] at left right
  split at left <;> split at right <;> simp_all only [Except.ok.injEq, reduceCtorEq]
  next firstText decodedFirst _ secondText decodedSecond =>
    rw [PyStr.toString?_eq_some decodedFirst, PyStr.toString?_eq_some decodedSecond]
    exact congrArg _ (String.toByteArray_inj.mp (left.trans right.symm))

theorem deriveDocId_eq_ok (hexdigest : ByteArray → String) (source blobPath : PyStr) (docId : String) :
    deriveDocId hexdigest (.str source) (.str blobPath) = .ok docId ↔
      source ≠ [] ∧ blobPath ≠ [] ∧
        ∃ bytes, encodeUtf8 (source ++ blobPath) = .ok bytes ∧ hexdigest bytes = docId := by
  cases source with
  | nil => simp [deriveDocId, validateNonEmptyStr, Bind.bind, Except.bind]
  | cons first source =>
    cases blobPath with
    | nil => simp [deriveDocId, validateNonEmptyStr, Bind.bind, Except.bind]
    | cons second blobPath =>
      cases encoded : encodeUtf8 (first :: source ++ second :: blobPath) with
      | error fault =>
        simp_all [deriveDocId, validateNonEmptyStr, Bind.bind, Except.bind]
      | ok bytes =>
        simp_all [deriveDocId, validateNonEmptyStr, Bind.bind, Except.bind, pure, Except.pure]

theorem encodeUtf8_ok (text : PyStr) : (∃ bytes, encodeUtf8 text = .ok bytes) ↔ text.Encodable := by
  rw [← PyStr.toString?_isSome]
  simp only [encodeUtf8]
  cases text.toString? <;> simp

-- The two pairs are different cuts of one text: `moved` lies on either side of the boundary.
def BoundaryMoved (source₁ path₁ source₂ path₂ : PyStr) : Prop :=
  ∃ moved, moved ≠ [] ∧
    (source₂ = source₁ ++ moved ∧ path₁ = moved ++ path₂ ∨
      source₁ = source₂ ++ moved ∧ path₂ = moved ++ path₁)

theorem append_eq_append_iff_boundaryMoved (source₁ path₁ source₂ path₂ : PyStr) :
    source₁ ++ path₁ = source₂ ++ path₂ ↔
      source₁ = source₂ ∧ path₁ = path₂ ∨ BoundaryMoved source₁ path₁ source₂ path₂ := by
  constructor
  · intro same
    rcases List.append_eq_append_iff.mp same with ⟨moved, grown, rest⟩ | ⟨moved, grown, rest⟩
    · by_cases empty : moved = []
      · subst empty
        exact .inl ⟨by simpa using grown.symm, by simpa using rest⟩
      · exact .inr ⟨moved, empty, .inl ⟨grown, rest⟩⟩
    · by_cases empty : moved = []
      · subst empty
        exact .inl ⟨by simpa using grown, by simpa using rest.symm⟩
      · exact .inr ⟨moved, empty, .inr ⟨grown, rest⟩⟩
  · rintro (⟨rfl, rfl⟩ | ⟨moved, _, ⟨rfl, rfl⟩ | ⟨rfl, rfl⟩⟩)
    · rfl
    · simp
    · simp

theorem not_boundaryMoved_self (source path : PyStr) : ¬ BoundaryMoved source path source path := by
  rintro ⟨moved, nonempty, ⟨grown, _⟩ | ⟨grown, _⟩⟩
  · exact nonempty (by simpa using grown)
  · exact nonempty (by simpa using grown)

theorem deriveDocId_separates (hexdigest : ByteArray → String)
    (injective : Function.Injective hexdigest) (source₁ path₁ source₂ path₂ : PyStr)
    (hsource₁ : source₁ ≠ []) (hpath₁ : path₁ ≠ []) (hsource₂ : source₂ ≠ []) (hpath₂ : path₂ ≠ []) :
    (∀ docId, deriveDocId hexdigest (.str source₁) (.str path₁) = .ok docId →
        deriveDocId hexdigest (.str source₂) (.str path₂) = .ok docId →
        source₁ = source₂ ∧ path₁ = path₂) ↔
      ¬ ((source₁ ++ path₁).Encodable ∧ BoundaryMoved source₁ path₁ source₂ path₂) := by
  simp only [deriveDocId_eq_ok]
  constructor
  · rintro separates ⟨encodable, moved⟩
    obtain ⟨bytes, encoded⟩ := (encodeUtf8_ok _).mpr encodable
    have text : source₁ ++ path₁ = source₂ ++ path₂ :=
      (append_eq_append_iff_boundaryMoved _ _ _ _).mpr (.inr moved)
    obtain ⟨rfl, rfl⟩ := separates (hexdigest bytes) ⟨hsource₁, hpath₁, bytes, encoded, rfl⟩
      ⟨hsource₂, hpath₂, bytes, text ▸ encoded, rfl⟩
    exact not_boundaryMoved_self _ _ moved
  · rintro kept docId ⟨-, -, bytes₁, encoded₁, digest₁⟩ ⟨-, -, bytes₂, encoded₂, digest₂⟩
    obtain rfl := injective (digest₁.trans digest₂.symm)
    have text := encodeUtf8_injective encoded₁ encoded₂
    rcases (append_eq_append_iff_boundaryMoved _ _ _ _).mp text with same | moved
    · exact same
    · exact (kept ⟨(encodeUtf8_ok _).mp ⟨_, encoded₁⟩, moved⟩).elim

-- `sha256` of "abc" and of "abcd"; other bytes stand for themselves behind a character that no
-- digest starts with.
def digestAbc : String := "ba7816bf8f01cfea414140de5dae2223b00361a396177a9cb410ff61f20015ad"

def digestAbcd : String := "88d4266fd4e6338d13b845fcf289579d209c897823b9217da3e161936f031589"

theorem digestAbc_hex : hexRe (PyStr.ofString digestAbc) := by decide

theorem digestAbcd_hex : hexRe (PyStr.ofString digestAbcd) := by decide

def quoted (bytes : ByteArray) : String :=
  String.ofList ('x' :: bytes.data.toList.map fun byte => Char.ofNat byte.toNat)

def sampleHexdigest (bytes : ByteArray) : String :=
  if bytes.data.toList = "abc".toUTF8.data.toList then digestAbc
  else if bytes.data.toList = "abcd".toUTF8.data.toList then digestAbcd
  else quoted bytes

theorem byteChar_injective : Function.Injective fun byte : UInt8 => Char.ofNat byte.toNat := by
  intro first second same
  have valid (byte : UInt8) : byte.toNat.isValidChar := Or.inl (by have := byte.toNat_lt; omega)
  have code (byte : UInt8) : (Char.ofNat byte.toNat).toNat = byte.toNat := by
    rw [Char.ofNat, dif_pos (valid byte)]
    rfl
  exact UInt8.toNat_inj.mp (by rw [← code first, ← code second]; exact congrArg Char.toNat same)

theorem quoted_injective : Function.Injective quoted := by
  intro first second same
  have chars := List.cons.inj (String.ofList_injective same)
  exact ByteArray.ext (Array.toList_inj.mp (List.map_injective_iff.mpr byteChar_injective chars.2))

theorem quoted_head (bytes : ByteArray) : (quoted bytes).toList.head? = some 'x' := by
  simp [quoted]

theorem sampleHexdigest_head (bytes : ByteArray) :
    (sampleHexdigest bytes).toList.head? =
      if bytes.data.toList = "abc".toUTF8.data.toList then some 'b'
      else if bytes.data.toList = "abcd".toUTF8.data.toList then some '8' else some 'x' := by
  have abcHead : digestAbc.toList.head? = some 'b' := by decide
  have abcdHead : digestAbcd.toList.head? = some '8' := by decide
  simp only [sampleHexdigest]
  split
  · exact abcHead
  · split
    · exact abcdHead
    · exact quoted_head bytes

theorem sampleHexdigest_injective : Function.Injective sampleHexdigest := by
  intro first second same
  have heads := congrArg (fun digest => digest.toList.head?) same
  simp only [sampleHexdigest_head] at heads
  -- Equal first characters put both into the same branch.
  split_ifs at heads with firstAbc secondAbc secondAbcd firstAbcd secondAbc secondAbcd secondAbc secondAbcd
  · exact ByteArray.ext (Array.toList_inj.mp (firstAbc.trans secondAbc.symm))
  · exact absurd heads (by decide)
  · exact absurd heads (by decide)
  · exact absurd heads (by decide)
  · exact ByteArray.ext (Array.toList_inj.mp (firstAbcd.trans secondAbcd.symm))
  · exact absurd heads (by decide)
  · exact absurd heads (by decide)
  · exact absurd heads (by decide)
  · simp only [sampleHexdigest, if_neg firstAbc, if_neg firstAbcd, if_neg secondAbc,
      if_neg secondAbcd] at same
    exact quoted_injective same

theorem deriveDocId_separates_abc_abcd :
    ¬ BoundaryMoved (.ofString "a") (.ofString "bc") (.ofString "a") (.ofString "bcd") ∧
      ∀ docId, deriveDocId sampleHexdigest (.ofString "a") (.ofString "bc") = .ok docId →
        deriveDocId sampleHexdigest (.ofString "a") (.ofString "bcd") = .ok docId →
        PyStr.ofString "a" = PyStr.ofString "a" ∧ PyStr.ofString "bc" = PyStr.ofString "bcd" := by
  have fixed : ¬ BoundaryMoved (.ofString "a") (.ofString "bc") (.ofString "a") (.ofString "bcd") := by
    intro moved
    have text := (append_eq_append_iff_boundaryMoved _ _ _ _).mpr (.inr moved)
    revert text
    decide
  refine ⟨fixed, ?_⟩
  exact (deriveDocId_separates sampleHexdigest sampleHexdigest_injective _ _ _ _ (by decide)
    (by decide) (by decide) (by decide)).mpr fun cut => fixed cut.2

theorem deriveDocId_not_injective :
    Function.Injective sampleHexdigest ∧
      ¬ ∀ source₁ path₁ source₂ path₂ : PyStr,
        source₁ ≠ [] → path₁ ≠ [] → source₂ ≠ [] → path₂ ≠ [] →
        ∀ docId, deriveDocId sampleHexdigest (.str source₁) (.str path₁) = .ok docId →
          deriveDocId sampleHexdigest (.str source₂) (.str path₂) = .ok docId →
          source₁ = source₂ ∧ path₁ = path₂ := by
  refine ⟨sampleHexdigest_injective, fun injective => ?_⟩
  have same := injective (PyStr.ofString "a") (PyStr.ofString "bc") (PyStr.ofString "ab")
    (PyStr.ofString "c") (by decide) (by decide) (by decide) (by decide) digestAbc (by decide)
    (by decide)
  exact absurd same.1 (by decide)

theorem PyStr.ofString_injective : Function.Injective PyStr.ofString := by
  intro first second same
  exact String.toList_injective (List.map_injective_iff.mpr (fun _ _ equal => PyChar.scalar.inj equal) same)

end Vestibule
