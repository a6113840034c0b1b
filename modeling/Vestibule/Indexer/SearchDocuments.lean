import Vestibule.Library.Dict
import Vestibule.Pipeline.Model

set_option autoImplicit false

namespace Vestibule

open Library

inductive FieldValue where
  | none
  | str (value : PyStr)
  | int (value : Int)
  | floats (items : List Float)
  | strs (items : List String)

abbrev SearchDocument := Dict String FieldValue

/-- The texts of the types whose texts are not fixed here. -/
structure Rendering where
  reprFloat : Float → String
  isoformat : DateTime → String
  fromisoformat : String → Option DateTime
  fromisoformat_isoformat : ∀ time, fromisoformat (isoformat time) = some time

namespace FieldValue

def ofString (text : String) : FieldValue := .str (PyStr.ofString text)

def ofOption : Option PyStr → FieldValue
  | Option.none => none
  | some value => str value

def string? : FieldValue → Option String
  | str value => value.toString?
  | _ => Option.none

-- A list prints the `repr` of its items.
def toStr (rendering : Rendering) : FieldValue → PyStr
  | none => PyStr.ofString "None"
  | str value => value
  | int value => PyStr.ofString (toString value)
  | floats items => PyStr.ofString ("[" ++ ", ".intercalate (items.map rendering.reprFloat) ++ "]")
  | strs items => PyStr.ofString ("[" ++ ", ".intercalate (items.map reprStr) ++ "]")

theorem toString?_scalars (chars : List Char) : PyStr.toString? (chars.map .scalar) = some (String.ofList chars) := by
  induction chars with
  | nil => rfl
  | cons c rest ih => simp [PyStr.toString?, ih]

@[simp]
theorem string?_ofString (text : String) : (ofString text).string? = some text := by
  simp [ofString, string?, PyStr.ofString, toString?_scalars]

theorem eq_of_string? {value : FieldValue} {text : String} (reads : value.string? = some text) :
    value = ofString text := by
  cases value with
  | str value => exact congrArg FieldValue.str (PyStr.toString?_eq_some reads)
  | _ => cases reads

theorem ofString_injective : Function.Injective ofString := by
  intro text other same
  have read := congrArg string? same
  simpa using read

end FieldValue

variable (rendering : Rendering)

def recordToDocument (record : IndexRecord) : SearchDocument :=
  Dict.empty
    |>.insert "chunk_id" (.ofString record.chunkId)
    |>.insert "doc_id" (.ofString record.docId)
    |>.insert "doc_version" (.ofString record.docVersion)
    |>.insert "content" (.ofString record.text)
    |>.insert "content_vector" (.floats record.vector)
    |>.insert "position" (.int record.position)
    |>.insert "section_path" (.ofOption record.sectionPath)
    |>.insert "element_types" (.strs record.elementTypes)
    |>.insert "strategy" (.str record.strategy)
    |>.insert "allowed_groups" (.strs record.allowedGroups)
    |>.insert "trust_tier" (.ofString record.trustTier)
    |>.insert "embedding_model" (.ofString record.embeddingModel)
    |>.insert "embedding_dimensions" (.int record.embeddingDimensions)
    |>.insert "config_version" (.ofString record.configVersion)
    |>.insert "indexed_at" (.ofString (rendering.isoformat record.indexedAt))

def recordFields : List String :=
  ["chunk_id", "doc_id", "doc_version", "content", "content_vector", "position", "section_path", "element_types",
    "strategy", "allowed_groups", "trust_tier", "embedding_model", "embedding_dimensions", "config_version",
    "indexed_at"]

namespace FieldValue

def str? : FieldValue → Option PyStr
  | str value => some value
  | _ => Option.none

def optionalStr? : FieldValue → Option (Option PyStr)
  | none => some Option.none
  | str value => some (some value)
  | _ => Option.none

def int? : FieldValue → Option Int
  | int value => some value
  | _ => Option.none

def floats? : FieldValue → Option (List Float)
  | floats items => some items
  | _ => Option.none

def strs? : FieldValue → Option (List String)
  | strs items => some items
  | _ => Option.none

theorem optionalStr?_ofOption (value : Option PyStr) : (ofOption value).optionalStr? = some value := by
  cases value <;> rfl

end FieldValue

def recordOfDocument (document : SearchDocument) : Option IndexRecord := do
  return { chunkId := ← (← document.get? "chunk_id").string?
           docId := ← (← document.get? "doc_id").string?
           docVersion := ← (← document.get? "doc_version").string?
           text := ← (← document.get? "content").string?
           vector := ← (← document.get? "content_vector").floats?
           position := ← (← document.get? "position").int?
           sectionPath := ← (← document.get? "section_path").optionalStr?
           elementTypes := ← (← document.get? "element_types").strs?
           strategy := ← (← document.get? "strategy").str?
           allowedGroups := ← (← document.get? "allowed_groups").strs?
           trustTier := ← (← document.get? "trust_tier").string?
           embeddingModel := ← (← document.get? "embedding_model").string?
           embeddingDimensions := ← (← document.get? "embedding_dimensions").int?
           configVersion := ← (← document.get? "config_version").string?
           indexedAt := ← rendering.fromisoformat (← (← document.get? "indexed_at").string?) }

theorem recordOfDocument_recordToDocument (record : IndexRecord) :
    recordOfDocument rendering (recordToDocument rendering record) = some record := by
  simp [recordOfDocument, recordToDocument, Dict.get?_insert, rendering.fromisoformat_isoformat,
    FieldValue.optionalStr?_ofOption, FieldValue.str?, FieldValue.int?, FieldValue.floats?, FieldValue.strs?]

theorem recordOfDocument_congr {document other : SearchDocument}
    (same : ∀ field ∈ recordFields, document.get? field = other.get? field) :
    recordOfDocument rendering document = recordOfDocument rendering other := by
  simp only [recordFields, List.forall_mem_cons] at same
  obtain ⟨h1, h2, h3, h4, h5, h6, h7, h8, h9, h10, h11, h12, h13, h14, h15, _⟩ := same
  simp only [recordOfDocument, h1, h2, h3, h4, h5, h6, h7, h8, h9, h10, h11, h12, h13, h14, h15]

theorem recordToDocument_fields (record : IndexRecord) :
    ∀ field ∈ recordFields, ((recordToDocument rendering record).get? field).isSome := by
  have kept (document : SearchDocument) (field : String) (value : FieldValue) (other : String) :
      ((document.insert field value).get? other).isSome ↔ other = field ∨ (document.get? other).isSome := by
    rw [Dict.get?_insert]
    split
    next same => simp [same]
    next different => simp [different]
  intro field listed
  simp only [recordFields, List.mem_cons, List.not_mem_nil, or_false] at listed
  simp only [recordToDocument, kept]
  tauto

variable {rendering} in
theorem keys_of_record {document : SearchDocument} {record : IndexRecord}
    (reads : recordOfDocument rendering document = some record) :
    document.get? "chunk_id" = some (.ofString record.chunkId) ∧
      document.get? "doc_id" = some (.ofString record.docId) ∧
      document.get? "doc_version" = some (.ofString record.docVersion) := by
  unfold recordOfDocument at reads
  obtain ⟨v1, f1, reads⟩ := Option.bind_eq_some_iff.mp reads
  obtain ⟨c1, s1, reads⟩ := Option.bind_eq_some_iff.mp reads
  obtain ⟨v2, f2, reads⟩ := Option.bind_eq_some_iff.mp reads
  obtain ⟨c2, s2, reads⟩ := Option.bind_eq_some_iff.mp reads
  obtain ⟨v3, f3, reads⟩ := Option.bind_eq_some_iff.mp reads
  obtain ⟨c3, s3, reads⟩ := Option.bind_eq_some_iff.mp reads
  have same : record.chunkId = c1 ∧ record.docId = c2 ∧ record.docVersion = c3 := by
    -- Twelve fields are read after the keys, and the last one is parsed.
    iterate 25 obtain ⟨_, _, reads⟩ := Option.bind_eq_some_iff.mp reads
    obtain rfl := Option.some.inj reads
    exact ⟨rfl, rfl, rfl⟩
  obtain ⟨rfl, rfl, rfl⟩ := same
  rw [f1, f2, f3, FieldValue.eq_of_string? s1, FieldValue.eq_of_string? s2, FieldValue.eq_of_string? s3]
  exact ⟨rfl, rfl, rfl⟩

-- An upload under a key that is taken merges the fields of both documents.

def mergeOrUpload (old : Option SearchDocument) (document : SearchDocument) : SearchDocument :=
  (old.getD .empty).update document.entries

theorem get?_mergeOrUpload (old : Option SearchDocument) (document : SearchDocument) (field : String) :
    (mergeOrUpload old document).get? field = (document.get? field).or ((old.getD .empty).get? field) :=
  Dict.get?_update _ document.nodup field

-- A document of a record leaves nothing of what it is merged into.
theorem recordOfDocument_mergeOrUpload (old : Option SearchDocument) (record : IndexRecord) :
    recordOfDocument rendering (mergeOrUpload old (recordToDocument rendering record)) = some record := by
  rw [← recordOfDocument_recordToDocument rendering record]
  apply recordOfDocument_congr
  intro field listed
  obtain ⟨value, found⟩ := Option.isSome_iff_exists.mp (recordToDocument_fields rendering record field listed)
  simp [get?_mergeOrUpload, found]

-- The uploaded text is ASCII: every other character is escaped, beyond the basic plane by two surrogates.

def hex4 (code : Nat) : List Char :=
  let digit (n : Nat) : Char := "0123456789abcdef".toList.getD (n % 16) '0'
  [digit (code / 4096), digit (code / 256), digit (code / 16), digit code]

def jsonEscape : PyChar → List Char
  | .surrogate code => ['\\', 'u'] ++ hex4 (0xD800 + code)
  | .scalar c =>
      if c = '"' ∨ c = '\\' then ['\\', c]
      else if c = '\n' then ['\\', 'n']
      else if c = '\r' then ['\\', 'r']
      else if c = '\t' then ['\\', 't']
      else if c.toNat = 8 then ['\\', 'b']
      else if c.toNat = 12 then ['\\', 'f']
      else if 32 ≤ c.toNat ∧ c.toNat ≤ 126 then [c]
      else if c.toNat < 0x10000 then ['\\', 'u'] ++ hex4 c.toNat
      else ['\\', 'u'] ++ hex4 (0xD800 + (c.toNat - 0x10000) / 0x400) ++
        ['\\', 'u'] ++ hex4 (0xDC00 + (c.toNat - 0x10000) % 0x400)

def jsonStr (value : PyStr) : List Char := '"' :: value.flatMap jsonEscape ++ ['"']

def jsonList (items : List (List Char)) : List Char := '[' :: [',', ' '].intercalate items ++ [']']

def jsonValue : FieldValue → List Char
  | .none => "null".toList
  | .str value => jsonStr value
  | .int value => (toString value).toList
  | .floats items => jsonList (items.map fun item => (rendering.reprFloat item).toList)
  | .strs items => jsonList (items.map fun item => jsonStr (PyStr.ofString item))

def jsonDumps (document : SearchDocument) : List Char :=
  '\x7b' :: [',', ' '].intercalate (document.entries.map fun entry =>
    jsonStr (PyStr.ofString entry.1) ++ [':', ' '] ++ jsonValue rendering entry.2) ++ ['\x7d']

def utf8Length (text : List Char) : Nat := text.foldl (fun size c => size + c.utf8Size) 0

def indexerRecordTooLarge : String := "INDEXER_RECORD_TOO_LARGE"

def maxRecordBytes : Nat := 16 * 1024 * 1024

def checkRecordSizes : List (IndexRecord × SearchDocument) → Except Exc Unit
  | [] => .ok ()
  | (record, document) :: rest =>
      let size := utf8Length (jsonDumps rendering document)
      if maxRecordBytes < size then
        .error (.ragged .indexer record.docId
          ("record chunk_id=" ++ record.chunkId ++ " serialized size=" ++ toString size ++
            " bytes exceeds the store's " ++ toString maxRecordBytes ++ "-byte limit") indexerRecordTooLarge)
      else checkRecordSizes rest

end Vestibule
