import Vestibule.Ledger.Store

set_option autoImplicit false

namespace Vestibule

open Library

inductive TrustTier where
  | publicTier
  | internal
  | confidential
  | restricted
  deriving DecidableEq

def TrustTier.value : TrustTier → String
  | .publicTier => "public"
  | .internal => "internal"
  | .confidential => "confidential"
  | .restricted => "restricted"

structure ArrivalEnvelope where
  docId : String
  source : String
  blobPath : String
  vertical : Option String := none
  scenarioId : Option String := none
  allowedGroups : List String := []
  trustTier : TrustTier
  contentHash : String
  docIdFormat : hexRe (PyStr.ofString docId) := by decide
  contentHashFormat : hexRe (PyStr.ofString contentHash) := by decide
  sourceNonempty : source ≠ "" := by decide
  blobPathNonempty : blobPath ≠ "" := by decide
  deriving DecidableEq

inductive DetectedType where
  | digitalPdf
  | scannedPdf
  | docx
  | image
  | unsupported
  deriving DecidableEq

def DetectedType.value : DetectedType → String
  | .digitalPdf => "digital_pdf"
  | .scannedPdf => "scanned_pdf"
  | .docx => "docx"
  | .image => "image"
  | .unsupported => "unsupported"

inductive ElementType where
  | heading
  | paragraph
  | table
  | list
  | imageCaption
  | code
  deriving DecidableEq

def ElementType.value : ElementType → String
  | .heading => "heading"
  | .paragraph => "paragraph"
  | .table => "table"
  | .list => "list"
  | .imageCaption => "image_caption"
  | .code => "code"

abbrev Metadata := Dict String PyValue

-- The content may be missing (outer `none`) or be Python's `None` (inner `none`).
structure TableCell where
  rowIndex : Nat
  columnIndex : Nat
  content : Option (Option String)
  deriving DecidableEq

-- `cells` is the entry `metadata["cells"]`, the one whose value is no `PyValue`.
structure Element where
  type : ElementType
  text : String
  metadata : Metadata := .empty
  cells : Option (List TableCell) := none

structure ChunkDraft where
  elementTypes : List ElementType
  text : String
  tokenCount : Int
  metadata : Metadata

structure Chunk where
  chunkId : String
  docId : String
  position : Int
  elementTypes : List ElementType
  text : String
  tokenCount : Int
  metadata : Metadata

structure EmbeddedChunk where
  chunk : Chunk
  vector : List Float
  embeddingModel : String
  embeddingDimensions : Int
  truncatedFrom : Option Int := none

structure IndexRecord where
  chunkId : String
  docId : String
  docVersion : String
  vector : List Float
  text : String
  position : Int
  sectionPath : Option PyStr
  elementTypes : List String
  strategy : PyStr
  allowedGroups : List String
  trustTier : String
  embeddingModel : String
  embeddingDimensions : Int
  configVersion : String
  indexedAt : DateTime

structure UpsertOutcome where
  succeeded : List String
  failed : List (String × String)
  deriving DecidableEq

structure IndexResult where
  docId : String
  chunksUpserted : Int
  chunksDeleted : Int
  indexName : String
  embeddingModel : String
  embeddingDimensions : Int
  deriving DecidableEq

structure Scenario where
  scenarioId : String
  vertical : String
  deriving DecidableEq

structure ParkedMetadata where
  source : String
  blobPath : String
  suggestedVerticals : List String
  deriving DecidableEq

inductive ErrorKind where
  | chunker
  | embedder
  | indexer
  | scenario
  | vertical
  | reprocessor
  deriving DecidableEq

-- `ragged` is an error of the kind's own class: a subject (a `doc_id` or a `scenario_id`), a reason
-- and a code; the analyzer's own class carries the detected type too. `other` is any further
-- exception, known by its `str()`.
inductive Exc where
  | ledgerTransitionInvalid (fault : LedgerTransitionInvalid)
  | identity (fault : IdentityFault)
  | ragged (kind : ErrorKind) (subject reason errorCode : String)
  | analyzer (docId reason errorCode : String) (detectedType : Option DetectedType)
  | validationError (model field : String)
  | other (text : String)
  deriving DecidableEq

namespace Exc

def str : Exc → String
  | ledgerTransitionInvalid fault => fault.docId ++ ": " ++ fault.reason
  | identity (.identityInvalid fieldName reason) => fieldName ++ ": " ++ reason
  | identity .unicodeEncodeError => "'utf-8' codec can't encode: surrogates not allowed"
  | ragged _ subject reason _ => subject ++ ": " ++ reason
  | analyzer docId reason _ _ => docId ++ ": " ++ reason
  | validationError model field => "1 validation error for " ++ model ++ "\n" ++ field
  | other text => text

def ofLedgerFault : LedgerFault → Exc
  | .identity fault => identity fault
  | .transitionInvalid fault => ledgerTransitionInvalid fault

end Exc

end Vestibule
