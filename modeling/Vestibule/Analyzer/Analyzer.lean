import Mathlib.Algebra.Field.Rat
import Vestibule.Pipeline.Stage

set_option autoImplicit false

namespace Vestibule

open Library

-- The document's bytes, PyMuPDF and the parsers are given: what each of their calls answers, raised
-- exceptions included.

structure AnalyzerConfig where
  scannedPdfProbePages : Int := 3
  scannedPdfMinCharsPerPage : Int := 50
  -- As Python prints the float: only a message shows it.
  parserTimeoutSeconds : String := "240.0"
  deriving DecidableEq

abbrev Bytes := List UInt8

structure BytesReader (R : Type) where
  read : Int → StateT R (Except Exc) Bytes
  seek : Int → StateT R (Except Exc) Int

inductive PdfFault where
  | runtimeError (text : String)
  | valueError (text : String)
  deriving DecidableEq

structure PdfDocument where
  needsPass : Bool
  pageCount : Nat
  getText : Nat → Except PdfFault String

/-- What `pymupdf.open` makes of a stream; `none` where the import fails. -/
abbrev Pymupdf := Option (Bytes → Except PdfFault PdfDocument)

-- `timedOut` is also a `TimeoutError` that the parser raises itself.
inductive ParserOutcome where
  | returned (elements : List Element)
  | timedOut
  | raised (exc : Exc)

abbrev ParserAdapter (R : Type) := ArrivalEnvelope → R → ParserOutcome

structure Analyzer (R : Type) where
  registry : Dict DetectedType (ParserAdapter R)
  config : AnalyzerConfig := {}
  pymupdf : Pymupdf

def magicHeaderBytes : Int := 16

def pdfMagic : Bytes := [0x25, 0x50, 0x44, 0x46, 0x2d]

def docxMagic : Bytes := [0x50, 0x4b, 0x03, 0x04]

def imageMagics : List Bytes :=
  [[0x89, 0x50, 0x4e, 0x47, 0x0d, 0x0a, 0x1a, 0x0a],
   [0xff, 0xd8, 0xff],
   [0x47, 0x49, 0x46, 0x38, 0x37, 0x61],
   [0x47, 0x49, 0x46, 0x38, 0x39, 0x61]]

inductive ProbeFault where
  | pdf (fault : PdfFault)
  | zeroDivision
  deriving DecidableEq

/-- The average length of the probed pages; `none` for a document that is encrypted or has no page. -/
def probe (opened : Except PdfFault PdfDocument) (probePages : Int) : Except ProbeFault (Option ℚ) := do
  let doc ← opened.mapError .pdf
  if doc.needsPass ∨ doc.pageCount = 0 then return none
  let pagesToProbe := min probePages doc.pageCount
  let texts ← (List.range pagesToProbe.toNat).mapM fun i => (doc.getText i).mapError ProbeFault.pdf
  let totalChars := (texts.map String.length).sum
  if pagesToProbe = 0 then throw .zeroDivision
  -- The float quotient cannot round across an integer below 2^53 characters.
  return some ((totalChars : ℚ) / pagesToProbe)

def pymupdfMissing (docId : String) : Exc :=
  .analyzer docId
    ("pymupdf could not be imported to sub-type this PDF; it is a core " ++
      "dependency of vestibule — reinstall with `pip install -e .` (or " ++
      "`pip install vestibule`) to restore it")
    analyzerDependencyMissing none

def detectPdfSubtype (pymupdf : Pymupdf) (docId : String) (data : Bytes) (probePages minCharsPerPage : Int) :
    Except Exc DetectedType :=
  match pymupdf with
  | none => .error (pymupdfMissing docId)
  | some open_ =>
      match probe (open_ data) probePages with
      | .error (.pdf _) => .ok .unsupported
      | .error .zeroDivision => .error (.other "division by zero")
      | .ok none => .ok .unsupported
      | .ok (some avgCharsPerPage) => .ok (if avgCharsPerPage < minCharsPerPage then .scannedPdf else .digitalPdf)

variable {R : Type}

def detectType (pymupdf : Pymupdf) (envelope : ArrivalEnvelope) (reader : BytesReader R)
    (scannedPdfProbePages scannedPdfMinCharsPerPage : Int) : StateT R (Except Exc) DetectedType := do
  let _ ← reader.seek 0
  let header ← reader.read magicHeaderBytes
  if pdfMagic <+: header then
    let _ ← reader.seek 0
    let data ← reader.read (-1)
    StateT.lift
      (detectPdfSubtype pymupdf envelope.docId data scannedPdfProbePages scannedPdfMinCharsPerPage)
  else if docxMagic <+: header then return .docx
  else if imageMagics.any (fun magic => magic <+: header) then return .image
  else return .unsupported

namespace Analyzer

def terminalize {α : Type} (docId errorCode reason : String) (detectedType : Option DetectedType) : Py α := do
  let _ ← Py.ledgerTransition (Py.errorRequest .failed docId errorCode reason)
  throw (.analyzer docId reason errorCode detectedType)

def selfTransitionAndRaise {α : Type} (docId errorCode reason : String) (detectedType : DetectedType) : Py α := do
  let _ ← Py.ledgerTransition (Py.errorRequest .analyzing docId errorCode reason)
  throw (.analyzer docId reason errorCode (some detectedType))

variable (self : Analyzer R) (envelope : ArrivalEnvelope) (reader : BytesReader R) (start : R)

def parseWithRecovery (docId : String) (outcome : ParserOutcome) (detectedType : DetectedType) :
    Py (List Element) :=
  match outcome with
  | .returned elements => return elements
  | .timedOut =>
      selfTransitionAndRaise docId parserTimeout
        ("parser did not return within " ++ self.config.parserTimeoutSeconds ++ "s") detectedType
  | .raised (.analyzer _ reason errorCode _) => selfTransitionAndRaise docId errorCode reason detectedType
  | .raised exc => selfTransitionAndRaise docId parserInternal exc.str detectedType

def detection : Except Exc (DetectedType × R) :=
  (detectType self.pymupdf envelope reader self.config.scannedPdfProbePages
    self.config.scannedPdfMinCharsPerPage).run start

def detectAndParse (docId : String) : Py (List Element) := do
  let (detectedType, remaining) ← tryCatch (Py.ofExcept (self.detection envelope reader start)) fun exc =>
    match exc with
    | .analyzer _ reason errorCode _ => terminalize docId errorCode reason none
    | _ => throw exc
  if detectedType = .unsupported then
    terminalize docId analyzerUnsupportedType "document could not be classified as a supported type"
      (some detectedType)
  match self.registry.get? detectedType with
  | none =>
      terminalize docId analyzerNoParser ("no parser registered for detected type " ++ detectedType.value)
        (some detectedType)
  | some parser => self.parseWithRecovery docId (parser envelope remaining) detectedType

-- Whether the row is this call's: a benign loss means that another worker took it further already.
def enterStage (docId : String) : Py Bool :=
  tryCatch (do
    let _ ← Py.ledgerTransition { docId, toStatus := .analyzing, stage := .analyzing }
    return true) fun
    | .ledgerTransitionInvalid fault =>
        if isBenignConcurrentLoss fault.observedRow .analyzing .analyzing then return false
        else throw (.ledgerTransitionInvalid fault)
    | exc => throw exc

def analyze : Py (List Element) := do
  if ← enterStage envelope.docId then
    let elements ← self.detectAndParse envelope reader start envelope.docId
    Py.transitionTriaged { docId := envelope.docId, toStatus := .chunking, stage := .chunking }
    return elements
  else self.detectAndParse envelope reader start envelope.docId

end Analyzer

end Vestibule
