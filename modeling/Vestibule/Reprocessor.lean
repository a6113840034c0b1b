import Vestibule.Library.Tally
import Vestibule.Pipeline.Stage

set_option autoImplicit false

namespace Vestibule

open Library

structure FailedItem where
  docId : String
  source : Option String
  blobPath : Option String
  stage : String
  errorCode : String
  errorMessage : Option String
  severity : Severity
  attempts : Int
  failedAt : DateTime
  firstIngestedAt : DateTime
  assignedScenarioId : Option String
  deriving DecidableEq

structure FailureSummary where
  total : Int
  byErrorCode : Dict String Int
  byStage : Dict String Int
  oldestFailureAt : Option DateTime
  newestFailureAt : Option DateTime
  deriving DecidableEq

structure RequeueResult where
  docId : String
  previousErrorCode : String
  requeuedAt : DateTime
  deriving DecidableEq

structure BatchRequeueResult where
  errorCode : String
  requeued : List String
  skipped : List String
  deriving DecidableEq

structure ReprocessorConfig where
  maxBatchRequeue : Int := 500
  deriving DecidableEq

namespace Reprocessor

def unknownErrorCode : String := "UNKNOWN"

-- `or` also replaces an empty code.
def errorCodeOf (row : LedgerRow) : String :=
  match row.lastErrorCode with
  | some code => if code = "" then unknownErrorCode else code
  | none => unknownErrorCode

def unknownStage : String := "unknown"

def scanLimit : Int := 10000

def stagePrefixes : List (String × String) :=
  [("ANALYZER_", Status.analyzing.value), ("PARSER_", Status.analyzing.value), ("DOCINT_", Status.analyzing.value),
    ("CHUNKER_", Status.chunking.value), ("TOKENIZER_", Status.chunking.value),
    ("EMBEDDER_", Status.embedding.value), ("INDEXER_", Status.indexing.value)]

def inferStage (errorCode : String) : String :=
  match stagePrefixes.find? (fun entry => entry.1.toList.isPrefixOf errorCode.toList) with
  | some (_, stage) => stage
  | none => unknownStage

def toFailedItem (row : LedgerRow) : FailedItem :=
  { docId := row.docId
    source := none
    blobPath := none
    stage := inferStage (errorCodeOf row)
    errorCode := errorCodeOf row
    errorMessage := row.lastErrorMessage
    severity := classify (errorCodeOf row)
    attempts := row.attempts
    failedAt := row.updatedAt
    firstIngestedAt := row.ingestedAt
    assignedScenarioId := row.assignedScenarioId }

def keepIf {α β : Type} (wanted : Option β) (keeps : β → α → Bool) (items : List α) : List α :=
  match wanted with
  | some value => items.filter (keeps value)
  | none => items

def listFailed (ledger : InMemoryLedgerStore) (limit : Int := 100) (errorCode stage : Option String := none)
    (since : Option DateTime := none) : List FailedItem :=
  if limit ≤ 0 then []
  else
    let rows := ledger.listByStatus .failed scanLimit
    let items := rows.map toFailedItem
    let items := keepIf errorCode (fun code item => item.errorCode = code) items
    let items := keepIf stage (fun stage item => item.stage = stage) items
    let items := keepIf since (fun since item => since ≤ item.failedAt) items
    items.take limit.toNat

def earlier (oldest : Option DateTime) (time : DateTime) : Option DateTime :=
  match oldest with
  | none => some time
  | some held => if time < held then some time else some held

def later (newest : Option DateTime) (time : DateTime) : Option DateTime :=
  match newest with
  | none => some time
  | some held => if held < time then some time else some held

-- One round of the loop.
def account (summary : FailureSummary) (row : LedgerRow) : FailureSummary :=
  let errorCode := errorCodeOf row
  { summary with
    byErrorCode := summary.byErrorCode.bump errorCode
    byStage := summary.byStage.bump (inferStage errorCode)
    oldestFailureAt := earlier summary.oldestFailureAt row.updatedAt
    newestFailureAt := later summary.newestFailureAt row.updatedAt }

def summarize (ledger : InMemoryLedgerStore) : FailureSummary :=
  let rows := ledger.listByStatus .failed scanLimit
  rows.foldl account
    { total := rows.length, byErrorCode := .empty, byStage := .empty, oldestFailureAt := none, newestFailureAt := none }

def checkFailed (docId caller : String) : Option LedgerRow → Except Exc LedgerRow
  | none =>
      .error (.ragged .reprocessor docId (caller ++ "() called for an unknown doc_id") reprocessDocNotFound)
  | some current =>
      if current.status ≠ .failed then
        .error (.ragged .reprocessor docId
          (caller ++ "() called for a doc_id not currently failed (status=" ++ current.status.value ++ ")")
          reprocessNotFailed)
      else .ok current

def requireFailed (docId caller : String) : Py LedgerRow := do
  Py.ofExcept (checkFailed docId caller (← Py.ledgerGet docId))

def requeue (docId : String) : Py RequeueResult := do
  let current ← requireFailed docId "requeue"
  let row ← tryCatch (Py.ledgerTransition { docId, toStatus := .pending, stage := .pending }) fun
    | .ledgerTransitionInvalid fault =>
        if isBenignConcurrentLoss fault.observedRow .pending .pending then
          -- A benign loss always observed a row; the source asserts it.
          match fault.observedRow with
          | some observed => pure observed
          | none => throw (.other "")
        else throw (.ledgerTransitionInvalid fault)
    | exc => throw exc
  return { docId, previousErrorCode := errorCodeOf current, requeuedAt := row.updatedAt }

def archive (docId reason : String) : Py Unit := do
  let current ← requireFailed docId "archive"
  Py.transitionTriaged
    { docId, toStatus := .archived, stage := .archived, errorCode := current.lastErrorCode,
      errorMessage := some reason }

-- A document that is no longer failed is passed over; every other exception ends the batch.
def requeueNext (batch : BatchRequeueResult) (docId : String) : Py BatchRequeueResult :=
  tryCatch
    (do
      let _ ← requeue docId
      return { batch with requeued := batch.requeued ++ [docId] })
    fun
    | .ragged .reprocessor subject reason code =>
        if code ≠ reprocessNotFailed then throw (.ragged .reprocessor subject reason code)
        else pure { batch with skipped := batch.skipped ++ [docId] }
    | exc => throw exc

/-- The candidates are listed in one read of the ledger, `listed`; the rest runs among other callers. -/
def requeueByErrorCode (config : ReprocessorConfig) (listed : InMemoryLedgerStore) (errorCode : String)
    (limit : Int := 100) : Py BatchRequeueResult :=
  let effectiveLimit := min limit config.maxBatchRequeue
  let candidates := listFailed listed effectiveLimit (some errorCode)
  candidates.foldlM (fun batch item => requeueNext batch item.docId) ⟨errorCode, [], []⟩

end Reprocessor

end Vestibule
