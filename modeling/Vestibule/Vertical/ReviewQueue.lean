import Vestibule.Pipeline.Stage

set_option autoImplicit false

namespace Vestibule

structure ReviewItem where
  docId : String
  source : String
  blobPath : String
  reason : String
  parkedAt : DateTime
  suggestedVerticals : List String
  deriving DecidableEq

namespace ReviewQueue

-- `or` also replaces an empty message.
def reviewItem (registry : Library.Dict String ParkedMetadata) (row : LedgerRow) : ReviewItem :=
  let metadata := registry.get? row.docId
  { docId := row.docId
    source := (metadata.map (·.source)).getD ""
    blobPath := (metadata.map (·.blobPath)).getD ""
    reason := row.lastErrorMessage.getD ""
    parkedAt := row.updatedAt
    suggestedVerticals := (metadata.map (·.suggestedVerticals)).getD [] }

def listPending (s : System) (limit : Int := 100) : List ReviewItem :=
  (s.ledger.listByStatus .needsReview limit).map (reviewItem s.registry)

def checkNeedsReview (docId caller : String) (current : Option LedgerRow) : Except Exc Unit :=
  if current.map (·.status) = some .needsReview then .ok ()
  else .error (.ragged .vertical docId
    (caller ++ "() called for a doc_id not currently in needs_review") reviewItemNotFound)

def requireNeedsReview (docId caller : String) : Py Unit := do
  Py.ofExcept (checkNeedsReview docId caller (← Py.ledgerGet docId))

def assign (docId scenarioId : String) : Py Unit := do
  if (← Py.scenarioGet scenarioId).isNone then
    throw (.ragged .scenario scenarioId
      ("assign() referenced scenario_id=" ++ reprStr scenarioId ++ ", which does not exist") scenarioNotFound)
  requireNeedsReview docId "assign"
  Py.transitionTriaged
    { docId, toStatus := .pending, stage := .pending, assignedScenarioId := some scenarioId }
  Py.registryDiscard docId

def reject (docId reason : String) : Py Unit := do
  requireNeedsReview docId "reject"
  Py.transitionTriaged
    { docId, toStatus := .failed, stage := .failed, errorCode := some verticalRejected,
      errorMessage := some reason }
  Py.registryDiscard docId

end ReviewQueue

end Vestibule
