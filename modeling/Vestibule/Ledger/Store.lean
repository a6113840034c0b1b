import Vestibule.Library.Dict
import Vestibule.Identity

set_option autoImplicit false

namespace Vestibule

open Library

inductive Status where
  | pending
  | analyzing
  | chunking
  | embedding
  | indexing
  | indexed
  | failed
  | needsReview
  | archived
  deriving DecidableEq

namespace Status

def value : Status → String
  | pending => "pending"
  | analyzing => "analyzing"
  | chunking => "chunking"
  | embedding => "embedding"
  | indexing => "indexing"
  | indexed => "indexed"
  | failed => "failed"
  | needsReview => "needs_review"
  | archived => "archived"

end Status

def terminalStatuses : List Status := [.indexed, .failed, .archived]

def legalTransitions : Status → List Status
  | .pending => [.analyzing, .failed, .needsReview]
  | .analyzing => [.chunking, .failed]
  | .chunking => [.embedding, .failed]
  | .embedding => [.indexing, .failed]
  | .indexing => [.indexed, .failed]
  | .indexed => []
  | .failed => [.pending, .archived]
  | .needsReview => [.pending, .failed]
  | .archived => []

def forwardOrder : List Status := [.pending, .analyzing, .chunking, .embedding, .indexing, .indexed]

abbrev DateTime := Int

structure LedgerRow where
  docId : String
  status : Status
  stage : Status
  attempts : Int
  attemptsNonneg : 0 ≤ attempts := by decide
  lastErrorCode : Option String := none
  lastErrorMessage : Option String := none
  configVersion : String
  ingestedAt : DateTime
  updatedAt : DateTime
  assignedScenarioId : Option String := none
  deriving DecidableEq

structure EnvelopeSummary where
  configVersion : String
  deriving DecidableEq

structure LedgerTransitionInvalid where
  docId : String
  reason : String
  observedRow : Option LedgerRow
  attemptedToStatus : Status
  attemptedStage : Status
  deriving DecidableEq

inductive LedgerFault where
  | identity (fault : IdentityFault)
  | transitionInvalid (fault : LedgerTransitionInvalid)
  deriving DecidableEq

def isBenignConcurrentLoss (observedRow : Option LedgerRow) (attemptedToStatus attemptedStage : Status) :
    Bool :=
  if attemptedStage ≠ attemptedToStatus then false
  else
    match observedRow with
    | none => false
    | some observed =>
        if observed.status ≠ observed.stage then false
        else if attemptedToStatus = .failed then observed.status = .indexed
        else if observed.status = .failed then false
        else if attemptedToStatus = .needsReview then observed.status ≠ .pending
        else if observed.status = .needsReview then false
        else if attemptedToStatus = .archived then observed.status = .archived
        else if observed.status = .archived then false
        -- Both statuses are on the forward path here, so neither lookup can miss.
        else forwardOrder.idxOf observed.status ≥ forwardOrder.idxOf attemptedToStatus

theorem mem_forwardOrder {s : Status} (hfailed : s ≠ .failed) (hreview : s ≠ .needsReview)
    (harchived : s ≠ .archived) : s ∈ forwardOrder := by
  cases s <;> first | decide | contradiction

-- The row that passed is returned: the source asserts there that it is not `None`.
def validateTransition (docId : String) (current : Option LedgerRow) (toStatus stage : Status)
    (errorCode : Option String) : Except LedgerTransitionInvalid LedgerRow :=
  let reject (reason : String) : Except LedgerTransitionInvalid LedgerRow :=
    .error ⟨docId, reason, current, toStatus, stage⟩
  match current with
  | none => reject "unknown doc_id"
  | some row =>
      if stage ≠ toStatus then reject "stage must equal to_status"
      else if row.status ∈ terminalStatuses ∧ toStatus ∉ legalTransitions row.status then
        reject "no transitions out of terminal status"
      else if ¬ (toStatus ∈ legalTransitions row.status ∨ toStatus = row.status) then
        reject ("illegal transition from " ++ row.status.value ++ " to " ++ toStatus.value)
      else if toStatus = .failed ∧ errorCode = none then
        reject "error_code required for failed transition"
      else .ok row

def Edge (source target : Status) : Prop :=
  target ∈ legalTransitions source ∨ target = source ∧ source ∉ terminalStatuses

instance (source target : Status) : Decidable (Edge source target) :=
  inferInstanceAs (Decidable (_ ∨ _))

theorem validateTransition_ok (docId : String) (current : Option LedgerRow) (toStatus stage : Status)
    (errorCode : Option String) (row : LedgerRow) :
    validateTransition docId current toStatus stage errorCode = .ok row ↔
      current = some row ∧ stage = toStatus ∧ Edge row.status toStatus ∧
        (toStatus = .failed → errorCode ≠ none) := by
  cases current with
  | none => simp [validateTransition]
  | some held =>
    simp only [validateTransition, Edge]
    split_ifs with mirrored closed legal unexplained
    · simp [mirrored]
    · simp only [Option.some.injEq, false_iff, not_and]
      rintro rfl _ (listed | ⟨_, open_⟩)
      · exact (closed.2 listed).elim
      · exact (open_ closed.1).elim
    · simp [unexplained]
    · simp only [Except.ok.injEq, Option.some.injEq]
      constructor
      · rintro rfl
        refine ⟨rfl, by simpa using mirrored, ?_, fun toFailed missing => unexplained ⟨toFailed, missing⟩⟩
        rcases legal with listed | same
        · exact .inl listed
        · by_cases listed : toStatus ∈ legalTransitions held.status
          · exact .inl listed
          · exact .inr ⟨same, fun terminal => closed ⟨terminal, listed⟩⟩
      · exact fun passed => passed.1
    · simp only [Option.some.injEq, false_iff, not_and]
      rintro rfl _ edge
      exact (legal (edge.imp_right And.left)).elim

theorem validateTransition_error {docId : String} {current : Option LedgerRow} {toStatus stage : Status}
    {errorCode : Option String} {fault : LedgerTransitionInvalid}
    (rejected : validateTransition docId current toStatus stage errorCode = .error fault) :
    fault.docId = docId ∧ fault.observedRow = current ∧ fault.attemptedToStatus = toStatus ∧
      fault.attemptedStage = stage := by
  cases current with
  | none =>
    obtain rfl : _ = fault := by simpa [validateTransition] using rejected
    exact ⟨rfl, rfl, rfl, rfl⟩
  | some held =>
    simp only [validateTransition] at rejected
    split_ifs at rejected <;> (cases rejected; exact ⟨rfl, rfl, rfl, rfl⟩)

def nextAttempts (current : LedgerRow) (toStatus : Status) : Int :=
  if toStatus = .failed then current.attempts
  else if current.status = .failed ∧ toStatus = .pending then 0
  else if toStatus = current.status then current.attempts + 1
  else 1

def nextErrorFields (current : LedgerRow) (toStatus : Status) (errorCode errorMessage : Option String) :
    Option String × Option String :=
  if toStatus = current.status ∧ errorCode = none then
    (current.lastErrorCode, current.lastErrorMessage)
  else (errorCode, errorMessage)

def nextAssignedScenarioId (current : LedgerRow) (assignedScenarioId : Option String) : Option String :=
  match assignedScenarioId with
  | some assigned => some assigned
  | none => current.assignedScenarioId

theorem nextAttempts_nonneg (current : LedgerRow) (toStatus : Status) :
    0 ≤ nextAttempts current toStatus := by
  have := current.attemptsNonneg
  simp only [nextAttempts]
  split_ifs <;> omega

structure TransitionRequest where
  docId : String
  toStatus : Status
  stage : Status
  errorCode : Option String := none
  errorMessage : Option String := none
  assignedScenarioId : Option String := none
  deriving DecidableEq

def nextRow (now : DateTime) (current : LedgerRow) (request : TransitionRequest) : LedgerRow where
  docId := request.docId
  status := request.toStatus
  stage := request.stage
  attempts := nextAttempts current request.toStatus
  attemptsNonneg := nextAttempts_nonneg current request.toStatus
  lastErrorCode := (nextErrorFields current request.toStatus request.errorCode request.errorMessage).1
  lastErrorMessage := (nextErrorFields current request.toStatus request.errorCode request.errorMessage).2
  configVersion := current.configVersion
  ingestedAt := current.ingestedAt
  updatedAt := now
  assignedScenarioId := nextAssignedScenarioId current request.assignedScenarioId

def freshRow (now : DateTime) (docId : String) (summary : EnvelopeSummary) : LedgerRow where
  docId := docId
  status := .pending
  stage := .pending
  attempts := 0
  configVersion := summary.configVersion
  ingestedAt := now
  updatedAt := now

structure RowWellFormed (docId : String) (row : LedgerRow) : Prop where
  keyFormat : hexRe (PyStr.ofString docId)
  ownKey : row.docId = docId
  mirrored : row.stage = row.status
  explained : row.status = .failed → row.lastErrorCode ≠ none

structure InMemoryLedgerStore where
  rows : Dict String LedgerRow
  wellFormed : ∀ docId row, rows.get? docId = some row → RowWellFormed docId row

namespace InMemoryLedgerStore

def empty : InMemoryLedgerStore := ⟨.empty, by simp⟩

def get (s : InMemoryLedgerStore) (docId : String) : Option LedgerRow := s.rows.get? docId

def put (s : InMemoryLedgerStore) (docId : String) (row : LedgerRow) (correct : RowWellFormed docId row) :
    InMemoryLedgerStore where
  rows := s.rows.insert docId row
  wellFormed := by
    intro other held present
    rw [Dict.get?_insert] at present
    split at present
    · next same =>
      cases present
      exact same ▸ correct
    · exact s.wellFormed other held present

@[simp]
theorem get_put (s : InMemoryLedgerStore) (docId other : String) (row : LedgerRow)
    (correct : RowWellFormed docId row) :
    (s.put docId row correct).get other = if other = docId then some row else s.get other :=
  Dict.get?_insert ..

theorem freshRow_wellFormed {docId : String} (format : hexRe (PyStr.ofString docId)) (now : DateTime)
    (summary : EnvelopeSummary) : RowWellFormed docId (freshRow now docId summary) :=
  ⟨format, rfl, rfl, by simp [freshRow]⟩

theorem nextRow_wellFormed {request : TransitionRequest} (format : hexRe (PyStr.ofString request.docId))
    (now : DateTime) {current : Option LedgerRow} {row : LedgerRow}
    (valid : validateTransition request.docId current request.toStatus request.stage request.errorCode =
      .ok row) : RowWellFormed request.docId (nextRow now row request) := by
  obtain ⟨-, mirrored, edge, explained⟩ := (validateTransition_ok ..).mp valid
  refine ⟨format, rfl, mirrored, fun toFailed => ?_⟩
  have target : request.toStatus = .failed := toFailed
  -- A failed row is never retried in place, so the code written is the one supplied.
  have moved : request.toStatus ≠ row.status := by
    intro same
    rw [← same, target] at edge
    revert edge
    decide
  simpa [nextRow, nextErrorFields, moved] using explained target

def create (s : InMemoryLedgerStore) (now : DateTime) (docId : String) (summary : EnvelopeSummary) :
    Except LedgerFault LedgerRow × InMemoryLedgerStore :=
  match checked : validateIdFormat (.ofString docId) "doc_id" with
  | .error fault => (.error (.identity fault), s)
  | .ok _ =>
      match s.get docId with
      | some existing => (.ok existing, s)
      | none =>
          let row := freshRow now docId summary
          (.ok row, s.put docId row (freshRow_wellFormed (hexRe_of_validateIdFormat checked) now summary))

def transition (s : InMemoryLedgerStore) (now : DateTime) (request : TransitionRequest) :
    Except LedgerFault LedgerRow × InMemoryLedgerStore :=
  match checked : validateIdFormat (.ofString request.docId) "doc_id" with
  | .error fault => (.error (.identity fault), s)
  | .ok _ =>
      match valid : validateTransition request.docId (s.get request.docId) request.toStatus request.stage
          request.errorCode with
      | .error fault => (.error (.transitionInvalid fault), s)
      | .ok current =>
          let row := nextRow now current request
          (.ok row,
            s.put request.docId row (nextRow_wellFormed (hexRe_of_validateIdFormat checked) now valid))

def listByStatus (s : InMemoryLedgerStore) (status : Status) (limit : Int := 100) : List LedgerRow :=
  if limit ≤ 0 then []
  else
    ((s.rows.values.filter (·.status = status)).mergeSort
      (fun first second => second.updatedAt ≤ first.updatedAt)).take limit.toNat

variable (s : InMemoryLedgerStore) (now : DateTime)

theorem create_cases (docId : String) (summary : EnvelopeSummary) :
    (∃ fault, s.create now docId summary = (.error (.identity fault), s)) ∨
    (∃ row, s.get docId = some row ∧ s.create now docId summary = (.ok row, s)) ∨
    (s.get docId = none ∧ ∃ correct, s.create now docId summary =
      (.ok (freshRow now docId summary), s.put docId (freshRow now docId summary) correct)) := by
  simp only [create]
  split
  next => exact .inl ⟨_, rfl⟩
  next checked =>
    split
    next existing present => exact .inr (.inl ⟨existing, present, rfl⟩)
    next absent =>
      exact .inr (.inr ⟨absent, freshRow_wellFormed (hexRe_of_validateIdFormat checked) now summary, rfl⟩)

theorem transition_cases (request : TransitionRequest) :
    (∃ fault, s.transition now request = (.error fault, s)) ∨
    (∃ current, s.get request.docId = some current ∧ request.stage = request.toStatus ∧
      Edge current.status request.toStatus ∧
      (request.toStatus = .failed → request.errorCode ≠ none) ∧
      ∃ correct, s.transition now request =
        (.ok (nextRow now current request), s.put request.docId (nextRow now current request) correct)) := by
  simp only [transition]
  split
  next => exact .inl ⟨_, rfl⟩
  next checked =>
    split
    next => exact .inl ⟨_, rfl⟩
    next current valid =>
      obtain ⟨present, mirrored, edge, explained⟩ := (validateTransition_ok ..).mp valid
      exact .inr ⟨current, present, mirrored, edge, explained,
        nextRow_wellFormed (hexRe_of_validateIdFormat checked) now valid, rfl⟩

theorem transition_rejected {request : TransitionRequest} {fault : LedgerTransitionInvalid}
    (rejected : (s.transition now request).1 = .error (.transitionInvalid fault)) :
    (s.transition now request).2 = s ∧ fault.observedRow = s.get request.docId ∧
      validateTransition request.docId (s.get request.docId) request.toStatus request.stage request.errorCode =
        .error fault := by
  revert rejected
  simp only [transition]
  split
  next => simp
  next =>
    split
    next refused valid =>
      intro same
      obtain rfl : refused = fault := by simpa using same
      exact ⟨rfl, (validateTransition_error valid).2.1, valid⟩
    next => simp

theorem transition_of_edge (request : TransitionRequest) {current : LedgerRow}
    (present : s.get request.docId = some current) (mirrored : request.stage = request.toStatus)
    (edge : Edge current.status request.toStatus)
    (explained : request.toStatus = .failed → request.errorCode ≠ none) :
    ∃ correct, s.transition now request =
      (.ok (nextRow now current request), s.put request.docId (nextRow now current request) correct) := by
  have valid := (validateTransition_ok request.docId (s.get request.docId) request.toStatus request.stage
    request.errorCode current).mpr ⟨present, mirrored, edge, explained⟩
  have format := (s.wellFormed _ _ present).keyFormat
  have checked : validateIdFormat (.ofString request.docId) "doc_id" = .ok (PyStr.ofString request.docId) := by
    rw [validateIdFormat_ofString, if_pos format]
  refine ⟨nextRow_wellFormed format now valid, ?_⟩
  simp only [transition]
  split
  next fault rejected => simp [checked] at rejected
  next =>
    split
    next fault rejected => simp [valid] at rejected
    next row accepted =>
      obtain rfl : current = row := by simpa [valid] using accepted
      rfl

end InMemoryLedgerStore

end Vestibule
