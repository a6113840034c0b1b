import Vestibule.Library.Interleaving
import Vestibule.Vertical.ReviewQueue
import Vestibule.Vertical.Loader
import Vestibule.Reprocessor

set_option autoImplicit false

namespace Vestibule

open Library

-- Reviewers, operators, loaders and pipeline stages run concurrently; the ledger orders their reads and
-- writes. A stage may be any program at all.

inductive Call : Type 1 where
  | assign (docId scenarioId : String)
  | reject (docId reason : String)
  | load (config : VerticalLoaderConfig) (envelope : ArrivalEnvelope)
  | requeue (docId : String)
  | archive (docId reason : String)
  | stage (α : Type) (program : Py α)

namespace Call

def Result : Call → Type
  | assign _ _ => Unit
  | reject _ _ => Unit
  | load _ _ => Scenario × VerticalResolution
  | requeue _ => RequeueResult
  | archive _ _ => Unit
  | stage α _ => α

def program : (call : Call) → Prog Effects (Except Exc call.Result)
  | assign docId scenarioId => (ReviewQueue.assign docId scenarioId).run
  | reject docId reason => (ReviewQueue.reject docId reason).run
  | load config envelope => (VerticalLoader.load config envelope).run
  | requeue docId => (Reprocessor.requeue docId).run
  | archive docId reason => (Reprocessor.archive docId reason).run
  | stage _ program => program.run

def Reviews (docId : String) : Call → Prop
  | assign target _ => target = docId
  | reject target _ => target = docId
  | _ => False

def Requeues (docId : String) : Call → Prop
  | requeue target => target = docId
  | _ => False

end Call

def OnlyWrite (request : TransitionRequest) (o : Op) : Prop :=
  ∀ other, o = .ledgerTransition other → other = request

section Programs

variable {V X : Type} (adapter : IndexerAdapter V X) (docId : String)

theorem transitionTriaged_firstOnly (request : TransitionRequest) :
    Prog.FirstOnly IsLedgerWrite (Py.transitionTriaged request).run := by
  refine Prog.firstOnly_run_tryCatch
    (Prog.firstOnly_run_bind (Prog.firstOnly_perform _) fun _ => Prog.uses_pure _) fun exc => ?_
  cases exc with
  | ledgerTransitionInvalid fault =>
    simp only
    split <;> trivial
  | _ => trivial

theorem registryDiscard_noWrite : (Py.registryDiscard docId).run.Uses NoWrite := by
  refine Prog.uses_run_lift (Prog.uses_perform ?_)
  rintro ⟨request, same⟩
  cases same

theorem checkNeedsReview_ok {caller : String} {current : Option LedgerRow} {value : Unit}
    (passed : ReviewQueue.checkNeedsReview docId caller current = .ok value) :
    current.map LedgerRow.status = some .needsReview := by
  simp only [ReviewQueue.checkNeedsReview] at passed
  split at passed
  · assumption
  · cases passed

theorem checkFailed_ok {caller : String} {current : Option LedgerRow} {row : LedgerRow}
    (passed : Reprocessor.checkFailed docId caller current = .ok row) :
    current = some row ∧ row.status = .failed := by
  cases current with
  | none => cases passed
  | some held =>
    simp only [Reprocessor.checkFailed] at passed
    split at passed
    · cases passed
    · next right =>
      cases passed
      exact ⟨rfl, by simpa using right⟩

theorem review_guarded (caller : String) (request : TransitionRequest) :
    Prog.Guarded (pipeline adapter) (fun _ => True) (HasStatus docId .needsReview) IsLedgerWrite (fun _ => False)
      (do
        ReviewQueue.requireNeedsReview docId caller
        Py.transitionTriaged request
        Py.registryDiscard docId : Py Unit).run :=
  Prog.guarded_check (Op.ledgerGet docId) (ReviewQueue.checkNeedsReview docId caller)
    (fun _ _ _ passed => checkNeedsReview_ok docId passed) fun _ =>
      Prog.firstOnly_run_bind (transitionTriaged_firstOnly request) fun _ => registryDiscard_noWrite docId

theorem assign_guarded (scenarioId : String) :
    (ReviewQueue.assign docId scenarioId).run.Guarded (pipeline adapter) (fun _ => True) (HasStatus docId .needsReview)
      IsLedgerWrite (fun _ => False) := by
  have lookup : (Py.scenarioGet scenarioId).run.Uses NoWrite := by
    refine Prog.uses_perform ?_
    rintro ⟨request, same⟩
    cases same
  refine Prog.guarded_run_bind (Prog.guarded_mono (fun found due => ?_)
    (Prog.guarded_of_uses lookup fun _ _ _ _ _ => trivial)) fun found => ?_
  · -- Neither the end of a lookup that failed nor the check that comes next is a write.
    cases found with
    | error exc => exact due
    | ok scenario =>
      cases scenario with
      | none => exact due
      | some held =>
        obtain ⟨request, same⟩ := due
        cases same
  · cases found with
    | none => trivial
    | some scenario => exact review_guarded adapter docId "assign" _

theorem requeue_guarded :
    (Reprocessor.requeue docId).run.Guarded (pipeline adapter) (fun _ => True) (HasStatus docId .failed) IsLedgerWrite
      (fun _ => False) := by
  refine Prog.guarded_check (S := Effects) (Op.ledgerGet docId) (Reprocessor.checkFailed docId "requeue")
    (fun _ _ _ passed => ?_) fun current => ?_
  · obtain ⟨present, failed⟩ := checkFailed_ok docId passed
    exact Option.map_eq_some_iff.mpr ⟨_, present, failed⟩
  · refine Prog.firstOnly_run_bind (Prog.firstOnly_run_tryCatch (Prog.firstOnly_perform _) fun exc => ?_)
      fun row => Prog.uses_pure _
    cases exc with
    | ledgerTransitionInvalid fault =>
      simp only
      split
      · split <;> trivial
      · trivial
    | _ => trivial

theorem onlyWrite_self (request : TransitionRequest) : OnlyWrite request (.ledgerTransition request) := by
  intro other same
  cases same
  rfl

theorem onlyWrite_of_noWrite {request : TransitionRequest} {o : Op} (idle : NoWrite o) :
    OnlyWrite request o :=
  fun other same => (idle ⟨other, same⟩).elim

theorem requireNeedsReview_noWrite (caller : String) :
    (ReviewQueue.requireNeedsReview docId caller).run.Uses NoWrite := by
  refine Prog.uses_run_bind (Prog.uses_run_lift (Prog.uses_perform ?_)) fun _ => trivial
  rintro ⟨request, same⟩
  cases same

theorem review_uses (caller : String) (request : TransitionRequest) :
    (do
      ReviewQueue.requireNeedsReview docId caller
      Py.transitionTriaged request
      Py.registryDiscard docId : Py Unit).run.Uses (OnlyWrite request) := by
  have idle {α : Type} {p : Prog Effects α} (uses : p.Uses NoWrite) : p.Uses (OnlyWrite request) :=
    Prog.uses_mono (fun _ => onlyWrite_of_noWrite) uses
  exact Prog.uses_run_bind (idle (requireNeedsReview_noWrite docId caller)) fun _ =>
    Prog.uses_run_bind (Py.transitionTriaged_uses (onlyWrite_self request)) fun _ =>
      idle (registryDiscard_noWrite docId)

def assignRequest (docId scenarioId : String) : TransitionRequest :=
  { docId, toStatus := .pending, stage := .pending, assignedScenarioId := some scenarioId }

def rejectRequest (docId reason : String) : TransitionRequest :=
  { docId, toStatus := .failed, stage := .failed, errorCode := some verticalRejected,
    errorMessage := some reason }

def requeueRequest (docId : String) : TransitionRequest := { docId, toStatus := .pending, stage := .pending }

theorem assign_uses (scenarioId : String) :
    (ReviewQueue.assign docId scenarioId).run.Uses (OnlyWrite (assignRequest docId scenarioId)) := by
  refine Prog.uses_run_bind (Prog.uses_perform ?_) fun found => ?_
  · intro other same
    cases same
  · cases found with
    | none => trivial
    | some scenario => exact review_uses docId "assign" (assignRequest docId scenarioId)

theorem requeue_uses : (Reprocessor.requeue docId).run.Uses (OnlyWrite (requeueRequest docId)) := by
  refine Prog.uses_run_bind (Prog.uses_run_bind (Prog.uses_run_lift (Prog.uses_perform ?_)) fun _ => trivial)
    fun current => Prog.uses_run_bind (Prog.uses_run_tryCatch (Prog.uses_perform ?_) fun exc => ?_)
      fun row => Prog.uses_pure _
  · intro other same
    cases same
  · intro other same
    cases same
    rfl
  · cases exc with
    | ledgerTransitionInvalid fault =>
      simp only
      split
      · split <;> trivial
      · trivial
    | _ => trivial

/-- What the concurrent runs need of a call that checks the row and then writes it. -/
structure ChecksThenWrites (status : Status) (call : Call) (request : TransitionRequest) : Prop where
  guarded : call.program.Guarded (pipeline adapter) (fun _ => True) (HasStatus docId status) IsLedgerWrite
    (fun _ => False)
  idle : ¬ call.program.AboutTo IsLedgerWrite
  uses : call.program.Uses (OnlyWrite request)

theorem assign_checks (scenarioId : String) :
    ChecksThenWrites adapter docId .needsReview (.assign docId scenarioId)
      (assignRequest docId scenarioId) := by
  refine ⟨assign_guarded adapter docId scenarioId, ?_, assign_uses docId scenarioId⟩
  rintro ⟨o, first, request, rfl⟩
  cases first

theorem reject_checks (reason : String) :
    ChecksThenWrites adapter docId .needsReview (.reject docId reason) (rejectRequest docId reason) := by
  refine ⟨review_guarded adapter docId "reject" _, ?_, review_uses docId "reject" _⟩
  rintro ⟨o, first, request, rfl⟩
  cases first

theorem requeue_checks :
    ChecksThenWrites adapter docId .failed (.requeue docId) (requeueRequest docId) := by
  refine ⟨requeue_guarded adapter docId, ?_, requeue_uses docId⟩
  rintro ⟨o, first, request, rfl⟩
  cases first

theorem Call.Reviews.checks {call : Call} (reviews : call.Reviews docId) :
    ∃ request, request.docId = docId ∧ ChecksThenWrites adapter docId .needsReview call request := by
  cases call with
  | assign target scenarioId =>
    cases reviews
    exact ⟨_, rfl, assign_checks adapter _ scenarioId⟩
  | reject target reason =>
    cases reviews
    exact ⟨_, rfl, reject_checks adapter _ reason⟩
  | load _ _ => cases reviews
  | requeue _ => cases reviews
  | archive _ _ => cases reviews
  | stage _ _ => cases reviews

theorem Call.Requeues.checks {call : Call} (requeues : call.Requeues docId) :
    ChecksThenWrites adapter docId .failed call (requeueRequest docId) := by
  cases call with
  | requeue target =>
    cases requeues
    exact requeue_checks adapter _
  | assign _ _ => cases requeues
  | reject _ _ => cases requeues
  | load _ _ => cases requeues
  | archive _ _ => cases requeues
  | stage _ _ => cases requeues

end Programs

section Pools

variable {V X ι : Type} [DecidableEq ι] (adapter : IndexerAdapter V X)

abbrev Workers (calls : ι → Call) (X : Type) : Type :=
  Pool Effects (fun i => Except Exc (calls i).Result) (System × X)

def start (calls : ι → Call) (s : System × X) : Workers calls X := ⟨fun i => (calls i).program, s⟩

-- Between a check and the write that follows it, nobody else ends what was checked.
def KeptFor (docId : String) (status : Status) (guarded : Call → Prop) (calls : ι → Call)
    (schedule : List (ι × (World × V))) (s : System × X) : Prop :=
  Pool.Conforms (pipeline adapter)
    (Pool.Undisturbed (pipeline adapter) (HasStatus docId status) IsLedgerWrite fun i => guarded (calls i))
    schedule (start calls s)

theorem checked_when_writing {docId : String} {status : Status} {guarded : Call → Prop} {calls : ι → Call}
    (checks : ∀ call, guarded call → ∃ request, request.docId = docId ∧
      ChecksThenWrites adapter docId status call request)
    {schedule : List (ι × (World × V))} {s : System × X}
    (kept : KeptFor adapter docId status guarded calls schedule s) {i : ι} (member : guarded (calls i))
    {request : TransitionRequest}
    (due : ((Pool.run (pipeline adapter) schedule (start calls s)).threads i).nextOp =
      some (.ledgerTransition request)) :
    HasStatus docId status (Pool.run (pipeline adapter) schedule (start calls s)).state := by
  refine Pool.checked_when_acting (fun j guard => ?_) (fun j guard => ?_) kept i member ⟨_, due, request, rfl⟩
  · obtain ⟨_, _, facts⟩ := checks _ guard
    exact facts.guarded
  · obtain ⟨_, _, facts⟩ := checks _ guard
    exact facts.idle

theorem request_when_writing {docId : String} {status : Status} {calls : ι → Call} {i : ι}
    {expected : TransitionRequest}
    (facts : ChecksThenWrites adapter docId status (calls i) expected) {schedule : List (ι × (World × V))}
    {s : System × X} {request : TransitionRequest}
    (due : ((Pool.run (pipeline adapter) schedule (start calls s)).threads i).nextOp =
      some (.ledgerTransition request)) : request = expected := by
  have uses : ((Pool.run (pipeline adapter) schedule (start calls s)).threads i).Uses (OnlyWrite expected) :=
    Pool.run_uses facts.uses schedule
  exact Prog.uses_nextOp uses due request rfl

def WritesOnParked (docId : String) (calls : ι → Call) (schedule : List (ι × (World × V)))
    (s : System × X) : Prop :=
  ∀ i, (calls i).Reviews docId → ∀ request,
    ((Pool.run (pipeline adapter) schedule (start calls s)).threads i).nextOp =
      some (.ledgerTransition request) →
    HasStatus request.docId .needsReview (Pool.run (pipeline adapter) schedule (start calls s)).state

theorem review_writes_parked (docId : String) (calls : ι → Call) (schedule : List (ι × (World × V)))
    (s : System × X) (kept : KeptFor adapter docId .needsReview (Call.Reviews docId) calls schedule s) :
    WritesOnParked adapter docId calls schedule s := by
  intro i reviews request due
  obtain ⟨expected, own, facts⟩ := Call.Reviews.checks adapter docId reviews
  have parked := checked_when_writing adapter (fun _ => Call.Reviews.checks adapter docId) kept reviews due
  rw [request_when_writing adapter facts due, own]
  exact parked

-- One document, parked; a second one, failed.
def createdSystem (request : TransitionRequest) : System × Unit :=
  ({ ledger := ((InMemoryLedgerStore.empty.create 0 digestAbc ⟨"v1"⟩).2.transition 1 request).2 }, ())

def parkedSystem : System × Unit :=
  createdSystem { docId := digestAbc, toStatus := .needsReview, stage := .needsReview,
                  errorCode := some verticalUnresolved }

def failedSystem : System × Unit :=
  createdSystem { docId := digestAbc, toStatus := .failed, stage := .failed,
                  errorCode := some chunkerEmptyElements }

def foundScenario : World × Unit := ({ scenario := .ok (some ⟨"s1", "hr"⟩) }, ())

def twoReviewers : Bool → Call
  | false => .assign digestAbc "s1"
  | true => .reject digestAbc "unreadable"

def steps (workers : List (Fin 3)) : List (Fin 3 × (World × Unit)) := workers.map (·, foundScenario)

def reviewSteps (workers : List Bool) : List (Bool × (World × Unit)) := workers.map (·, foundScenario)

theorem review_writes_parked_once :
    KeptFor idleIndex digestAbc .needsReview (Call.Reviews digestAbc) twoReviewers
        (reviewSteps [false, false]) parkedSystem ∧
      WritesOnParked idleIndex digestAbc twoReviewers (reviewSteps [false, false]) parkedSystem := by
  have kept : KeptFor idleIndex digestAbc .needsReview (Call.Reviews digestAbc) twoReviewers
      (reviewSteps [false, false]) parkedSystem := by
    refine ⟨fun _ lost => ?_, fun _ lost => ?_, trivial⟩
    · exact (lost (by decide)).elim
    · exact (lost (by decide)).elim
  exact ⟨kept, review_writes_parked idleIndex _ _ _ _ kept⟩

-- Both reviewers find the row parked; the rejection lands first and the assignment takes the row
-- out of `failed`.
theorem assign_revives_failed_row :
    ¬ WritesOnParked idleIndex digestAbc twoReviewers (reviewSteps [false, false, true, true]) parkedSystem ∧
      HasStatus digestAbc .failed (Pool.run (pipeline idleIndex) (reviewSteps [false, false, true, true])
        (start twoReviewers parkedSystem)).state ∧
      HasStatus digestAbc .pending (Pool.run (pipeline idleIndex)
        (reviewSteps [false, false, true, true, false]) (start twoReviewers parkedSystem)).state := by
  refine ⟨fun onParked => ?_, by decide, by decide⟩
  have parked := onParked false rfl (assignRequest digestAbc "s1") rfl
  revert parked
  decide

def RequeuesOnFailed (docId : String) (calls : ι → Call) (schedule : List (ι × (World × V)))
    (s : System × X) : Prop :=
  ∀ i, (calls i).Requeues docId → ∀ request,
    ((Pool.run (pipeline adapter) schedule (start calls s)).threads i).nextOp =
      some (.ledgerTransition request) →
    HasStatus request.docId .failed (Pool.run (pipeline adapter) schedule (start calls s)).state ∧
      ∀ w, ∃ row,
        (Pool.run (pipeline adapter) (schedule ++ [(i, w)]) (start calls s)).state.1.ledger.get
            request.docId = some row ∧
          row.status = .pending ∧ row.attempts = 0 ∧ row.lastErrorCode = none ∧ row.lastErrorMessage = none

theorem requeue_writes_failed (docId : String) (calls : ι → Call) (schedule : List (ι × (World × V)))
    (s : System × X) (kept : KeptFor adapter docId .failed (Call.Requeues docId) calls schedule s) :
    RequeuesOnFailed adapter docId calls schedule s := by
  intro i requeues request due
  have facts := Call.Requeues.checks adapter docId requeues
  obtain rfl := request_when_writing adapter facts due
  have checks (call : Call) (guard : call.Requeues docId) :
      ∃ request, request.docId = docId ∧ ChecksThenWrites adapter docId .failed call request :=
    ⟨requeueRequest docId, rfl, Call.Requeues.checks adapter docId guard⟩
  have failed := checked_when_writing adapter checks kept requeues due
  refine ⟨failed, fun w => ?_⟩
  obtain ⟨row, present, status⟩ := Option.map_eq_some_iff.mp failed
  obtain ⟨correct, written⟩ := InMemoryLedgerStore.transition_of_edge _ w.1.now (requeueRequest docId)
    present rfl (by rw [status]; exact .inl (by simp [requeueRequest, legalTransitions])) (by simp [requeueRequest])
  refine ⟨nextRow w.1.now row (requeueRequest docId), ?_, rfl, ?_, ?_, ?_⟩
  · rw [Pool.run_append]
    simp only [Pool.run]
    rw [Pool.step_state due]
    simp [pipeline, written]
  · simp [nextRow, nextAttempts, requeueRequest, status]
  · simp [nextRow, nextErrorFields, requeueRequest, status]
  · simp [nextRow, nextErrorFields, requeueRequest, status]

def unresolvedEnvelope : ArrivalEnvelope :=
  { docId := digestAbc, source := "ab", blobPath := "c", trustTier := .internal, contentHash := digestAbcd,
    docIdFormat := digestAbc_hex, contentHashFormat := digestAbcd_hex }

def twoOperators : Fin 3 → Call
  | 0 => .requeue digestAbc
  | 1 => .requeue digestAbc
  | 2 => .load {} unresolvedEnvelope

theorem requeue_writes_failed_once :
    KeptFor idleIndex digestAbc .failed (Call.Requeues digestAbc) twoOperators (steps [0]) failedSystem ∧
      RequeuesOnFailed idleIndex digestAbc twoOperators (steps [0]) failedSystem := by
  have kept : KeptFor idleIndex digestAbc .failed (Call.Requeues digestAbc) twoOperators (steps [0])
      failedSystem := ⟨fun _ lost => (lost (by decide)).elim, trivial⟩
  exact ⟨kept, requeue_writes_failed idleIndex _ _ _ _ kept⟩

-- Both operators find the row failed; the first requeue lands, a loader parks the document for
-- review, and the second requeue takes it back out.
theorem requeue_bypasses_review :
    ¬ RequeuesOnFailed idleIndex digestAbc twoOperators (steps [0, 1, 1, 2, 2, 2]) failedSystem ∧
      HasStatus digestAbc .needsReview (Pool.run (pipeline idleIndex) (steps [0, 1, 1, 2, 2, 2])
        (start twoOperators failedSystem)).state ∧
      HasStatus digestAbc .pending (Pool.run (pipeline idleIndex) (steps [0, 1, 1, 2, 2, 2, 0])
        (start twoOperators failedSystem)).state := by
  refine ⟨fun onFailed => ?_, by decide, by decide⟩
  have failed := (onFailed 0 rfl (requeueRequest digestAbc) rfl).1
  revert failed
  decide

end Pools

end Vestibule
