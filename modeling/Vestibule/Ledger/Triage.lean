import Vestibule.Ledger.History

set_option autoImplicit false

namespace Vestibule

-- `isBenignConcurrentLoss` looks at one row. Its verdict is compared here with everything the ledger
-- accepted for that row since it last became pending.

def enter (pass : List Status) (status : Status) : List Status :=
  -- A retry within a status enters nothing.
  if pass.getLast? = some status then pass
  else if status = .pending then [.pending]
  else pass ++ [status]

/-- The statuses a document entered from its latest entry into pending on, that one included. -/
def currentPass (docId : String) (calls : List LedgerCall) : List Status :=
  ((trail docId calls).map (·.status)).foldl enter []

structure PassOf (status : Status) (pass : List Status) : Prop where
  last : pass.getLast? = some status
  forward : status ∈ forwardOrder → pass = forwardOrder.take (forwardOrder.idxOf status + 1)

theorem forwardOrder_take_succ {source target : Status} (edge : Edge source target) (moved : target ≠ source)
    (reset : target ≠ .pending) (forward : target ∈ forwardOrder) :
    source ∈ forwardOrder ∧
      forwardOrder.take (forwardOrder.idxOf source + 1) ++ [target] =
        forwardOrder.take (forwardOrder.idxOf target + 1) := by
  revert edge moved reset forward
  cases source <;> cases target <;> decide

theorem passOf_enter {source target : Status} {pass : List Status} (before : PassOf source pass)
    (edge : Edge source target) : PassOf target (enter pass target) := by
  simp only [enter, before.last, Option.some.injEq]
  split_ifs with retried reset
  next => exact retried ▸ before
  next => exact ⟨by simp [reset], fun _ => by subst reset; decide⟩
  next =>
    refine ⟨by simp, fun forward => ?_⟩
    obtain ⟨onPath, extended⟩ := forwardOrder_take_succ edge (Ne.symm retried) reset forward
    rw [before.forward onPath, extended]

theorem passOf_foldl (rows : List LedgerRow) (first : LedgerRow) (pass : List Status)
    (before : PassOf first.status pass)
    (follows : (first :: rows).IsChain fun first second => Edge first.status second.status)
    (last : LedgerRow) (isLast : (first :: rows).getLast? = some last) :
    PassOf last.status ((rows.map (·.status)).foldl enter pass) := by
  induction rows generalizing first pass with
  | nil =>
    obtain rfl : first = last := by simpa using isLast
    exact before
  | cons second rest ih =>
    obtain ⟨edge, later⟩ := List.isChain_cons_cons.mp follows
    exact ih second (enter pass second.status) (passOf_enter before edge) later (by simpa using isLast)

theorem passOf_current {docId : String} {calls : List LedgerCall} {row : LedgerRow}
    (present : (runCalls calls).get docId = some row) : PassOf row.status (currentPass docId calls) := by
  have history := rowHistory docId calls
  have isLast := history.current.trans present
  have starts := history.starts
  have follows := history.follows
  simp only [currentPass]
  cases trailed : trail docId calls with
  | nil => simp [trailed] at isLast
  | cons first rest =>
    rw [trailed] at isLast starts follows
    have fresh : first.status = .pending := starts first rfl
    have begun : PassOf first.status (enter [] first.status) := by
      rw [fresh]
      exact ⟨rfl, fun _ => rfl⟩
    exact passOf_foldl rest first _ begun follows row isLast

def Overtakes (observed target : Status) : Prop :=
  match target with
  | .failed => observed = .indexed
  | .needsReview => observed ≠ .pending ∧ observed ≠ .failed
  | .archived => observed = .archived
  | _ => observed ∈ forwardOrder ∧ forwardOrder.idxOf target ≤ forwardOrder.idxOf observed

instance (observed : Status) : (target : Status) → Decidable (Overtakes observed target)
  | .failed => inferInstanceAs (Decidable (observed = .indexed))
  | .needsReview => inferInstanceAs (Decidable (observed ≠ .pending ∧ observed ≠ .failed))
  | .archived => inferInstanceAs (Decidable (observed = .archived))
  | .pending | .analyzing | .chunking | .embedding | .indexing | .indexed => inferInstanceAs (Decidable (_ ∧ _))

theorem isBenign_mirrored {row : LedgerRow} (mirrored : row.stage = row.status) (target : Status) :
    isBenignConcurrentLoss (some row) target target = true ↔ Overtakes row.status target := by
  simp only [isBenignConcurrentLoss, mirrored, ne_eq, not_true_eq_false, if_false]
  generalize row.status = observed
  cases target <;> cases observed <;> decide

theorem isBenign_unmirrored (observedRow : Option LedgerRow) {target stage : Status} (differs : stage ≠ target) :
    isBenignConcurrentLoss observedRow target stage = false := by
  simp [isBenignConcurrentLoss, differs]

theorem overtakes_of_benign {s : InMemoryLedgerStore} {docId : String} {target stage : Status}
    (benign : isBenignConcurrentLoss (s.get docId) target stage = true) :
    stage = target ∧ ∃ row, s.get docId = some row ∧ Overtakes row.status target := by
  by_cases mirrored : stage = target
  next =>
    subst mirrored
    cases observed : s.get docId with
    | none => simp [observed, isBenignConcurrentLoss] at benign
    | some row =>
      rw [observed] at benign
      exact ⟨rfl, row, rfl, (isBenign_mirrored (s.wellFormed docId row observed).mirrored stage).mp benign⟩
  next => simp [isBenign_unmirrored (s.get docId) mirrored] at benign

theorem overtakes_forward {observed target : Status} (forward : target ∈ forwardOrder) :
    Overtakes observed target ↔
      observed ∈ forwardOrder ∧ forwardOrder.idxOf target ≤ forwardOrder.idxOf observed := by
  revert forward
  cases target <;> simp [Overtakes, forwardOrder]

-- An accepted write always changes its row: a retry within a status counts an attempt.
theorem nextRow_ne (now : DateTime) {row : LedgerRow} {request : TransitionRequest}
    (edge : Edge row.status request.toStatus) : nextRow now row request ≠ row := by
  intro same
  have status : request.toStatus = row.status := congrArg LedgerRow.status same
  have attempts : nextAttempts row request.toStatus = row.attempts := congrArg LedgerRow.attempts same
  rw [status] at edge
  have open_ : row.status ≠ .failed := by
    intro failed
    rw [failed] at edge
    revert edge
    decide
  have counted : nextAttempts row request.toStatus = row.attempts + 1 := by simp [nextAttempts, status, open_]
  omega

-- What a write of a stage is answered: the row moved along an edge, or the observed row has none.
theorem transition_answer (s : InMemoryLedgerStore) (now : DateTime) (request : TransitionRequest)
    (mirrored : request.stage = request.toStatus)
    (explained : request.toStatus = .failed → request.errorCode ≠ none) :
    (∃ row correct, s.get request.docId = some row ∧ Edge row.status request.toStatus ∧
      s.transition now request =
        (.ok (nextRow now row request), s.put request.docId (nextRow now row request) correct)) ∨
    (∃ fault, s.transition now request = (.error (.transitionInvalid fault), s) ∧
      fault.observedRow = s.get request.docId ∧ fault.attemptedToStatus = request.toStatus ∧
      fault.attemptedStage = request.toStatus ∧
      ∀ row, s.get request.docId = some row → ¬ Edge row.status request.toStatus) ∨
    (∃ fault, s.transition now request = (.error (.identity fault), s) ∧ s.get request.docId = none) := by
  rcases s.transition_cases now request with ⟨fault, rejected⟩ | ⟨row, present, -, edge, -, correct, accepted⟩
  next =>
    have noEdge (row : LedgerRow) (present : s.get request.docId = some row) :
        ¬ Edge row.status request.toStatus := by
      intro edge
      obtain ⟨correct, accepted⟩ := s.transition_of_edge now request present mirrored edge explained
      simp [accepted] at rejected
    cases fault with
    | transitionInvalid fault =>
      obtain ⟨-, observed, invalid⟩ := s.transition_rejected now (congrArg Prod.fst rejected)
      obtain ⟨-, -, target, stage⟩ := validateTransition_error invalid
      exact .inr (.inl ⟨fault, rejected, observed, target, stage.trans mirrored, noEdge⟩)
    | identity fault =>
      refine .inr (.inr ⟨fault, rejected, Option.eq_none_iff_forall_ne_some.mpr fun row present => ?_⟩)
      have format := (s.wellFormed _ _ present).keyFormat
      have checked : validateIdFormat (.ofString request.docId) "doc_id" = .ok (PyStr.ofString request.docId) := by
        rw [validateIdFormat_ofString, if_pos format]
      simp only [InMemoryLedgerStore.transition] at rejected
      split at rejected
      next _ refused => simp [checked] at refused
      next => split at rejected <;> simp at rejected
  next => exact .inl ⟨row, correct, present, edge, accepted⟩

theorem triage_sound_over_runs (calls : List LedgerCall) (now : DateTime) (request : TransitionRequest)
    (fault : LedgerTransitionInvalid)
    (rejected : ((runCalls calls).transition now request).1 = .error (.transitionInvalid fault)) :
    (request.toStatus ∈ forwardOrder →
      isBenignConcurrentLoss fault.observedRow request.toStatus request.stage = true →
      request.toStatus ∈ currentPass request.docId calls) ∧
    (request.toStatus = .failed →
      isBenignConcurrentLoss fault.observedRow request.toStatus request.stage = true →
      ∃ row, (runCalls calls).get request.docId = some row ∧ row.status = .indexed) ∧
    (request.toStatus ∈ forwardOrder → request.stage = request.toStatus →
      isBenignConcurrentLoss fault.observedRow request.toStatus request.stage = false →
      ∀ row, fault.observedRow = some row → (runCalls calls).get request.docId = some row ∧
        (row.status = .failed ∨ row.status = .needsReview ∨ row.status = .archived ∨
          row.status ∈ forwardOrder ∧
            forwardOrder.idxOf row.status < forwardOrder.idxOf request.toStatus)) := by
  obtain ⟨-, observed, -⟩ := (runCalls calls).transition_rejected now rejected
  rw [observed]
  refine ⟨fun forward benign => ?_, fun failing benign => ?_, fun forward mirrored refused row present => ?_⟩
  next =>
    obtain ⟨-, row, present, overtakes⟩ := overtakes_of_benign benign
    obtain ⟨onPath, reached⟩ := (overtakes_forward forward).mp overtakes
    rw [(passOf_current present).forward onPath]
    have position := List.idxOf_lt_length_of_mem forward
    rw [List.mem_take_iff_getElem]
    exact ⟨forwardOrder.idxOf request.toStatus, by omega, List.getElem_idxOf position⟩
  next =>
    obtain ⟨-, row, present, overtakes⟩ := overtakes_of_benign benign
    rw [failing] at overtakes
    exact ⟨row, present, overtakes⟩
  next =>
    refine ⟨present, ?_⟩
    by_contra! elsewhere
    obtain ⟨notFailed, notParked, notArchived, notBefore⟩ := elsewhere
    have onPath := mem_forwardOrder notFailed notParked notArchived
    have benign := (isBenign_mirrored ((runCalls calls).wellFormed _ _ present).mirrored request.toStatus).mpr
      ((overtakes_forward forward).mpr ⟨onPath, notBefore onPath⟩)
    rw [present, mirrored, benign] at refused
    exact Bool.noConfusion refused

def overtaken : List LedgerCall :=
  [.create 0 digestAbc ⟨"v1"⟩,
   .transition 1 { docId := digestAbc, toStatus := .analyzing, stage := .analyzing },
   .transition 2 { docId := digestAbc, toStatus := .chunking, stage := .chunking }]

def lateEntry : TransitionRequest := { docId := digestAbc, toStatus := .analyzing, stage := .analyzing }

theorem triage_sound_on_late_entry :
    ∃ fault, ((runCalls overtaken).transition 3 lateEntry).1 = .error (.transitionInvalid fault) ∧
      isBenignConcurrentLoss fault.observedRow lateEntry.toStatus lateEntry.stage = true ∧
      lateEntry.toStatus ∈ currentPass lateEntry.docId overtaken := by
  have rejected : ∃ fault, ((runCalls overtaken).transition 3 lateEntry).1 = .error (.transitionInvalid fault) ∧
      isBenignConcurrentLoss fault.observedRow lateEntry.toStatus lateEntry.stage = true := ⟨_, rfl, by decide⟩
  obtain ⟨fault, rejected, benign⟩ := rejected
  exact ⟨fault, rejected, benign, (triage_sound_over_runs overtaken 3 lateEntry fault rejected).1 (by decide) benign⟩

end Vestibule
