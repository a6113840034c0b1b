import Vestibule.Library.Except
import Vestibule.Pipeline.Effects

set_option autoImplicit false

namespace Vestibule

open Library

namespace Py

/-- The write every component guards: a lost race that is benign is swallowed. -/
def transitionTriaged (request : TransitionRequest) : Py Unit :=
  tryCatch (do let _ ← ledgerTransition request) fun
    | .ledgerTransitionInvalid fault =>
        if isBenignConcurrentLoss fault.observedRow request.toStatus request.stage then pure ()
        else throw (.ledgerTransitionInvalid fault)
    | exc => throw exc

def errorRequest (status : Status) (docId errorCode reason : String) : TransitionRequest :=
  { docId, toStatus := status, stage := status, errorCode := some errorCode, errorMessage := some reason }

def terminalize {α : Type} (kind : ErrorKind) (docId errorCode reason : String) : Py α := do
  transitionTriaged (errorRequest .failed docId errorCode reason)
  throw (.ragged kind docId reason errorCode)

theorem terminalize_bind {α β : Type} (kind : ErrorKind) (docId errorCode reason : String) (f : α → Py β) :
    (terminalize kind docId errorCode reason : Py α) >>= f = terminalize kind docId errorCode reason := by
  simp only [terminalize, bind_assoc]
  rfl

def triaged (request : TransitionRequest) : Except Exc LedgerRow → Except Exc Unit
  | .ok _ => .ok ()
  | .error (.ledgerTransitionInvalid fault) =>
      if isBenignConcurrentLoss fault.observedRow request.toStatus request.stage then .ok ()
      else .error (.ledgerTransitionInvalid fault)
  | .error exc => .error exc

-- One operation, whatever the answer.
theorem transitionTriaged_run (request : TransitionRequest) :
    (transitionTriaged request).run = .op (.ledgerTransition request) fun answer => .ret (triaged request answer) := by
  refine congrArg (Prog.op _) (funext fun answer => ?_)
  cases answer with
  | ok row => rfl
  | error exc =>
    cases exc with
    | ledgerTransitionInvalid fault =>
      change (if isBenignConcurrentLoss fault.observedRow request.toStatus request.stage then pure ()
        else throw (.ledgerTransitionInvalid fault) : Py Unit).run = _
      simp only [triaged]
      split <;> rfl
    | _ => rfl

theorem transitionTriaged_uses {allowed : Op → Prop} {request : TransitionRequest}
    (permitted : allowed (.ledgerTransition request)) :
    (transitionTriaged request).run.Uses (S := Effects) allowed := by
  rw [transitionTriaged_run]
  exact ⟨permitted, fun _ => trivial⟩

theorem wp_transitionTriaged_iff {W σ : Type} (h : Handler Effects W σ) (I : σ → Prop)
    (request : TransitionRequest) (Q : Except Exc Unit → σ → Prop) (s : σ) :
    Prog.wp h I (transitionTriaged request).run Q s ↔
      ∀ w, I (h w (.ledgerTransition request) s).2 ∧
        Q (triaged request (h w (.ledgerTransition request) s).1) (h w (.ledgerTransition request) s).2 := by
  rw [transitionTriaged_run]
  rfl

theorem terminalize_uses {α : Type} {allowed : Op → Prop} (kind : ErrorKind) {docId errorCode reason : String}
    (permitted : allowed (.ledgerTransition (errorRequest .failed docId errorCode reason))) :
    (terminalize kind docId errorCode reason : Py α).run.Uses (S := Effects) allowed :=
  Prog.uses_run_bind (transitionTriaged_uses permitted) fun _ => trivial

theorem terminalize_raises {W σ α : Type} (h : Handler Effects W σ) (kind : ErrorKind)
    (docId errorCode reason : String) (s : σ) :
    Prog.wp h (fun _ => True) (terminalize kind docId errorCode reason : Py α).run
      (fun result _ => ∀ value, result ≠ .ok value) s := by
  simp only [terminalize, Prog.wp_run_bind, Prog.wp_run_throw]
  refine Prog.wp_mono (fun result _ _ => ?_) (Prog.wp_trivial _ s)
  cases result <;> simp

/-- A retry within the stage, recorded without triage. -/
def selfTransitionAndRaise {α : Type} (kind : ErrorKind) (stage : Status) (docId errorCode reason : String) :
    Py α := do
  let _ ← ledgerTransition (errorRequest stage docId errorCode reason)
  throw (.ragged kind docId reason errorCode)

theorem selfTransitionAndRaise_bind {α β : Type} (kind : ErrorKind) (stage : Status) (docId errorCode reason : String)
    (f : α → Py β) : (selfTransitionAndRaise kind stage docId errorCode reason : Py α) >>= f =
      selfTransitionAndRaise kind stage docId errorCode reason := by
  simp only [selfTransitionAndRaise, bind_assoc]
  rfl

theorem selfTransitionAndRaise_raises {W σ α β : Type} (h : Handler Effects W σ) (kind : ErrorKind) (stage : Status)
    (docId errorCode reason : String) (f : α → Py β) (s : σ) :
    Prog.wp h (fun _ => True) (selfTransitionAndRaise kind stage docId errorCode reason >>= f).run
      (fun result _ => ∀ value, result ≠ .ok value) s := by
  rw [selfTransitionAndRaise_bind]
  simp only [selfTransitionAndRaise, Prog.wp_run_bind, Prog.wp_run_throw]
  apply Prog.wp_mono _ (Prog.wp_trivial _ s)
  intro result after _
  cases result with
  | ok row => simp
  | error exc => simp

end Py

def effectiveBatchSize (batchSize : Option Int) (maxBatchSize : Int) : Int :=
  match batchSize with
  | none => maxBatchSize
  | some size => min size maxBatchSize

-- A negative step gives no start index at all.
def batched {α : Type} (items : List α) (size : Int) : Except Exc (List (List α)) :=
  if size = 0 then .error (.other "range() arg 3 must not be zero")
  else if size < 0 then .ok []
  else
    let width := size.toNat
    .ok ((List.range ((items.length + width - 1) / width)).map fun k => (items.drop (k * width)).take width)

theorem slices_flatten {α : Type} (items : List α) (width count : Nat) :
    ((List.range count).map fun k => (items.drop (k * width)).take width).flatten =
      items.take (count * width) := by
  induction count with
  | zero => simp
  | succ count ih =>
    rw [List.range_succ, List.map_append, List.flatten_append, ih, Nat.succ_mul, List.take_add]
    simp

theorem batched_flatten {α : Type} {items : List α} {size : Int} {batches : List (List α)}
    (positive : 0 < size) (split : batched items size = .ok batches) : batches.flatten = items := by
  have nonzero : size ≠ 0 := by omega
  have nonneg : ¬ size < 0 := by omega
  simp only [batched, nonzero, nonneg, if_false, Except.ok.injEq] at split
  subst split
  rw [slices_flatten]
  apply List.take_of_length_le
  have width : 0 < size.toNat := by omega
  have rounded := Nat.div_add_mod (items.length + size.toNat - 1) size.toNat
  have remainder := Nat.mod_lt (items.length + size.toNat - 1) width
  rw [Nat.mul_comm] at rounded
  omega

theorem batched_cases {α : Type} {items : List α} {size : Int} {batches : List (List α)}
    (split : batched items size = .ok batches) :
    0 < size ∧ batches.flatten = items ∨ size < 0 ∧ batches = [] := by
  by_cases positive : 0 < size
  next => exact .inl ⟨positive, batched_flatten positive split⟩
  next =>
    simp only [batched] at split
    split_ifs at split with zero negative
    next => exact .inr ⟨negative, by simpa using split.symm⟩
    next => omega

theorem batched_length_le {α : Type} {items : List α} {size : Int} {batches : List (List α)}
    (split : batched items size = .ok batches) {batch : List α} (member : batch ∈ batches) :
    (batch.length : Int) ≤ size := by
  simp only [batched] at split
  split_ifs at split with zero negative
  · obtain rfl : [] = batches := by simpa using split
    simp at member
  · obtain rfl : _ = batches := by simpa using split
    obtain ⟨k, _, rfl⟩ := List.mem_map.mp member
    have bound := List.length_take_le size.toNat (items.drop (k * size.toNat))
    omega

def HasStatus {X : Type} (docId : String) (status : Status) (s : System × X) : Prop :=
  (s.1.ledger.get docId).map LedgerRow.status = some status

instance {X : Type} (docId : String) (status : Status) (s : System × X) :
    Decidable (HasStatus docId status s) :=
  inferInstanceAs (Decidable (_ = _))

theorem HasStatus.of_get {X : Type} {docId : String} {s : System × X} {row : LedgerRow}
    (present : s.1.ledger.get docId = some row) : HasStatus docId row.status s := by
  simp [HasStatus, present]

theorem HasStatus.exists {X : Type} {docId : String} {status : Status} {s : System × X}
    (held : HasStatus docId status s) : ∃ row, s.1.ledger.get docId = some row ∧ row.status = status :=
  Option.map_eq_some_iff.mp held

theorem hasStatus_unique {X : Type} {docId : String} {status other : Status} {s : System × X}
    (first : HasStatus docId status s) (second : HasStatus docId other s) : status = other := by
  simpa using first.symm.trans second

section Writes

variable {V X α : Type} {adapter : IndexerAdapter V X} {I : System × X → Prop} {s : System × X}

variable (adapter) in
theorem pipeline_transition_of_edge (w : World × V) (request : TransitionRequest) {row : LedgerRow}
    (present : s.1.ledger.get request.docId = some row) (mirrored : request.stage = request.toStatus)
    (edge : Edge row.status request.toStatus)
    (explained : request.toStatus = .failed → request.errorCode ≠ none) :
    ∃ correct, pipeline adapter w (.ledgerTransition request) s =
      (.ok (nextRow w.1.now row request),
        ({ s.1 with ledger := s.1.ledger.put request.docId (nextRow w.1.now row request) correct }, s.2)) := by
  obtain ⟨correct, written⟩ := s.1.ledger.transition_of_edge w.1.now request present mirrored edge explained
  exact ⟨correct, by simp [pipeline, written, Except.mapError]⟩

variable (adapter) in
theorem pipeline_transition_cases (w : World × V) (request : TransitionRequest) (s : System × X) :
    (∃ exc, pipeline adapter w (.ledgerTransition request) s = (.error exc, s)) ∨
    (∃ current, s.1.ledger.get request.docId = some current ∧ Edge current.status request.toStatus ∧
      ∃ correct, pipeline adapter w (.ledgerTransition request) s =
        (.ok (nextRow w.1.now current request),
          ({ s.1 with ledger := s.1.ledger.put request.docId (nextRow w.1.now current request) correct }, s.2))) := by
  rcases s.1.ledger.transition_cases w.1.now request with ⟨fault, rejected⟩ |
    ⟨current, present, mirrored, edge, explained, _⟩
  next => exact .inl ⟨.ofLedgerFault fault, by simp [pipeline, rejected, Except.mapError]⟩
  next =>
    exact .inr ⟨current, present, edge,
      pipeline_transition_of_edge adapter w request present mirrored edge explained⟩

theorem wp_ledgerTransition (request : TransitionRequest) {row : LedgerRow} {Q : Except Exc LedgerRow → _ → Prop}
    (present : s.1.ledger.get request.docId = some row) (mirrored : request.stage = request.toStatus)
    (edge : Edge row.status request.toStatus)
    (explained : request.toStatus = .failed → request.errorCode ≠ none)
    (after : ∀ now s', s'.2 = s.2 → s'.1.ledger.get request.docId = some (nextRow now row request) →
      I s' ∧ Q (.ok (nextRow now row request)) s') :
    Prog.wp (pipeline adapter) I (Py.ledgerTransition request).run Q s := by
  intro w
  obtain ⟨correct, written⟩ := pipeline_transition_of_edge adapter w request present mirrored edge explained
  rw [written]
  exact after w.1.now _ rfl (by simp)

theorem wp_transitionTriaged (request : TransitionRequest) {row : LedgerRow} {Q : Except Exc Unit → _ → Prop}
    (present : s.1.ledger.get request.docId = some row) (mirrored : request.stage = request.toStatus)
    (edge : Edge row.status request.toStatus)
    (explained : request.toStatus = .failed → request.errorCode ≠ none)
    (after : ∀ now s', s'.2 = s.2 → s'.1.ledger.get request.docId = some (nextRow now row request) →
      I s' ∧ Q (.ok ()) s') :
    Prog.wp (pipeline adapter) I (Py.transitionTriaged request).run Q s := by
  simp only [Py.transitionTriaged, Prog.wp_run_tryCatch, Prog.wp_run_bind, Prog.wp_run_pure]
  exact wp_ledgerTransition request present mirrored edge explained after

theorem wp_terminalize (kind : ErrorKind) (docId errorCode reason : String) {row : LedgerRow}
    {Q : Except Exc α → _ → Prop} (present : s.1.ledger.get docId = some row)
    (edge : Edge row.status .failed)
    (after : ∀ s' row', s'.2 = s.2 → s'.1.ledger.get docId = some row' → row'.status = .failed →
      row'.lastErrorCode = some errorCode → I s' ∧ Q (.error (.ragged kind docId reason errorCode)) s') :
    Prog.wp (pipeline adapter) I (Py.terminalize kind docId errorCode reason : Py α).run Q s := by
  simp only [Py.terminalize, Prog.wp_run_bind, Prog.wp_run_throw]
  refine wp_transitionTriaged _ present rfl edge (by simp [Py.errorRequest]) fun now s' same stored => ?_
  exact after s' _ same stored rfl (by simp [nextRow, nextErrorFields, Py.errorRequest])

theorem nextRow_retry (now : DateTime) {stage : Status} {row : LedgerRow} (status : row.status = stage)
    (running : stage ∉ terminalStatuses) (docId errorCode reason : String) :
    (nextRow now row (Py.errorRequest stage docId errorCode reason)).attempts = row.attempts + 1 ∧
      (nextRow now row (Py.errorRequest stage docId errorCode reason)).lastErrorCode = some errorCode := by
  have notFailed : stage ≠ .failed := by
    rintro rfl
    exact running (by decide)
  constructor
  · simp [nextRow, nextAttempts, Py.errorRequest, notFailed, status]
  · simp [nextRow, nextErrorFields, Py.errorRequest]

theorem wp_selfTransitionAndRaise (kind : ErrorKind) (stage : Status) (docId errorCode reason : String)
    {row : LedgerRow} {Q : Except Exc α → _ → Prop} (present : s.1.ledger.get docId = some row)
    (status : row.status = stage) (running : stage ∉ terminalStatuses)
    (after : ∀ s' row', s'.2 = s.2 → s'.1.ledger.get docId = some row' → row'.status = stage →
      row'.attempts = row.attempts + 1 → row'.lastErrorCode = some errorCode →
      I s' ∧ Q (.error (.ragged kind docId reason errorCode)) s') :
    Prog.wp (pipeline adapter) I (Py.selfTransitionAndRaise kind stage docId errorCode reason : Py α).run Q s := by
  simp only [Py.selfTransitionAndRaise, Prog.wp_run_bind, Prog.wp_run_throw]
  refine wp_ledgerTransition _ present rfl (.inr ⟨status.symm, status ▸ running⟩) (by simp [Py.errorRequest])
    fun now s' same stored => ?_
  obtain ⟨counted, recorded⟩ := nextRow_retry now status running docId errorCode reason
  exact after s' _ same stored rfl counted recorded

end Writes

end Vestibule
