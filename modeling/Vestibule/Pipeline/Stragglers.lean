import Vestibule.Library.Interleaving
import Vestibule.Pipeline.Contention

set_option autoImplicit false

namespace Vestibule

open Library

-- The same message delivered twice: two chunkers, or two embedders, run on one document whose row is at
-- their stage, with inputs that need not agree.

namespace StageCall

/-- Some answers of the injected services take the call to its exit write. -/
def CanAdvance : StageCall → Prop
  | chunk _ _ elements => elements ≠ []
  | embed embedder chunks =>
      embedder.Accepts chunks ∧ 0 < effectiveBatchSize embedder.config.batchSize embedder.adapter.maxBatchSize
  | index _ _ => False

theorem not_canAdvance_of_rejected (call : StageCall) (rejected : call.Rejected) : ¬ call.CanAdvance := by
  cases call with
  | chunk hexdigest config elements => exact not_not.mpr rejected
  | embed embedder chunks => exact fun able => rejected able.1
  | index indexer embeddedChunks => exact id

end StageCall

inductive Duplicates where
  | chunkers (hexdigest : ByteArray → String) (config : Bool → ChunkerConfig) (elements : Bool → List Element)
  | embedders (embedder : Bool → Embedder) (chunks : Bool → List Chunk)

namespace Duplicates

def call : Duplicates → Bool → StageCall
  | chunkers hexdigest config elements, worker => .chunk hexdigest (config worker) (elements worker)
  | embedders embedder chunks, worker => .embed (embedder worker) (chunks worker)

def stage : Duplicates → Status
  | chunkers _ _ _ => .chunking
  | embedders _ _ => .embedding

def next : Duplicates → Status
  | chunkers _ _ _ => .embedding
  | embedders _ _ => .indexing

abbrev Workers (pair : Duplicates) :=
  Pool Effects (fun worker => Except Exc (pair.call worker).Result) (System × Unit)

def start (pair : Duplicates) (envelope : ArrivalEnvelope) (s : System × Unit) : pair.Workers where
  threads worker := ((pair.call worker).program envelope).run
  state := s

def ProgressKept (pair : Duplicates) (envelope : ArrivalEnvelope) (s : System × Unit) : Prop :=
  ∀ schedule worker w row,
    (Pool.run (pipeline idleIndex) schedule (pair.start envelope s)).state.1.ledger.get envelope.docId = some row →
    Past pair.stage row.status →
    ¬ HasStatus envelope.docId .failed
      (Pool.step (pipeline idleIndex) worker w
        (Pool.run (pipeline idleIndex) schedule (pair.start envelope s))).state

end Duplicates

def Writes (allowed : Status → Prop) (o : Op) : Prop :=
  ∀ request, o = .ledgerTransition request → allowed request.toStatus

theorem writes_of_noWrite {allowed : Status → Prop} {o : Op} (idle : NoWrite o) : Writes allowed o :=
  fun request same => (idle ⟨request, same⟩).elim

theorem writes_transition {allowed : Status → Prop} {request : TransitionRequest}
    (permitted : allowed request.toStatus) : Writes allowed (.ledgerTransition request) := by
  rintro other same
  cases same
  exact permitted

theorem selfTransition_uses {α : Type} {allowed : Status → Prop} {stage : Status} (permitted : allowed stage)
    (kind : ErrorKind) (docId errorCode reason : String) :
    (Py.selfTransitionAndRaise kind stage docId errorCode reason : Py α).run.Uses (Writes allowed) :=
  Prog.uses_run_bind (Prog.uses_perform (writes_transition permitted)) fun _ => trivial

theorem pipeline_status {V X : Type} (adapter : IndexerAdapter V X) {allowed : Status → Prop} {o : Op}
    (writes : Writes allowed o) (w : World × V) {s : System × X} {docId : String} {status : Status}
    (after : HasStatus docId status (pipeline adapter w o s).2) : HasStatus docId status s ∨ allowed status := by
  cases o with
  | ledgerTransition request =>
    rcases s.1.ledger.transition_cases w.1.now request with ⟨fault, rejected⟩ | ⟨row, -, -, -, -, correct, accepted⟩
    next => exact .inl (by simpa [HasStatus, pipeline, rejected] using after)
    next =>
      by_cases own : docId = request.docId
      next =>
        have written : request.toStatus = status := by
          simpa [HasStatus, pipeline, accepted, own, nextRow] using after
        exact .inr (written ▸ writes request rfl)
      next => exact .inl (by simpa [HasStatus, pipeline, accepted, own] using after)
  | _ => exact .inl after

theorem recover_advance_uses {α : Type} {allowed : Status → Prop} {p : Py α} {handle : Exc → Py α} {docId : String}
    {next : Status} (uses : p.run.Uses NoWrite) (recovers : ∀ exc, (handle exc).run.Uses (Writes allowed))
    (permitted : allowed next) :
    (do
      let value ← tryCatch p handle
      Py.transitionTriaged { docId, toStatus := next, stage := next }
      return value : Py α).run.Uses (S := Effects) (Writes allowed) :=
  Prog.uses_run_bind
    (Prog.uses_run_tryCatch (Prog.uses_mono (fun _ idle => writes_of_noWrite idle) uses) recovers)
    fun _ => Prog.uses_run_bind (Py.transitionTriaged_uses (writes_transition permitted)) fun _ => Prog.uses_pure _

theorem Embedder.embedAll_of_no_batches (self : Embedder) {chunks : List Chunk} (nonempty : chunks ≠ [])
    (stuck : effectiveBatchSize self.config.batchSize self.adapter.maxBatchSize ≤ 0) :
    ∃ exc, self.embedAll chunks = Py.ofExcept (.error exc) := by
  by_cases zero : effectiveBatchSize self.config.batchSize self.adapter.maxBatchSize = 0
  next =>
    simp only [embedAll, batched, zero, if_true]
    exact ⟨_, rfl⟩
  next =>
    have negative : effectiveBatchSize self.config.batchSize self.adapter.maxBatchSize < 0 := by omega
    have short : ([] : List (List Float)).length < chunks.length := by simpa [List.length_pos_iff] using nonempty
    simp only [embedAll, batched, zero, negative, if_true, if_false]
    refine ⟨.other "zip() argument 2 is shorter than argument 1", ?_⟩
    change (Py.ofExcept (Embedder.zipStrict chunks []) >>= _) = _
    simp only [zipStrict, short, if_true]
    rfl

namespace Duplicates

variable (pair : Duplicates) (envelope : ArrivalEnvelope) (worker : Bool)

theorem program_uses_of_not_rejected (passes : ¬ (pair.call worker).Rejected) :
    ((pair.call worker).program envelope).run.Uses (Writes (· ≠ .failed)) := by
  cases pair with
  | chunkers hexdigest config elements =>
    have again (code reason : String) :
        (Py.selfTransitionAndRaise .chunker .chunking envelope.docId code reason : Py (List Chunk)).run.Uses
          (Writes (· ≠ .failed)) := selfTransition_uses (by decide) ..
    cases given : elements worker with
    | nil => exact (passes given).elim
    | cons first rest =>
      change (Chunker.chunk hexdigest (config worker) envelope (elements worker)).run.Uses _
      rw [given]
      refine recover_advance_uses (Chunker.assembleChunks_noWrite hexdigest _ envelope.docId (first :: rest))
        (fun exc => ?_) (by decide)
      split
      · split <;> exact again _ _
      · exact again _ _
  | embedders embedder chunks =>
    have again (code reason : String) :
        (Py.selfTransitionAndRaise .embedder .embedding envelope.docId code reason : Py (List EmbeddedChunk)).run.Uses
          (Writes (· ≠ .failed)) := selfTransition_uses (by decide) ..
    have accepts : (embedder worker).Accepts (chunks worker) := not_not.mp passes
    simp only [call, StageCall.program, Embedder.embed_of_accepts _ envelope accepts]
    refine recover_advance_uses (Embedder.embedAll_noWrite (embedder worker) (chunks worker)) (fun exc => ?_)
      (by decide)
    split
    · split <;> exact again _ _
    · exact again _ _

theorem program_uses_of_stuck (stuck : ¬ (pair.call worker).CanAdvance) :
    ((pair.call worker).program envelope).run.Uses
      (Writes fun status => status = .failed ∨ status = pair.stage) := by
  have refused (kind : ErrorKind) (code reason : String) {α : Type} :
      (Py.terminalize kind envelope.docId code reason : Py α).run.Uses (S := Effects)
        (Writes fun status => status = .failed ∨ status = pair.stage) :=
    Py.terminalize_uses kind (writes_transition (.inl rfl))
  by_cases rejected : (pair.call worker).Rejected
  next =>
    obtain ⟨code, reason, terminal⟩ := (pair.call worker).program_of_rejected envelope rejected
    rw [terminal]
    exact refused ..
  next =>
    cases pair with
    | chunkers hexdigest config elements => exact (stuck rejected).elim
    | embedders embedder chunks =>
      have accepts : (embedder worker).Accepts (chunks worker) := not_not.mp rejected
      have noBatches :
          effectiveBatchSize (embedder worker).config.batchSize (embedder worker).adapter.maxBatchSize ≤ 0 :=
        Int.not_lt.mp fun positive => stuck ⟨accepts, positive⟩
      obtain ⟨exc, failed⟩ := (embedder worker).embedAll_of_no_batches accepts.nonempty noBatches
      have again (code reason : String) : (Py.selfTransitionAndRaise .embedder .embedding envelope.docId code reason :
          Py (List EmbeddedChunk)).run.Uses (Writes fun status => status = .failed ∨ status = .embedding) :=
        selfTransition_uses (.inr rfl) ..
      have handled : ∃ code reason, (embedder worker).runWithRecovery envelope.docId (chunks worker) =
          Py.selfTransitionAndRaise .embedder .embedding envelope.docId code reason := by
        simp only [Embedder.runWithRecovery, failed, Py.tryCatch_ofExcept_error]
        split
        · split <;> exact ⟨_, _, rfl⟩
        · exact ⟨_, _, rfl⟩
      obtain ⟨code, reason, handled⟩ := handled
      simp only [call, StageCall.program, Embedder.embed_of_accepts _ envelope accepts, handled,
        Py.selfTransitionAndRaise_bind]
      exact again code reason

theorem next_past : Past pair.stage pair.next ∧ Edge pair.next .failed := by
  cases pair <;> simp only [stage, next] <;> decide

theorem not_past_failed : ¬ Past pair.stage .failed ∧ ¬ Past pair.stage pair.stage := by
  cases pair <;> simp only [stage] <;> decide

theorem progressKept_of_no_failing_write (passes : ∀ worker, ¬ (pair.call worker).Rejected) (s : System × Unit) :
    pair.ProgressKept envelope s := by
  intro schedule worker w row present past failed
  have uses := Pool.run_uses (h := pipeline idleIndex) (c := pair.start envelope s)
    (pair.program_uses_of_not_rejected envelope worker (passes worker)) schedule
  revert present failed uses
  generalize Pool.run (pipeline idleIndex) schedule (pair.start envelope s) = c
  intro present failed uses
  have before : HasStatus envelope.docId .failed c.state := by
    cases current : (c.threads worker).nextOp with
    | none => rwa [Pool.step_state_of_ended current] at failed
    | some o =>
      rw [Pool.step_state current] at failed
      exact (pipeline_status idleIndex (Prog.uses_nextOp uses current) w failed).resolve_right (by simp)
  rw [hasStatus_unique (HasStatus.of_get present) before] at past
  exact pair.not_past_failed.1 past

theorem progressKept_of_no_advance (stuck : ∀ worker, ¬ (pair.call worker).CanAdvance) {s : System × Unit}
    (waiting : HasStatus envelope.docId pair.stage s) : pair.ProgressKept envelope s := by
  intro schedule worker w row present past failed
  have stays : ∀ status, HasStatus envelope.docId status
      (Pool.run (pipeline idleIndex) schedule (pair.start envelope s)).state →
      status = .failed ∨ status = pair.stage := by
    refine Pool.run_of_uses (I := fun s => ∀ status, HasStatus envelope.docId status s →
        status = .failed ∨ status = pair.stage)
      (fun worker => pair.program_uses_of_stuck envelope worker (stuck worker))
      (fun o writes w s before status after => ?_) (fun status held => ?_) schedule
    next => exact (pipeline_status idleIndex writes w after).elim (before status) id
    next => exact .inr (hasStatus_unique held waiting)
  rcases stays row.status (HasStatus.of_get present) with same | same
  next => exact pair.not_past_failed.1 (same ▸ past)
  next => exact pair.not_past_failed.2 (same ▸ past)

end Duplicates

def cooperative : Op → World × Unit
  | .embedBatch texts => ({ vectors := .ok (texts.map fun _ => []) }, ())
  | _ => ({}, ())

abbrev answered : Handler Effects Unit (System × Unit) := fun _ o s => pipeline idleIndex (cooperative o) o s

theorem wp_answered_transition {docId : String} {target : Status} {s : System × Unit} {row : LedgerRow}
    (present : s.1.ledger.get docId = some row) (edge : Edge row.status target) (open_ : target ≠ .failed) :
    Prog.wp answered (fun _ => True) (Py.transitionTriaged { docId, toStatus := target, stage := target }).run
      (fun result s' => result = .ok () ∧ HasStatus docId target s') s := by
  rw [Py.wp_transitionTriaged_iff]
  intro w
  obtain ⟨correct, accepted⟩ := s.1.ledger.transition_of_edge 0 { docId, toStatus := target, stage := target }
    present rfl edge (fun failed => (open_ failed).elim)
  refine ⟨trivial, ?_⟩
  simp [answered, cooperative, pipeline, accepted, Py.triaged, Except.mapError, HasStatus, nextRow]

theorem Chunker.wp_answered_regions (config : ChunkerConfig) (docId : String) (hasHeadings : Bool)
    (regions : List Region) (s : System × Unit) :
    Prog.wp answered (fun _ => True)
      (regions.foldlM (fun allDrafts region => do
        let regionDrafts ← dispatchRegion injected hasHeadings docId region
        return allDrafts ++ (← mergeUndersizedTail injected config regionDrafts)) [] : Py (List ChunkDraft)).run
      (fun result s' => result = .ok [] ∧ s' = s) s := by
  induction regions generalizing s with
  | nil => exact ⟨rfl, rfl⟩
  | cons region rest ih =>
    have dispatched : Prog.wp answered (fun _ => True) (dispatchRegion injected hasHeadings docId region).run
        (fun result s' => result = .ok [] ∧ s' = s) s := by
      simp only [dispatchRegion]
      split <;> exact fun _ => ⟨trivial, rfl, rfl⟩
    simp only [List.foldlM_cons, Prog.wp_run_bind]
    refine Prog.wp_mono (fun result s' ended => ?_) dispatched
    obtain ⟨rfl, rfl⟩ := ended
    exact ih s'

theorem Embedder.wp_answered_batches (batches : List (List String)) (vectors : List (List Float)) (s : System × Unit) :
    Prog.wp answered (fun _ => True)
      (batches.foldlM (fun vectors batch => do return vectors ++ (← Py.embedBatch batch)) vectors :
        Py (List (List Float))).run
      (fun result s' => result = .ok (vectors ++ batches.flatten.map fun _ => []) ∧ s' = s) s := by
  induction batches generalizing vectors with
  | nil =>
    simp only [List.flatten_nil, List.map_nil, List.append_nil]
    exact ⟨rfl, rfl⟩
  | cons batch rest ih =>
    simp only [List.foldlM_cons, Prog.wp_run_bind]
    have later := ih (vectors ++ batch.map fun _ => [])
    simp only [List.append_assoc, ← List.map_append, ← List.flatten_cons] at later
    exact fun _ => ⟨trivial, later⟩

theorem Embedder.wp_answered_embedAll (self : Embedder) (chunks : List Chunk)
    (positive : 0 < effectiveBatchSize self.config.batchSize self.adapter.maxBatchSize) (s : System × Unit) :
    Prog.wp answered (fun _ => True) (self.embedAll chunks).run
      (fun result s' => (∃ value, result = .ok value) ∧ s' = s) s := by
  simp only [embedAll, Prog.wp_run_bind, wp_ofExcept, Prog.wp_run_pure]
  cases split : batched (chunks.map fun chunk => applyPrefix chunk.text self.adapter.documentPrefix)
      (effectiveBatchSize self.config.batchSize self.adapter.maxBatchSize) with
  | error exc =>
    have nonzero : effectiveBatchSize self.config.batchSize self.adapter.maxBatchSize ≠ 0 := by omega
    simp only [batched, nonzero, if_false] at split
    split_ifs at split
  | ok batches =>
    refine Prog.wp_mono (fun result s' ended => ?_) (wp_answered_batches batches [] s)
    rw [batched_flatten positive split, List.nil_append, List.map_map] at ended
    obtain ⟨rfl, rfl⟩ := ended
    simp only [zipStrict, List.length_map, lt_irrefl, if_false]
    exact ⟨⟨_, rfl⟩, trivial⟩

theorem wp_answered_recover_advance {α : Type} {docId : String} {stage next : Status} {p : Py α}
    {handle : Exc → Py α} {s : System × Unit}
    (works : Prog.wp answered (fun _ => True) p.run (fun result s' => (∃ value, result = .ok value) ∧ s' = s) s)
    (waiting : HasStatus docId stage s) (edge : Edge stage next) (open_ : next ≠ .failed) :
    Prog.wp answered (fun _ => True)
      (do
        let value ← tryCatch p handle
        Py.transitionTriaged { docId, toStatus := next, stage := next }
        return value : Py α).run
      (fun _ s' => HasStatus docId next s') s := by
  simp only [Prog.wp_run_bind, Prog.wp_run_tryCatch, Prog.wp_run_pure]
  refine Prog.wp_mono (fun result s' ended => ?_) works
  obtain ⟨⟨value, rfl⟩, rfl⟩ := ended
  obtain ⟨row, present, status⟩ := waiting.exists
  refine Prog.wp_mono (fun exit s'' ended => ?_) (wp_answered_transition present (status ▸ edge) open_)
  obtain ⟨rfl, reached⟩ := ended
  exact reached

namespace Duplicates

theorem wp_answered_program (pair : Duplicates) (envelope : ArrivalEnvelope) {worker : Bool}
    (able : (pair.call worker).CanAdvance) {s : System × Unit} (waiting : HasStatus envelope.docId pair.stage s) :
    Prog.wp answered (fun _ => True) ((pair.call worker).program envelope).run
      (fun _ s' => HasStatus envelope.docId pair.next s') s := by
  cases pair with
  | chunkers hexdigest config elements =>
    change Prog.wp answered _ (Chunker.chunk hexdigest (config worker) envelope (elements worker)).run _ _
    cases given : elements worker with
    | nil => exact (able given).elim
    | cons first rest =>
      have atChunking : HasStatus envelope.docId .chunking s := waiting
      refine wp_answered_recover_advance (p := Chunker.assembleChunks hexdigest (config worker) envelope.docId
        (first :: rest)) ?_ atChunking (by decide) (by decide)
      simp only [Chunker.assembleChunks, Chunker.assembleDrafts, Prog.wp_run_bind]
      refine Prog.wp_mono (fun result s' ended => ?_) (Chunker.wp_answered_regions _ envelope.docId _ _ s)
      obtain ⟨rfl, rfl⟩ := ended
      exact ⟨⟨[], rfl⟩, rfl⟩
  | embedders embedder chunks =>
    obtain ⟨accepts, positive⟩ := able
    change Prog.wp answered _ ((embedder worker).embed envelope (chunks worker)).run _ _
    rw [Embedder.embed_of_accepts _ envelope accepts]
    have atEmbedding : HasStatus envelope.docId .embedding s := waiting
    refine wp_answered_recover_advance ?_ atEmbedding (by decide) (by decide)
    exact (embedder worker).wp_answered_embedAll (chunks worker) positive s

def waitingSystem (pair : Duplicates) (envelope : ArrivalEnvelope) : System × Unit :=
  ({ ledger := InMemoryLedgerStore.empty.put envelope.docId
      { docId := envelope.docId, status := pair.stage, stage := pair.stage, attempts := 1,
        attemptsNonneg := Int.one_nonneg, configVersion := "v1", ingestedAt := 0, updatedAt := 0 }
      ⟨envelope.docIdFormat, rfl, rfl, by cases pair <;> simp [stage]⟩ }, ())

theorem waitingSystem_status (pair : Duplicates) (envelope : ArrivalEnvelope) :
    HasStatus envelope.docId pair.stage (pair.waitingSystem envelope) := by
  simp [HasStatus, waitingSystem]

theorem not_progressKept (pair : Duplicates) (envelope : ArrivalEnvelope) {worker : Bool}
    (rejected : (pair.call worker).Rejected) (able : (pair.call (!worker)).CanAdvance) {s : System × Unit}
    (waiting : HasStatus envelope.docId pair.stage s) : ¬ pair.ProgressKept envelope s := by
  intro kept
  -- The other worker runs to its end first; the rejected one still has its only write to make.
  obtain ⟨schedule, reached⟩ := Pool.exists_schedule (pipeline idleIndex) cooperative (!worker) (pair.start envelope s)
  have advanced := Prog.run_of_wp (pair.wp_answered_program envelope able waiting) (fun _ => ())
  have ended := reached _ rfl
  obtain ⟨row, present, status⟩ := advanced.exists
  obtain ⟨code, reason, terminal⟩ := (pair.call worker).program_of_rejected envelope rejected
  obtain ⟨past, edge⟩ := pair.next_past
  have untouched : (Pool.run (pipeline idleIndex) schedule (pair.start envelope s)).threads worker =
      ((pair.call worker).program envelope).run := by
    rw [ended]
    exact Function.update_of_ne (by simp) _ _
  have due : ((Pool.run (pipeline idleIndex) schedule (pair.start envelope s)).threads worker).nextOp =
      some (.ledgerTransition (Py.errorRequest .failed envelope.docId code reason)) := by
    rw [untouched, terminal]
    rfl
  have state := congrArg Pool.state ended
  refine kept schedule worker ({}, ()) row (by rw [state]; exact present) (status ▸ past) ?_
  rw [Pool.step_state due, state]
  obtain ⟨correct, accepted⟩ := InMemoryLedgerStore.transition_of_edge _ 0
    (Py.errorRequest .failed envelope.docId code reason) present rfl (status ▸ edge) (by simp [Py.errorRequest])
  have written := congrArg (fun written => written.2.get envelope.docId) accepted
  simp only [InMemoryLedgerStore.get_put, Py.errorRequest, if_true] at written
  exact (congrArg (Option.map LedgerRow.status) written)

theorem progress_kept_iff (pair : Duplicates) (envelope : ArrivalEnvelope) :
    (∀ s, HasStatus envelope.docId pair.stage s → pair.ProgressKept envelope s) ↔
      ¬ ∃ worker, (pair.call worker).Rejected ∧ (pair.call (!worker)).CanAdvance := by
  constructor
  · rintro kept ⟨worker, rejected, able⟩
    exact pair.not_progressKept envelope rejected able (pair.waitingSystem_status envelope)
      (kept _ (pair.waitingSystem_status envelope))
  · intro agree s waiting
    by_cases passes : ∀ worker, ¬ (pair.call worker).Rejected
    next => exact pair.progressKept_of_no_failing_write envelope passes s
    next =>
      obtain ⟨worker, rejected⟩ := not_forall_not.mp passes
      refine pair.progressKept_of_no_advance envelope (fun other able => ?_) waiting
      by_cases same : other = worker
      next => exact (pair.call worker).not_canAdvance_of_rejected rejected (same ▸ able)
      next => exact agree ⟨worker, rejected, Bool.eq_not_of_ne same ▸ able⟩

-- One delivery carries a paragraph, the other one nothing.
def unequalChunkers : Duplicates :=
  .chunkers (fun _ => "") (fun _ => {}) fun worker => if worker then [] else [{ type := .paragraph, text := "text" }]

theorem straggler_fails_advanced_row :
    ¬ unequalChunkers.ProgressKept StageCall.sampleEnvelope
      (unequalChunkers.waitingSystem StageCall.sampleEnvelope) := by
  intro kept
  have advanced : HasStatus StageCall.sampleEnvelope.docId .embedding
      (Pool.run (pipeline idleIndex) [(false, ({}, ())), (false, ({}, ()))]
        (unequalChunkers.start StageCall.sampleEnvelope
          (unequalChunkers.waitingSystem StageCall.sampleEnvelope))).state := by
    decide
  obtain ⟨row, present, status⟩ := advanced.exists
  exact kept _ true ({}, ()) row present (by rw [status]; decide) (by decide)

end Duplicates

end Vestibule
