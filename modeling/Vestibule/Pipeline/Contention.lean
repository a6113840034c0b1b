import Vestibule.Ledger.Triage
import Vestibule.Pipeline.Outcome

set_option autoImplicit false

namespace Vestibule

open Library

-- Before each operation of a call, other workers, reviewers and operators may have made any calls on the
-- ledger.

section Contended

variable {V X : Type}

def interfere (calls : List LedgerCall) (s : System × X) : System × X :=
  ({ s.1 with ledger := runCallsFrom s.1.ledger calls }, s.2)

def contended (adapter : IndexerAdapter V X) : Handler Effects (List LedgerCall × World × V) (System × X) :=
  fun w o s => pipeline adapter w.2 o (interfere w.1 s)

abbrev ContendedVisit (V X : Type) := Prog.Visit Effects (List LedgerCall × World × V) (System × X)

def found (visit : ContendedVisit V X) : InMemoryLedgerStore := (interfere visit.world.1 visit.state).1.ledger

end Contended

def EscapesBenign {α : Type} (result : Except Exc α) : Prop :=
  ∃ fault, result = .error (.ledgerTransitionInvalid fault) ∧
    isBenignConcurrentLoss fault.observedRow fault.attemptedToStatus fault.attemptedStage = true

@[simp]
theorem not_escapesBenign_ok {α : Type} (value : α) : ¬ EscapesBenign (.ok value : Except Exc α) := by
  simp [EscapesBenign]

@[simp]
theorem escapesBenign_error {α : Type} (exc : Exc) :
    EscapesBenign (.error exc : Except Exc α) ↔ ∃ fault, exc = .ledgerTransitionInvalid fault ∧
      isBenignConcurrentLoss fault.observedRow fault.attemptedToStatus fault.attemptedStage = true := by
  simp [EscapesBenign]

theorem triaged_answer (s : InMemoryLedgerStore) (now : DateTime) {request : TransitionRequest}
    (mirrored : request.stage = request.toStatus)
    (explained : request.toStatus = .failed → request.errorCode ≠ none) :
    ¬ EscapesBenign (Py.triaged request ((s.transition now request).1.mapError Exc.ofLedgerFault)) ∧
      (Py.triaged request ((s.transition now request).1.mapError Exc.ofLedgerFault) = .ok () →
        ∃ row, (s.transition now request).2.get request.docId = some row ∧
          (row.status = request.toStatus ∨ Overtakes row.status request.toStatus)) := by
  rcases transition_answer s now request mirrored explained with ⟨row, correct, present, edge, accepted⟩ |
    ⟨fault, rejected, observed, target, stage, noEdge⟩ | ⟨fault, rejected, absent⟩
  next =>
    rw [accepted]
    exact ⟨not_escapesBenign_ok _, fun _ => ⟨nextRow now row request, by simp, .inl rfl⟩⟩
  next =>
    simp only [rejected, Except.mapError, Exc.ofLedgerFault, Py.triaged, observed, mirrored]
    split
    next benign =>
      obtain ⟨-, row, present, overtakes⟩ := overtakes_of_benign benign
      exact ⟨not_escapesBenign_ok _, fun _ => ⟨row, present, .inr overtakes⟩⟩
    next refused =>
      refine ⟨?_, by simp⟩
      simpa [observed, target, stage] using refused
  next =>
    simp only [rejected, Except.mapError, Exc.ofLedgerFault, Py.triaged]
    simp

def Past (stage status : Status) : Prop :=
  status ∈ forwardOrder ∧ forwardOrder.idxOf stage < forwardOrder.idxOf status

instance (stage status : Status) : Decidable (Past stage status) := inferInstanceAs (Decidable (_ ∧ _))

theorem past_iff {stage : Status} (running : stage ∉ terminalStatuses) (forward : stage ∈ forwardOrder)
    (status : Status) : Past stage status ↔ Overtakes status stage ∧ ¬ Edge status stage := by
  revert running forward
  cases stage <;> cases status <;> decide

-- An untriaged retry is refused as benign exactly on a row that is further along.
theorem retry_answer (s : InMemoryLedgerStore) (now : DateTime) {stage : Status} (running : stage ∉ terminalStatuses)
    (forward : stage ∈ forwardOrder) (docId errorCode reason : String) :
    EscapesBenign ((s.transition now (Py.errorRequest stage docId errorCode reason)).1.mapError Exc.ofLedgerFault) ↔
      ∃ row, s.get docId = some row ∧ Past stage row.status := by
  rcases transition_answer s now (Py.errorRequest stage docId errorCode reason) rfl
      (by simp [Py.errorRequest]) with ⟨row, correct, present, edge, accepted⟩ |
    ⟨fault, rejected, observed, target, attempted, noEdge⟩ | ⟨fault, rejected, absent⟩
  next =>
    rw [accepted]
    refine iff_of_false (not_escapesBenign_ok _) ?_
    rintro ⟨other, same, past⟩
    obtain rfl : row = other := Option.some.inj (present.symm.trans same)
    exact ((past_iff running forward row.status).mp past).2 edge
  next =>
    simp only [rejected, Except.mapError, Exc.ofLedgerFault, escapesBenign_error, Exc.ledgerTransitionInvalid.injEq,
      exists_eq_left', observed, target, attempted]
    constructor
    · intro benign
      obtain ⟨-, row, present, overtakes⟩ := overtakes_of_benign benign
      exact ⟨row, present, (past_iff running forward row.status).mpr ⟨overtakes, noEdge row present⟩⟩
    · rintro ⟨row, present, past⟩
      change isBenignConcurrentLoss (s.get docId) stage stage = true
      rw [present, isBenign_mirrored (s.wellFormed docId row present).mirrored]
      exact ((past_iff running forward row.status).mp past).1
  next =>
    have missing : s.get docId = none := absent
    simp [rejected, Except.mapError, Exc.ofLedgerFault, missing]

section Retries

variable {V X α : Type} {adapter : IndexerAdapter V X} {stage : Status}

def OvertakenRetry (stage : Status) (visit : ContendedVisit V X) : Prop :=
  ∃ request row, visit.op = .ledgerTransition request ∧ request.toStatus = stage ∧
    (found visit).get request.docId = some row ∧ Past stage row.status

def NoneOvertaken (stage : Status) (visits : List (ContendedVisit V X)) : Prop :=
  ∀ visit ∈ visits, ¬ OvertakenRetry stage visit

theorem noneOvertaken_append {visits : List (ContendedVisit V X)} {visit : ContendedVisit V X}
    (before : NoneOvertaken stage visits) :
    NoneOvertaken stage (visits ++ [visit]) ↔ ¬ OvertakenRetry stage visit := by
  simp only [NoneOvertaken, List.mem_append, List.mem_singleton]
  constructor
  · exact fun each => each visit (.inr rfl)
  · rintro last other (old | rfl)
    · exact before other old
    · exact last

theorem wp_journaled_triaged {request : TransitionRequest} (mirrored : request.stage = request.toStatus)
    (explained : request.toStatus = .failed → request.errorCode ≠ none) (other : request.toStatus ≠ stage)
    (s : System × X) {seen : List (ContendedVisit V X)} (before : NoneOvertaken stage seen) :
    Prog.wp (Prog.journaled (contended adapter)) (fun _ => True) (Py.transitionTriaged request).run
      (fun result journal => ¬ EscapesBenign result ∧ NoneOvertaken stage journal.2) (s, seen) := by
  rw [Py.wp_transitionTriaged_iff]
  intro w
  refine ⟨trivial, (triaged_answer _ _ mirrored explained).1, (noneOvertaken_append before).mpr ?_⟩
  rintro ⟨written, row, same, target, -⟩
  cases same
  exact other target

theorem wp_journaled_terminalize (kind : ErrorKind) (docId errorCode reason : String) (other : stage ≠ .failed)
    (s : System × X) {seen : List (ContendedVisit V X)} (before : NoneOvertaken stage seen) :
    Prog.wp (Prog.journaled (contended adapter)) (fun _ => True)
      (Py.terminalize kind docId errorCode reason : Py α).run
      (fun result journal => ¬ EscapesBenign result ∧ NoneOvertaken stage journal.2) (s, seen) := by
  simp only [Py.terminalize, Prog.wp_run_bind, Prog.wp_run_throw]
  refine Prog.wp_mono (fun result journal ended => ?_)
    (wp_journaled_triaged rfl (by simp [Py.errorRequest]) other.symm s before)
  cases result with
  | ok _ => exact ⟨by simp, ended.2⟩
  | error exc => exact ⟨by simpa using ended.1, ended.2⟩

theorem wp_journaled_selfTransition (running : stage ∉ terminalStatuses) (forward : stage ∈ forwardOrder)
    (kind : ErrorKind) (docId errorCode reason : String) (s : System × X) {seen : List (ContendedVisit V X)}
    (before : NoneOvertaken stage seen) :
    Prog.wp (Prog.journaled (contended adapter)) (fun _ => True)
      (Py.selfTransitionAndRaise kind stage docId errorCode reason : Py α).run
      (fun result journal => ∃ exc, result = .error exc ∧
        (¬ EscapesBenign result ↔ NoneOvertaken stage journal.2)) (s, seen) := by
  simp only [Py.selfTransitionAndRaise, Prog.wp_run_bind, Prog.wp_run_throw]
  intro w
  refine ⟨trivial, ?_⟩
  have answer := retry_answer (interfere w.1 s).1.ledger w.2.1.now running forward docId errorCode reason
  have overtaken : NoneOvertaken stage
      (seen ++ [⟨w, .ledgerTransition (Py.errorRequest stage docId errorCode reason), s⟩]) ↔
      ¬ ∃ row, (interfere w.1 s).1.ledger.get docId = some row ∧ Past stage row.status := by
    rw [noneOvertaken_append before]
    refine not_congr ⟨?_, ?_⟩
    · rintro ⟨request, row, same, -, present, past⟩
      cases same
      exact ⟨row, present, past⟩
    · rintro ⟨row, present, past⟩
      exact ⟨_, row, rfl, rfl, present, past⟩
  rw [← answer] at overtaken
  revert overtaken
  simp only [Prog.journaled, contended, pipeline]
  cases ((interfere w.1 s).1.ledger.transition w.2.1.now (Py.errorRequest stage docId errorCode reason)).1 with
  | ok row =>
    intro overtaken
    simpa [Except.mapError, Prog.wp] using overtaken
  | error fault =>
    intro overtaken
    simpa [Except.mapError, Prog.wp] using overtaken.symm

theorem wp_journaled_recover_advance {next : Status} (kind : ErrorKind) {docId : String} {p : Py α}
    {handle : Exc → Py α} (uses : p.run.Uses NoWrite) (running : stage ∉ terminalStatuses)
    (forward : stage ∈ forwardOrder) (advances : next ≠ stage) (open_ : next ≠ .failed)
    (recovers : ∀ exc, ∃ code reason, handle exc = Py.selfTransitionAndRaise kind stage docId code reason)
    (s : System × X) :
    Prog.wp (Prog.journaled (contended adapter)) (fun _ => True)
      (do
        let value ← tryCatch p handle
        Py.transitionTriaged { docId, toStatus := next, stage := next }
        return value : Py α).run
      (fun result journal => ¬ EscapesBenign result ↔ NoneOvertaken stage journal.2) (s, []) := by
  simp only [Prog.wp_run_bind, Prog.wp_run_tryCatch, Prog.wp_run_pure]
  have idle (visit : ContendedVisit V X) (noWrite : NoWrite visit.op) : ¬ OvertakenRetry stage visit := by
    rintro ⟨request, row, writes, -⟩
    exact noWrite ⟨request, writes⟩
  refine Prog.wp_mono (fun result journal before => ?_)
    (Prog.wp_journaled_of_uses uses idle s (by simp))
  obtain ⟨s', seen⟩ := journal
  cases result with
  | ok value =>
    refine Prog.wp_mono (fun exit journal ended => ?_)
      (wp_journaled_triaged rfl (fun failed => (open_ failed).elim) advances s' before)
    cases exit with
    | ok _ => exact iff_of_true (by simp) ended.2
    | error exc => exact iff_of_true (by simpa using ended.1) ended.2
  | error exc =>
    obtain ⟨code, reason, retried⟩ := recovers exc
    simp only [retried]
    refine Prog.wp_mono (fun result journal ended => ?_)
      (wp_journaled_selfTransition running forward kind docId code reason s' before)
    obtain ⟨exc, rfl, agrees⟩ := ended
    exact agrees

end Retries

theorem Chunker.wp_journaled_chunk {V X : Type} (adapter : IndexerAdapter V X) (hexdigest : ByteArray → String)
    (config : ChunkerConfig) (envelope : ArrivalEnvelope) (elements : List Element) (s : System × X) :
    Prog.wp (Prog.journaled (contended adapter)) (fun _ => True) (chunk hexdigest config envelope elements).run
      (fun result journal => ¬ EscapesBenign result ↔ NoneOvertaken .chunking journal.2) (s, []) := by
  cases elements with
  | nil =>
    rw [chunk_nil]
    exact Prog.wp_mono (fun _ _ ended => iff_of_true ended.1 ended.2)
      (wp_journaled_terminalize .chunker _ _ _ (by decide) s (by simp [NoneOvertaken]))
  | cons first rest =>
    refine wp_journaled_recover_advance .chunker
      (assembleChunks_noWrite hexdigest config envelope.docId (first :: rest)) (by decide) (by decide) (by decide)
      (by decide) (fun exc => ?_) s
    split
    · split <;> exact ⟨_, _, rfl⟩
    · exact ⟨_, _, rfl⟩

theorem Embedder.wp_journaled_embed {V X : Type} (adapter : IndexerAdapter V X) (self : Embedder)
    (envelope : ArrivalEnvelope) (chunks : List Chunk) (s : System × X) :
    Prog.wp (Prog.journaled (contended adapter)) (fun _ => True) (self.embed envelope chunks).run
      (fun result journal => ¬ EscapesBenign result ↔ NoneOvertaken .embedding journal.2) (s, []) := by
  by_cases accepts : Accepts self chunks
  · rw [embed_of_accepts self envelope accepts]
    refine wp_journaled_recover_advance .embedder (embedAll_noWrite self chunks) (by decide) (by decide) (by decide)
      (by decide) (fun exc => ?_) s
    split
    · split <;> exact ⟨_, _, rfl⟩
    · exact ⟨_, _, rfl⟩
  · obtain ⟨code, -, reason, rejected⟩ := embed_of_not_accepts self envelope accepts
    rw [rejected]
    exact Prog.wp_mono (fun _ _ ended => iff_of_true ended.1 ended.2)
      (wp_journaled_terminalize .embedder _ _ _ (by decide) s (by simp [NoneOvertaken]))

theorem benign_loss_escapes_only_overtaken_retry {V X : Type} (adapter : IndexerAdapter V X)
    (envelope : ArrivalEnvelope) (s : System × X) (oracle : Nat → List LedgerCall × World × V) :
    (∀ hexdigest config elements,
      ¬ EscapesBenign
          (Prog.run (contended adapter) (Chunker.chunk hexdigest config envelope elements).run oracle s).1 ↔
        NoneOvertaken .chunking
          (Prog.visits (contended adapter) (Chunker.chunk hexdigest config envelope elements).run oracle s)) ∧
    (∀ (embedder : Embedder) (chunks : List Chunk),
      ¬ EscapesBenign (Prog.run (contended adapter) (embedder.embed envelope chunks).run oracle s).1 ↔
        NoneOvertaken .embedding
          (Prog.visits (contended adapter) (embedder.embed envelope chunks).run oracle s)) := by
  constructor
  · intro hexdigest config elements
    exact Prog.visits_of_wp (Chunker.wp_journaled_chunk adapter hexdigest config envelope elements s) oracle
  · intro embedder chunks
    exact Prog.visits_of_wp (embedder.wp_journaled_embed adapter envelope chunks s) oracle

-- The strategy raises, and a second worker finishes chunking before the retry is recorded.
def overtakenChunker : Nat → List LedgerCall × World × Unit
  | 0 => ([], { drafts := .error (.other "tokenizer not loaded") }, ())
  | _ => ([.transition 1 { docId := digestAbc, toStatus := .embedding, stage := .embedding }], {}, ())

def chunkingSystem : System × Unit :=
  ({ ledger := InMemoryLedgerStore.empty.put digestAbc
      { docId := digestAbc, status := .chunking, stage := .chunking, attempts := 1, attemptsNonneg := Int.one_nonneg,
        configVersion := "v1", ingestedAt := 0, updatedAt := 0 }
      ⟨digestAbc_hex, rfl, rfl, by simp⟩ }, ())

theorem chunker_lets_benign_loss_escape :
    EscapesBenign (Prog.run (contended idleIndex)
      (Chunker.chunk (fun _ => "") {} StageCall.sampleEnvelope [{ type := .paragraph, text := "text" }]).run
      overtakenChunker chunkingSystem).1 :=
  ⟨_, rfl, by decide⟩

theorem runCallsFrom_closed {s : InMemoryLedgerStore} {docId : String} {row : LedgerRow}
    (present : s.get docId = some row) (closed : row.status = .indexed ∨ row.status = .archived)
    (calls : List LedgerCall) : (runCallsFrom s calls).get docId = some row := by
  induction calls generalizing s with
  | nil => exact present
  | cons call rest ih => exact ih (apply_closed present closed)

theorem pipeline_closed {V X : Type} (adapter : IndexerAdapter V X) (w : World × V) (o : Op) {s : System × X}
    {docId : String} {row : LedgerRow} (present : s.1.ledger.get docId = some row)
    (closed : row.status = .indexed ∨ row.status = .archived) :
    (pipeline adapter w o s).2.1.ledger.get docId = some row := by
  cases o with
  | ledgerTransition request => exact @apply_closed _ (.transition w.1.now request) _ _ present closed
  | _ => exact present

section Indexing

variable {V X α : Type} {adapter : IndexerAdapter V X} {docId : String}

theorem wp_contended_triaged {request : TransitionRequest} (mirrored : request.stage = request.toStatus)
    (explained : request.toStatus = .failed → request.errorCode ≠ none) (s : System × X) :
    Prog.wp (contended adapter) (fun _ => True) (Py.transitionTriaged request).run
      (fun result s' => ¬ EscapesBenign result ∧ (result = .ok () → ∃ row,
        s'.1.ledger.get request.docId = some row ∧
          (row.status = request.toStatus ∨ Overtakes row.status request.toStatus))) s := by
  rw [Py.wp_transitionTriaged_iff]
  exact fun w => ⟨trivial, triaged_answer _ _ mirrored explained⟩

/-- The program raises, and no benign loss gets out. -/
def RaisesItsOwn (adapter : IndexerAdapter V X) (p : Py α) (s : System × X) : Prop :=
  Prog.wp (contended adapter) (fun _ => True) p.run
    (fun result _ => ∃ exc, result = .error exc ∧ ¬ EscapesBenign (.error exc : Except Exc Unit)) s

theorem raisesItsOwn_of_triaged {request : TransitionRequest} (mirrored : request.stage = request.toStatus)
    (explained : request.toStatus = .failed → request.errorCode ≠ none) (kind : ErrorKind)
    (subject reason errorCode : String) (s : System × X) :
    RaisesItsOwn adapter (do
      Py.transitionTriaged request
      throw (.ragged kind subject reason errorCode) : Py α) s := by
  simp only [RaisesItsOwn, Prog.wp_run_bind, Prog.wp_run_throw]
  refine Prog.wp_mono (fun result s' ended => ?_) (wp_contended_triaged mirrored explained s)
  cases result with
  | ok _ => exact ⟨_, rfl, by simp⟩
  | error exc => exact ⟨exc, rfl, ended.1⟩

theorem buildRecord_error {envelope : ArrivalEnvelope} {configVersion : String} {indexedAt : DateTime}
    {ec : EmbeddedChunk} {exc : Exc}
    (refused : Indexer.buildRecord docId envelope configVersion indexedAt ec = .error exc) :
    exc = .validationError "IndexRecord" "section_path" := by
  simp only [Indexer.buildRecord] at refused
  cases path : Indexer.sectionPath ec.chunk.metadata with
  | ok found => simp [path, Bind.bind, Except.bind, Pure.pure, Except.pure] at refused
  | error fault =>
    obtain rfl : fault = exc := by simpa [path, Bind.bind, Except.bind] using refused
    simp only [Indexer.sectionPath] at path
    split at path <;> simp_all

theorem wp_contended_buildRecords (envelope : ArrivalEnvelope) (embeddedChunks : List EmbeddedChunk)
    (s : System × X) :
    Prog.wp (contended adapter) (fun _ => True) (Indexer.buildRecords docId envelope embeddedChunks).run
      (fun result _ => ¬ EscapesBenign result) s := by
  intro first
  refine ⟨trivial, fun second => ⟨trivial, ?_⟩⟩
  change ¬ EscapesBenign (embeddedChunks.mapM (Indexer.buildRecord docId envelope
    (Indexer.configVersionOf ((interfere first.1 s).1.ledger.get docId)) second.2.1.now))
  cases built : embeddedChunks.mapM (Indexer.buildRecord docId envelope
      (Indexer.configVersionOf ((interfere first.1 s).1.ledger.get docId)) second.2.1.now) with
  | ok records => exact not_escapesBenign_ok records
  | error exc =>
    obtain ⟨ec, -, refused⟩ := source_of_mapM_error built
    rw [buildRecord_error refused]
    simp

theorem wp_contended_runWithRecovery (self : Indexer) (records : List IndexRecord) (s : System × X) :
    Prog.wp (contended adapter) (fun _ => True) (self.runWithRecovery docId records).run
      (fun result _ => ¬ EscapesBenign result) s := by
  have recovers {p : Py IndexResult} {s : System × X} (raises : RaisesItsOwn adapter p s) :
      Prog.wp (contended adapter) (fun _ => True) p.run (fun result _ => ¬ EscapesBenign result) s := by
    refine Prog.wp_mono (fun result _ ended => ?_) raises
    obtain ⟨exc, rfl, own⟩ := ended
    simpa using own
  have again (code reason : String) (s : System × X) :
      RaisesItsOwn adapter (Indexer.selfTransitionAndRaise docId code reason : Py IndexResult) s :=
    raisesItsOwn_of_triaged rfl (by simp [Py.errorRequest]) .indexer docId reason code s
  simp only [Indexer.runWithRecovery, Prog.wp_run_tryCatch]
  -- Whatever the adapter raises, a lost race of its own included, is caught and mapped to a code.
  refine Prog.wp_mono (fun result s' _ => ?_) (Prog.wp_trivial _ s)
  cases result with
  | ok receipt => exact not_escapesBenign_ok receipt
  | error exc =>
    simp only
    split
    · split
      · exact recovers (raisesItsOwn_of_triaged rfl (by simp [Py.errorRequest]) .indexer docId _ _ s')
      · split <;> exact recovers (again _ _ s')
    · exact recovers (again _ _ s')

theorem wp_contended_index (adapter : IndexerAdapter V X) (self : Indexer) (envelope : ArrivalEnvelope)
    (embeddedChunks : List EmbeddedChunk) (s : System × X) :
    Prog.wp (contended adapter) (fun _ => True) (self.index envelope embeddedChunks).run
      (fun result s' => ¬ EscapesBenign result ∧ ∀ receipt, result = .ok receipt →
        ∃ row, s'.1.ledger.get envelope.docId = some row ∧ row.status = .indexed) s := by
  by_cases accepts : self.Accepts embeddedChunks
  · rw [self.index_of_accepts accepts]
    simp only [Prog.wp_run_bind, Indexer.transitionToIndexed, Prog.wp_run_pure]
    refine Prog.wp_mono (fun built s' quiet => ?_) (wp_contended_buildRecords envelope embeddedChunks s)
    cases built with
    | error exc => exact ⟨by simpa using quiet, by simp⟩
    | ok records =>
      refine Prog.wp_mono (fun result s'' quiet => ?_) (wp_contended_runWithRecovery self records s')
      cases result with
      | error exc => exact ⟨quiet, by simp⟩
      | ok receipt =>
        refine Prog.wp_mono (fun exit s''' ended => ?_) (wp_contended_triaged rfl (by simp) s'')
        cases exit with
        | error exc => exact ⟨by simpa using ended.1, by simp⟩
        | ok _ =>
          obtain ⟨row, present, reached⟩ := ended.2 rfl
          have atEnd (status : Status) (past : status = .indexed ∨ Overtakes status .indexed) :
              status = .indexed := by
            revert past
            cases status <;> decide
          exact ⟨not_escapesBenign_ok receipt, fun _ _ => ⟨row, present, atEnd row.status reached⟩⟩
  · obtain ⟨code, -, reason, rejected⟩ := self.index_of_not_accepts envelope accepts
    rw [rejected]
    have raises : RaisesItsOwn adapter (Py.terminalize .indexer envelope.docId code reason : Py IndexResult) s :=
      raisesItsOwn_of_triaged rfl (by simp [Py.errorRequest]) .indexer envelope.docId reason code s
    refine Prog.wp_mono (fun result _ ended => ?_) raises
    obtain ⟨exc, rfl, own⟩ := ended
    exact ⟨by simpa using own, by simp⟩

end Indexing

theorem index_among_other_writers {V X : Type} (adapter : IndexerAdapter V X) (indexer : Indexer)
    (envelope : ArrivalEnvelope) (embeddedChunks : List EmbeddedChunk) (s : System × X)
    (oracle : Nat → List LedgerCall × World × V) :
    (∀ fault, (Prog.run (contended adapter) (indexer.index envelope embeddedChunks).run oracle s).1 =
        .error (.ledgerTransitionInvalid fault) →
      isBenignConcurrentLoss fault.observedRow fault.attemptedToStatus fault.attemptedStage = false) ∧
    (∀ visit ∈ Prog.visits (contended adapter) (indexer.index envelope embeddedChunks).run oracle s,
      ∀ docId row, (found visit).get docId = some row → row.status = .indexed ∨ row.status = .archived →
        (contended adapter visit.world visit.op visit.state).2.1.ledger.get docId = some row) ∧
    (∀ receipt, (Prog.run (contended adapter) (indexer.index envelope embeddedChunks).run oracle s).1 =
        .ok receipt →
      ∃ row, row.status = .indexed ∧ ∀ more, (runCallsFrom (Prog.run (contended adapter)
        (indexer.index envelope embeddedChunks).run oracle s).2.1.ledger more).get envelope.docId = some row) := by
  have ended := Prog.run_of_wp (wp_contended_index adapter indexer envelope embeddedChunks s) oracle
  refine ⟨fun fault escaped => ?_, fun visit _ docId row present closed => ?_, fun receipt returned => ?_⟩
  next => simpa [escaped] using ended.1
  next => exact pipeline_closed adapter visit.world.2 visit.op present closed
  next =>
    obtain ⟨row, present, indexed⟩ := ended.2 receipt returned
    exact ⟨row, indexed, runCallsFrom_closed present (.inl indexed)⟩

end Vestibule
