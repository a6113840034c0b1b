import Vestibule.Chunker
import Vestibule.Embedder
import Vestibule.Indexer.Indexer

set_option autoImplicit false

namespace Vestibule

open Library

-- Each stage is run on a document whose row is in that stage, with no other writer: what the call raises or
-- returns, what the row becomes and the registered severity of the code agree.

section Ends

variable {V X α β : Type} {adapter : IndexerAdapter V X} {kind : ErrorKind} {docId : String}
  {stage next : Status} {before : LedgerRow}

def Raised (kind : ErrorKind) (docId : String) (stage : Status) (before : LedgerRow) (exc : Exc)
    (s : System × X) : Prop :=
  ∃ reason code row, exc = .ragged kind docId reason code ∧ s.1.ledger.get docId = some row ∧
    row.lastErrorCode = some code ∧
    (registeredSeverity code = some .permanent ∧ row.status = .failed ∨
      registeredSeverity code = some .transient ∧ row.status = stage ∧ row.attempts = before.attempts + 1)

def StageEnd (kind : ErrorKind) (docId : String) (stage next : Status) (before : LedgerRow) :
    Except Exc α → System × X → Prop
  | .ok _, s => ∃ row, s.1.ledger.get docId = some row ∧ row.status = next
  | .error exc, s => Raised kind docId stage before exc s

def Raises (adapter : IndexerAdapter V X) (kind : ErrorKind) (docId : String) (stage : Status)
    (before : LedgerRow) (p : Py α) (s : System × X) : Prop :=
  Prog.wp (pipeline adapter) (fun _ => True) p.run
    (fun result s => ∃ exc, result = .error exc ∧ Raised kind docId stage before exc s) s

theorem Raises.wp {p : Py α} {s : System × X} (raises : Raises adapter kind docId stage before p s)
    {Q : Except Exc α → System × X → Prop}
    (after : ∀ exc s, Raised kind docId stage before exc s → Q (.error exc) s) :
    Prog.wp (pipeline adapter) (fun _ => True) p.run Q s := by
  refine Prog.wp_mono (fun result s ended => ?_) raises
  obtain ⟨exc, rfl, raised⟩ := ended
  exact after exc s raised

theorem raises_terminalize {s : System × X} (present : s.1.ledger.get docId = some before)
    (edge : Edge before.status .failed) {code : String}
    (permanent : registeredSeverity code = some .permanent) (reason : String) :
    Raises adapter kind docId stage before (Py.terminalize kind docId code reason : Py α) s := by
  refine wp_terminalize kind docId code reason present edge fun s' row _ stored failed recorded => ?_
  exact ⟨trivial, _, rfl, reason, code, row, rfl, stored, recorded, .inl ⟨permanent, failed⟩⟩

theorem raises_selfTransition {s : System × X} (present : s.1.ledger.get docId = some before)
    (status : before.status = stage) (running : stage ∉ terminalStatuses) {code : String}
    (transient : registeredSeverity code = some .transient) (reason : String) :
    Raises adapter kind docId stage before
      (Py.selfTransitionAndRaise kind stage docId code reason : Py α) s := by
  refine wp_selfTransitionAndRaise kind stage docId code reason present status running
    fun s' row _ stored kept counted recorded => ?_
  exact ⟨trivial, _, rfl, reason, code, row, rfl, stored, recorded, .inr ⟨transient, kept, counted⟩⟩

theorem wp_noWrite {p : Py α} (uses : p.run.Uses NoWrite) (s : System × X) :
    Prog.wp (pipeline adapter) (fun _ => True) p.run (fun _ s' => s'.1.ledger = s.1.ledger) s := by
  refine Prog.wp_consequence (fun _ _ => trivial) (fun _ _ kept => kept)
    (Prog.wp_of_uses (I := fun s' : System × X => s'.1.ledger = s.1.ledger) uses (fun o idle w s' kept => ?_) rfl)
  cases o with
  | ledgerTransition request => exact (idle ⟨request, rfl⟩).elim
  | _ => exact kept

-- Work that leaves the ledger alone, its recovery, and the step to the next stage.
theorem wp_recover_advance {p : Py α} {handle : Exc → Py α} {s : System × X}
    (uses : p.run.Uses NoWrite) (present : s.1.ledger.get docId = some before)
    (edge : next ∈ legalTransitions before.status) (open_ : next ≠ .failed)
    (recovers : ∀ exc s', s'.1.ledger.get docId = some before →
      Raises adapter kind docId stage before (handle exc) s') :
    Prog.wp (pipeline adapter) (fun _ => True)
      (do
        let value ← tryCatch p handle
        Py.transitionTriaged { docId, toStatus := next, stage := next }
        return value : Py α).run
      (StageEnd kind docId stage next before) s := by
  simp only [Prog.wp_run_bind, Prog.wp_run_tryCatch, Prog.wp_run_pure]
  refine Prog.wp_mono (fun result s' same => ?_) (wp_noWrite uses s)
  rw [← same] at present
  cases result with
  | ok value =>
    refine wp_transitionTriaged _ present rfl (.inl edge) (fun failed => (open_ failed).elim)
      fun now s'' _ stored => ⟨trivial, ?_⟩
    exact ⟨_, stored, rfl⟩
  | error exc => exact (recovers exc s' present).wp fun _ _ raised => raised

end Ends

namespace Chunker

theorem mergeTail_noWrite (config : ChunkerConfig) (last : ChunkDraft) (predecessors : List ChunkDraft) :
    (mergeTail injected config last predecessors).run.Uses NoWrite := by
  induction predecessors generalizing last with
  | nil => exact Prog.uses_pure _
  | cons predecessor rest ih =>
    simp only [mergeTail]
    split
    · refine Prog.uses_run_bind (Prog.uses_run_bind (Prog.uses_perform ?_) fun _ => Prog.uses_pure _)
        fun merged => ih merged
      rintro ⟨request, same⟩
      cases same
    · exact Prog.uses_pure _

theorem mergeUndersizedTail_noWrite (config : ChunkerConfig) (drafts : List ChunkDraft) :
    (mergeUndersizedTail injected config drafts).run.Uses NoWrite := by
  simp only [mergeUndersizedTail]
  split
  · exact Prog.uses_pure _
  · exact Prog.uses_run_bind (mergeTail_noWrite config _ _) fun _ => Prog.uses_pure _

theorem dispatchRegion_noWrite (hasHeadings : Bool) (docId : String) (region : Region) :
    (dispatchRegion injected hasHeadings docId region).run.Uses NoWrite := by
  have chunkRegion (slot : StrategySlot) (elements : List Element) (captionText target : Option String) :
      (Py.chunkRegion slot elements captionText target).run.Uses NoWrite := by
    refine Prog.uses_perform ?_
    rintro ⟨request, same⟩
    cases same
  simp only [dispatchRegion]
  split
  · exact chunkRegion ..
  · exact chunkRegion ..

theorem assembleChunks_noWrite (hexdigest : ByteArray → String) (config : ChunkerConfig) (docId : String)
    (elements : List Element) : (assembleChunks hexdigest config docId elements).run.Uses NoWrite := by
  refine Prog.uses_run_bind (Prog.uses_run_foldlM _ _ fun drafts region _ => ?_) fun _ => trivial
  exact Prog.uses_run_bind (dispatchRegion_noWrite _ docId region) fun regionDrafts =>
    Prog.uses_run_bind (mergeUndersizedTail_noWrite config regionDrafts) fun _ => Prog.uses_pure _

theorem wp_chunk {V X : Type} (adapter : IndexerAdapter V X) (hexdigest : ByteArray → String)
    (config : ChunkerConfig) (envelope : ArrivalEnvelope) (elements : List Element) {before : LedgerRow}
    {s : System × X} (present : s.1.ledger.get envelope.docId = some before)
    (status : before.status = .chunking) :
    Prog.wp (pipeline adapter) (fun _ => True) (chunk hexdigest config envelope elements).run
      (StageEnd .chunker envelope.docId .chunking .embedding before) s := by
  cases elements with
  | nil =>
    have permanent : registeredSeverity chunkerEmptyElements = some .permanent := by decide
    rw [chunk_nil]
    exact (raises_terminalize present (by rw [status]; decide) permanent _).wp fun _ _ raised => raised
  | cons first rest =>
    refine wp_recover_advance (assembleChunks_noWrite hexdigest config envelope.docId (first :: rest)) present
      (by rw [status]; decide) (by decide) fun exc s' held => ?_
    have internal (reason : String) : Raises adapter .chunker envelope.docId .chunking before
        (Py.selfTransitionAndRaise .chunker .chunking envelope.docId chunkerInternal reason : Py (List Chunk)) s' :=
      raises_selfTransition held status (by decide) (by decide) reason
    split
    · split
      · exact raises_selfTransition held status (by decide) (by decide) _
      · exact internal _
    · exact internal _

end Chunker

namespace Embedder

theorem embedAll_noWrite (self : Embedder) (chunks : List Chunk) : (self.embedAll chunks).run.Uses NoWrite := by
  refine Prog.uses_run_bind trivial fun batches => Prog.uses_run_bind
    (Prog.uses_run_foldlM _ _ fun vectors batch _ => ?_) fun vectors => Prog.uses_run_bind trivial fun _ =>
      Prog.uses_pure _
  refine Prog.uses_run_bind (Prog.uses_perform ?_) fun _ => Prog.uses_pure _
  rintro ⟨request, same⟩
  cases same

theorem wp_embed {V X : Type} (adapter : IndexerAdapter V X) (self : Embedder) (envelope : ArrivalEnvelope)
    (chunks : List Chunk) {before : LedgerRow} {s : System × X}
    (present : s.1.ledger.get envelope.docId = some before) (status : before.status = .embedding) :
    Prog.wp (pipeline adapter) (fun _ => True) (self.embed envelope chunks).run
      (StageEnd .embedder envelope.docId .embedding .indexing before) s := by
  have toFailed : Edge before.status .failed := by rw [status]; decide
  have permanent : ∀ code ∈ validationCodes, registeredSeverity code = some .permanent := by decide
  have internalCode : registeredSeverity embedderInternal = some .transient := by decide
  have known : ∀ code ∈ knownAdapterErrorCodes, registeredSeverity code = some .transient := by decide
  by_cases accepts : Accepts self chunks
  · rw [embed_of_accepts self envelope accepts]
    refine wp_recover_advance (embedAll_noWrite self chunks) present (by rw [status]; decide)
      (by decide) fun exc s' held => ?_
    have internal (reason : String) : Raises adapter .embedder envelope.docId .embedding before
        (Py.selfTransitionAndRaise .embedder .embedding envelope.docId embedderInternal reason :
          Py (List EmbeddedChunk)) s' :=
      raises_selfTransition held status (by decide) internalCode reason
    split
    · split
      · next member => exact raises_selfTransition held status (by decide) (known _ member) _
      · exact internal _
    · exact internal _
  · obtain ⟨code, member, reason, rejected⟩ := embed_of_not_accepts self envelope accepts
    rw [rejected]
    exact (raises_terminalize present toFailed (permanent code member) reason).wp fun _ _ raised => raised

end Embedder

namespace Indexer

def WellTyped (embeddedChunks : List EmbeddedChunk) : Prop :=
  ∀ ec ∈ embeddedChunks, ∀ value, ec.chunk.metadata.get? "section_path" = some value →
    value = .none ∨ ∃ text, value = .str text

theorem exists_buildRecord {ec : EmbeddedChunk}
    (typed : ∀ value, ec.chunk.metadata.get? "section_path" = some value →
      value = .none ∨ ∃ text, value = .str text)
    (docId : String) (envelope : ArrivalEnvelope) (configVersion : String) (indexedAt : DateTime) :
    ∃ record, buildRecord docId envelope configVersion indexedAt ec = .ok record := by
  have path : ∃ path, sectionPath ec.chunk.metadata = .ok path := by
    cases held : ec.chunk.metadata.get? "section_path" with
    | none => exact ⟨none, by simp [sectionPath, held]⟩
    | some value =>
      rcases typed value held with rfl | ⟨text, rfl⟩
      · exact ⟨none, by simp [sectionPath, held]⟩
      · exact ⟨some text, by simp [sectionPath, held]⟩
  obtain ⟨path, found⟩ := path
  simp only [buildRecord, found]
  exact ⟨_, rfl⟩

theorem wp_buildRecords {V X : Type} {adapter : IndexerAdapter V X} {I : System × X → Prop}
    (docId : String) (envelope : ArrivalEnvelope) (embeddedChunks : List EmbeddedChunk) {s : System × X} (kept : I s)
    {Q : Except Exc (List IndexRecord) → System × X → Prop}
    (after : ∀ indexedAt, Q (embeddedChunks.mapM
      (buildRecord docId envelope (configVersionOf (s.1.ledger.get docId)) indexedAt)) s) :
    Prog.wp (pipeline adapter) I (buildRecords docId envelope embeddedChunks).run Q s := by
  simp only [buildRecords, configVersionFor, Prog.wp_run_bind, Prog.wp_run_pure, wp_ledgerGet, wp_now,
    wp_ofExcept]
  intro _
  exact ⟨kept, fun w => ⟨kept, after w.1.now⟩⟩

theorem exists_buildRecords {embeddedChunks : List EmbeddedChunk} (typed : WellTyped embeddedChunks)
    (docId : String) (envelope : ArrivalEnvelope) (configVersion : String) (indexedAt : DateTime) :
    ∃ records, embeddedChunks.mapM (buildRecord docId envelope configVersion indexedAt) = .ok records :=
  exists_mapM_ok fun ec member => exists_buildRecord (typed ec member) docId envelope configVersion indexedAt

theorem upsertAll_noWrite (self : Indexer) (docId : String) (records : List IndexRecord) :
    (self.upsertAll docId records).run.Uses NoWrite := by
  apply self.upsertAll_uses
  all_goals simp [NoWrite, IsLedgerWrite]

theorem raises_selfTransitionAndRaise {V X α : Type} {adapter : IndexerAdapter V X} {docId : String}
    {before : LedgerRow} {s : System × X} (present : s.1.ledger.get docId = some before)
    (status : before.status = .indexing) {code : String}
    (transient : registeredSeverity code = some .transient) (reason : String) :
    Raises adapter .indexer docId .indexing before (selfTransitionAndRaise docId code reason : Py α) s := by
  simp only [Raises, selfTransitionAndRaise, Prog.wp_run_bind, Prog.wp_run_throw]
  refine wp_transitionTriaged _ present rfl (.inr ⟨status.symm, status ▸ by decide⟩)
    (by simp [Py.errorRequest]) fun now s' _ stored => ⟨trivial, _, rfl, reason, code, _, rfl, stored, ?_⟩
  obtain ⟨counted, recorded⟩ := nextRow_retry now status (by decide) docId code reason
  exact ⟨recorded, .inr ⟨transient, rfl, counted⟩⟩

theorem wp_runWithRecovery_advance {V X : Type} {adapter : IndexerAdapter V X} (self : Indexer)
    {docId : String} (records : List IndexRecord) {before : LedgerRow} {s : System × X}
    (present : s.1.ledger.get docId = some before) (status : before.status = .indexing) :
    Prog.wp (pipeline adapter) (fun _ => True)
      (do
        let result ← self.runWithRecovery docId records
        transitionToIndexed docId result : Py IndexResult).run
      (StageEnd .indexer docId .indexing .indexed before) s := by
  have toFailed : Edge before.status .failed := by rw [status]; decide
  have internalCode : registeredSeverity indexerInternal = some .transient := by decide
  have permanent : ∀ code ∈ permanentUpsertCodes, registeredSeverity code = some .permanent := by decide
  have transient : ∀ code ∈ transientUpsertCodes, registeredSeverity code = some .transient := by decide
  refine wp_recover_advance (upsertAll_noWrite self docId records) present (by rw [status]; decide)
    (by decide) fun exc s' held => ?_
  have internal (reason : String) : Raises adapter .indexer docId .indexing before
      (selfTransitionAndRaise docId indexerInternal reason : Py IndexResult) s' :=
    raises_selfTransitionAndRaise held status internalCode reason
  split
  · split
    · next member => exact raises_terminalize held toFailed (permanent _ member) _
    · split
      · next member => exact raises_selfTransitionAndRaise held status (transient _ member) _
      · exact internal _
  · exact internal _

theorem wp_index {V X : Type} (adapter : IndexerAdapter V X) (self : Indexer) (envelope : ArrivalEnvelope)
    {embeddedChunks : List EmbeddedChunk} (typed : WellTyped embeddedChunks) {before : LedgerRow}
    {s : System × X} (present : s.1.ledger.get envelope.docId = some before)
    (status : before.status = .indexing) :
    Prog.wp (pipeline adapter) (fun _ => True) (self.index envelope embeddedChunks).run
      (StageEnd .indexer envelope.docId .indexing .indexed before) s := by
  have toFailed : Edge before.status .failed := by rw [status]; decide
  have permanent : ∀ code ∈ validationCodes, registeredSeverity code = some .permanent := by decide
  by_cases accepts : Accepts self embeddedChunks
  · rw [index_of_accepts self accepts, Prog.wp_run_bind]
    refine wp_buildRecords envelope.docId envelope embeddedChunks trivial fun indexedAt => ?_
    obtain ⟨records, built⟩ := exists_buildRecords typed envelope.docId envelope
      (configVersionOf (s.1.ledger.get envelope.docId)) indexedAt
    rw [built]
    exact wp_runWithRecovery_advance self records present status
  · obtain ⟨code, member, reason, rejected⟩ := index_of_not_accepts self envelope accepts
    rw [rejected]
    exact (raises_terminalize present toFailed (permanent code member) reason).wp fun _ _ raised => raised

end Indexer

inductive StageCall where
  | chunk (hexdigest : ByteArray → String) (config : ChunkerConfig) (elements : List Element)
  | embed (embedder : Embedder) (chunks : List Chunk)
  | index (indexer : Indexer) (embeddedChunks : List EmbeddedChunk)

namespace StageCall

def Result : StageCall → Type
  | chunk _ _ _ => List Chunk
  | embed _ _ => List EmbeddedChunk
  | index _ _ => IndexResult

def program (envelope : ArrivalEnvelope) : (call : StageCall) → Py call.Result
  | chunk hexdigest config elements => Chunker.chunk hexdigest config envelope elements
  | embed embedder chunks => embedder.embed envelope chunks
  | index indexer embeddedChunks => indexer.index envelope embeddedChunks

def kind : StageCall → ErrorKind
  | chunk _ _ _ => .chunker
  | embed _ _ => .embedder
  | index _ _ => .indexer

def stage : StageCall → Status
  | chunk _ _ _ => .chunking
  | embed _ _ => .embedding
  | index _ _ => .indexing

def next : StageCall → Status
  | chunk _ _ _ => .embedding
  | embed _ _ => .indexing
  | index _ _ => .indexed

-- Metadata is a plain dict; its documented keys have documented types.
def WellTyped : StageCall → Prop
  | chunk _ _ _ => True
  | embed _ _ => True
  | index _ embeddedChunks => Indexer.WellTyped embeddedChunks

def Rejected : StageCall → Prop
  | chunk _ _ elements => elements = []
  | embed embedder chunks => ¬ embedder.Accepts chunks
  | index indexer embeddedChunks => ¬ indexer.Accepts embeddedChunks

theorem wp_program {V X : Type} (adapter : IndexerAdapter V X) (call : StageCall) (typed : call.WellTyped)
    (envelope : ArrivalEnvelope) {before : LedgerRow} {s : System × X}
    (present : s.1.ledger.get envelope.docId = some before) (status : before.status = call.stage) :
    Prog.wp (pipeline adapter) (fun _ => True) (call.program envelope).run
      (StageEnd call.kind envelope.docId call.stage call.next before) s := by
  cases call with
  | chunk hexdigest config elements =>
    exact Chunker.wp_chunk adapter hexdigest config envelope elements present status
  | embed embedder chunks => exact embedder.wp_embed adapter envelope chunks present status
  | index indexer embeddedChunks => exact indexer.wp_index adapter envelope typed present status

def IsAdapterWork (o : Op) : Prop :=
  (∃ texts, o = .embedBatch texts) ∨ (∃ records, o = .upsert records) ∨ ∃ docId, o = .deleteByDocId docId

theorem program_of_rejected (call : StageCall) (envelope : ArrivalEnvelope) (rejected : call.Rejected) :
    ∃ code reason, call.program envelope = Py.terminalize call.kind envelope.docId code reason := by
  cases call with
  | chunk hexdigest config elements =>
    obtain rfl : elements = [] := rejected
    exact ⟨_, _, Chunker.chunk_nil hexdigest config envelope⟩
  | embed embedder chunks =>
    obtain ⟨code, _, reason, terminal⟩ := embedder.embed_of_not_accepts envelope rejected
    exact ⟨code, reason, terminal⟩
  | index indexer embeddedChunks =>
    obtain ⟨code, _, reason, terminal⟩ := indexer.index_of_not_accepts envelope rejected
    exact ⟨code, reason, terminal⟩

structure OutcomeAgrees (call : StageCall) (docId : String) (before : LedgerRow)
    (result : Except Exc call.Result) (ledger : InMemoryLedgerStore) : Prop where
  returned : (∃ value, result = .ok value) ↔ ∃ row, ledger.get docId = some row ∧ row.status = call.next
  permanent : ∀ code,
    (∃ reason, result = .error (.ragged call.kind docId reason code)) ∧
        registeredSeverity code = some .permanent ↔
      ∃ row, ledger.get docId = some row ∧ row.status = .failed ∧ row.lastErrorCode = some code
  transient : ∀ code,
    (∃ reason, result = .error (.ragged call.kind docId reason code)) ∧
        registeredSeverity code = some .transient ↔
      ∃ row, ledger.get docId = some row ∧ row.status = call.stage ∧
        row.attempts = before.attempts + 1 ∧ row.lastErrorCode = some code
  noOther : ∀ exc, result = .error exc →
    ∃ reason code severity, exc = .ragged call.kind docId reason code ∧
      registeredSeverity code = some severity

theorem statuses_distinct (call : StageCall) :
    call.next ≠ call.stage ∧ call.next ≠ .failed ∧ call.stage ≠ .failed := by
  cases call <;> simp [next, stage]

theorem outcomeAgrees_of_returned {X : Type} {call : StageCall} {docId : String} {before : LedgerRow}
    {value : call.Result} {s : System × X} {row : LedgerRow} (present : s.1.ledger.get docId = some row)
    (status : row.status = call.next) : OutcomeAgrees call docId before (.ok value) s.1.ledger := by
  obtain ⟨notStage, notFailed, _⟩ := call.statuses_distinct
  rw [← status] at notStage notFailed
  refine ⟨⟨fun _ => ⟨row, present, status⟩, fun _ => ⟨value, rfl⟩⟩, fun code => ?_, fun code => ?_, fun _ raised => ?_⟩
  · simp [present, notFailed]
  · simp [present, notStage]
  · cases raised

theorem outcomeAgrees_of_raised {X : Type} {call : StageCall} {docId : String} {before : LedgerRow} {exc : Exc}
    {s : System × X} (raised : Raised call.kind docId call.stage before exc s) :
    OutcomeAgrees call docId before (.error exc) s.1.ledger := by
  obtain ⟨reason, code, row, rfl, present, recorded, ended⟩ := raised
  obtain ⟨notStage, notFailed, running⟩ := call.statuses_distinct
  have named (other : String) : (∃ text, (.error (.ragged call.kind docId reason code) : Except Exc call.Result) =
      .error (.ragged call.kind docId text other)) ↔ code = other := by
    simp
  have known (severity : Severity) (registered : registeredSeverity code = some severity) (exc : Exc)
      (same : (.error (.ragged call.kind docId reason code) : Except Exc call.Result) = .error exc) :
      ∃ text other severity, exc = .ragged call.kind docId text other ∧
        registeredSeverity other = some severity := by
    cases same
    exact ⟨reason, code, severity, rfl, registered⟩
  rcases ended with ⟨severity, failed⟩ | ⟨severity, kept, counted⟩
  next =>
    refine ⟨?_, fun other => ?_, fun other => ?_, known .permanent severity⟩
    · simp [present, failed, notFailed.symm]
    · simp only [named, present, Option.some.injEq, exists_eq_left', failed, recorded, true_and]
      exact ⟨fun raised => raised.1, fun same => ⟨same, same ▸ severity⟩⟩
    · simp only [named, present, Option.some.injEq, exists_eq_left', failed, running.symm, false_and, iff_false]
      rintro ⟨rfl, transient⟩
      simp [severity] at transient
  next =>
    refine ⟨?_, fun other => ?_, fun other => ?_, known .transient severity⟩
    · simp [present, kept, notStage.symm]
    · simp only [named, present, Option.some.injEq, exists_eq_left', kept, running, false_and, iff_false]
      rintro ⟨rfl, permanent⟩
      simp [severity] at permanent
    · simp only [named, present, Option.some.injEq, exists_eq_left', kept, counted, recorded, true_and]
      exact ⟨fun raised => raised.1, fun same => ⟨same, same ▸ severity⟩⟩

theorem outcome_ledger_severity_agree {V X : Type} (adapter : IndexerAdapter V X) (call : StageCall)
    (typed : call.WellTyped) (envelope : ArrivalEnvelope) (before : LedgerRow) (s : System × X)
    (present : s.1.ledger.get envelope.docId = some before) (status : before.status = call.stage) :
    (∀ oracle, OutcomeAgrees call envelope.docId before
      (Prog.run (pipeline adapter) (call.program envelope).run oracle s).1
      (Prog.run (pipeline adapter) (call.program envelope).run oracle s).2.1.ledger) ∧
    (call.Rejected → (call.program envelope).run.Uses (fun o => ¬ IsAdapterWork o)) := by
  constructor
  · intro oracle
    have ended := Prog.run_of_wp (call.wp_program adapter typed envelope present status) oracle
    revert ended
    generalize Prog.run (pipeline adapter) (call.program envelope).run oracle s = final
    obtain ⟨result, s'⟩ := final
    intro ended
    cases result with
    | ok value =>
      obtain ⟨row, stored, next⟩ := ended
      exact outcomeAgrees_of_returned stored next
    | error exc => exact outcomeAgrees_of_raised ended
  · intro rejected
    obtain ⟨code, reason, terminal⟩ := call.program_of_rejected envelope rejected
    rw [terminal]
    exact Py.terminalize_uses call.kind (by simp [IsAdapterWork])

-- A document that the embedder has just handed over.
def indexingSystem (docId : String) (format : hexRe (PyStr.ofString docId)) : System × Unit :=
  ({ ledger := InMemoryLedgerStore.empty.put docId
      { docId, status := .indexing, stage := .indexing, attempts := 1, configVersion := "v1", ingestedAt := 0,
        updatedAt := 0 }
      ⟨format, rfl, rfl, by simp⟩ }, ())

theorem indexingSystem_status {docId : String} (format : hexRe (PyStr.ofString docId)) :
    ∃ row, (indexingSystem docId format).1.ledger.get docId = some row ∧ row.status = .indexing := by
  simp [indexingSystem]

def sampleEnvelope : ArrivalEnvelope :=
  { docId := digestAbc, source := "a", blobPath := "bc", trustTier := .internal, contentHash := digestAbcd,
    docIdFormat := digestAbc_hex, contentHashFormat := digestAbcd_hex }

def sampleChunk (chunkId : String) : EmbeddedChunk :=
  { chunk := { chunkId, docId := digestAbc, position := 0, elementTypes := [.paragraph], text := "text",
               tokenCount := 1, metadata := .empty }
    vector := [1]
    embeddingModel := "hash"
    embeddingDimensions := 1 }

theorem sampleChunk_wellTyped (chunkId : String) : Indexer.WellTyped [sampleChunk chunkId] := by
  intro ec member value held
  obtain rfl : ec = sampleChunk chunkId := by simpa using member
  cases held

def sampleCall : StageCall := .index ⟨{ dimensions := 1 }, "memory", 100⟩ [sampleChunk "c"]

def sampleSystem : System × Unit := indexingSystem sampleEnvelope.docId sampleEnvelope.docIdFormat

theorem outcome_agrees_on_sample :
    ∃ before, sampleSystem.1.ledger.get sampleEnvelope.docId = some before ∧
      before.status = sampleCall.stage ∧
      ∀ oracle, OutcomeAgrees sampleCall sampleEnvelope.docId before
        (Prog.run (pipeline idleIndex) (sampleCall.program sampleEnvelope).run oracle sampleSystem).1
        (Prog.run (pipeline idleIndex) (sampleCall.program sampleEnvelope).run oracle
          sampleSystem).2.1.ledger := by
  have typed : sampleCall.WellTyped := sampleChunk_wellTyped "c"
  obtain ⟨before, present, status⟩ := indexingSystem_status sampleEnvelope.docIdFormat
  have agrees := outcome_ledger_severity_agree idleIndex sampleCall typed sampleEnvelope before
    sampleSystem present status
  exact ⟨before, present, status, agrees.1⟩

end StageCall

end Vestibule
