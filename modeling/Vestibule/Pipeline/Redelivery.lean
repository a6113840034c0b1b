import Mathlib.Data.List.Dedup
import Vestibule.Chunker.Sections
import Vestibule.Pipeline.Ingested

set_option autoImplicit false

namespace Vestibule

open Library

-- Wherever an earlier run has left the document, a run that no service fails and no other worker disturbs
-- brings it into the index.

def Reached {X : Type} (docId : String) (stage : Status) (s : System × X) : Prop :=
  ∃ row, s.1.ledger.get docId = some row ∧ Overtakes row.status stage

def Follows (previous next : Status) : Prop := (previous, next) ∈ forwardOrder.zip forwardOrder.tail

instance (previous next : Status) : Decidable (Follows previous next) := inferInstanceAs (Decidable (_ ∈ _))

theorem overtakes_next {previous next status : Status} (follows : Follows previous next)
    (reached : Overtakes status previous) (blocked : ¬ Edge status next) : Overtakes status next := by
  have each : ∀ pair ∈ forwardOrder.zip forwardOrder.tail,
      Overtakes status pair.1 → ¬ Edge status pair.2 → Overtakes status pair.2 := by
    cases status <;> decide
  exact each (previous, next) follows reached blocked

theorem overtakes_follower {previous next : Status} (follows : Follows previous next) :
    Overtakes next next ∧ next ≠ .failed := by
  have each : ∀ pair ∈ forwardOrder.zip forwardOrder.tail, Overtakes pair.2 pair.2 ∧ pair.2 ≠ .failed := by decide
  exact each (previous, next) follows

theorem benign_of_overtakes {ledger : InMemoryLedgerStore} {docId : String} {row : LedgerRow} {target : Status}
    (present : ledger.get docId = some row) (overtakes : Overtakes row.status target) :
    isBenignConcurrentLoss (ledger.get docId) target target = true := by
  rw [present]
  exact (isBenign_mirrored (ledger.wellFormed docId row present).mirrored target).mpr overtakes

-- The write of a stage is accepted, or the row is further along already.
theorem advance_answer (ledger : InMemoryLedgerStore) (now : DateTime) {docId : String} {previous next : Status}
    (follows : Follows previous next) {row : LedgerRow} (present : ledger.get docId = some row)
    (reached : Overtakes row.status previous) :
    Py.triaged { docId, toStatus := next, stage := next }
        ((ledger.transition now { docId, toStatus := next, stage := next }).1.mapError Exc.ofLedgerFault) = .ok () ∧
      ∃ after, (ledger.transition now { docId, toStatus := next, stage := next }).2.get docId = some after ∧
        Overtakes after.status next := by
  obtain ⟨arrived, open_⟩ := overtakes_follower follows
  rcases transition_answer ledger now { docId, toStatus := next, stage := next } rfl
      (fun failed => (open_ failed).elim) with ⟨held, correct, _, _, accepted⟩ |
    ⟨fault, rejected, observed, _, _, noEdge⟩ | ⟨fault, rejected, absent⟩
  next =>
    rw [accepted]
    exact ⟨rfl, nextRow now held { docId, toStatus := next, stage := next }, by simp, arrived⟩
  next =>
    have overtakes := overtakes_next follows reached (noEdge row present)
    have benign : isBenignConcurrentLoss fault.observedRow next next = true := by
      rw [observed]
      exact benign_of_overtakes present overtakes
    rw [rejected]
    exact ⟨by simp [Py.triaged, Except.mapError, Exc.ofLedgerFault, benign], row, present, overtakes⟩
  next => simp [present] at absent

theorem entry_answer (ledger : InMemoryLedgerStore) (now : DateTime) {docId : String} {row : LedgerRow}
    (present : ledger.get docId = some row) (reached : Overtakes row.status .pending) :
    ∃ mine after, Analyzer.entered
        ((ledger.transition now (Analyzer.entryRequest docId)).1.mapError Exc.ofLedgerFault) = .ok mine ∧
      (ledger.transition now (Analyzer.entryRequest docId)).2.get docId = some after ∧
        Overtakes after.status (if mine then .analyzing else .chunking) := by
  rcases transition_answer ledger now (Analyzer.entryRequest docId) rfl (by simp [Analyzer.entryRequest])
    with ⟨held, correct, _, _, accepted⟩ | ⟨fault, rejected, observed, _, _, noEdge⟩ | ⟨fault, rejected, absent⟩
  next =>
    rw [accepted]
    have arrived : Overtakes .analyzing .analyzing := by decide
    exact ⟨true, nextRow now held (Analyzer.entryRequest docId), rfl, by simp [Analyzer.entryRequest], arrived⟩
  next =>
    have past : Overtakes row.status .analyzing ∧ Overtakes row.status .chunking := by
      have blocked := noEdge row present
      revert reached blocked
      simp only [Analyzer.entryRequest]
      cases row.status <;> decide
    have benign : isBenignConcurrentLoss fault.observedRow .analyzing .analyzing = true := by
      rw [observed]
      exact benign_of_overtakes present past.1
    rw [rejected]
    exact ⟨false, row, by simp [Analyzer.entered, Except.mapError, Exc.ofLedgerFault, benign], present, past.2⟩
  next => simp [Analyzer.entryRequest, present] at absent

namespace Quickstart

variable {R V X W : Type} {adapter : IndexerAdapter V X} {owner : String → String}

structure Calm (quickstart : Quickstart R) (contract : Indexer.Contract adapter owner)
    (h : Handler Effects W (System × X)) : Prop where
  alone : ∀ w o s, ∃ v, h w o s = pipeline adapter v o s
  serves : quickstart.Serves h (fun _ => False)
  version : ∀ w docId s, contract.Valid s.2 → ∃ found, (h w (.getDocVersion docId) s).1 = .ok found
  delete : ∀ w docId s, contract.Valid s.2 → ∃ count, (h w (.deleteByDocId docId) s).1 = .ok count
  upsert : ∀ w records s, contract.Valid s.2 → Indexer.Owned owner records →
    ∃ outcome, (h w (.upsert records) s).1 = .ok outcome ∧ outcome.failed = []

section Calm

variable {quickstart : Quickstart R} {contract : Indexer.Contract adapter owner} {h : Handler Effects W (System × X)}
  (calm : quickstart.Calm contract h) {s : System × X} {docId : String}

include calm

theorem Calm.wp_advance {previous next : Status} (follows : Follows previous next)
    (reached : Reached docId previous s) :
    Prog.wp h (fun _ => True) (Py.transitionTriaged { docId, toStatus := next, stage := next }).run
      (fun result after => result = .ok () ∧ Reached docId next after ∧ after.2 = s.2) s := by
  rw [Py.wp_transitionTriaged_iff]
  intro w
  obtain ⟨v, same⟩ := calm.alone w (.ledgerTransition { docId, toStatus := next, stage := next }) s
  obtain ⟨row, present, overtakes⟩ := reached
  have answer := advance_answer s.1.ledger v.1.now follows present overtakes
  rw [same]
  exact ⟨trivial, answer.1, answer.2, rfl⟩

theorem Calm.wp_analyze {pdf : PdfFile R} {elements : List Element}
    (returned : quickstart.analyzer.verdict pdf.envelope pdf.reader pdf.start = .returned elements)
    (reached : Reached pdf.envelope.docId .pending s) :
    Prog.wp h (fun _ => True) (quickstart.analyzer.analyze pdf.envelope pdf.reader pdf.start).run
      (fun result after => result = .ok elements ∧ Reached pdf.envelope.docId .chunking after) s := by
  simp only [Analyzer.analyze, Analyzer.detectAndParse_eq, returned, Prog.wp_run_bind]
  rw [Analyzer.enterStage_run]
  intro w
  obtain ⟨v, same⟩ := calm.alone w (.ledgerTransition (Analyzer.entryRequest pdf.envelope.docId)) s
  obtain ⟨row, present, overtakes⟩ := reached
  obtain ⟨mine, after, entered, held, further⟩ := entry_answer s.1.ledger v.1.now present overtakes
  rw [same]
  refine ⟨trivial, ?_⟩
  change Prog.wp h (fun _ => True) (.ret (Analyzer.entered _)) _ _
  have answered : Analyzer.entered (pipeline adapter v (.ledgerTransition (Analyzer.entryRequest pdf.envelope.docId))
      s).1 = .ok mine := entered
  rw [answered]
  cases mine with
  | false => exact ⟨rfl, after, held, further⟩
  | true =>
    change Prog.wp h (fun _ => True) (Py.transitionTriaged _ >>= fun _ => pure elements : Py _).run _ _
    rw [Prog.wp_run_bind]
    have arrived : Reached pdf.envelope.docId .analyzing
        (pipeline adapter v (.ledgerTransition (Analyzer.entryRequest pdf.envelope.docId)) s).2 :=
      ⟨after, held, further⟩
    apply Prog.wp_mono _ (calm.wp_advance (by decide : Follows .analyzing .chunking) arrived)
    rintro result last ⟨rfl, chunking, _⟩
    exact ⟨rfl, chunking⟩

theorem Calm.wp_unwritten {α : Type} {p : Py α} (uses : p.run.Uses NoWrite) (s : System × X) :
    Prog.wp h (fun _ => True) p.run (fun _ after => after.1.ledger = s.1.ledger) s := by
  have quiet : Prog.wp (pipeline adapter) (fun _ => True) p.run (fun _ after => after.1.ledger = s.1.ledger) s :=
    wp_noWrite uses s
  exact Prog.wp_of_worlds calm.alone quiet

-- Work that writes nothing and does not raise needs no recovery.
theorem Calm.wp_work {α : Type} {p : Py α} {handle : Exc → Py α} {answer : α} (uses : p.run.Uses NoWrite)
    (concludes : (Prog.concludes h (fun _ => False)).rel p (pure answer)) :
    Prog.wp h (fun _ => True) (tryCatch p handle).run
      (fun result after => result = .ok answer ∧ after.1.ledger = s.1.ledger) s := by
  have unwritten := calm.wp_unwritten uses s
  rw [Prog.wp_run_tryCatch]
  apply Prog.wp_mono _ (Prog.wp_and (concludes s) unwritten)
  intro result after ended
  obtain ⟨concluded, same⟩ := ended
  obtain rfl := Prog.returned_of_concluded concluded
  exact ⟨rfl, same⟩

theorem Calm.wp_chunk (hexdigest : ByteArray → String) (pdf : PdfFile R) {elements : List Element}
    (nonempty : elements ≠ []) {chunks : List Chunk}
    (assigned : Chunker.assignPositions hexdigest pdf.envelope.docId (Chunker.assembledDrafts quickstart.splitText
      quickstart.count quickstart.chunkerConfig pdf.envelope.docId elements) = .ok chunks)
    (reached : Reached pdf.envelope.docId .chunking s) :
    Prog.wp h (fun _ => True) (Chunker.chunk hexdigest quickstart.chunkerConfig pdf.envelope elements).run
      (fun result after => result = .ok chunks ∧ Reached pdf.envelope.docId .embedding after) s := by
  cases elements with
  | nil => exact absurd rfl nonempty
  | cons first rest =>
    change Prog.wp _ _ (Chunker.buildChunks hexdigest quickstart.chunkerConfig pdf.envelope.docId (first :: rest) >>=
      Chunker.transitionToEmbedding pdf.envelope.docId : Py _).run _ s
    rw [Prog.wp_run_bind]
    apply Prog.wp_mono _ (calm.wp_work (Chunker.assembleChunks_noWrite hexdigest quickstart.chunkerConfig
      pdf.envelope.docId (first :: rest)) (assembleChunks_concludes hexdigest calm.serves assigned))
    rintro result after ⟨rfl, same⟩
    have arrived : Reached pdf.envelope.docId .chunking after := by rwa [Reached, same]
    simp only [Chunker.transitionToEmbedding, Prog.wp_run_bind, Prog.wp_run_pure]
    apply Prog.wp_mono _ (calm.wp_advance (by decide : Follows .chunking .embedding) arrived)
    rintro exit last ⟨rfl, embedding, _⟩
    exact ⟨trivial, embedding⟩

theorem Calm.wp_embed (pdf : PdfFile R) {chunks : List Chunk} (accepts : quickstart.embedder.Accepts chunks)
    (sized : 0 < effectiveBatchSize quickstart.embedder.config.batchSize quickstart.embedder.adapter.maxBatchSize)
    (reached : Reached pdf.envelope.docId .embedding s) :
    Prog.wp h (fun _ => True) (quickstart.embedder.embed pdf.envelope chunks).run
      (fun result after => result = .ok (chunks.map (quickstart.embedder.alone quickstart.embedText)) ∧
        Reached pdf.envelope.docId .indexing after) s := by
  rw [quickstart.embedder.embed_of_accepts _ accepts, Prog.wp_run_bind]
  apply Prog.wp_mono _ (calm.wp_work (Embedder.embedAll_noWrite quickstart.embedder chunks)
    (embedAll_concludes calm.serves (.inr sized) chunks))
  rintro result after ⟨rfl, same⟩
  have arrived : Reached pdf.envelope.docId .embedding after := by rwa [Reached, same]
  simp only [Embedder.transitionToIndexing, Prog.wp_run_bind, Prog.wp_run_pure]
  apply Prog.wp_mono _ (calm.wp_advance (by decide : Follows .embedding .indexing) arrived)
  rintro exit last ⟨rfl, indexing, _⟩
  exact ⟨trivial, indexing⟩

theorem Calm.wp_maybeDelete (indexer : Indexer) (newVersion : String) (valid : contract.Valid s.2) :
    Prog.wp h (fun _ => True) (indexer.maybeDeleteStaleVersion docId newVersion).run
      (fun result after => (∃ deleted, result = .ok deleted) ∧ contract.Valid after.2) s := by
  simp only [Indexer.maybeDeleteStaleVersion]
  split
  next => exact ⟨⟨0, rfl⟩, valid⟩
  next =>
    rw [Prog.wp_run_bind]
    intro w
    have kept : contract.Valid (h w (.getDocVersion docId) s).2.2 := by
      obtain ⟨v, same⟩ := calm.alone w (.getDocVersion docId) s
      rw [same]
      exact contract.versionValid v.2 docId valid
    obtain ⟨version, answered⟩ := calm.version w docId s valid
    refine ⟨trivial, ?_⟩
    rw [answered]
    cases version with
    | none => exact ⟨⟨0, rfl⟩, kept⟩
    | some existing =>
      change Prog.wp h _ (if existing ≠ newVersion then Py.deleteByDocId docId else return 0 : Py Int).run _ _
      split
      next =>
        intro w'
        obtain ⟨v, same⟩ := calm.alone w' (.deleteByDocId docId) (h w (.getDocVersion docId) s).2
        refine ⟨trivial, calm.delete w' docId _ kept, ?_⟩
        rw [same]
        exact contract.deleteValid v.2 docId kept
      next => exact ⟨⟨0, rfl⟩, kept⟩

theorem Calm.wp_upsertBatch {batch : List IndexRecord} (own : Indexer.Owned owner batch)
    (valid : contract.Valid s.2) :
    Prog.wp h (fun _ => True) (Indexer.upsertBatchWithRetry batch).run
      (fun result after => (∃ stored, result = .ok stored) ∧ contract.Valid after.2) s := by
  simp only [Indexer.upsertBatchWithRetry, Prog.wp_run_bind]
  intro w
  have kept : contract.Valid (h w (.upsert batch) s).2.2 := by
    obtain ⟨v, same⟩ := calm.alone w (.upsert batch) s
    rw [same]
    exact contract.upsertValid v.2 valid own
  obtain ⟨outcome, answered, none⟩ := calm.upsert w batch s valid own
  have stored : outcome.failed.isEmpty = true := by simp [none]
  refine ⟨trivial, ?_⟩
  rw [answered]
  change Prog.wp h _ (if outcome.failed.isEmpty = true then return (outcome.succeeded.length : Int) else _ :
    Py Int).run _ _
  rw [if_pos stored]
  exact ⟨⟨_, rfl⟩, kept⟩

theorem Calm.wp_batches (batches : List (List IndexRecord)) (upserted : Int)
    (own : ∀ batch ∈ batches, Indexer.Owned owner batch) (valid : contract.Valid s.2) :
    Prog.wp h (fun _ => True) (batches.foldlM (fun upserted batch => do
        return upserted + (← Indexer.upsertBatchWithRetry batch)) upserted : Py Int).run
      (fun result after => (∃ stored, result = .ok stored) ∧ contract.Valid after.2) s := by
  induction batches generalizing upserted s with
  | nil => exact ⟨⟨upserted, rfl⟩, valid⟩
  | cons batch rest ih =>
    rw [List.foldlM_cons, Prog.wp_run_bind, Prog.wp_run_bind]
    apply Prog.wp_mono _ (calm.wp_upsertBatch (own batch (by simp)) valid)
    rintro result after ⟨⟨stored, rfl⟩, kept⟩
    exact ih _ (fun other member => own other (by simp [member])) kept

theorem Calm.wp_upsertAll (indexer : Indexer)
    (positive : 0 < effectiveBatchSize indexer.config.batchSize indexer.maxBatchSize) {records : List IndexRecord}
    (nonempty : records ≠ []) (own : Indexer.Owned owner records) (valid : contract.Valid s.2) :
    Prog.wp h (fun _ => True) (indexer.upsertAll docId records).run
      (fun result after => (∃ receipt, result = .ok receipt) ∧ after.1.ledger = s.1.ledger) s := by
  have unwritten := calm.wp_unwritten (Indexer.upsertAll_noWrite indexer docId records) s
  have returned : Prog.wp h (fun _ => True) (indexer.upsertAll docId records).run
      (fun result _ => ∃ receipt, result = .ok receipt) s := by
    cases records with
    | nil => exact absurd rfl nonempty
    | cons first rest =>
      obtain ⟨batches, split⟩ := Embedder.batched_of_pos (first :: rest) positive
      have parts := batched_flatten positive split
      simp only [Indexer.upsertAll, Prog.wp_run_bind]
      apply Prog.wp_mono _ (calm.wp_maybeDelete indexer first.docVersion valid)
      rintro result after ⟨⟨deleted, rfl⟩, kept⟩
      rw [split]
      have owned (batch : List IndexRecord) (member : batch ∈ batches) : Indexer.Owned owner batch := by
        intro record inside
        apply own
        rw [← parts]
        exact List.mem_flatten.mpr ⟨batch, member, inside⟩
      apply Prog.wp_mono _ (calm.wp_batches batches 0 owned kept)
      rintro result last ⟨⟨stored, rfl⟩, _⟩
      exact ⟨_, rfl⟩
  exact Prog.wp_and returned unwritten

theorem Calm.wp_index (indexer : Indexer) (envelope : ArrivalEnvelope) {embeddedChunks : List EmbeddedChunk}
    (accepts : indexer.Accepts embeddedChunks) (typed : Indexer.WellTyped embeddedChunks)
    (positive : 0 < effectiveBatchSize indexer.config.batchSize indexer.maxBatchSize)
    (own : Indexer.ChunksOf owner envelope.docId embeddedChunks) (valid : contract.Valid s.2)
    (reached : Reached envelope.docId .indexing s) :
    Prog.wp h (fun _ => True) (indexer.index envelope embeddedChunks).run
      (fun result after => (∃ receipt, result = .ok receipt) ∧ Reached envelope.docId .indexed after) s := by
  have built : Prog.wp (pipeline adapter) (fun _ => True)
      (Indexer.buildRecords envelope.docId envelope embeddedChunks).run (fun result after => after = s ∧
        ∃ records configVersion indexedAt, result = .ok records ∧ embeddedChunks.mapM
          (Indexer.buildRecord envelope.docId envelope configVersion indexedAt) = .ok records) s := by
    apply Indexer.wp_buildRecords envelope.docId envelope embeddedChunks trivial
    intro indexedAt
    obtain ⟨records, made⟩ := Indexer.exists_buildRecords typed envelope.docId envelope
      (Indexer.configVersionOf (s.1.ledger.get envelope.docId)) indexedAt
    exact ⟨rfl, records, _, indexedAt, made, made⟩
  rw [indexer.index_of_accepts accepts, Prog.wp_run_bind]
  apply Prog.wp_mono _ (Prog.wp_of_worlds calm.alone built)
  rintro result after ⟨rfl, records, configVersion, indexedAt, rfl, made⟩
  have owned := Indexer.owned_of_built own made
  have nonempty : records ≠ [] := by
    rintro rfl
    have ids := Indexer.chunkIds_of_built made
    exact accepts.nonempty (List.map_eq_nil_iff.mp ids.symm)
  simp only [Indexer.runWithRecovery, Prog.wp_run_bind, Prog.wp_run_tryCatch]
  apply Prog.wp_mono _ (calm.wp_upsertAll indexer positive nonempty owned valid)
  rintro result last ⟨⟨receipt, rfl⟩, same⟩
  have arrived : Reached envelope.docId .indexing last := by rwa [Reached, same]
  simp only [Indexer.transitionToIndexed, Prog.wp_run_bind, Prog.wp_run_pure]
  apply Prog.wp_mono _ (calm.wp_advance (by decide : Follows .indexing .indexed) arrived)
  rintro exit final ⟨rfl, indexed, _⟩
  exact ⟨⟨receipt, rfl⟩, indexed⟩

end Calm

structure Ready (quickstart : Quickstart R) (pdf : PdfFile R) (elements : List Element) : Prop where
  parsed : quickstart.analyzer.verdict pdf.envelope pdf.reader pdf.start = .returned elements
  nonempty : Chunker.assembledDrafts quickstart.splitText quickstart.count quickstart.chunkerConfig
    pdf.envelope.docId elements ≠ []
  fits : ∀ draft ∈ Chunker.assembledDrafts quickstart.splitText quickstart.count quickstart.chunkerConfig
    pdf.envelope.docId elements, draft.tokenCount ≤ quickstart.embedder.adapter.maxInputTokens
  dimensions : ∀ chunk, (quickstart.embedder.alone quickstart.embedText chunk).embeddingDimensions =
    quickstart.indexer.config.dimensions
  embedSize : 0 < effectiveBatchSize quickstart.embedder.config.batchSize quickstart.embedder.adapter.maxBatchSize
  indexSize : 0 < effectiveBatchSize quickstart.indexer.config.batchSize quickstart.indexer.maxBatchSize

section Ready

variable {hexdigest : ByteArray → String} {quickstart : Quickstart R} {pdf : PdfFile R} {elements : List Element}
  (ready : quickstart.Ready pdf elements) {chunks : List Chunk}
  (assigned : Chunker.assignPositions hexdigest pdf.envelope.docId (Chunker.assembledDrafts quickstart.splitText
    quickstart.count quickstart.chunkerConfig pdf.envelope.docId elements) = .ok chunks)

include ready assigned

theorem Ready.embeds : quickstart.embedder.Accepts chunks := by
  have drafts := Chunker.draftOf_assigned assigned
  constructor
  next =>
    rintro rfl
    exact ready.nonempty drafts.symm
  next =>
    intro chunk member
    apply ready.fits (Chunker.draftOf chunk)
    rw [← drafts]
    exact List.mem_map_of_mem member

theorem Ready.indexes : quickstart.indexer.Accepts
    (chunks.map (quickstart.embedder.alone quickstart.embedText)) := by
  have nonempty := (ready.embeds assigned).nonempty
  have models : (chunks.map (quickstart.embedder.alone quickstart.embedText)).map (·.embeddingModel) =
      List.replicate chunks.length quickstart.embedder.adapter.modelName := by
    rw [List.map_map, ← List.map_const']
    rfl
  constructor
  next => simpa using nonempty
  next =>
    have some : chunks.length ≠ 0 := by simpa using nonempty
    simp only [Indexer.embeddingModels, models, List.replicate_dedup some, List.length_singleton, le_refl]
  next =>
    intro ec member
    obtain ⟨chunk, _, rfl⟩ := List.mem_map.mp member
    exact ready.dimensions chunk

end Ready

-- The built-in strategies tag every chunk with a path that the index can take.
theorem wellTyped_assigned {hexdigest : ByteArray → String} (quickstart : Quickstart R) {docId : String}
    {elements : List Element} {chunks : List Chunk}
    (assigned : Chunker.assignPositions hexdigest docId (Chunker.assembledDrafts quickstart.splitText quickstart.count
      quickstart.chunkerConfig docId elements) = .ok chunks) :
    Indexer.WellTyped (chunks.map (quickstart.embedder.alone quickstart.embedText)) := by
  intro ec member value held
  obtain ⟨chunk, inside, rfl⟩ := List.mem_map.mp member
  have drafted : Chunker.draftOf chunk ∈ chunks.map Chunker.draftOf := List.mem_map_of_mem inside
  rw [Chunker.draftOf_assigned assigned, ← Chunker.documentGroups_drafts] at drafted
  obtain ⟨group, listed, same⟩ := List.mem_map.mp drafted
  obtain ⟨groups, region, own⟩ := List.mem_flatten.mp listed
  have path := (Chunker.documentGroups_boundaries quickstart.splitText quickstart.count quickstart.chunkerConfig
    elements groups region).path group own
  rw [same] at path
  have tagged : value = Chunker.pathValue (Chunker.partPath group.first) := Option.some.inj (held.symm.trans path)
  rw [tagged]
  cases Chunker.partPath group.first with
  | none => exact .inl rfl
  | some heading => exact .inr ⟨_, rfl⟩

theorem Calm.wp_main (hexdigest : ByteArray → String) {quickstart : Quickstart R} {pdf : PdfFile R}
    {contract : Indexer.Contract adapter owner} {h : Handler Effects W (System × X)}
    (calm : quickstart.Calm contract h) {elements : List Element} (ready : quickstart.Ready pdf elements)
    (own : ∀ embeddedChunks, quickstart.embedded hexdigest pdf = some embeddedChunks →
      Indexer.ChunksOf owner pdf.envelope.docId embeddedChunks) {s : System × X} (valid : contract.Valid s.2)
    (reached : Reached pdf.envelope.docId .pending s) :
    Prog.wp h (fun _ => True) (quickstart.main hexdigest pdf).run
      (fun result after => (∃ receipt, result = .ok receipt) ∧ Reached pdf.envelope.docId .indexed after) s := by
  obtain ⟨chunks, assigned⟩ := Chunker.assignPositions_ok hexdigest pdf.envelope.docIdFormat
    (Chunker.assembledDrafts quickstart.splitText quickstart.count quickstart.chunkerConfig pdf.envelope.docId
      elements)
  have made : quickstart.embedded hexdigest pdf =
      some (chunks.map (quickstart.embedder.alone quickstart.embedText)) := by
    simp [embedded, ready.parsed, Analyzer.Verdict.elements?, assigned, Except.toOption]
  have nonempty : elements ≠ [] := by
    rintro rfl
    exact ready.nonempty rfl
  have untouched : Prog.wp h (fun _ => True) (quickstart.prepare hexdigest pdf).run
      (fun _ after => after.2 = s.2) s := by
    have idle : Prog.wp (pipeline adapter) (fun after => after.2 = s.2) (quickstart.prepare hexdigest pdf).run
        (fun _ after => after.2 = s.2) s := by
      refine Prog.wp_of_uses (I := fun after : System × X => after.2 = s.2) (quickstart.prepare_idle hexdigest pdf)
        (fun o quiet w after same => ?_) rfl
      exact (Indexer.pipeline_of_not_indexOp quiet w after).trans same
    exact Prog.wp_of_worlds calm.alone (Prog.wp_consequence (fun _ _ => trivial) (fun _ _ same => same) idle)
  have prepared : Prog.wp h (fun _ => True) (quickstart.prepare hexdigest pdf).run (fun result after =>
      result = .ok (chunks.map (quickstart.embedder.alone quickstart.embedText)) ∧
        Reached pdf.envelope.docId .indexing after) s := by
    rw [prepare, Prog.wp_run_bind]
    apply Prog.wp_mono _ (calm.wp_analyze ready.parsed reached)
    rintro analyzed first ⟨rfl, chunking⟩
    simp only [Prog.wp_run_bind]
    apply Prog.wp_mono _ (calm.wp_chunk hexdigest pdf nonempty assigned chunking)
    rintro chunked second ⟨rfl, embedding⟩
    exact calm.wp_embed pdf (ready.embeds assigned) ready.embedSize embedding
  rw [main, Prog.wp_run_bind]
  apply Prog.wp_mono _ (Prog.wp_and prepared untouched)
  rintro result middle ⟨⟨rfl, indexing⟩, same⟩
  exact calm.wp_index quickstart.indexer pdf.envelope (ready.indexes assigned)
    (quickstart.wellTyped_assigned assigned) ready.indexSize (own _ made) (same ▸ valid) indexing

end Quickstart

namespace QuickstartRun

variable {R V X : Type} {hexdigest : ByteArray → String} {adapter : IndexerAdapter V X}

structure Healthy {owner : String → String} (contract : Indexer.Contract adapter owner) (healthy : V → Prop) :
    Prop where
  version : ∀ v docId index, healthy v → contract.Valid index →
    ∃ found, (adapter.getDocVersion v docId index).1 = .ok found
  delete : ∀ v docId index, healthy v → contract.Valid index →
    ∃ count, (adapter.deleteByDocId v docId index).1 = .ok count
  upsert : ∀ v records index, healthy v → contract.Valid index → Indexer.Owned owner records →
    ∃ outcome, (adapter.upsert v records index).1 = .ok outcome ∧ outcome.failed = []

structure Undisturbed (healthy : V → Prop) (w : List LedgerCall × World × V) : Prop where
  alone : w.1 = []
  drafts : ∃ drafts, w.2.1.drafts = .ok drafts
  tokens : ∃ tokens, w.2.1.tokens = .ok tokens
  vectors : ∃ vectors, w.2.1.vectors = .ok vectors
  index : healthy w.2.2

theorem concluded_of_answer {α : Type} {world : Except Exc α} (answer : α) (answered : ∃ value, world = .ok value) :
    Prog.Concluded (fun _ => False) answer (world.map fun _ => answer) := by
  obtain ⟨value, rfl⟩ := answered
  exact rfl

theorem calm_of_healthy {owner : String → String} {contract : Indexer.Contract adapter owner} {healthy : V → Prop}
    (serving : Healthy contract healthy) (quickstart : Quickstart R) :
    quickstart.Calm contract (Prog.among (Undisturbed healthy) (quickstart.deployed adapter)) where
  alone w o s := by
    obtain ⟨⟨calls, world, v⟩, undisturbed⟩ := w
    obtain rfl : calls = [] := undisturbed.alone
    exact ⟨_, rfl⟩
  serves :=
    { chunkRegion := fun w _ _ _ _ _ => concluded_of_answer _ w.2.drafts
      count := fun w _ _ => concluded_of_answer _ w.2.tokens
      embedBatch := fun w _ _ => concluded_of_answer _ w.2.vectors }
  version w docId s valid := serving.version w.1.2.2 docId s.2 w.2.index valid
  delete w docId s valid := serving.delete w.1.2.2 docId s.2 w.2.index valid
  upsert w records s valid own := serving.upsert w.1.2.2 records s.2 w.2.index valid own

def ClosedForGood (docId : String) (ledger : InMemoryLedgerStore) : Prop :=
  ∃ row errorCode, ledger.get docId = some row ∧ row.status = .failed ∧ row.lastErrorCode = some errorCode ∧
    IsPermanent errorCode

theorem reached_of_underway {docId : String} {s : System × X} (underway : Underway docId s.1.ledger) :
    ClosedForGood docId s.1.ledger ∨ Reached docId .pending s := by
  obtain ⟨row, present, forward | ⟨failed, errorCode, recorded, permanent⟩⟩ := underway
  next =>
    refine .inr ⟨row, present, ?_⟩
    revert forward
    cases row.status <;> decide
  next => exact .inl ⟨row, errorCode, present, failed, recorded, permanent⟩

theorem flaky_healthy (owner : String → String) : Healthy (InMemoryIndexer.flakyContract owner)
    (fun fate => fate.failure = none ∧ fate.reaches = fun _ => true) where
  version := by
    rintro fate docId index ⟨answers, _⟩ valid
    rcases InMemoryIndexer.getDocVersion_cases valid fate.sample docId with ⟨found, _⟩ | ⟨_, record, _, _, found⟩
    next => exact ⟨none, by simp only [InMemoryIndexer.flakyAdapter, answers, found]⟩
    next => exact ⟨some record.docVersion, by simp only [InMemoryIndexer.flakyAdapter, answers, found]⟩
  delete := by
    rintro fate docId index ⟨answers, _⟩ _
    exact ⟨(index.deleteByDocId docId).1, by simp only [InMemoryIndexer.flakyAdapter, answers]⟩
  upsert := by
    rintro fate records index ⟨answers, reaches⟩ _ _
    refine ⟨⟨(records.filter fun record => fate.reaches record.chunkId).map (·.chunkId), []⟩, ?_, rfl⟩
    simp [InMemoryIndexer.flakyAdapter, answers, reaches]

-- The parser does not answer in time, then a run stops once the document is chunked.
def slowRun : QuickstartRun Nat InMemoryIndexer.CallFate :=
  { sampleRun with quickstart := { sampleQuickstart with analyzer := Analyzer.docxAnalyzer } }

def interruptedRuns : System × InMemoryIndexer :=
  runAll sampleHexdigest InMemoryIndexer.flakyAdapter [slowRun, sampleRun] (Analyzer.pendingSystem.1, {})

theorem sampleRun_ready : sampleRun.quickstart.Ready sampleRun.pdf [{ type := .paragraph, text := "text" }] where
  parsed := rfl
  nonempty := by decide +kernel
  fits := by decide +kernel
  dimensions _ := rfl
  embedSize := by decide +kernel
  indexSize := by decide +kernel

end QuickstartRun

end Vestibule
