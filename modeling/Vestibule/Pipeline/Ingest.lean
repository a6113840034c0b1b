import Vestibule.Analyzer.Outcome
import Vestibule.Chunker.Stream
import Vestibule.Embedder.Batches
import Vestibule.Indexer.Histories
import Vestibule.Library.Returning

set_option autoImplicit false

namespace Vestibule

open Library

-- The four stages one after the other, as the quickstart runs them, on the default chunk strategies. Any
-- answer of a service may be a failure; other workers may use the ledger before every operation.

namespace Analyzer

def Verdict.elements? : Verdict → Option (List Element)
  | returned elements => some elements
  | _ => none

end Analyzer

structure Quickstart (R : Type) where
  analyzer : Analyzer R
  chunkerConfig : ChunkerConfig := {}
  embedder : Embedder
  indexer : Indexer
  -- The text splitter, the token counter and the embedding model.
  splitText : String → List String
  count : String → Int
  embedText : String → List Float

structure PdfFile (R : Type) where
  envelope : ArrivalEnvelope
  reader : BytesReader R
  start : R

namespace Quickstart

variable {R : Type} (hexdigest : ByteArray → String) (self : Quickstart R) (pdf : PdfFile R)

def prepare : Py (List EmbeddedChunk) := do
  let elements ← self.analyzer.analyze pdf.envelope pdf.reader pdf.start
  let chunks ← Chunker.chunk hexdigest self.chunkerConfig pdf.envelope elements
  self.embedder.embed pdf.envelope chunks

def main : Py IndexResult := do
  let embeddedChunks ← self.prepare hexdigest pdf
  self.indexer.index pdf.envelope embeddedChunks

def embedded : Option (List EmbeddedChunk) := do
  let elements ← (self.analyzer.verdict pdf.envelope pdf.reader pdf.start).elements?
  let drafts := Chunker.assembledDrafts self.splitText self.count self.chunkerConfig pdf.envelope.docId elements
  let chunks ← (Chunker.assignPositions hexdigest pdf.envelope.docId drafts).toOption
  return chunks.map (self.embedder.alone self.embedText)

/-- A call that does not fail is answered by what stands behind it. -/
def answering (world : World) : Op → World
  | .chunkRegion slot elements captionText docId =>
      { world with
        drafts := world.drafts.map fun _ =>
          ((Chunker.plainServices self.splitText self.count self.chunkerConfig).chunkRegion slot elements
            captionText docId).run }
  | .count text => { world with tokens := world.tokens.map fun _ => self.count text }
  | .embedBatch texts => { world with vectors := world.vectors.map fun _ => texts.map self.embedText }
  | _ => world

variable {V X : Type} {adapter : IndexerAdapter V X}

def deployed (adapter : IndexerAdapter V X) : Handler Effects (List LedgerCall × World × V) (System × X) :=
  fun w o s => contended adapter (w.1, self.answering w.2.1 o, w.2.2) o s

theorem wp_deployed {α : Type} {I : System × X → Prop} {p : Prog Effects α} {Q : α → System × X → Prop}
    {s : System × X} (holds : Prog.wp (contended adapter) I p Q s) : Prog.wp (self.deployed adapter) I p Q s := by
  have matched (w : List LedgerCall × World × V) (o : Op) (s : System × X) :
      ∃ v, self.deployed adapter w o s = contended adapter v o s := ⟨_, rfl⟩
  exact Prog.wp_of_worlds matched holds

section Stages

variable {W σ : Type} {h : Handler Effects W σ}

abbrev AnyError (_ : Exc) : Prop := True

theorem raises_selfTransition {α : Type} (kind : ErrorKind) (stage : Status) (docId errorCode reason : String)
    (s : σ) : Prog.wp h (fun _ => True) (Py.selfTransitionAndRaise kind stage docId errorCode reason : Py α).run
      (fun result _ => ∀ value, result ≠ .ok value) s := by
  have raises := Py.selfTransitionAndRaise_raises (β := α) h kind stage docId errorCode reason
    (fun value : α => pure value) s
  rwa [Py.selfTransitionAndRaise_bind] at raises

theorem raises_buildChunks (docId : String) (exc : Exc) (s : σ) :
    Prog.wp h (fun _ => True) (match exc with
      | .ragged .chunker _ reason errorCode =>
          if errorCode = tokenizerLoadFailed then
            Py.selfTransitionAndRaise .chunker .chunking docId tokenizerLoadFailed reason
          else Py.selfTransitionAndRaise .chunker .chunking docId chunkerInternal exc.str
      | _ => Py.selfTransitionAndRaise .chunker .chunking docId chunkerInternal exc.str : Py (List Chunk)).run
      (fun result _ => ∀ value, result ≠ .ok value) s := by
  split
  next =>
    split
    next => exact raises_selfTransition _ _ _ _ _ s
    next => exact raises_selfTransition _ _ _ _ _ s
  next => exact raises_selfTransition _ _ _ _ _ s

theorem raises_embed (docId : String) (exc : Exc) (s : σ) :
    Prog.wp h (fun _ => True) (match exc with
      | .ragged .embedder _ reason errorCode =>
          if errorCode ∈ Embedder.knownAdapterErrorCodes then
            Py.selfTransitionAndRaise .embedder .embedding docId errorCode reason
          else Py.selfTransitionAndRaise .embedder .embedding docId embedderInternal exc.str
      | _ => Py.selfTransitionAndRaise .embedder .embedding docId embedderInternal exc.str :
        Py (List EmbeddedChunk)).run
      (fun result _ => ∀ value, result ≠ .ok value) s := by
  split
  next =>
    split
    next => exact raises_selfTransition _ _ _ _ _ s
    next => exact raises_selfTransition _ _ _ _ _ s
  next => exact raises_selfTransition _ _ _ _ _ s

theorem wp_verdict_returns (docId : String) (verdict : Analyzer.Verdict) (s : σ) :
    Prog.wp h (fun _ => True) (verdict.program docId).run
      (fun result _ => ∀ elements, result = .ok elements → verdict.elements? = some elements) s := by
  cases verdict with
  | returned elements =>
    intro found same
    rw [← Except.ok.inj same]
    rfl
  | terminal errorCode reason detectedType =>
    simp only [Analyzer.Verdict.program, Analyzer.terminalize, Prog.wp_run_bind, Prog.wp_run_throw]
    apply Prog.wp_mono _ (Prog.wp_trivial _ s)
    intro result after _
    cases result <;> simp
  | retried errorCode reason detectedType =>
    simp only [Analyzer.Verdict.program, Analyzer.selfTransitionAndRaise, Prog.wp_run_bind, Prog.wp_run_throw]
    apply Prog.wp_mono _ (Prog.wp_trivial _ s)
    intro result after _
    cases result <;> simp
  | escaped exc =>
    intro elements same
    cases same

theorem wp_analyze_returns (analyzer : Analyzer R) (s : σ) :
    Prog.wp h (fun _ => True) (analyzer.analyze pdf.envelope pdf.reader pdf.start).run
      (fun result _ => ∀ elements, result = .ok elements →
        (analyzer.verdict pdf.envelope pdf.reader pdf.start).elements? = some elements) s := by
  simp only [Analyzer.analyze, Analyzer.detectAndParse_eq, Prog.wp_run_bind]
  apply Prog.wp_mono _ (Prog.wp_trivial _ s)
  intro entered after _
  cases entered with
  | error exc => simp
  | ok mine =>
    cases mine with
    | false => exact wp_verdict_returns _ _ after
    | true =>
      simp only [if_true, Prog.wp_run_bind, Prog.wp_run_pure]
      apply Prog.wp_mono _ (wp_verdict_returns _ _ after)
      intro result later returns
      cases result with
      | error exc => simp
      | ok elements =>
        apply Prog.wp_mono _ (Prog.wp_trivial _ later)
        intro exit last _
        cases exit with
        | error exc => simp
        | ok _ => simpa using returns

-- What a service answers, when it answers, is what stands behind it.

structure Serves (quickstart : Quickstart R) (h : Handler Effects W σ) (allowed : Exc → Prop) : Prop where
  chunkRegion : ∀ w s slot elements captionText docId, Prog.Concluded allowed
    ((Chunker.plainServices quickstart.splitText quickstart.count quickstart.chunkerConfig).chunkRegion slot elements
      captionText docId).run (h w (.chunkRegion slot elements captionText docId) s).1
  count : ∀ w s text, Prog.Concluded allowed (quickstart.count text) (h w (.count text) s).1
  embedBatch : ∀ w s texts, Prog.Concluded allowed (texts.map quickstart.embedText) (h w (.embedBatch texts) s).1

section Serving

variable {self} {allowed : Exc → Prop} (serves : self.Serves h allowed)

include serves

theorem assembleChunks_concludes {docId : String} {elements : List Element} {chunks : List Chunk}
    (assigned : Chunker.assignPositions hexdigest docId (Chunker.assembledDrafts self.splitText self.count
      self.chunkerConfig docId elements) = .ok chunks) :
    (Prog.concludes h allowed).rel (Chunker.assembleChunks hexdigest self.chunkerConfig docId elements)
      (pure chunks) := by
  have counts (text : String) : (Prog.concludes h allowed).rel (Chunker.injected.count text)
      ((Chunker.plainServices self.splitText self.count self.chunkerConfig).count text) :=
    fun s w => ⟨trivial, serves.count w s text⟩
  have regions (slot : StrategySlot) (elements : List Element) (captionText docId : Option String) :
      (Prog.concludes h allowed).rel (Chunker.injected.chunkRegion slot elements captionText docId)
        ((Chunker.plainServices self.splitText self.count self.chunkerConfig).chunkRegion slot elements captionText
          docId) :=
    fun s w => ⟨trivial, serves.chunkRegion w s slot elements captionText docId⟩
  have drafts : (Prog.concludes h allowed).rel
      (Chunker.assembleDrafts Chunker.injected self.chunkerConfig docId elements)
      (Chunker.assembleDrafts (Chunker.plainServices self.splitText self.count self.chunkerConfig)
        self.chunkerConfig docId elements) := by
    apply Chunker.assembleDrafts_related self.chunkerConfig counts docId elements
    intro region _
    simp only [Chunker.dispatchRegion]
    split
    next => exact regions _ _ _ _
    next => exact regions _ _ _ _
  intro s
  rw [Chunker.assembleChunks, Prog.wp_run_bind]
  apply Prog.wp_mono _ (drafts s)
  intro result after ended
  cases result with
  | error exc => exact ended
  | ok found =>
    obtain rfl : found = Chunker.assembledDrafts self.splitText self.count self.chunkerConfig docId elements := ended
    simp only [assigned]
    exact rfl

theorem batches_concludes (batches : List (List String)) :
    (Prog.concludes h allowed).rel
      (batches.foldlM (fun vectors batch => do return vectors ++ (← Py.embedBatch batch)) [] : Py _)
      (pure (batches.flatten.map self.embedText) : Id _) := by
  have sent (batch : List String) : (Prog.concludes h allowed).rel (Py.embedBatch batch)
      (pure (batch.map self.embedText) : Id _) :=
    fun s w => ⟨trivial, serves.embedBatch w s batch⟩
  have folded : (Prog.concludes h allowed).rel
      (batches.foldlM (fun vectors batch => do return vectors ++ (← Py.embedBatch batch)) [] : Py _)
      (batches.foldlM (fun vectors batch => do return vectors ++ (← pure (batch.map self.embedText))) [] : Id _) := by
    apply (Prog.concludes h allowed).foldlM
    intro vectors batch _
    exact (Prog.concludes h allowed).bind (sent batch) fun value =>
      (Prog.concludes h allowed).pure (vectors ++ value)
  have plain : (batches.foldlM (fun vectors batch => do
      return vectors ++ (← pure (batch.map self.embedText))) [] : Id _).run = batches.flatten.map self.embedText := by
    rw [Chunker.foldlM_append_plain, List.nil_append, List.map_flatten, List.flatMap_def]
    rfl
  intro s
  have ended := folded s
  rwa [plain] at ended

-- Without a positive batch size the call raises, unless there is nothing to embed.
theorem embedAll_concludes (sized : (∀ exc, allowed exc) ∨
      0 < effectiveBatchSize self.embedder.config.batchSize self.embedder.adapter.maxBatchSize) (chunks : List Chunk) :
    (Prog.concludes h allowed).rel (self.embedder.embedAll chunks)
      (pure (chunks.map (self.embedder.alone self.embedText))) := by
  intro s
  cases split : batched (chunks.map fun chunk => Embedder.applyPrefix chunk.text self.embedder.adapter.documentPrefix)
      (effectiveBatchSize self.embedder.config.batchSize self.embedder.adapter.maxBatchSize) with
  | error exc =>
    have nonpositive : ¬ 0 < effectiveBatchSize self.embedder.config.batchSize self.embedder.adapter.maxBatchSize := by
      intro positive
      obtain ⟨batches, made⟩ := Embedder.batched_of_pos (chunks.map fun chunk =>
        Embedder.applyPrefix chunk.text self.embedder.adapter.documentPrefix) positive
      rw [split] at made
      cases made
    rw [Embedder.embedAll, split]
    exact (sized.resolve_right nonpositive) exc
  | ok batches =>
    rw [Embedder.embedAll, split, Py.ofExcept_ok_bind, Prog.wp_run_bind]
    apply Prog.wp_mono _ (batches_concludes serves batches s)
    intro result after ended
    cases result with
    | error exc => exact ended
    | ok vectors =>
      obtain rfl : vectors = batches.flatten.map self.embedText := ended
      simp only [Prog.wp_run_bind, wp_ofExcept, Prog.wp_run_pure]
      rcases batched_cases split with ⟨_, whole⟩ | ⟨negative, rfl⟩
      next =>
        rw [whole, List.map_map, Embedder.zipStrict_map]
        simp only [List.map_map]
        apply List.map_congr_left
        intro chunk _
        exact self.embedder.buildEmbeddedChunk_alone self.embedText chunk
      next =>
        have nonpositive :
            ¬ 0 < effectiveBatchSize self.embedder.config.batchSize self.embedder.adapter.maxBatchSize := by omega
        cases chunks with
        | nil => exact rfl
        | cons chunk rest => exact (sized.resolve_right nonpositive) _

end Serving

section Failing

variable {quickstart : Quickstart R} (answers : quickstart.Serves h AnyError)

include answers

theorem wp_chunk_returns (elements : List Element) (s : σ) :
    Prog.wp h (fun _ => True) (Chunker.chunk hexdigest quickstart.chunkerConfig pdf.envelope elements).run
      (fun result _ => ∀ chunks, result = .ok chunks → Chunker.assignPositions hexdigest pdf.envelope.docId
        (Chunker.assembledDrafts quickstart.splitText quickstart.count quickstart.chunkerConfig pdf.envelope.docId
          elements) = .ok chunks) s := by
  obtain ⟨chunks, assigned⟩ := Chunker.assignPositions_ok hexdigest pdf.envelope.docIdFormat
    (Chunker.assembledDrafts quickstart.splitText quickstart.count quickstart.chunkerConfig pdf.envelope.docId
      elements)
  rw [assigned]
  cases elements with
  | nil =>
    rw [Chunker.chunk_nil]
    apply Prog.wp_mono _ (Py.terminalize_raises _ _ _ _ _ s)
    exact fun result _ never chunks same => absurd same (never chunks)
  | cons first rest =>
    have built := Prog.concludes_tryCatch (assembleChunks_concludes hexdigest answers assigned)
      fun exc _ => Prog.concludes_of_raises (pure chunks) (raises_buildChunks pdf.envelope.docId exc)
    change Prog.wp _ _ (Chunker.buildChunks hexdigest quickstart.chunkerConfig pdf.envelope.docId (first :: rest) >>=
      Chunker.transitionToEmbedding pdf.envelope.docId : Py _).run _ s
    rw [Prog.wp_run_bind]
    apply Prog.wp_mono _ (built s)
    intro result after ended
    cases result with
    | error exc => simp
    | ok found =>
      obtain rfl : found = chunks := ended
      simp only [Chunker.transitionToEmbedding, Prog.wp_run_bind, Prog.wp_run_pure]
      apply Prog.wp_mono _ (Prog.wp_trivial _ after)
      intro exit last _
      cases exit with
      | error exc => simp
      | ok _ => simp

theorem wp_embed_returns (chunks : List Chunk) (s : σ) :
    Prog.wp h (fun _ => True) (quickstart.embedder.embed pdf.envelope chunks).run
      (fun result _ => ∀ embeddedChunks, result = .ok embeddedChunks →
        embeddedChunks = chunks.map (quickstart.embedder.alone quickstart.embedText)) s := by
  by_cases accepts : quickstart.embedder.Accepts chunks
  next =>
    have answered := Prog.concludes_tryCatch (embedAll_concludes answers (.inl fun _ => trivial) chunks) fun exc _ =>
      Prog.concludes_of_raises (pure (chunks.map (quickstart.embedder.alone quickstart.embedText)))
        (raises_embed pdf.envelope.docId exc)
    rw [quickstart.embedder.embed_of_accepts _ accepts, Prog.wp_run_bind]
    apply Prog.wp_mono _ (answered s)
    intro result after ended
    cases result with
    | error exc => simp
    | ok found =>
      obtain rfl : found = chunks.map (quickstart.embedder.alone quickstart.embedText) := ended
      simp only [Embedder.transitionToIndexing, Prog.wp_run_bind, Prog.wp_run_pure]
      apply Prog.wp_mono _ (Prog.wp_trivial _ after)
      intro exit last _
      cases exit with
      | error exc => simp
      | ok _ => exact fun embeddedChunks same => (Except.ok.inj same).symm
  next =>
    obtain ⟨code, _, reason, rejected⟩ := quickstart.embedder.embed_of_not_accepts pdf.envelope accepts
    rw [rejected]
    apply Prog.wp_mono _ (Py.terminalize_raises _ _ _ _ _ s)
    exact fun result _ never embeddedChunks same => absurd same (never embeddedChunks)

theorem wp_prepare_returns (s : σ) :
    Prog.wp h (fun _ => True) (quickstart.prepare hexdigest pdf).run
      (fun result _ => ∀ embeddedChunks, result = .ok embeddedChunks →
        quickstart.embedded hexdigest pdf = some embeddedChunks) s := by
  rw [prepare, Prog.wp_run_bind]
  apply Prog.wp_mono _ (wp_analyze_returns pdf quickstart.analyzer s)
  intro analyzed after elementsOf
  cases analyzed with
  | error exc => simp
  | ok elements =>
    simp only [Prog.wp_run_bind]
    apply Prog.wp_mono _ (wp_chunk_returns hexdigest pdf answers elements after)
    intro chunked later chunksOf
    cases chunked with
    | error exc => simp
    | ok chunks =>
      apply Prog.wp_mono _ (wp_embed_returns pdf answers chunks later)
      intro result last vectorsOf embeddedChunks same
      rw [vectorsOf embeddedChunks same]
      simp [embedded, elementsOf elements rfl, chunksOf chunks rfl, Except.toOption]

end Failing

end Stages

theorem concluded_map {α : Type} (world : Except Exc α) (answer : α) :
    Prog.Concluded AnyError answer (world.map fun _ => answer) := by
  cases world with
  | ok value => exact rfl
  | error exc => trivial

variable (adapter) in
theorem deployed_serves : self.Serves (self.deployed adapter) AnyError where
  chunkRegion w _ _ _ _ _ := concluded_map w.2.1.drafts _
  count w _ _ := concluded_map w.2.1.tokens _
  embedBatch w _ _ := concluded_map w.2.1.vectors _

/-- A write that takes the row along the pipeline, or closes it with one of the codes `fails`. -/
def Onward (fails : String → Prop) (request : TransitionRequest) : Prop :=
  request.toStatus ∈ forwardOrder ∨
    request.toStatus = .failed ∧ ∃ errorCode, request.errorCode = some errorCode ∧ fails errorCode

theorem onward_running {fails : String → Prop} (status : Status) (forward : status ∈ forwardOrder)
    {request : TransitionRequest} (same : request.toStatus = status) : Onward fails request := .inl (same ▸ forward)

theorem onward_terminal {fails : String → Prop} {errorCode : String} (closes : fails errorCode)
    (docId reason : String) : Onward fails (Py.errorRequest .failed docId errorCode reason) :=
  .inr ⟨rfl, errorCode, rfl, closes⟩

/-- Only these codes end the analysis for good. -/
def Closes (fails : String → Prop) (analyzer : Analyzer R) : Prop :=
  ∀ errorCode reason detectedType,
    analyzer.verdict pdf.envelope pdf.reader pdf.start = .terminal errorCode reason detectedType → fails errorCode

section Writes

variable {allowed : Op → Prop} {fails : String → Prop}
  (writes : ∀ request, Onward fails request → allowed (.ledgerTransition request))

include writes

theorem analyze_uses {analyzer : Analyzer R} (closes : Closes pdf fails analyzer) :
    (analyzer.analyze pdf.envelope pdf.reader pdf.start).run.Uses (S := Effects) allowed := by
  have verdict : ((analyzer.verdict pdf.envelope pdf.reader pdf.start).program pdf.envelope.docId).run.Uses
      (S := Effects) allowed := by
    cases ended : analyzer.verdict pdf.envelope pdf.reader pdf.start with
    | returned elements => trivial
    | terminal errorCode reason detectedType =>
      have terminal := onward_terminal (closes errorCode reason detectedType ended) pdf.envelope.docId reason
      exact Prog.uses_run_bind (Prog.uses_perform (writes _ terminal)) fun _ => trivial
    | retried errorCode reason detectedType =>
      have again : Onward fails (Py.errorRequest .analyzing pdf.envelope.docId errorCode reason) :=
        onward_running .analyzing (by decide) rfl
      exact Prog.uses_run_bind (Prog.uses_perform (writes _ again)) fun _ => trivial
    | escaped exc => trivial
  simp only [Analyzer.analyze, Analyzer.detectAndParse_eq]
  apply Prog.uses_run_bind
  next =>
    rw [Analyzer.enterStage_run]
    exact ⟨writes _ (onward_running .analyzing (by decide) rfl), fun _ => trivial⟩
  next =>
    intro mine
    cases mine with
    | false => exact verdict
    | true =>
      apply Prog.uses_run_bind verdict
      intro elements
      exact Prog.uses_run_bind (Py.transitionTriaged_uses (writes _ (onward_running .chunking (by decide) rfl)))
        fun _ => trivial

variable (known : ∀ code, registeredSeverity code = some .permanent → fails code)

include known

theorem chunk_uses
    (dispatches : ∀ slot elements captionText docId, allowed (.chunkRegion slot elements captionText docId))
    (counts : ∀ text, allowed (.count text)) (config : ChunkerConfig) (elements : List Element) :
    (Chunker.chunk hexdigest config pdf.envelope elements).run.Uses (S := Effects) allowed := by
  have counted (text : String) : (Prog.performs (S := Effects) (ε := Exc) allowed).rel (Chunker.injected.count text)
      ((Chunker.plainServices (fun _ => []) (fun _ => 0) config).count text) := ⟨counts text, fun _ => trivial⟩
  have drafts : (Prog.performs (S := Effects) (ε := Exc) allowed).rel
      (Chunker.assembleDrafts Chunker.injected config pdf.envelope.docId elements)
      (Chunker.assembleDrafts (Chunker.plainServices (fun _ => []) (fun _ => 0) config) config pdf.envelope.docId
        elements) := by
    apply Chunker.assembleDrafts_related config counted pdf.envelope.docId elements
    intro region _
    simp only [Chunker.dispatchRegion]
    split
    next => exact ⟨dispatches _ _ _ _, fun _ => trivial⟩
    next => exact ⟨dispatches _ _ _ _, fun _ => trivial⟩
  have again (code reason : String) : (Py.selfTransitionAndRaise .chunker .chunking pdf.envelope.docId code reason :
      Py (List Chunk)).run.Uses (S := Effects) allowed :=
    Prog.uses_run_bind (Prog.uses_perform (writes _ (onward_running .chunking (by decide) rfl))) fun _ => trivial
  cases elements with
  | nil =>
    have permanent := known chunkerEmptyElements (by decide)
    rw [Chunker.chunk_nil]
    exact Py.terminalize_uses .chunker (writes _ (onward_terminal permanent _ _))
  | cons first rest =>
    change (Chunker.buildChunks hexdigest config pdf.envelope.docId (first :: rest) >>=
      Chunker.transitionToEmbedding pdf.envelope.docId : Py _).run.Uses (S := Effects) allowed
    apply Prog.uses_run_bind
    next =>
      have assembled : (Chunker.assembleChunks hexdigest config pdf.envelope.docId (first :: rest)).run.Uses
          (S := Effects) allowed := Prog.uses_run_bind drafts fun _ => trivial
      apply Prog.uses_run_tryCatch assembled
      intro exc
      split
      next =>
        split
        next => exact again _ _
        next => exact again _ _
      next => exact again _ _
    next =>
      intro chunks
      apply Prog.uses_run_bind (Py.transitionTriaged_uses (writes _ (onward_running .embedding (by decide) rfl)))
      exact fun _ => Prog.uses_pure _

theorem embed_uses (embeds : ∀ texts, allowed (.embedBatch texts)) (embedder : Embedder) (chunks : List Chunk) :
    (embedder.embed pdf.envelope chunks).run.Uses (S := Effects) allowed := by
  have again (code reason : String) : (Py.selfTransitionAndRaise .embedder .embedding pdf.envelope.docId code reason :
      Py (List EmbeddedChunk)).run.Uses (S := Effects) allowed :=
    Prog.uses_run_bind (Prog.uses_perform (writes _ (onward_running .embedding (by decide) rfl))) fun _ => trivial
  by_cases accepts : embedder.Accepts chunks
  next =>
    rw [embedder.embed_of_accepts pdf.envelope accepts]
    apply Prog.uses_run_bind
    next =>
      apply Prog.uses_run_tryCatch (embedder.embedAll_uses chunks fun batch _ => embeds batch)
      intro exc
      split
      next =>
        split
        next => exact again _ _
        next => exact again _ _
      next => exact again _ _
    next =>
      intro embedded
      apply Prog.uses_run_bind (Py.transitionTriaged_uses (writes _ (onward_running .indexing (by decide) rfl)))
      exact fun _ => Prog.uses_pure _
  next =>
    have permanent : ∀ code ∈ Embedder.validationCodes, registeredSeverity code = some .permanent := by decide
    obtain ⟨code, member, reason, rejected⟩ := embedder.embed_of_not_accepts pdf.envelope accepts
    rw [rejected]
    exact Py.terminalize_uses .embedder (writes _ (onward_terminal (known code (permanent code member)) _ reason))

theorem prepare_uses
    (dispatches : ∀ slot elements captionText docId, allowed (.chunkRegion slot elements captionText docId))
    (counts : ∀ text, allowed (.count text)) (embeds : ∀ texts, allowed (.embedBatch texts))
    (closes : Closes pdf fails self.analyzer) :
    (self.prepare hexdigest pdf).run.Uses (S := Effects) allowed := by
  apply Prog.uses_run_bind (analyze_uses pdf writes closes)
  intro elements
  apply Prog.uses_run_bind (chunk_uses hexdigest pdf writes known dispatches counts self.chunkerConfig elements)
  intro chunks
  exact embed_uses pdf writes known embeds self.embedder chunks

theorem index_uses (others : ∀ o, NoWrite o → allowed o) (indexer : Indexer) (embeddedChunks : List EmbeddedChunk) :
    (indexer.index pdf.envelope embeddedChunks).run.Uses (S := Effects) allowed := by
  have upserts (records : List IndexRecord) : allowed (.upsert records) := others _ (by simp [NoWrite, IsLedgerWrite])
  have closes (code reason : String) (permanent : registeredSeverity code = some .permanent) :=
    writes _ (onward_terminal (known code permanent) pdf.envelope.docId reason)
  by_cases accepts : indexer.Accepts embeddedChunks
  next =>
    have permanent : ∀ code ∈ Indexer.permanentUpsertCodes, registeredSeverity code = some .permanent := by decide
    have again (code reason : String) : (Indexer.selfTransitionAndRaise pdf.envelope.docId code reason :
        Py IndexResult).run.Uses (S := Effects) allowed :=
      Prog.uses_run_bind (Py.transitionTriaged_uses (writes _ (onward_running .indexing (by decide) rfl)))
        fun _ => trivial
    rw [indexer.index_of_accepts accepts]
    apply Prog.uses_run_bind
    next =>
      exact Indexer.buildRecords_uses (others _ (by simp [NoWrite, IsLedgerWrite]))
        (others _ (by simp [NoWrite, IsLedgerWrite])) pdf.envelope embeddedChunks
    next =>
      intro records
      apply Prog.uses_run_bind
      next =>
        apply Prog.uses_run_tryCatch
        next =>
          exact indexer.upsertAll_uses (others _ (by simp [NoWrite, IsLedgerWrite]))
            (others _ (by simp [NoWrite, IsLedgerWrite])) upserts records
        next =>
          intro exc
          split
          next =>
            split
            next member => exact Py.terminalize_uses .indexer (closes _ _ (permanent _ member))
            next =>
              split
              next => exact again _ _
              next => exact again _ _
          next => exact again _ _
      next =>
        intro result
        apply Prog.uses_run_bind (Py.transitionTriaged_uses (writes _ (onward_running .indexed (by decide) rfl)))
        exact fun _ => Prog.uses_pure _
  next =>
    have permanent : ∀ code ∈ Indexer.validationCodes, registeredSeverity code = some .permanent := by decide
    obtain ⟨code, member, reason, rejected⟩ := indexer.index_of_not_accepts pdf.envelope accepts
    rw [rejected]
    exact Py.terminalize_uses .indexer (closes code reason (permanent code member))

theorem main_uses (others : ∀ o, NoWrite o → allowed o) (closes : Closes pdf fails self.analyzer) :
    (self.main hexdigest pdf).run.Uses (S := Effects) allowed := by
  have idle {o : Op} (quiet : NoWrite o) : allowed o := others o quiet
  apply Prog.uses_run_bind (self.prepare_uses hexdigest pdf writes known
    (fun _ _ _ _ => idle (by simp [NoWrite, IsLedgerWrite])) (fun _ => idle (by simp [NoWrite, IsLedgerWrite]))
    (fun _ => idle (by simp [NoWrite, IsLedgerWrite])) closes)
  exact fun embeddedChunks => index_uses pdf writes known others self.indexer embeddedChunks

end Writes

theorem prepare_idle : (self.prepare hexdigest pdf).run.Uses (S := Effects) (fun o => ¬ Indexer.IsIndexOp o) := by
  have writes (request : TransitionRequest) (_ : Onward (fun _ => True) request) :
      ¬ Indexer.IsIndexOp (.ledgerTransition request) := id
  exact self.prepare_uses hexdigest pdf writes (fun _ _ => trivial) (fun _ _ _ _ => id) (fun _ => id) (fun _ => id)
    fun _ _ _ _ => trivial

theorem wp_deployed_of_storeView {α : Type} {I : X → Prop} {Q : α → X → Prop} {p : Prog Effects α} {s : System × X}
    (holds : Prog.wp (Indexer.storeView IndexCall.anyAnswer adapter) I p Q s.2) :
    Prog.wp (self.deployed adapter) (fun s => I s.2) p (fun value s => Q value s.2) s := by
  let R : System × X → X → Prop := fun s index => s.2 = index
  have matched (o : Op) (_ : True) (w : List LedgerCall × World × V) (s : System × X) (index : X) (same : R s index) :
      ∃ v, (Indexer.storeView IndexCall.anyAnswer adapter v o index).1 = (self.deployed adapter w o s).1 ∧
        R (self.deployed adapter w o s).2 (Indexer.storeView IndexCall.anyAnswer adapter v o index).2 := by
    obtain rfl : s.2 = index := same
    refine ⟨(fun other => (self.deployed adapter w other s).1, w.2.2), ?_⟩
    by_cases acts : Indexer.IsIndexOp o
    next =>
      have step : (Indexer.storeView IndexCall.anyAnswer adapter _ o s.2).1 = (self.deployed adapter w o s).1 ∧
          (self.deployed adapter w o s).2 = _ :=
        Indexer.pipeline_of_indexOp acts (self.answering w.2.1 o, w.2.2)
          (fun other => (self.deployed adapter w other s).1) (interfere w.1 s)
      exact ⟨step.1, congrArg Prod.snd step.2⟩
    next =>
      rw [Indexer.storeView_of_not_indexOp acts]
      exact ⟨rfl, Indexer.pipeline_of_not_indexOp acts _ (interfere w.1 s)⟩
  have related : R s s.2 := rfl
  apply Prog.wp_consequence _ _ (Prog.wp_simulate matched (Prog.uses_trivial p) related holds)
  next =>
    rintro s ⟨_, rfl, held⟩
    exact held
  next =>
    rintro value s ⟨_, rfl, held⟩
    exact held

variable {owner : String → String} (contract : Indexer.Contract adapter owner)

structure Ingested (embeddedChunks : List EmbeddedChunk) (before after : System × X) : Prop where
  prepared : self.embedded hexdigest pdf = some embeddedChunks
  rewrites : ∃ configVersion, Indexer.Rewrites contract self.indexer pdf.envelope embeddedChunks configVersion
    before.2 after.2
  indexed : ∃ row, after.1.ledger.get pdf.envelope.docId = some row ∧ row.status = .indexed

theorem wp_main (on : self.indexer.config.deleteBeforeUpsertOnVersionChange = true)
    (own : ∀ embeddedChunks, self.embedded hexdigest pdf = some embeddedChunks →
      Indexer.ChunksOf owner pdf.envelope.docId embeddedChunks)
    {s : System × X} (kept : Indexer.Kept contract s.2) :
    Prog.wp (self.deployed adapter) (fun s => Indexer.Kept contract s.2) (self.main hexdigest pdf).run
      (fun result after => Indexer.Kept contract after.2 ∧ ∀ receipt, result = .ok receipt →
        ∃ embeddedChunks, Ingested hexdigest self pdf contract embeddedChunks s after) s := by
  have untouched : Prog.wp (self.deployed adapter) (fun after => after.2 = s.2) (self.prepare hexdigest pdf).run
      (fun _ after => after.2 = s.2) s := by
    refine Prog.wp_of_uses (I := fun after : System × X => after.2 = s.2) (self.prepare_idle hexdigest pdf)
      (fun o idle w after same => ?_) rfl
    exact (Indexer.pipeline_of_not_indexOp idle _ (interfere w.1 after)).trans same
  have prepared : Prog.wp (self.deployed adapter) (fun after => Indexer.Kept contract after.2)
      (self.prepare hexdigest pdf).run (fun result after => (∀ embeddedChunks, result = .ok embeddedChunks →
        self.embedded hexdigest pdf = some embeddedChunks) ∧ after.2 = s.2) s := by
    have returned := wp_prepare_returns hexdigest pdf (self.deployed_serves adapter) s
    apply Prog.wp_consequence _ _ (Prog.wp_and untouched returned)
    next =>
      intro after same
      rw [same]
      exact kept
    next => exact fun result after ended => ended.symm
  rw [main, Prog.wp_run_bind]
  apply Prog.wp_mono _ prepared
  intro result middle ended
  obtain ⟨prepares, same⟩ := ended
  cases result with
  | error exc =>
    rw [same]
    exact ⟨kept, by simp⟩
  | ok embeddedChunks =>
    have chunks := prepares embeddedChunks rfl
    have stored := self.wp_deployed_of_storeView (s := middle) (Indexer.wp_index_kept contract self.indexer on
      pdf.envelope (own embeddedChunks chunks) (same ▸ kept))
    have marked := self.wp_deployed (wp_contended_index adapter self.indexer pdf.envelope embeddedChunks middle)
    apply Prog.wp_consequence _ _ (Prog.wp_and stored marked)
    next => exact fun after held => held
    next =>
      intro result after ended
      obtain ⟨⟨keeps, rewrites⟩, _, indexed⟩ := ended
      refine ⟨keeps, fun receipt returned => ⟨embeddedChunks, chunks, ?_, indexed receipt returned⟩⟩
      obtain ⟨a, written⟩ := rewrites receipt returned
      rw [← same]
      exact ⟨_, written⟩

end Quickstart

end Vestibule
