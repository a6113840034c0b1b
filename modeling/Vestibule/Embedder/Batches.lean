import Vestibule.Embedder
import Vestibule.Pipeline.Outcome

set_option autoImplicit false

namespace Vestibule

open Library

theorem batched_nonempty {α : Type} {items : List α} {size : Int} {batches : List (List α)}
    (split : batched items size = .ok batches) {batch : List α} (member : batch ∈ batches) : batch ≠ [] := by
  simp only [batched] at split
  split_ifs at split with zero negative
  next =>
    obtain rfl : [] = batches := by simpa using split
    simp at member
  next =>
    obtain rfl : _ = batches := by simpa using split
    obtain ⟨k, within, rfl⟩ := List.mem_map.mp member
    have width : 0 < size.toNat := by omega
    have started : (k + 1) * size.toNat ≤ items.length + size.toNat - 1 :=
      (Nat.le_div_iff_mul_le width).mp (List.mem_range.mp within)
    rw [Nat.succ_mul] at started
    have filled : 0 < ((items.drop (k * size.toNat)).take size.toNat).length := by
      rw [List.length_take, List.length_drop]
      omega
    exact List.ne_nil_of_length_pos filled

def Op.embedTexts : Op → Option (List String)
  | .embedBatch texts => some texts
  | _ => none

def sentBatches {W σ : Type} (visits : List (Prog.Visit Effects W σ)) : List (List String) :=
  visits.filterMap fun visit => visit.op.embedTexts

theorem sentBatches_append {W σ : Type} (first second : List (Prog.Visit Effects W σ)) :
    sentBatches (first ++ second) = sentBatches first ++ sentBatches second := List.filterMap_append

section Adapter

variable {W σ : Type}

def withVectors (embedBatch : W → List String → Except Exc (List (List Float))) (h : Handler Effects W σ) :
    Handler Effects W σ :=
  fun w o s => match o with
  | .embedBatch texts => (embedBatch w texts, s)
  | o => h w o s

end Adapter

def fastEmbedEmbedder (model : String) : EmbedderAdapter where
  modelName := model
  maxBatchSize := 32
  maxInputTokens := 8192
  supportsMrl := true
  documentPrefix := some "search_document: "

namespace Embedder

def embedAlone (embedText : String → List Float) (modelName : String) (targetDimensions : Option Int)
    (documentPrefix : Option String) (chunk : Chunk) : EmbeddedChunk :=
  let native := embedText (applyPrefix chunk.text documentPrefix)
  let vector := (targetDimensions.map (truncateAndRenormalize native)).getD native
  { chunk, vector, embeddingModel := modelName, embeddingDimensions := vector.length
    truncatedFrom := targetDimensions.map fun _ => native.length }

variable (self : Embedder)

def prefixedTexts (chunks : List Chunk) : List String :=
  chunks.map fun chunk => applyPrefix chunk.text self.adapter.documentPrefix

def rebatched (batchSize : Option Int) (maxBatchSize : Int) : Embedder :=
  { self with
    config := { self.config with batchSize }
    adapter := { self.adapter with maxBatchSize } }

def alone (embedText : String → List Float) : Chunk → EmbeddedChunk :=
  embedAlone embedText self.adapter.modelName self.config.targetDimensions self.adapter.documentPrefix

theorem buildEmbeddedChunk_alone (embedText : String → List Float) (chunk : Chunk) :
    self.buildEmbeddedChunk chunk (embedText (applyPrefix chunk.text self.adapter.documentPrefix)) =
      self.alone embedText chunk := by
  simp only [buildEmbeddedChunk, alone, embedAlone]
  cases self.config.targetDimensions with
  | none => rfl
  | some target => rfl

section Run

variable {W σ : Type} {h : Handler Effects W σ} {embedText : String → List Float}

def Pointwise (h : Handler Effects W σ) (embedText : String → List Float) : Prop :=
  ∀ w texts s, (h w (.embedBatch texts) s).1 = .ok (texts.map embedText)

-- The invariant of the loop: the vectors so far are those of the texts sent so far.
theorem wp_batches_pointwise (pointwise : Pointwise h embedText) (batches : List (List String))
    (vectors : List (List Float)) (s : σ) (seen : List (Prog.Visit Effects W σ)) :
    Prog.wp (Prog.journaled h) (fun _ => True)
      (batches.foldlM (fun vectors batch => do return vectors ++ (← Py.embedBatch batch)) vectors : Py _).run
      (fun result journal => result = .ok (vectors ++ batches.flatten.map embedText) ∧
        sentBatches journal.2 = sentBatches seen ++ batches) (s, seen) := by
  induction batches generalizing vectors s seen with
  | nil =>
    change (Except.ok vectors : Except Exc _) = .ok (vectors ++ _) ∧ sentBatches seen = sentBatches seen ++ []
    simp
  | cons batch rest ih =>
    rw [List.foldlM_cons, Prog.wp_run_bind, Prog.wp_run_bind]
    intro w
    have answered : (Prog.journaled h w (.embedBatch batch) (s, seen)).1 = .ok (batch.map embedText) :=
      pointwise w batch s
    rw [answered]
    have later := ih (vectors ++ batch.map embedText) (h w (.embedBatch batch) s).2
      (seen ++ [⟨w, .embedBatch batch, s⟩])
    refine ⟨trivial, Prog.wp_mono (p := (rest.foldlM _ (vectors ++ batch.map embedText) : Py _).run) ?_ later⟩
    intro result journal ended
    rw [ended.1, ended.2, sentBatches_append]
    simp [sentBatches, Op.embedTexts]

theorem effectiveBatchSize_pos {batchSize : Option Int} {maxBatchSize : Int}
    (positive : ∀ size, batchSize = some size → 1 ≤ size) (capacity : 1 ≤ maxBatchSize) :
    0 < effectiveBatchSize batchSize maxBatchSize ∧ effectiveBatchSize batchSize maxBatchSize ≤ maxBatchSize := by
  cases batchSize with
  | none =>
    simp only [effectiveBatchSize]
    omega
  | some size =>
    have atLeast := positive size rfl
    simp only [effectiveBatchSize]
    omega

theorem batched_of_pos {α : Type} (items : List α) {size : Int} (positive : 0 < size) :
    ∃ batches, batched items size = .ok batches := by
  have nonzero : size ≠ 0 := by omega
  have nonneg : ¬ size < 0 := by omega
  simp [batched, nonzero, nonneg]

theorem zipStrict_map {α β : Type} (items : List α) (f : α → β) :
    zipStrict items (items.map f) = .ok (items.map fun item => (item, f item)) := by
  simp only [zipStrict, List.length_map, Nat.lt_irrefl, if_false, List.map_prod_left_eq_zip]

theorem wp_embedAll_pointwise (pointwise : Pointwise h embedText)
    (positive : ∀ size, self.config.batchSize = some size → 1 ≤ size) (capacity : 1 ≤ self.adapter.maxBatchSize)
    (chunks : List Chunk) (s : σ) :
    Prog.wp (Prog.journaled h) (fun _ => True) (self.embedAll chunks).run
      (fun result journal => result = .ok (chunks.map (self.alone embedText)) ∧
        (sentBatches journal.2).flatten = self.prefixedTexts chunks ∧
        ∀ batch ∈ sentBatches journal.2, batch ≠ [] ∧ (batch.length : Int) ≤ self.adapter.maxBatchSize) (s, []) := by
  obtain ⟨atLeast, atMost⟩ := effectiveBatchSize_pos positive capacity
  obtain ⟨batches, split⟩ := batched_of_pos (self.prefixedTexts chunks) atLeast
  have whole := batched_flatten atLeast split
  have same : self.embedAll chunks = (do
      let vectors ← batches.foldlM (fun vectors batch => do return vectors ++ (← Py.embedBatch batch)) []
      let pairs ← Py.ofExcept (zipStrict chunks vectors)
      return pairs.map fun pair => self.buildEmbeddedChunk pair.1 pair.2) := by
    simp only [prefixedTexts] at split
    simp only [embedAll, split, Py.ofExcept_ok_bind]
  rw [same, Prog.wp_run_bind]
  apply Prog.wp_mono _ (wp_batches_pointwise pointwise batches [] s [])
  intro result journal ended
  obtain ⟨rfl, sent⟩ := ended
  have sentAll : sentBatches journal.2 = batches := by simpa [sentBatches] using sent
  rw [whole, List.nil_append, prefixedTexts, List.map_map]
  simp only [zipStrict_map, Prog.wp_run_bind, wp_ofExcept, Prog.wp_run_pure, List.map_map]
  refine ⟨?_, ?_, ?_⟩
  next =>
    congr 1
    apply List.map_congr_left
    intro chunk _
    exact self.buildEmbeddedChunk_alone embedText chunk
  next => rw [sentAll, whole, prefixedTexts]
  next =>
    intro batch member
    rw [sentAll] at member
    have length := batched_length_le split member
    exact ⟨batched_nonempty split member, by omega⟩

theorem embedAll_per_chunk (pointwise : Pointwise h embedText)
    (positive : ∀ size, self.config.batchSize = some size → 1 ≤ size) (capacity : 1 ≤ self.adapter.maxBatchSize)
    (chunks : List Chunk) (oracle : Nat → W) (s : σ) :
    (Prog.run h (self.embedAll chunks).run oracle s).1 = .ok (chunks.map (self.alone embedText)) ∧
      (∀ batchSize maxBatchSize, (∀ size, batchSize = some size → 1 ≤ size) → 1 ≤ maxBatchSize →
        (Prog.run h ((self.rebatched batchSize maxBatchSize).embedAll chunks).run oracle s).1 =
          (Prog.run h (self.embedAll chunks).run oracle s).1) ∧
      (sentBatches (Prog.visits h (self.embedAll chunks).run oracle s)).flatten = self.prefixedTexts chunks ∧
      ∀ batch ∈ sentBatches (Prog.visits h (self.embedAll chunks).run oracle s),
        batch ≠ [] ∧ (batch.length : Int) ≤ self.adapter.maxBatchSize := by
  obtain ⟨result, sent⟩ :=
    Prog.visits_of_wp (self.wp_embedAll_pointwise pointwise positive capacity chunks s) oracle
  refine ⟨result, ?_, by simpa using sent⟩
  intro batchSize maxBatchSize positive' capacity'
  have again := Prog.visits_of_wp
    ((self.rebatched batchSize maxBatchSize).wp_embedAll_pointwise pointwise positive' capacity' chunks s) oracle
  rw [result, again.1]
  rfl

end Run

def sampleEmbedder (batchSize : Option Int) : Embedder where
  config := { batchSize }
  adapter := fastEmbedEmbedder "nomic-ai/nomic-embed-text-v1.5"
  mrlSupported _ := rfl

def sampleChunk (text : String) (tokenCount : Int) : Chunk :=
  { (StageCall.sampleChunk "c").chunk with text, tokenCount }

def codePoints (text : String) : List Float := text.toList.map fun c => Float.ofNat c.toNat

def pointwiseHandler : Handler Effects (World × Unit) (System × Unit) :=
  withVectors (fun _ texts => .ok (texts.map codePoints)) (pipeline idleIndex)

def twoBatches : List Chunk := [sampleChunk "a" 1, sampleChunk "b" 1, sampleChunk "c" 1]

theorem embedAll_per_chunk_in_two_batches :
    (Prog.run pointwiseHandler ((sampleEmbedder (some 2)).embedAll twoBatches).run (fun _ => ({}, ()))
      StageCall.sampleSystem).1 = .ok (twoBatches.map ((sampleEmbedder (some 2)).alone codePoints)) ∧
    (sentBatches (Prog.visits pointwiseHandler ((sampleEmbedder (some 2)).embedAll twoBatches).run
      (fun _ => ({}, ())) StageCall.sampleSystem)).flatten =
        ["search_document: a", "search_document: b", "search_document: c"] := by
  have pointwise : Pointwise pointwiseHandler codePoints := fun _ _ _ => rfl
  have holds := (sampleEmbedder (some 2)).embedAll_per_chunk pointwise (by decide) (by decide) twoBatches
    (fun _ => ({}, ())) StageCall.sampleSystem
  exact ⟨holds.1, holds.2.2.1⟩

-- The length is checked before the prefix is put in front, and the text is sent with it.

section Limit

variable {V X : Type}

theorem embedAll_uses {allowed : Op → Prop} (chunks : List Chunk)
    (permitted : ∀ batch : List String, batch ⊆ self.prefixedTexts chunks → allowed (.embedBatch batch)) :
    (self.embedAll chunks).run.Uses (S := Effects) allowed := by
  rw [embedAll]
  cases split : batched (chunks.map fun chunk => applyPrefix chunk.text self.adapter.documentPrefix)
      (effectiveBatchSize self.config.batchSize self.adapter.maxBatchSize) with
  | error exc => trivial
  | ok batches =>
    have parts (batch : List String) (member : batch ∈ batches) : batch ⊆ self.prefixedTexts chunks := by
      intro text included
      rcases batched_cases split with ⟨_, whole⟩ | ⟨_, rfl⟩
      next =>
        rw [prefixedTexts, ← whole]
        exact List.mem_flatten_of_mem member included
      next => cases member
    rw [Py.ofExcept_ok_bind]
    apply Prog.uses_run_bind
    next =>
      apply Prog.uses_run_foldlM
      intro vectors batch member
      exact Prog.uses_run_bind (Prog.uses_perform (permitted batch (parts batch member))) fun _ => Prog.uses_pure _
    next =>
      intro vectors
      exact Prog.uses_run_bind trivial fun _ => Prog.uses_pure _

theorem runWithRecovery_uses {allowed : Op → Prop} (docId : String) (chunks : List Chunk)
    (writes : ∀ request, allowed (.ledgerTransition request))
    (permitted : ∀ batch : List String, batch ⊆ self.prefixedTexts chunks → allowed (.embedBatch batch)) :
    (self.runWithRecovery docId chunks).run.Uses (S := Effects) allowed := by
  have again (code reason : String) : (Py.selfTransitionAndRaise .embedder .embedding docId code reason :
      Py (List EmbeddedChunk)).run.Uses (S := Effects) allowed :=
    Prog.uses_run_bind (Prog.uses_perform (writes _)) fun _ => trivial
  apply Prog.uses_run_tryCatch (self.embedAll_uses chunks permitted)
  intro exc
  split
  next =>
    split
    next => exact again _ _
    next => exact again _ _
  next => exact again _ _

theorem embed_uses {allowed : Op → Prop} (envelope : ArrivalEnvelope) {chunks : List Chunk}
    (writes : ∀ request, allowed (.ledgerTransition request))
    (permitted : self.Accepts chunks →
      ∀ batch : List String, batch ⊆ self.prefixedTexts chunks → allowed (.embedBatch batch)) :
    (self.embed envelope chunks).run.Uses (S := Effects) allowed := by
  by_cases accepts : self.Accepts chunks
  next =>
    rw [self.embed_of_accepts envelope accepts]
    apply Prog.uses_run_bind (self.runWithRecovery_uses _ chunks writes (permitted accepts))
    intro embedded
    exact Prog.uses_run_bind (Py.transitionTriaged_uses (writes _)) fun _ => Prog.uses_pure _
  next =>
    obtain ⟨code, _, reason, rejected⟩ := self.embed_of_not_accepts envelope accepts
    rw [rejected]
    exact Py.terminalize_uses .embedder (writes _)

theorem sent_of_uses {W σ α : Type} {h : Handler Effects W σ} {p : Prog Effects α} {allowed : List String → Prop}
    (uses : p.Uses (S := Effects) fun o => ∀ texts, o.embedTexts = some texts → allowed texts) (oracle : Nat → W) (s : σ) :
    ∀ texts ∈ sentBatches (Prog.visits h p oracle s), allowed texts := by
  have none_yet : ∀ visit ∈ ([] : List (Prog.Visit Effects W σ)),
      ∀ texts, visit.op.embedTexts = some texts → allowed texts := by simp
  have kept := Prog.visits_of_wp (h := h) (Prog.wp_journaled_of_uses uses (fun _ held => held) s none_yet) oracle
  intro texts member
  obtain ⟨visit, visited, sent⟩ := List.mem_filterMap.mp member
  exact kept visit (by simpa using visited) texts sent

theorem embed_of_too_long (envelope : ArrivalEnvelope) {chunks : List Chunk}
    (long : ∃ chunk ∈ chunks, self.adapter.maxInputTokens < chunk.tokenCount) :
    ∃ reason, self.embed envelope chunks =
      Py.terminalize .embedder envelope.docId embedderInputTooLong reason := by
  obtain ⟨chunk, member, exceeds⟩ := long
  have nonempty : chunks.isEmpty = false := by
    cases chunks with
    | nil => cases member
    | cons first rest => rfl
  cases found : chunks.find? (fun chunk => self.adapter.maxInputTokens < chunk.tokenCount) with
  | none =>
    have fits := List.find?_eq_none.mp found chunk member
    simp only [decide_eq_true_eq] at fits
    omega
  | some first =>
    simp only [embed, validateInputLengths, nonempty, found, if_false, Bool.false_eq_true, Py.terminalize_bind]
    exact ⟨_, rfl⟩

-- No code of the later stages is the one of the length check.
theorem wp_embed_not_too_long (adapter : IndexerAdapter V X) (envelope : ArrivalEnvelope) {chunks : List Chunk}
    (accepts : self.Accepts chunks) {s : System × X} (held : HasStatus envelope.docId .embedding s) :
    Prog.wp (pipeline adapter) (fun _ => True) (self.embed envelope chunks).run
      (fun result _ => ∀ reason, result ≠ .error (.ragged .embedder envelope.docId reason embedderInputTooLong)) s := by
  obtain ⟨row, present, status⟩ := held.exists
  rw [self.embed_of_accepts envelope accepts, runWithRecovery]
  simp only [Prog.wp_run_bind, Prog.wp_run_tryCatch]
  apply Prog.wp_mono _ (wp_noWrite (self.embedAll_noWrite chunks) s)
  intro result s' same
  rw [← same] at present
  have again {code : String} (other : code ≠ embedderInputTooLong) (reason : String) :
      Prog.wp (pipeline adapter) (fun _ => True) (Py.selfTransitionAndRaise .embedder .embedding envelope.docId code
        reason : Py (List EmbeddedChunk)).run (fun result _ => ∃ reason code, code ≠ embedderInputTooLong ∧
          result = .error (.ragged .embedder envelope.docId reason code)) s' := by
    apply wp_selfTransitionAndRaise _ _ _ _ _ present status (by decide)
    intro s'' row' _ _ _ _ _
    exact ⟨trivial, reason, code, other, rfl⟩
  cases result with
  | ok embedded =>
    have edge : Edge row.status .indexing := by
      rw [status]
      decide
    simp only [transitionToIndexing, Prog.wp_run_bind, Prog.wp_run_pure]
    apply wp_transitionTriaged _ present rfl edge (by simp)
    intro now s'' _ _
    simp
  | error exc =>
    apply Prog.wp_mono (Q := fun result _ => ∃ reason code, code ≠ embedderInputTooLong ∧
      result = .error (.ragged .embedder envelope.docId reason code))
    next =>
      rintro _ _ ⟨reason, code, other, rfl⟩
      simp [other]
    next =>
      split
      next =>
        split
        next known =>
          apply again
          rintro rfl
          exact absurd known (by decide)
        next => exact again (by decide) _
      next => exact again (by decide) _

def RespectsLimit (count : String → Int) (envelope : ArrivalEnvelope) (chunks : List Chunk) : Prop :=
  ∀ (V X : Type) (adapter : IndexerAdapter V X) (oracle : Nat → World × V) (s : System × X),
    HasStatus envelope.docId .embedding s →
    (∀ texts ∈ sentBatches (Prog.visits (pipeline adapter) (self.embed envelope chunks).run oracle s),
      ∀ text ∈ texts, count text ≤ self.adapter.maxInputTokens) ∧
    ((∃ text ∈ self.prefixedTexts chunks, self.adapter.maxInputTokens < count text) →
      (∃ reason, (Prog.run (pipeline adapter) (self.embed envelope chunks).run oracle s).1 =
        .error (.ragged .embedder envelope.docId reason embedderInputTooLong)) ∧
      sentBatches (Prog.visits (pipeline adapter) (self.embed envelope chunks).run oracle s) = [])

theorem respectsLimit_of_rejected (count : String → Int) (envelope : ArrivalEnvelope) {chunks : List Chunk}
    (long : ∃ chunk ∈ chunks, self.adapter.maxInputTokens < chunk.tokenCount) :
    self.RespectsLimit count envelope chunks := by
  intro V X adapter oracle s held
  obtain ⟨row, present, status⟩ := held.exists
  obtain ⟨reason, rejected⟩ := self.embed_of_too_long envelope long
  have quiet : sentBatches (Prog.visits (pipeline adapter) (self.embed envelope chunks).run oracle s) = [] := by
    apply List.eq_nil_iff_forall_not_mem.mpr
    apply sent_of_uses
    rw [rejected]
    exact Py.terminalize_uses .embedder (by simp [Op.embedTexts])
  refine ⟨by simp [quiet], fun _ => ⟨⟨reason, ?_⟩, quiet⟩⟩
  have toFailed : Edge row.status .failed := by
    rw [status]
    decide
  have raised : Prog.wp (pipeline adapter) (fun _ => True) (self.embed envelope chunks).run (fun result _ => result =
      .error (.ragged .embedder envelope.docId reason embedderInputTooLong)) s := by
    rw [rejected]
    apply wp_terminalize _ _ _ _ present toFailed
    intro s' row' _ _ _ _
    exact ⟨trivial, rfl⟩
  exact Prog.run_of_wp raised oracle

theorem respectsLimit_of_fits (count : String → Int) (envelope : ArrivalEnvelope) {chunks : List Chunk}
    (fits : ∀ text ∈ self.prefixedTexts chunks, count text ≤ self.adapter.maxInputTokens) :
    self.RespectsLimit count envelope chunks := by
  intro V X adapter oracle s held
  constructor
  next =>
    apply sent_of_uses
    apply self.embed_uses envelope (by simp [Op.embedTexts])
    intro _ batch part texts sent text member
    obtain rfl : batch = texts := Option.some.inj sent
    exact fits text (part member)
  next =>
    rintro ⟨text, member, exceeds⟩
    have within := fits text member
    omega

def embeddingSystem (docId : String) (format : hexRe (PyStr.ofString docId)) : System × Unit :=
  ({ ledger := InMemoryLedgerStore.empty.put docId
      { docId, status := .embedding, stage := .embedding, attempts := 1, attemptsNonneg := Int.one_nonneg,
        configVersion := "v1", ingestedAt := 0, updatedAt := 0 }
      ⟨format, rfl, rfl, by simp⟩ }, ())

theorem embeddingSystem_status {docId : String} (format : hexRe (PyStr.ofString docId)) :
    HasStatus docId .embedding (embeddingSystem docId format) := by
  simp [HasStatus, embeddingSystem]

theorem not_respectsLimit_of_gap (count : String → Int) (envelope : ArrivalEnvelope) {chunks : List Chunk}
    (passed : ∀ chunk ∈ chunks, chunk.tokenCount ≤ self.adapter.maxInputTokens)
    (long : ∃ text ∈ self.prefixedTexts chunks, self.adapter.maxInputTokens < count text) :
    ¬ self.RespectsLimit count envelope chunks := by
  intro respects
  have held := embeddingSystem_status envelope.docIdFormat
  have nonempty : chunks ≠ [] := by
    rintro rfl
    obtain ⟨text, member, _⟩ := long
    cases member
  obtain ⟨⟨reason, raised⟩, _⟩ := (respects Unit Unit idleIndex (fun _ => ({}, ())) _ held).2 long
  have other := Prog.run_of_wp (self.wp_embed_not_too_long idleIndex envelope ⟨nonempty, passed⟩ held)
    fun _ => ({}, ())
  exact other reason raised

theorem respectsLimit_iff (count : String → Int) (envelope : ArrivalEnvelope) (chunks : List Chunk)
    (counted : ∀ chunk ∈ chunks, chunk.tokenCount = count chunk.text) :
    self.RespectsLimit count envelope chunks ↔
      (∃ chunk ∈ chunks, self.adapter.maxInputTokens < count chunk.text) ∨
        ∀ text ∈ self.prefixedTexts chunks, count text ≤ self.adapter.maxInputTokens := by
  have checked : (∃ chunk ∈ chunks, self.adapter.maxInputTokens < chunk.tokenCount) ↔
      ∃ chunk ∈ chunks, self.adapter.maxInputTokens < count chunk.text := by
    constructor
    next =>
      rintro ⟨chunk, member, exceeds⟩
      exact ⟨chunk, member, counted chunk member ▸ exceeds⟩
    next =>
      rintro ⟨chunk, member, exceeds⟩
      exact ⟨chunk, member, (counted chunk member).symm ▸ exceeds⟩
  rw [← checked]
  constructor
  next =>
    intro respects
    by_contra gap
    simp only [not_or, not_exists, not_and, not_forall, Int.not_lt, Int.not_le] at gap
    obtain ⟨passed, text, member, exceeds⟩ := gap
    exact self.not_respectsLimit_of_gap count envelope passed ⟨text, member, exceeds⟩ respects
  next =>
    rintro (long | fits)
    next => exact self.respectsLimit_of_rejected count envelope long
    next => exact self.respectsLimit_of_fits count envelope fits

-- A text of exactly the limit passes the check, and is sent with the prefix on top.

theorem sent_of_one (text : String) {tokenCount : Int} (fits : tokenCount ≤ 8192) :
    sentBatches (Prog.visits (pipeline idleIndex)
      ((sampleEmbedder none).embed StageCall.sampleEnvelope [sampleChunk text tokenCount]).run (fun _ => ({}, ()))
      (embeddingSystem StageCall.sampleEnvelope.docId StageCall.sampleEnvelope.docIdFormat)) =
        [["search_document: " ++ text]] := by
  have accepts : (sampleEmbedder none).Accepts [sampleChunk text tokenCount] := by
    refine ⟨by simp, ?_⟩
    intro chunk member
    obtain rfl := List.mem_singleton.mp member
    exact fits
  have oneBatch : batched ([sampleChunk text tokenCount].map fun chunk =>
      applyPrefix chunk.text (sampleEmbedder none).adapter.documentPrefix)
      (effectiveBatchSize (sampleEmbedder none).config.batchSize (sampleEmbedder none).adapter.maxBatchSize) =
        batched ["search_document: " ++ text] 32 := rfl
  have split : batched ["search_document: " ++ text] 32 = .ok [["search_document: " ++ text]] := by simp [batched]
  rw [(sampleEmbedder none).embed_of_accepts _ accepts, runWithRecovery, embedAll, oneBatch, split]
  rfl

def textOfLength (length : Nat) : String := String.ofList (List.replicate length 'a')

def tokenPerCharacter (text : String) : Int := text.length

theorem textOfLength_count (length : Nat) : tokenPerCharacter (textOfLength length) = length := by
  simp [tokenPerCharacter, textOfLength]

theorem prefixed_count (text : String) :
    tokenPerCharacter ("search_document: " ++ text) = 17 + tokenPerCharacter text := by
  simp only [tokenPerCharacter, String.length_append, Int.natCast_add]
  rfl

def longText : String := textOfLength 8192

theorem prefix_exceeds_limit :
    (sampleChunk longText 8192).tokenCount = tokenPerCharacter (sampleChunk longText 8192).text ∧
    sentBatches (Prog.visits (pipeline idleIndex)
      ((sampleEmbedder none).embed StageCall.sampleEnvelope [sampleChunk longText 8192]).run (fun _ => ({}, ()))
      (embeddingSystem StageCall.sampleEnvelope.docId StageCall.sampleEnvelope.docIdFormat)) =
        [["search_document: " ++ longText]] ∧
    (sampleEmbedder none).adapter.maxInputTokens < tokenPerCharacter ("search_document: " ++ longText) ∧
    ¬ (sampleEmbedder none).RespectsLimit tokenPerCharacter StageCall.sampleEnvelope [sampleChunk longText 8192] := by
  have exceeds : (sampleEmbedder none).adapter.maxInputTokens < tokenPerCharacter ("search_document: " ++ longText) := by
    rw [prefixed_count, longText, textOfLength_count]
    decide
  refine ⟨(textOfLength_count 8192).symm, sent_of_one longText (by decide), exceeds, ?_⟩
  apply not_respectsLimit_of_gap
  next =>
    intro chunk member
    obtain rfl := List.mem_singleton.mp member
    exact Int.le_refl 8192
  next => exact ⟨_, List.mem_singleton_self _, exceeds⟩

theorem respectsLimit_iff_at_sample :
    (sampleEmbedder none).RespectsLimit tokenPerCharacter StageCall.sampleEnvelope [sampleChunk "text" 4] := by
  apply (respectsLimit_iff _ tokenPerCharacter StageCall.sampleEnvelope [sampleChunk "text" 4] _).mpr
  next =>
    right
    decide
  next => decide

end Limit

end Embedder

end Vestibule
