import Vestibule.Embedder.Batches
import Vestibule.Pipeline.Contention
import Vestibule.Scenarios.Configs
import Vestibule.Scenarios.Laws

set_option autoImplicit false

namespace Vestibule

open Library

-- The validator compares numbers, the embedder slices with one of them, and the indexer compares the length
-- of what is left with the other.

namespace Embedder

theorem sliceTo_length {α : Type} (items : List α) {bound : Int} (nonneg : 0 ≤ bound) (within : bound ≤ items.length) :
    ((sliceTo items bound).length : Int) = bound := by
  rw [sliceTo, if_pos nonneg, List.length_take]
  omega

theorem truncateAndRenormalize_length (vector : List Float) (target : Int) :
    (truncateAndRenormalize vector target).length = (sliceTo vector target).length := by
  simp only [truncateAndRenormalize]
  split
  next => rfl
  next => rw [List.length_map]

def Sized (dimensions : Int) (ec : EmbeddedChunk) : Prop :=
  (ec.vector.length : Int) = dimensions ∧ ec.embeddingDimensions = dimensions

theorem buildEmbeddedChunk_sized (self : Embedder) {native : Int} {vector : List Float}
    (ofModel : (vector.length : Int) = native)
    (target : ∀ target, self.config.targetDimensions = some target → 0 ≤ target ∧ target ≤ native) (chunk : Chunk) :
    Sized (self.config.targetDimensions.getD native) (self.buildEmbeddedChunk chunk vector) := by
  simp only [buildEmbeddedChunk]
  cases configured : self.config.targetDimensions with
  | none => exact ⟨ofModel, ofModel⟩
  | some bound =>
    obtain ⟨nonneg, within⟩ := target bound configured
    have length : ((truncateAndRenormalize vector bound).length : Int) = bound := by
      rw [truncateAndRenormalize_length, sliceTo_length vector nonneg (by omega)]
    exact ⟨length, length⟩

end Embedder

section Adapter

variable {W : Type}

def ReturnsNative (native : Int) (embedBatch : W → List String → Except Exc (List (List Float))) : Prop :=
  ∀ w texts vectors, embedBatch w texts = .ok vectors →
    vectors.length = texts.length ∧ ∀ vector ∈ vectors, ((vector : List Float).length : Int) = native

end Adapter

def Exc.IsMismatch : Exc → Prop
  | .ragged _ _ _ errorCode => errorCode = indexerDimensionMismatch
  | _ => False

theorem not_isMismatch_ofLedgerFault (fault : LedgerFault) : ¬ (Exc.ofLedgerFault fault).IsMismatch := by
  cases fault <;> exact id

def RaisesMismatch {α : Type} (result : Except Exc α) : Prop := ∃ exc, result = .error exc ∧ exc.IsMismatch

@[simp]
theorem not_raisesMismatch_ok {α : Type} (value : α) : ¬ RaisesMismatch (.ok value : Except Exc α) := by
  simp [RaisesMismatch]

@[simp]
theorem raisesMismatch_error {α : Type} (exc : Exc) :
    RaisesMismatch (.error exc : Except Exc α) ↔ exc.IsMismatch := by
  simp [RaisesMismatch]

section Stages

variable {V X α β : Type} {embedBatch : World × V → List String → Except Exc (List (List Float))}
variable {adapter : IndexerAdapter V X}

def Spares (embedBatch : World × V → List String → Except Exc (List (List Float))) (adapter : IndexerAdapter V X)
    (p : Py α) : Prop :=
  ∀ s, Prog.wp (withVectors embedBatch (pipeline adapter)) (fun _ => True) p.run
    (fun result _ => ¬ RaisesMismatch result) s

theorem Spares.bind {p : Py α} {f : α → Py β} (first : Spares embedBatch adapter p)
    (rest : ∀ value, Spares embedBatch adapter (f value)) : Spares embedBatch adapter (p >>= f) := by
  intro s
  rw [Prog.wp_run_bind]
  apply Prog.wp_mono _ (first s)
  intro result after quiet
  cases result with
  | ok value => exact rest value after
  | error exc => simpa using quiet

-- Whatever `p` raises is handled.
theorem Spares.tryCatch {p : Py α} {handle : Exc → Py α} (recovered : ∀ exc, Spares embedBatch adapter (handle exc)) :
    Spares embedBatch adapter (tryCatch p handle) := by
  intro s
  rw [Prog.wp_run_tryCatch]
  apply Prog.wp_mono _ (Prog.wp_trivial _ s)
  intro result after _
  cases result with
  | ok value => exact not_raisesMismatch_ok value
  | error exc => exact recovered exc after

theorem Spares.pure (value : α) : Spares embedBatch adapter (Pure.pure value : Py α) :=
  fun _ => not_raisesMismatch_ok value

theorem Spares.throw {kind : ErrorKind} {subject reason errorCode : String}
    (other : errorCode ≠ indexerDimensionMismatch) :
    Spares embedBatch adapter (throw (.ragged kind subject reason errorCode) : Py α) := by
  intro s
  rw [Prog.wp_run_throw, raisesMismatch_error]
  exact other

theorem Spares.ledgerTransition (request : TransitionRequest) :
    Spares embedBatch adapter (Py.ledgerTransition request) := by
  intro s w
  refine ⟨trivial, ?_⟩
  change ¬ RaisesMismatch ((s.1.ledger.transition w.1.now request).1.mapError Exc.ofLedgerFault)
  cases (s.1.ledger.transition w.1.now request).1 with
  | ok row => exact not_raisesMismatch_ok row
  | error fault => simpa [Except.mapError] using not_isMismatch_ofLedgerFault fault

theorem not_raisesMismatch_triaged (request : TransitionRequest) {answer : Except Exc LedgerRow}
    (quiet : ¬ RaisesMismatch answer) : ¬ RaisesMismatch (Py.triaged request answer) := by
  cases answer with
  | ok row => exact not_raisesMismatch_ok ()
  | error exc =>
    cases exc with
    | ledgerTransitionInvalid fault =>
      simp only [Py.triaged]
      split
      next => exact not_raisesMismatch_ok ()
      next => simp [Exc.IsMismatch]
    | _ => simpa [Py.triaged] using quiet

theorem Spares.transitionTriaged (request : TransitionRequest) :
    Spares embedBatch adapter (Py.transitionTriaged request) := by
  intro s
  rw [Py.wp_transitionTriaged_iff]
  intro w
  exact ⟨trivial, not_raisesMismatch_triaged request (Spares.ledgerTransition request s w).2⟩

theorem Spares.terminalize (kind : ErrorKind) (docId : String) {errorCode : String}
    (other : errorCode ≠ indexerDimensionMismatch) (reason : String) :
    Spares embedBatch adapter (Py.terminalize kind docId errorCode reason : Py α) :=
  (Spares.transitionTriaged _).bind fun _ => Spares.throw other

theorem Spares.selfTransitionAndRaise (kind : ErrorKind) (stage : Status) (docId : String) {errorCode : String}
    (other : errorCode ≠ indexerDimensionMismatch) (reason : String) :
    Spares embedBatch adapter (Py.selfTransitionAndRaise kind stage docId errorCode reason : Py α) :=
  (Spares.ledgerTransition _).bind fun _ => Spares.throw other

theorem spares_embed (self : Embedder) (envelope : ArrivalEnvelope) (chunks : List Chunk) :
    Spares embedBatch adapter (self.embed envelope chunks) := by
  by_cases accepts : self.Accepts chunks
  next =>
    rw [self.embed_of_accepts envelope accepts]
    refine Spares.bind (Spares.tryCatch fun exc => ?_) fun embedded =>
      (Spares.transitionTriaged _).bind fun _ => Spares.pure embedded
    split
    next =>
      split
      next known =>
        apply Spares.selfTransitionAndRaise
        rintro rfl
        exact absurd known (by decide)
      next => exact Spares.selfTransitionAndRaise _ _ _ (by decide) _
    next => exact Spares.selfTransitionAndRaise _ _ _ (by decide) _
  next =>
    obtain ⟨code, validation, reason, rejected⟩ := self.embed_of_not_accepts envelope accepts
    rw [rejected]
    apply Spares.terminalize
    rintro rfl
    exact absurd validation (by decide)

theorem wp_embedBatch_native {native : Int} (registered : ReturnsNative native embedBatch) (texts : List String)
    (s : System × X) :
    Prog.wp (withVectors embedBatch (pipeline adapter)) (fun _ => True) (Py.embedBatch texts).run
      (fun result _ => ∀ vectors, result = .ok vectors → ∀ vector ∈ vectors, (vector.length : Int) = native) s :=
  fun w => ⟨trivial, fun vectors answered => (registered w texts vectors answered).2⟩

theorem wp_batches_native {native : Int} (registered : ReturnsNative native embedBatch) (batches : List (List String))
    (s : System × X) :
    Prog.wp (withVectors embedBatch (pipeline adapter)) (fun _ => True)
      (batches.foldlM (fun vectors batch => do return vectors ++ (← Py.embedBatch batch)) [] : Py _).run
      (fun result _ => ∀ vectors, result = .ok vectors → ∀ vector ∈ vectors, (vector.length : Int) = native) s := by
  apply Prog.wp_run_foldlM _ _ batches s _ (by simp)
  intro vectors batch s held
  rw [Prog.wp_run_bind]
  apply Prog.wp_mono _ (wp_embedBatch_native registered batch s)
  intro result after native
  cases result with
  | error exc => simp
  | ok answer =>
    rintro _ ⟨rfl⟩ vector member
    rcases List.mem_append.mp member with earlier | latest
    next => exact held vector earlier
    next => exact native answer rfl vector latest

theorem zipStrict_ok {α β : Type} {first : List α} {second : List β} {pairs : List (α × β)}
    (zipped : Embedder.zipStrict first second = .ok pairs) : pairs = first.zip second := by
  simp only [Embedder.zipStrict] at zipped
  split_ifs at zipped
  exact (Except.ok.inj zipped).symm

theorem wp_embedAll_sized (self : Embedder) {native : Int} (registered : ReturnsNative native embedBatch)
    (target : ∀ target, self.config.targetDimensions = some target → 0 ≤ target ∧ target ≤ native)
    (chunks : List Chunk) (s : System × X) :
    Prog.wp (withVectors embedBatch (pipeline adapter)) (fun _ => True) (self.embedAll chunks).run
      (fun result _ => ∀ embedded, result = .ok embedded →
        ∀ ec ∈ embedded, Embedder.Sized (self.config.targetDimensions.getD native) ec) s := by
  simp only [Embedder.embedAll, Prog.wp_run_bind, wp_ofExcept, Prog.wp_run_pure]
  split
  next batches split =>
    apply Prog.wp_mono _ (wp_batches_native registered batches s)
    intro collected after native
    cases collected with
    | error exc => simp
    | ok vectors =>
      simp only
      split
      next pairs zipped =>
        rintro _ ⟨rfl⟩ ec member
        obtain ⟨⟨chunk, vector⟩, pair, rfl⟩ := List.mem_map.mp member
        rw [zipStrict_ok zipped] at pair
        exact self.buildEmbeddedChunk_sized (native vectors rfl vector (List.of_mem_zip pair).2) target chunk
      next => simp
  next => simp

theorem wp_embed_sized (self : Embedder) {native : Int} (registered : ReturnsNative native embedBatch)
    (target : ∀ target, self.config.targetDimensions = some target → 0 ≤ target ∧ target ≤ native)
    (envelope : ArrivalEnvelope) (chunks : List Chunk) (s : System × X) :
    Prog.wp (withVectors embedBatch (pipeline adapter)) (fun _ => True) (self.embed envelope chunks).run
      (fun result _ => ∀ embedded, result = .ok embedded →
        ∀ ec ∈ embedded, Embedder.Sized (self.config.targetDimensions.getD native) ec) s := by
  by_cases accepts : self.Accepts chunks
  next =>
    rw [self.embed_of_accepts envelope accepts]
    simp only [Embedder.runWithRecovery, Prog.wp_run_bind, Prog.wp_run_tryCatch]
    apply Prog.wp_mono _ (wp_embedAll_sized self registered target chunks s)
    intro result after sized
    cases result with
    | ok embedded =>
      simp only [Embedder.transitionToIndexing, Prog.wp_run_bind, Prog.wp_run_pure]
      apply Prog.wp_mono _ (Prog.wp_trivial _ after)
      intro moved last _
      cases moved with
      | ok _ =>
        rintro _ ⟨rfl⟩
        exact sized embedded rfl
      | error exc => simp
    | error exc =>
      simp only [← Prog.wp_run_bind]
      -- What the adapter raises is raised again under a code of the embedder.
      apply Prog.wp_mono (Q := fun result _ => ∀ embedded, result ≠ .ok embedded)
        (fun result _ raised embedded returned => (raised embedded returned).elim)
      split
      next =>
        split
        next => exact Py.selfTransitionAndRaise_raises _ _ _ _ _ _ _ after
        next => exact Py.selfTransitionAndRaise_raises _ _ _ _ _ _ _ after
      next => exact Py.selfTransitionAndRaise_raises _ _ _ _ _ _ _ after
  next =>
    obtain ⟨code, _, reason, rejected⟩ := self.embed_of_not_accepts envelope accepts
    rw [rejected]
    apply Prog.wp_mono _ (Py.terminalize_raises _ _ _ _ _ s)
    intro result after raised embedded returned
    exact (raised embedded returned).elim

theorem spares_buildRecords (docId : String) (envelope : ArrivalEnvelope) (embeddedChunks : List EmbeddedChunk) :
    Spares embedBatch adapter (Indexer.buildRecords docId envelope embeddedChunks) := by
  intro s first
  refine ⟨trivial, fun second => ⟨trivial, ?_⟩⟩
  change ¬ RaisesMismatch (embeddedChunks.mapM (Indexer.buildRecord docId envelope
    (Indexer.configVersionOf (s.1.ledger.get docId)) second.1.now))
  cases built : embeddedChunks.mapM (Indexer.buildRecord docId envelope
      (Indexer.configVersionOf (s.1.ledger.get docId)) second.1.now) with
  | ok records => exact not_raisesMismatch_ok records
  | error exc =>
    obtain ⟨ec, _, refused⟩ := source_of_mapM_error built
    rw [buildRecord_error refused]
    simp [Exc.IsMismatch]

theorem spares_runWithRecovery (self : Indexer) (docId : String) (records : List IndexRecord) :
    Spares embedBatch adapter (self.runWithRecovery docId records) := by
  have again {errorCode : String} (other : errorCode ≠ indexerDimensionMismatch) (reason : String) :
      Spares embedBatch adapter (Indexer.selfTransitionAndRaise docId errorCode reason : Py IndexResult) :=
    (Spares.transitionTriaged _).bind fun _ => Spares.throw other
  apply Spares.tryCatch
  intro exc
  split
  next =>
    split
    next permanent =>
      apply Spares.terminalize
      rintro rfl
      exact absurd permanent (by decide)
    next =>
      split
      next transient =>
        apply again
        rintro rfl
        exact absurd transient (by decide)
      next => exact again (by decide) _
  next => exact again (by decide) _

theorem spares_validateBatch (self : Indexer) (docId : String) {embeddedChunks : List EmbeddedChunk}
    (dimensions : ∀ ec ∈ embeddedChunks, ec.embeddingDimensions = self.config.dimensions) :
    Spares embedBatch adapter (self.validateBatch docId embeddedChunks) := by
  have allMatch : embeddedChunks.find? (fun chunk => chunk.embeddingDimensions ≠ self.config.dimensions) = none := by
    simpa using dimensions
  simp only [Indexer.validateBatch, allMatch]
  split
  next => exact (Spares.terminalize _ _ (by decide) _).bind fun _ => Spares.pure _
  next => exact Spares.pure _

theorem spares_index (self : Indexer) (envelope : ArrivalEnvelope) {embeddedChunks : List EmbeddedChunk}
    (dimensions : ∀ ec ∈ embeddedChunks, ec.embeddingDimensions = self.config.dimensions) :
    Spares embedBatch adapter (self.index envelope embeddedChunks) := by
  simp only [Indexer.index]
  split
  next =>
    rw [Py.terminalize_bind]
    exact Spares.terminalize _ _ (by decide) _
  next =>
    apply Spares.bind (spares_validateBatch self _ dimensions)
    intro _
    apply Spares.bind (spares_buildRecords _ _ _)
    intro records
    apply Spares.bind (spares_runWithRecovery self _ records)
    intro result
    exact (Spares.transitionTriaged _).bind fun _ => Spares.pure result

end Stages

def embedThenIndex (embedder : Embedder) (indexer : Indexer) (envelope : ArrivalEnvelope) (chunks : List Chunk) :
    Py IndexResult := do
  let embedded ← embedder.embed envelope chunks
  indexer.index envelope embedded

namespace Scenarios.Scenario

/-- Stages configured from the scenario, over an adapter true to the registry: what is produced has the
scenario's dimensions, and the indexer does not object to them. -/
def DimensionsComplete (self : Scenario) : Prop :=
  ∀ (V X : Type) (adapter : IndexerAdapter V X) (embedder : Embedder) (indexer : Indexer) (native : Int)
    (embedBatch : World × V → List String → Except Exc (List (List Float))) (envelope : ArrivalEnvelope)
    (chunks : List Chunk) (oracle : Nat → World × V) (s : System × X),
    embedder.config = self.toEmbedderConfig → indexer.config = self.toIndexerConfig →
    nativeDimensions self.embedder.adapter self.embedder.model = some native →
    ReturnsNative native embedBatch → chunks ≠ [] →
    (∀ embedded, (Prog.run (withVectors embedBatch (pipeline adapter)) (embedder.embed envelope chunks).run
        oracle s).1 = .ok embedded →
      ∀ ec ∈ embedded, (ec.vector.length : Int) = self.indexer.dimensions) ∧
    ¬ RaisesMismatch (Prog.run (withVectors embedBatch (pipeline adapter))
      (embedThenIndex embedder indexer envelope chunks).run oracle s).1

theorem dimensionsComplete_of_nonneg (self : Scenario)
    (nonneg : ∀ target, self.embedder.targetDimensions = some target → 0 ≤ target) : self.DimensionsComplete := by
  intro V X adapter embedder indexer native embedBatch envelope chunks oracle s fromScenario toScenario registered
    returns _
  obtain ⟨found, known, within, agreed⟩ := validateDimensionConsistency_ok self.dimensionsConsistent
  obtain rfl : native = found := Option.some.inj (registered.symm.trans known)
  have target (target : Int) (configured : embedder.config.targetDimensions = some target) :
      0 ≤ target ∧ target ≤ native := by
    rw [fromScenario] at configured
    exact ⟨nonneg target configured, within target configured⟩
  have effective : embedder.config.targetDimensions.getD native = self.indexer.dimensions := by
    rw [fromScenario, agreed]
    rfl
  have sized : Prog.wp (withVectors embedBatch (pipeline adapter)) (fun _ => True)
      (embedder.embed envelope chunks).run (fun result _ => ∀ embedded, result = .ok embedded →
        ∀ ec ∈ embedded, Embedder.Sized self.indexer.dimensions ec) s := by
    rw [← effective]
    exact wp_embed_sized embedder returns target envelope chunks s
  constructor
  next =>
    intro embedded returned ec member
    exact (Prog.run_of_wp sized oracle embedded returned ec member).1
  next =>
    have indexed : Prog.wp (withVectors embedBatch (pipeline adapter)) (fun _ => True)
        (embedThenIndex embedder indexer envelope chunks).run (fun result _ => ¬ RaisesMismatch result) s := by
      rw [embedThenIndex, Prog.wp_run_bind]
      apply Prog.wp_mono _ (Prog.wp_and (spares_embed embedder envelope chunks s) sized)
      intro result after ended
      cases result with
      | error exc => simpa using ended.1
      | ok embedded =>
        apply spares_index
        intro ec member
        rw [toScenario]
        exact (ended.2 embedded rfl ec member).2
    exact Prog.run_of_wp indexed oracle

theorem nativeDimensions_pos {adapter : EmbedderAdapterName} {model : String} {native : Int}
    (registered : nativeDimensions adapter model = some native) : 0 < native := by
  simp only [nativeDimensions] at registered
  split at registered <;> simp at registered <;> omega

def zeros (native : Int) (_ : World × Unit) (texts : List String) : Except Exc (List (List Float)) :=
  .ok (texts.map fun _ => List.replicate native.toNat 0)

theorem zeros_returnsNative {native : Int} (positive : 0 < native) : ReturnsNative native (zeros native) := by
  rintro w texts _ ⟨rfl⟩
  refine ⟨by simp, ?_⟩
  intro vector member
  obtain ⟨_, _, rfl⟩ := List.mem_map.mp member
  rw [List.length_replicate]
  omega

def sampleEmbedder (self : Scenario) : Embedder where
  config := self.toEmbedderConfig
  adapter :=
    { modelName := self.embedder.model, maxBatchSize := 16, maxInputTokens := 8191, supportsMrl := true,
      documentPrefix := none }
  mrlSupported _ := rfl

def sampleIndexer (self : Scenario) : Indexer := ⟨self.toIndexerConfig, self.indexName, 16⟩

def embeddingSystem : System × Unit :=
  ({ ledger := InMemoryLedgerStore.empty.put digestAbc
      { docId := digestAbc, status := .embedding, stage := .embedding, attempts := 1, attemptsNonneg := Int.one_nonneg,
        configVersion := "v1", ingestedAt := 0, updatedAt := 0 }
      ⟨digestAbc_hex, rfl, rfl, by simp⟩ }, ())

def sampleChunks : List Chunk := [(StageCall.sampleChunk "c").chunk]

theorem embed_sample (self : Scenario) (native : Int) :
    (Prog.run (withVectors (zeros native) (pipeline idleIndex))
      (self.sampleEmbedder.embed StageCall.sampleEnvelope sampleChunks).run (fun _ => ({}, ())) embeddingSystem).1 =
      .ok [self.sampleEmbedder.buildEmbeddedChunk (StageCall.sampleChunk "c").chunk
        (List.replicate native.toNat 0)] := by
  have oneBatch : batched
      (sampleChunks.map fun chunk => Embedder.applyPrefix chunk.text self.sampleEmbedder.adapter.documentPrefix)
      (effectiveBatchSize self.sampleEmbedder.config.batchSize self.sampleEmbedder.adapter.maxBatchSize) =
        batched ["text"] 16 := rfl
  simp only [Embedder.embed, Embedder.runWithRecovery, Embedder.embedAll, oneBatch]
  rfl

theorem not_dimensionsComplete_of_neg (self : Scenario) {target : Int}
    (configured : self.embedder.targetDimensions = some target) (negative : target < 0) :
    ¬ self.DimensionsComplete := by
  intro complete
  obtain ⟨native, registered, _, agreed⟩ := validateDimensionConsistency_ok self.dimensionsConsistent
  have sized := (complete Unit Unit idleIndex self.sampleEmbedder self.sampleIndexer native (zeros native)
    StageCall.sampleEnvelope sampleChunks (fun _ => ({}, ())) embeddingSystem rfl rfl registered
    (zeros_returnsNative (nativeDimensions_pos registered)) (by simp [sampleChunks])).1 _
    (self.embed_sample native) _ (List.mem_singleton_self _)
  rw [agreed, configured] at sized
  -- A length is never negative.
  have target : Option.getD (some target) native = target := rfl
  omega

theorem dimensionsComplete_iff (self : Scenario) :
    self.DimensionsComplete ↔ ∀ target, self.embedder.targetDimensions = some target → 0 ≤ target := by
  constructor
  next =>
    intro complete target configured
    by_contra negative
    exact self.not_dimensionsComplete_of_neg configured (by omega) complete
  next => exact self.dimensionsComplete_of_nonneg

def negativeScenario : Scenario :=
  { sampleScenario "hr" hr_nonempty with
    embedder := ⟨.fastembed, "nomic-ai/nomic-embed-text-v1.5", some (-1)⟩
    indexer := ⟨"cosine", -1, 16, 200, 100⟩
    dimensionsConsistent := rfl }

def cutChunk (native : Int) : EmbeddedChunk :=
  negativeScenario.sampleEmbedder.buildEmbeddedChunk (StageCall.sampleChunk "c").chunk (List.replicate native.toNat 0)

theorem cutChunk_length {native : Int} (positive : 0 < native) :
    ((cutChunk native).vector.length : Int) = native - 1 := by
  have cut : (cutChunk native).vector = Embedder.truncateAndRenormalize (List.replicate native.toNat 0) (-1) := rfl
  rw [cut, Embedder.truncateAndRenormalize_length, Embedder.sliceTo, if_neg (by decide), List.length_take,
    List.length_replicate]
  omega

theorem cutChunk_dimensions (native : Int) :
    (cutChunk native).embeddingDimensions = ((cutChunk native).vector.length : Int) := rfl

-- The embedder cuts the last entry off, and the indexer counts 767 against -1.
theorem negative_target_mismatch :
    negativeScenario.indexer.dimensions = -1 ∧ ((cutChunk 768).vector.length : Int) = 767 ∧
      (Prog.run (withVectors (zeros 768) (pipeline idleIndex))
        (negativeScenario.sampleEmbedder.embed StageCall.sampleEnvelope sampleChunks).run (fun _ => ({}, ()))
        embeddingSystem).1 = .ok [cutChunk 768] ∧
      RaisesMismatch (Prog.run (withVectors (zeros 768) (pipeline idleIndex))
        (negativeScenario.sampleIndexer.index StageCall.sampleEnvelope [cutChunk 768]).run (fun _ => ({}, ()))
        StageCall.sampleSystem).1 ∧
      ¬ negativeScenario.DimensionsComplete := by
  have length : ((cutChunk 768).vector.length : Int) = 767 := cutChunk_length (by decide)
  have wrong : [cutChunk 768].find?
      (fun chunk => chunk.embeddingDimensions ≠ negativeScenario.sampleIndexer.config.dimensions) =
        some (cutChunk 768) := by
    rw [List.find?_singleton, if_pos]
    rw [cutChunk_dimensions, length]
    decide
  refine ⟨rfl, length, negativeScenario.embed_sample 768, ?_,
    negativeScenario.not_dimensionsComplete_of_neg rfl (by decide)⟩
  simp only [Indexer.index, Indexer.validateBatch, wrong]
  exact ⟨_, rfl, rfl⟩

end Scenarios.Scenario

end Vestibule
