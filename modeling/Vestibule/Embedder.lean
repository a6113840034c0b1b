import Vestibule.Pipeline.Stage

set_option autoImplicit false

namespace Vestibule

open Library

structure EmbedderConfig where
  targetDimensions : Option Int := some 1024
  batchSize : Option Int := none
  deriving DecidableEq

structure EmbedderAdapter where
  modelName : String
  maxBatchSize : Int
  maxInputTokens : Int
  supportsMrl : Bool
  documentPrefix : Option String
  deriving DecidableEq

structure Embedder where
  config : EmbedderConfig
  adapter : EmbedderAdapter
  mrlSupported : config.targetDimensions ≠ none → adapter.supportsMrl = true

namespace Embedder

def knownAdapterErrorCodes : List String :=
  ["EMBEDDER_RATE_LIMITED", embedderUpstreamError, "EMBEDDER_TIMEOUT"]

def create (config : EmbedderConfig) (adapter : EmbedderAdapter) : Except Exc Embedder :=
  if unsupported : config.targetDimensions ≠ none ∧ adapter.supportsMrl = false then
    .error (.ragged .embedder ""
      ("target_dimensions=" ++ (config.targetDimensions.map toString).getD "None" ++
        " was configured but adapter " ++ reprStr adapter.modelName ++ " does not support MRL truncation")
      embedderMrlUnsupported)
  else .ok ⟨config, adapter, fun target => by simpa [target] using unsupported⟩

def applyPrefix (text : String) (documentPrefix : Option String) : String :=
  match documentPrefix with
  | none => text
  | some start => start ++ text

-- A negative bound of a slice counts from the end.
def sliceTo {α : Type} (items : List α) (bound : Int) : List α :=
  if 0 ≤ bound then items.take bound.toNat else items.take (items.length + bound).toNat

def truncateAndRenormalize (vector : List Float) (targetDimensions : Int) : List Float :=
  let truncated := sliceTo vector targetDimensions
  let norm := Float.sqrt (truncated.foldl (fun sum value => sum + value * value) 0)
  if norm == 0 then truncated else truncated.map (· / norm)

variable (self : Embedder)

def buildEmbeddedChunk (chunk : Chunk) (vector : List Float) : EmbeddedChunk :=
  match self.config.targetDimensions with
  | none =>
      { chunk, vector, embeddingModel := self.adapter.modelName, embeddingDimensions := vector.length }
  | some target =>
      let truncated := truncateAndRenormalize vector target
      { chunk, vector := truncated, embeddingModel := self.adapter.modelName,
        embeddingDimensions := truncated.length, truncatedFrom := some vector.length }

def zipStrict {α β : Type} (first : List α) (second : List β) : Except Exc (List (α × β)) :=
  if second.length < first.length then .error (.other "zip() argument 2 is shorter than argument 1")
  else if first.length < second.length then .error (.other "zip() argument 2 is longer than argument 1")
  else .ok (first.zip second)

def embedAll (chunks : List Chunk) : Py (List EmbeddedChunk) := do
  let texts := chunks.map fun chunk => applyPrefix chunk.text self.adapter.documentPrefix
  let batches ← Py.ofExcept
    (batched texts (effectiveBatchSize self.config.batchSize self.adapter.maxBatchSize))
  let vectors ← batches.foldlM (fun vectors batch => do return vectors ++ (← Py.embedBatch batch)) []
  let pairs ← Py.ofExcept (zipStrict chunks vectors)
  return pairs.map fun (chunk, vector) => self.buildEmbeddedChunk chunk vector

def runWithRecovery (docId : String) (chunks : List Chunk) : Py (List EmbeddedChunk) :=
  tryCatch (self.embedAll chunks) fun exc =>
    match exc with
    | .ragged .embedder _ reason errorCode =>
        if errorCode ∈ knownAdapterErrorCodes then
          Py.selfTransitionAndRaise .embedder .embedding docId errorCode reason
        else Py.selfTransitionAndRaise .embedder .embedding docId embedderInternal exc.str
    | _ => Py.selfTransitionAndRaise .embedder .embedding docId embedderInternal exc.str

def validateInputLengths (docId : String) (chunks : List Chunk) : Py Unit :=
  match chunks.find? (fun chunk => self.adapter.maxInputTokens < chunk.tokenCount) with
  | none => pure ()
  | some chunk =>
      Py.terminalize .embedder docId embedderInputTooLong
        ("chunk position=" ++ toString chunk.position ++ " token_count=" ++ toString chunk.tokenCount ++
          " exceeds adapter " ++ reprStr self.adapter.modelName ++ "'s max_input_tokens=" ++
          toString self.adapter.maxInputTokens)

def transitionToIndexing (docId : String) (embedded : List EmbeddedChunk) : Py (List EmbeddedChunk) := do
  Py.transitionTriaged { docId, toStatus := .indexing, stage := .indexing }
  return embedded

def embed (envelope : ArrivalEnvelope) (chunks : List Chunk) : Py (List EmbeddedChunk) := do
  if chunks.isEmpty then
    Py.terminalize .embedder envelope.docId embedderEmptyChunks "Chunker returned zero chunks; nothing to embed"
  self.validateInputLengths envelope.docId chunks
  let embedded ← self.runWithRecovery envelope.docId chunks
  transitionToIndexing envelope.docId embedded

structure Accepts (embedder : Embedder) (chunks : List Chunk) : Prop where
  nonempty : chunks ≠ []
  fits : ∀ chunk ∈ chunks, chunk.tokenCount ≤ embedder.adapter.maxInputTokens

def validationCodes : List String := [embedderEmptyChunks, embedderInputTooLong]

theorem embed_of_accepts (envelope : ArrivalEnvelope) {chunks : List Chunk} (accepts : Accepts self chunks) :
    self.embed envelope chunks = (do
      let embedded ← self.runWithRecovery envelope.docId chunks
      transitionToIndexing envelope.docId embedded) := by
  have nonempty : chunks.isEmpty = false := by simpa using accepts.nonempty
  have allFit : chunks.find? (fun chunk => self.adapter.maxInputTokens < chunk.tokenCount) = none := by
    simpa using accepts.fits
  simp only [embed, validateInputLengths, nonempty, allFit, if_false, Bool.false_eq_true]
  rfl

theorem embed_of_not_accepts (envelope : ArrivalEnvelope) {chunks : List Chunk}
    (rejects : ¬ Accepts self chunks) :
    ∃ code ∈ validationCodes, ∃ reason,
      self.embed envelope chunks = Py.terminalize .embedder envelope.docId code reason := by
  by_cases empty : chunks = []
  · subst empty
    simp only [embed, List.isEmpty_nil, if_true]
    exact ⟨embedderEmptyChunks, by simp [validationCodes], _, Py.terminalize_bind ..⟩
  · have nonempty : chunks.isEmpty = false := by simpa using empty
    cases long : chunks.find? (fun chunk => self.adapter.maxInputTokens < chunk.tokenCount) with
    | none =>
      refine (rejects ⟨empty, ?_⟩).elim
      simpa using long
    | some chunk =>
      simp only [embed, validateInputLengths, nonempty, long, if_false, Bool.false_eq_true,
        Py.terminalize_bind]
      exact ⟨embedderInputTooLong, by simp [validationCodes], _, rfl⟩

end Embedder

end Vestibule
