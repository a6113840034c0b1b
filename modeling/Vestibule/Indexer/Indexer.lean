import Vestibule.Pipeline.Stage

set_option autoImplicit false

namespace Vestibule

open Library

structure IndexerConfig where
  dimensions : Int := 1024
  batchSize : Option Int := none
  deleteBeforeUpsertOnVersionChange : Bool := true
  deriving DecidableEq

structure Indexer where
  config : IndexerConfig
  indexName : String
  maxBatchSize : Int
  deriving DecidableEq

namespace Indexer

def unknownConfigVersion : String := "unknown"

def permanentUpsertCodes : List String := ["INDEXER_SCHEMA_CONFLICT", "INDEXER_RECORD_TOO_LARGE"]

def transientUpsertCodes : List String :=
  ["INDEXER_RATE_LIMITED", "INDEXER_UPSTREAM_ERROR", "INDEXER_TIMEOUT", indexerPartialBatchFailure]

-- Metadata is untyped, so it is only here that a `section_path` is checked.
def sectionPath (metadata : Metadata) : Except Exc (Option PyStr) :=
  match metadata.get? "section_path" with
  | none => .ok none
  | some .none => .ok none
  | some (.str text) => .ok (some text)
  | some _ => .error (.validationError "IndexRecord" "section_path")

def buildRecord (docId : String) (envelope : ArrivalEnvelope) (configVersion : String) (indexedAt : DateTime)
    (ec : EmbeddedChunk) : Except Exc IndexRecord := do
  return { chunkId := ec.chunk.chunkId
           docId := docId
           docVersion := envelope.contentHash
           vector := ec.vector
           text := ec.chunk.text
           position := ec.chunk.position
           sectionPath := ← sectionPath ec.chunk.metadata
           elementTypes := ec.chunk.elementTypes.map (·.value)
           strategy := ((ec.chunk.metadata.get? "strategy").getD (.ofString "")).toStr
           allowedGroups := envelope.allowedGroups
           trustTier := envelope.trustTier.value
           embeddingModel := ec.embeddingModel
           embeddingDimensions := ec.embeddingDimensions
           configVersion := configVersion
           indexedAt := indexedAt }

structure RecordOf (docId : String) (envelope : ArrivalEnvelope) (ec : EmbeddedChunk) (record : IndexRecord) :
    Prop where
  chunkId : record.chunkId = ec.chunk.chunkId
  docId : record.docId = docId
  docVersion : record.docVersion = envelope.contentHash

theorem recordOf_of_buildRecord {docId configVersion : String} {envelope : ArrivalEnvelope} {indexedAt : DateTime}
    {ec : EmbeddedChunk} {record : IndexRecord}
    (built : buildRecord docId envelope configVersion indexedAt ec = .ok record) :
    RecordOf docId envelope ec record := by
  simp only [buildRecord] at built
  cases path : sectionPath ec.chunk.metadata with
  | error exc => simp [path, Bind.bind, Except.bind] at built
  | ok found =>
    simp only [path, Bind.bind, Except.bind, Pure.pure, Except.pure, Except.ok.injEq] at built
    subst built
    exact ⟨rfl, rfl, rfl⟩

theorem chunkIds_of_built {docId configVersion : String} {envelope : ArrivalEnvelope} {indexedAt : DateTime}
    {embeddedChunks : List EmbeddedChunk} {records : List IndexRecord}
    (built : embeddedChunks.mapM (buildRecord docId envelope configVersion indexedAt) = .ok records) :
    records.map (·.chunkId) = embeddedChunks.map (·.chunk.chunkId) :=
  map_of_mapM_ok (fun _ _ one => (recordOf_of_buildRecord one).chunkId) built

def configVersionOf : Option LedgerRow → String
  | some row => row.configVersion
  | none => unknownConfigVersion

def configVersionFor (docId : String) : Py String := do
  return configVersionOf (← Py.ledgerGet docId)

def buildRecords (docId : String) (envelope : ArrivalEnvelope) (embeddedChunks : List EmbeddedChunk) :
    Py (List IndexRecord) := do
  let configVersion ← configVersionFor docId
  let indexedAt ← Py.now
  Py.ofExcept (embeddedChunks.mapM (buildRecord docId envelope configVersion indexedAt))

def selfTransitionAndRaise {α : Type} (docId errorCode reason : String) : Py α := do
  Py.transitionTriaged (Py.errorRequest .indexing docId errorCode reason)
  throw (.ragged .indexer docId reason errorCode)

def failedIds (outcome : UpsertOutcome) : List String := outcome.failed.map Prod.fst

def upsertBatchWithRetry (batch : List IndexRecord) : Py Int := do
  let outcome ← Py.upsert batch
  if outcome.failed.isEmpty then return outcome.succeeded.length
  let retryBatch := batch.filter (fun record => record.chunkId ∈ failedIds outcome)
  let retryOutcome ← Py.upsert retryBatch
  if ¬ retryOutcome.failed.isEmpty then
    throw (.ragged .indexer ""
      ("partial batch failure persisted after retry: " ++
        "; ".intercalate (retryOutcome.failed.map fun (chunkId, reason) => chunkId ++ ": " ++ reason))
      indexerPartialBatchFailure)
  return outcome.succeeded.length + retryOutcome.succeeded.length

variable (self : Indexer)

def maybeDeleteStaleVersion (docId newVersion : String) : Py Int := do
  if ¬ self.config.deleteBeforeUpsertOnVersionChange then return 0
  match ← Py.getDocVersion docId with
  | none => return 0
  | some existingVersion =>
      if existingVersion ≠ newVersion then Py.deleteByDocId docId else return 0

def upsertAll (docId : String) (records : List IndexRecord) : Py IndexResult := do
  match records with
  | [] => throw (.other "list index out of range")
  | first :: _ =>
      let chunksDeleted ← self.maybeDeleteStaleVersion docId first.docVersion
      let batches ← Py.ofExcept
        (batched records (effectiveBatchSize self.config.batchSize self.maxBatchSize))
      let chunksUpserted ← batches.foldlM (fun upserted batch => do
        return upserted + (← upsertBatchWithRetry batch)) 0
      return { docId, chunksUpserted, chunksDeleted, indexName := self.indexName,
               embeddingModel := first.embeddingModel, embeddingDimensions := first.embeddingDimensions }

def runWithRecovery (docId : String) (records : List IndexRecord) : Py IndexResult :=
  tryCatch (self.upsertAll docId records) fun exc =>
    match exc with
    | .ragged .indexer _ reason errorCode =>
        if errorCode ∈ permanentUpsertCodes then Py.terminalize .indexer docId errorCode reason
        else if errorCode ∈ transientUpsertCodes then selfTransitionAndRaise docId errorCode reason
        else selfTransitionAndRaise docId indexerInternal exc.str
    | _ => selfTransitionAndRaise docId indexerInternal exc.str

def embeddingModels (embeddedChunks : List EmbeddedChunk) : List String :=
  (embeddedChunks.map (·.embeddingModel)).dedup

def validateBatch (docId : String) (embeddedChunks : List EmbeddedChunk) : Py Unit := do
  let models := embeddingModels embeddedChunks
  if 1 < models.length then
    Py.terminalize .indexer docId indexerMixedModelBatch
      ("batch contains " ++ toString models.length ++ " distinct embedding_model values: [" ++
        ", ".intercalate ((models.mergeSort (fun first second => first ≤ second)).map reprStr) ++ "]")
  match embeddedChunks.find? (fun chunk => chunk.embeddingDimensions ≠ self.config.dimensions) with
  | none => pure ()
  | some chunk =>
      Py.terminalize .indexer docId indexerDimensionMismatch
        ("chunk_id=" ++ chunk.chunk.chunkId ++ " embedding_dimensions=" ++
          toString chunk.embeddingDimensions ++ " does not match configured dimensions=" ++
          toString self.config.dimensions)

def transitionToIndexed (docId : String) (result : IndexResult) : Py IndexResult := do
  Py.transitionTriaged { docId, toStatus := .indexed, stage := .indexed }
  return result

def index (envelope : ArrivalEnvelope) (embeddedChunks : List EmbeddedChunk) : Py IndexResult := do
  if embeddedChunks.isEmpty then
    Py.terminalize .indexer envelope.docId indexerEmptyRecords "Embedder returned zero chunks; nothing to index"
  self.validateBatch envelope.docId embeddedChunks
  let records ← buildRecords envelope.docId envelope embeddedChunks
  let result ← self.runWithRecovery envelope.docId records
  transitionToIndexed envelope.docId result

section Operations

variable {allowed : Op → Prop} {docId : String}

theorem upsertBatchWithRetry_uses (upsert : ∀ records, allowed (.upsert records)) (batch : List IndexRecord) :
    (upsertBatchWithRetry batch).run.Uses (S := Effects) allowed := by
  refine Prog.uses_run_bind (Prog.uses_perform (upsert batch)) fun outcome => ?_
  split
  · exact Prog.uses_pure _
  · refine Prog.uses_run_bind (Prog.uses_perform (upsert _)) fun retryOutcome => ?_
    split
    · trivial
    · exact Prog.uses_pure _

theorem maybeDeleteStaleVersion_uses (version : allowed (.getDocVersion docId))
    (delete : allowed (.deleteByDocId docId)) (newVersion : String) :
    (self.maybeDeleteStaleVersion docId newVersion).run.Uses (S := Effects) allowed := by
  simp only [maybeDeleteStaleVersion]
  split
  · exact Prog.uses_pure _
  · refine Prog.uses_run_bind (Prog.uses_perform version) fun existing => ?_
    split
    · exact Prog.uses_pure _
    · split
      · exact Prog.uses_perform delete
      · exact Prog.uses_pure _

theorem upsertAll_uses (version : allowed (.getDocVersion docId)) (delete : allowed (.deleteByDocId docId))
    (upsert : ∀ records, allowed (.upsert records)) (records : List IndexRecord) :
    (self.upsertAll docId records).run.Uses (S := Effects) allowed := by
  cases records with
  | nil => trivial
  | cons first rest =>
    refine Prog.uses_run_bind (self.maybeDeleteStaleVersion_uses version delete first.docVersion) fun deleted =>
      Prog.uses_run_bind trivial fun batches =>
        Prog.uses_run_bind (Prog.uses_run_foldlM _ _ fun upserted batch _ => ?_) fun _ => Prog.uses_pure _
    exact Prog.uses_run_bind (upsertBatchWithRetry_uses upsert batch) fun _ => Prog.uses_pure _

theorem runWithRecovery_uses (version : allowed (.getDocVersion docId)) (delete : allowed (.deleteByDocId docId))
    (upsert : ∀ records, allowed (.upsert records))
    (fail : ∀ code reason, allowed (.ledgerTransition (Py.errorRequest .failed docId code reason)))
    (retry : ∀ code reason, allowed (.ledgerTransition (Py.errorRequest .indexing docId code reason)))
    (records : List IndexRecord) : (self.runWithRecovery docId records).run.Uses (S := Effects) allowed := by
  have again (code reason : String) :
      (selfTransitionAndRaise docId code reason : Py IndexResult).run.Uses (S := Effects) allowed :=
    Prog.uses_run_bind (Py.transitionTriaged_uses (retry code reason)) fun _ => trivial
  refine Prog.uses_run_tryCatch (self.upsertAll_uses version delete upsert records) fun exc => ?_
  split
  · split
    · exact Py.terminalize_uses .indexer (fail _ _)
    · split <;> exact again _ _
  · exact again _ _

theorem selfTransitionAndRaise_raises {W σ α : Type} (h : Handler Effects W σ) (docId errorCode reason : String)
    (s : σ) : Prog.wp h (fun _ => True) (selfTransitionAndRaise docId errorCode reason : Py α).run
      (fun result _ => ∀ value, result ≠ .ok value) s := by
  simp only [selfTransitionAndRaise, Prog.wp_run_bind, Prog.wp_run_throw]
  refine Prog.wp_mono (fun result _ _ => ?_) (Prog.wp_trivial _ s)
  cases result <;> simp

theorem buildRecords_uses (now : allowed .now) (get : allowed (.ledgerGet docId)) (envelope : ArrivalEnvelope)
    (embeddedChunks : List EmbeddedChunk) :
    (buildRecords docId envelope embeddedChunks).run.Uses (S := Effects) allowed :=
  Prog.uses_run_bind (Prog.uses_run_bind (Prog.uses_run_lift (Prog.uses_perform get)) fun _ => Prog.uses_pure _)
    fun _ => Prog.uses_run_bind (Prog.uses_run_lift (Prog.uses_perform now)) fun _ => trivial

end Operations

structure Accepts (indexer : Indexer) (embeddedChunks : List EmbeddedChunk) : Prop where
  nonempty : embeddedChunks ≠ []
  oneModel : (embeddingModels embeddedChunks).length ≤ 1
  dimensions : ∀ ec ∈ embeddedChunks, ec.embeddingDimensions = indexer.config.dimensions

def validationCodes : List String := [indexerEmptyRecords, indexerMixedModelBatch, indexerDimensionMismatch]

theorem index_of_accepts {envelope : ArrivalEnvelope} {embeddedChunks : List EmbeddedChunk}
    (accepts : Accepts self embeddedChunks) :
    self.index envelope embeddedChunks = (do
      let records ← buildRecords envelope.docId envelope embeddedChunks
      let result ← self.runWithRecovery envelope.docId records
      transitionToIndexed envelope.docId result) := by
  have nonempty : embeddedChunks.isEmpty = false := by simpa using accepts.nonempty
  have oneModel : ¬ 1 < (embeddingModels embeddedChunks).length := by
    have := accepts.oneModel
    omega
  have allMatch : embeddedChunks.find? (fun chunk => chunk.embeddingDimensions ≠ self.config.dimensions) = none := by
    simpa using accepts.dimensions
  simp only [index, validateBatch, nonempty, oneModel, allMatch, if_false, Bool.false_eq_true]
  rfl

theorem index_of_not_accepts (envelope : ArrivalEnvelope) {embeddedChunks : List EmbeddedChunk}
    (rejects : ¬ Accepts self embeddedChunks) :
    ∃ code ∈ validationCodes, ∃ reason,
      self.index envelope embeddedChunks = Py.terminalize .indexer envelope.docId code reason := by
  by_cases empty : embeddedChunks = []
  · subst empty
    simp only [index, List.isEmpty_nil, if_true]
    exact ⟨indexerEmptyRecords, by simp [validationCodes], _, Py.terminalize_bind ..⟩
  · have nonempty : embeddedChunks.isEmpty = false := by simpa using empty
    by_cases mixed : 1 < (embeddingModels embeddedChunks).length
    · simp only [index, validateBatch, nonempty, mixed, if_true, if_false, Bool.false_eq_true,
        Py.terminalize_bind]
      exact ⟨indexerMixedModelBatch, by simp [validationCodes], _, rfl⟩
    · cases wrong : embeddedChunks.find? (fun chunk => chunk.embeddingDimensions ≠ self.config.dimensions) with
      | none =>
        refine (rejects ⟨empty, by omega, ?_⟩).elim
        simpa using wrong
      | some chunk =>
        simp only [index, validateBatch, nonempty, mixed, wrong, if_false, Bool.false_eq_true,
          Py.terminalize_bind]
        exact ⟨indexerDimensionMismatch, by simp [validationCodes], _, rfl⟩

end Indexer

end Vestibule
