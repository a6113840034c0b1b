import Vestibule.Pipeline.Ingest

set_option autoImplicit false

namespace Vestibule

open Library

-- Runs of the quickstart follow one another on one index, for any documents.

/-- One run of the quickstart. It may stop after any operation. -/
structure QuickstartRun (R V : Type) where
  quickstart : Quickstart R
  pdf : PdfFile R
  oracle : Nat → List LedgerCall × World × V
  steps : Nat

namespace QuickstartRun

variable {R V X : Type} (hexdigest : ByteArray → String) (adapter : IndexerAdapter V X)

def program (run : QuickstartRun R V) : Prog Effects (Except Exc IndexResult) :=
  (run.quickstart.main hexdigest run.pdf).run

def apply (run : QuickstartRun R V) (s : System × X) : System × X :=
  (Prog.steps (run.quickstart.deployed adapter) run.steps run.oracle (run.program hexdigest, s)).2

def finish (run : QuickstartRun R V) (s : System × X) : Except Exc IndexResult × System × X :=
  Prog.run (run.quickstart.deployed adapter) (run.program hexdigest) run.oracle s

def runAll (runs : List (QuickstartRun R V)) (s : System × X) : System × X :=
  runs.foldl (fun s run => run.apply hexdigest adapter s) s

def embedded (run : QuickstartRun R V) : Option (List EmbeddedChunk) := run.quickstart.embedded hexdigest run.pdf

end QuickstartRun

section Derived

variable {R : Type} (hexdigest : ByteArray → String)

open Classical in
noncomputable def documentOf (chunkId : String) : String :=
  if derived : ∃ docId : String, ∃ position : Nat,
      deriveChunkId hexdigest (.ofString docId) (.int position) = .ok chunkId then derived.choose
  else ""

variable {hexdigest}

theorem documentOf_derived (injective : Function.Injective hexdigest) {docId chunkId : String} {position : Nat}
    (derived : deriveChunkId hexdigest (.ofString docId) (.int position) = .ok chunkId) :
    documentOf hexdigest chunkId = docId := by
  have some : ∃ docId : String, ∃ position : Nat,
      deriveChunkId hexdigest (.ofString docId) (.int position) = .ok chunkId := ⟨docId, position, derived⟩
  obtain ⟨other, chosen⟩ := some.choose_spec
  rw [documentOf, dif_pos some]
  have separated := deriveChunkId_separates injective (Chunker.hexRe_of_derived chosen)
    (Chunker.hexRe_of_derived derived) (Int.natCast_nonneg _) (Int.natCast_nonneg _) (chosen.trans derived.symm)
  exact PyStr.ofString_injective separated.1

theorem ok_of_toOption {ε α : Type} {result : Except ε α} {value : α} (found : result.toOption = some value) :
    result = .ok value := by
  cases result with
  | ok other => exact congrArg Except.ok (Option.some.inj found)
  | error e => cases found

theorem chunks_of_embedded {quickstart : Quickstart R} {pdf : PdfFile R} {embeddedChunks : List EmbeddedChunk}
    (made : quickstart.embedded hexdigest pdf = some embeddedChunks) :
    ∃ drafts chunks, Chunker.assignPositions hexdigest pdf.envelope.docId drafts = .ok chunks ∧
      embeddedChunks.map (·.chunk) = chunks := by
  unfold Quickstart.embedded at made
  obtain ⟨elements, _, made⟩ := Option.bind_eq_some_iff.mp made
  obtain ⟨chunks, assigned, made⟩ := Option.bind_eq_some_iff.mp made
  obtain rfl := Option.some.inj made
  refine ⟨_, chunks, ok_of_toOption assigned, ?_⟩
  simp [Function.comp_def, Embedder.alone, Embedder.embedAlone]

theorem own_of_embedded (injective : Function.Injective hexdigest) {quickstart : Quickstart R} {pdf : PdfFile R}
    {embeddedChunks : List EmbeddedChunk} (made : quickstart.embedded hexdigest pdf = some embeddedChunks) :
    Indexer.ChunksOf (documentOf hexdigest) pdf.envelope.docId embeddedChunks := by
  obtain ⟨drafts, chunks, assigned, rfl⟩ := chunks_of_embedded made
  intro ec member
  obtain ⟨item, _, built⟩ := source_of_mapM_ok assigned (List.mem_map_of_mem member)
  exact documentOf_derived injective (Chunker.chunk_of_draft built).2.2

theorem distinct_of_embedded (injective : Function.Injective hexdigest) {quickstart : Quickstart R} {pdf : PdfFile R}
    {embeddedChunks : List EmbeddedChunk} (made : quickstart.embedded hexdigest pdf = some embeddedChunks) :
    (embeddedChunks.map (·.chunk.chunkId)).Nodup := by
  obtain ⟨drafts, chunks, assigned, rfl⟩ := chunks_of_embedded made
  have nodup := Chunker.chunkIds_assigned injective pdf.envelope.docIdFormat assigned
  rwa [List.map_map] at nodup

end Derived

namespace QuickstartRun

variable {R V X : Type} {hexdigest : ByteArray → String} {adapter : IndexerAdapter V X}
  (contract : Indexer.Contract adapter (documentOf hexdigest))

theorem kept_of_runAll (injective : Function.Injective hexdigest) (runs : List (QuickstartRun R V))
    (on : ∀ run ∈ runs, run.quickstart.indexer.config.deleteBeforeUpsertOnVersionChange = true) {s : System × X}
    (kept : Indexer.Kept contract s.2) : Indexer.Kept contract (runAll hexdigest adapter runs s).2 := by
  induction runs generalizing s with
  | nil => exact kept
  | cons run rest ih =>
    have holds := run.quickstart.wp_main hexdigest run.pdf contract (on run (by simp))
      (fun _ made => own_of_embedded injective made) kept
    have step : Indexer.Kept contract (run.apply hexdigest adapter s).2 :=
      (Prog.steps_of_wp (I := fun s : System × X => Indexer.Kept contract s.2) kept holds run.steps run.oracle).1
    exact ih (fun other member => on other (by simp [member])) step

theorem ingested_of_returned (injective : Function.Injective hexdigest) (run : QuickstartRun R V)
    (on : run.quickstart.indexer.config.deleteBeforeUpsertOnVersionChange = true) {s : System × X}
    (kept : Indexer.Kept contract s.2) {receipt : IndexResult}
    (returned : (run.finish hexdigest adapter s).1 = .ok receipt) :
    ∃ embeddedChunks, Quickstart.Ingested hexdigest run.quickstart run.pdf contract embeddedChunks s
      (run.finish hexdigest adapter s).2 := by
  have holds := run.quickstart.wp_main hexdigest run.pdf contract on (fun _ made => own_of_embedded injective made)
    kept
  exact (Prog.run_of_wp holds run.oracle).2 receipt returned

theorem ingested_exactly (injective : Function.Injective hexdigest) (s : System × X) (valid : contract.Valid s.2)
    (single : Indexer.SingleVersion (contract.records s.2)) (runs : List (QuickstartRun R V))
    (run : QuickstartRun R V)
    (on : ∀ other ∈ run :: runs, other.quickstart.indexer.config.deleteBeforeUpsertOnVersionChange = true)
    (capacity : 1 ≤ run.quickstart.indexer.maxBatchSize)
    (batches : ∀ size, run.quickstart.indexer.config.batchSize = some size → 1 ≤ size) :
    let before := runAll hexdigest adapter runs s
    let after := run.finish hexdigest adapter before
    contract.Valid before.2 ∧ Indexer.SingleVersion (contract.records before.2) ∧
      ∀ receipt, after.1 = .ok receipt →
        (∃ embeddedChunks, run.embedded hexdigest = some embeddedChunks ∧
          Indexer.LeavesExactly run.pdf.envelope embeddedChunks (contract.records before.2)
            (contract.records after.2.2)) ∧
        ∃ row, row.status = .indexed ∧
          ∀ more, (runCallsFrom after.2.1.ledger more).get run.pdf.envelope.docId = some row := by
  intro before after
  have mine := on run (by simp)
  have kept : Indexer.Kept contract before.2 :=
    kept_of_runAll contract injective runs (fun other member => on other (by simp [member])) ⟨valid, single⟩
  have positive := Embedder.effectiveBatchSize_pos batches capacity
  refine ⟨kept.1, kept.2, fun receipt returned => ?_⟩
  have ingested : ∃ embeddedChunks, Quickstart.Ingested hexdigest run.quickstart run.pdf contract embeddedChunks
      before after.2 := ingested_of_returned contract injective run mine kept returned
  clear_value after
  obtain ⟨embeddedChunks, prepared, ⟨configVersion, rewrites⟩, row, present, indexed⟩ := ingested
  have exactly := Indexer.leavesExactly_of_rewrites contract mine positive.1
    (distinct_of_embedded injective prepared) kept rewrites
  exact ⟨⟨embeddedChunks, prepared, exactly⟩, row, indexed, runCallsFrom_closed present (.inl indexed)⟩

-- The run before it stops once its document is chunked.
def sampleQuickstart : Quickstart Nat where
  analyzer := { registry := Dict.empty.insert .docx fun _ _ => .returned [{ type := .paragraph, text := "text" }],
                pymupdf := none }
  embedder := ⟨{ targetDimensions := none }, fastEmbedEmbedder "nomic-ai/nomic-embed-text-v1.5",
    fun absent => absurd rfl absent⟩
  indexer := ⟨{ dimensions := 1 }, "in-memory", InMemoryIndexer.maxBatchSize⟩
  splitText text := [text]
  count text := text.length
  embedText _ := [1]

def sampleRun : QuickstartRun Nat InMemoryIndexer.CallFate where
  quickstart := sampleQuickstart
  pdf := ⟨StageCall.sampleEnvelope, Analyzer.byteStream docxMagic, 0⟩
  oracle _ := ([], {}, {})
  steps := 4

def stoppedRun : System × InMemoryIndexer :=
  runAll sampleHexdigest InMemoryIndexer.flakyAdapter [sampleRun] (Analyzer.pendingSystem.1, {})

theorem sampleRun_returns : (sampleRun.finish sampleHexdigest InMemoryIndexer.flakyAdapter stoppedRun).1.isOk := by
  decide +kernel

theorem ingested_exactly_after_crash : ∃ receipt embeddedChunks,
    (sampleRun.finish sampleHexdigest InMemoryIndexer.flakyAdapter stoppedRun).1 = .ok receipt ∧
    sampleRun.embedded sampleHexdigest = some embeddedChunks ∧
    Indexer.LeavesExactly sampleRun.pdf.envelope embeddedChunks
      ((InMemoryIndexer.flakyContract (documentOf sampleHexdigest)).records stoppedRun.2)
      ((InMemoryIndexer.flakyContract (documentOf sampleHexdigest)).records
        (sampleRun.finish sampleHexdigest InMemoryIndexer.flakyAdapter stoppedRun).2.2) := by
  have on : ∀ other ∈ [sampleRun, sampleRun],
      other.quickstart.indexer.config.deleteBeforeUpsertOnVersionChange = true := by
    intro other member
    simp only [List.mem_cons, List.not_mem_nil, or_false, or_self] at member
    rw [member]
    rfl
  have capacity : 1 ≤ sampleRun.quickstart.indexer.maxBatchSize := by decide +kernel
  have batches : ∀ size, sampleRun.quickstart.indexer.config.batchSize = some size → 1 ≤ size := by
    intro size configured
    cases configured
  have run := ingested_exactly (InMemoryIndexer.flakyContract (documentOf sampleHexdigest)) sampleHexdigest_injective
    (Analyzer.pendingSystem.1, {}) InMemoryIndexer.repInv_empty Indexer.singleVersion_empty [sampleRun] sampleRun on
    capacity batches
  obtain ⟨receipt, returned⟩ := exists_of_isOk sampleRun_returns
  obtain ⟨embeddedChunks, made, leaves⟩ := (run.2.2 receipt returned).1
  exact ⟨receipt, embeddedChunks, returned, made, leaves⟩

-- Whatever stops the runs, a document stays in the pipeline until it is indexed, unless an error that
-- cannot be retried has closed it.

abbrev IsPermanent (errorCode : String) : Prop := registeredSeverity errorCode = some .permanent

def Underway (docId : String) (ledger : InMemoryLedgerStore) : Prop :=
  ∃ row, ledger.get docId = some row ∧
    (row.status ∈ forwardOrder ∨
      row.status = .failed ∧ ∃ errorCode, row.lastErrorCode = some errorCode ∧ IsPermanent errorCode)

/-- A ledger call of another worker or of an operator who requeues: no decision on this document. -/
def Undecided (docId : String) (call : LedgerCall) : Prop :=
  ∀ now request, call = .transition now request → request.docId = docId → Quickstart.Onward IsPermanent request

theorem underway_nextRow {now : DateTime} {row : LedgerRow} {request : TransitionRequest}
    (onward : Quickstart.Onward IsPermanent request) :
    (nextRow now row request).status ∈ forwardOrder ∨ (nextRow now row request).status = .failed ∧
      ∃ errorCode, (nextRow now row request).lastErrorCode = some errorCode ∧ IsPermanent errorCode := by
  rcases onward with forward | ⟨failed, errorCode, explained, permanent⟩
  next => exact .inl forward
  next => exact .inr ⟨failed, errorCode, by simp [nextRow, nextErrorFields, explained], permanent⟩

theorem underway_apply {docId : String} {ledger : InMemoryLedgerStore} {call : LedgerCall}
    (undecided : Undecided docId call) (underway : Underway docId ledger) :
    Underway docId (call.apply ledger).2 := by
  obtain ⟨row, present, onPath⟩ := underway
  cases call.outcome ledger with
  | rejected fault same =>
    rw [same]
    exact ⟨row, present, onPath⟩
  | found now other summary held _ same =>
    change Underway docId (ledger.create now other summary).2
    rw [same]
    exact ⟨row, present, onPath⟩
  | created now other summary absent correct stored =>
    change Underway docId (ledger.create now other summary).2
    rw [stored]
    have different : docId ≠ other := by
      rintro rfl
      simp [present] at absent
    exact ⟨row, by simp [different, present], onPath⟩
  | moved now request current held edge correct stored =>
    change Underway docId (ledger.transition now request).2
    rw [stored]
    by_cases mine : request.docId = docId
    next =>
      subst mine
      exact ⟨nextRow now current request, by simp, underway_nextRow (undecided now request rfl rfl)⟩
    next => exact ⟨row, by simp [Ne.symm mine, present], onPath⟩

theorem underway_runCalls {docId : String} (calls : List LedgerCall) {ledger : InMemoryLedgerStore}
    (undecided : ∀ call ∈ calls, Undecided docId call) (underway : Underway docId ledger) :
    Underway docId (runCallsFrom ledger calls) := by
  induction calls generalizing ledger with
  | nil => exact underway
  | cons call rest ih =>
    exact ih (fun other member => undecided other (by simp [member]))
      (underway_apply (undecided call (by simp)) underway)

/-- Only the writes of the stages reach the ledger. -/
def Decides (o : Op) : Prop := ∀ request, o = .ledgerTransition request → Quickstart.Onward IsPermanent request

theorem underway_deployed {docId : String} (quickstart : Quickstart R) {w : List LedgerCall × World × V}
    (undecided : ∀ call ∈ w.1, Undecided docId call) {o : Op} (writes : Decides o) {s : System × X}
    (underway : Underway docId s.1.ledger) : Underway docId (quickstart.deployed adapter w o s).2.1.ledger := by
  have middle : Underway docId (interfere w.1 s).1.ledger := underway_runCalls w.1 undecided underway
  cases o with
  | ledgerTransition request =>
    have onward (now : DateTime) : Undecided docId (.transition now request) := by
      intro _ _ same _
      cases same
      exact writes request rfl
    exact underway_apply (onward _) middle
  | _ => exact middle

theorem underway_of_run {docId : String} (run : QuickstartRun R V)
    (sound : run.quickstart.analyzer.Sound run.pdf.envelope run.pdf.reader run.pdf.start)
    (undecided : ∀ i, ∀ call ∈ (run.oracle i).1, Undecided docId call) {s : System × X}
    (underway : Underway docId s.1.ledger) : Underway docId (run.apply hexdigest adapter s).1.ledger := by
  have closes : Quickstart.Closes run.pdf IsPermanent run.quickstart.analyzer := by
    intro errorCode reason detectedType ended
    have lawful := (Analyzer.sound_iff _ _ _ _).mp sound
    rw [ended] at lawful
    exact lawful
  have others (o : Op) (quiet : NoWrite o) : Decides o := fun request same => (quiet ⟨request, same⟩).elim
  have writes (request : TransitionRequest) (onward : Quickstart.Onward IsPermanent request) :
      Decides (.ledgerTransition request) := by
    intro _ same
    cases same
    exact onward
  have uses := run.quickstart.main_uses hexdigest run.pdf writes (fun _ permanent => permanent) others closes
  let undisturbed (w : List LedgerCall × World × V) : Prop := ∀ call ∈ w.1, Undecided docId call
  have holds := Prog.wp_of_uses (h := Prog.among undisturbed (run.quickstart.deployed adapter))
    (I := fun s : System × X => Underway docId s.1.ledger) uses
    (fun o allowed w s kept => underway_deployed run.quickstart w.2 allowed kept) underway
  have ended := (Prog.steps_of_wp (I := fun s : System × X => Underway docId s.1.ledger) underway holds run.steps
    fun i => ⟨run.oracle i, undecided i⟩).1
  rwa [Prog.steps_among] at ended

-- Runs that stop anywhere, with any failures and any other workers, never park, archive or drop a document,
-- and fail it with a permanent code only.
theorem underway_of_runAll (runs : List (QuickstartRun R V))
    (sound : ∀ run ∈ runs, run.quickstart.analyzer.Sound run.pdf.envelope run.pdf.reader run.pdf.start)
    (docId : String) (undecided : ∀ run ∈ runs, ∀ i, ∀ call ∈ (run.oracle i).1, Undecided docId call)
    (s : System × X) (underway : Underway docId s.1.ledger) :
    Underway docId (runAll hexdigest adapter runs s).1.ledger := by
  induction runs generalizing s with
  | nil => exact underway
  | cons run rest ih =>
    apply ih (fun other member => sound other (by simp [member])) fun other member =>
      undecided other (by simp [member])
    exact underway_of_run run (sound run (by simp)) (undecided run (by simp)) underway

end QuickstartRun

end Vestibule
