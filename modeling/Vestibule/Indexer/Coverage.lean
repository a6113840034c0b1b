import Vestibule.Pipeline.Outcome

set_option autoImplicit false

namespace Vestibule

open Library

-- The trace of a call's operations says what the adapter was given and what it reported. A call that
-- returns has stored every chunk, unless its batch size is negative.

namespace Indexer

def upsertEvent (batch : List IndexRecord) (answer : Except Exc UpsertOutcome) : Event Effects :=
  ⟨.upsert batch, answer⟩

def Partitions (batch : List IndexRecord) (outcome : UpsertOutcome) : Prop :=
  (outcome.succeeded ++ failedIds outcome).Perm (batch.map (·.chunkId))

/-- Every answer of the adapter's `upsert` says of each record it was given whether it is stored. -/
def Honest {V X : Type} (adapter : IndexerAdapter V X) : Prop :=
  ∀ v batch index outcome, (adapter.upsert v batch index).1 = .ok outcome → Partitions batch outcome

def reportedFailed (batch : List IndexRecord) (outcome : UpsertOutcome) : List IndexRecord :=
  batch.filter (fun record => record.chunkId ∈ failedIds outcome)

inductive Upserted : List (List IndexRecord) → List (Event Effects) → Int → Prop where
  | done : Upserted [] [] 0
  | whole {batch : List IndexRecord} {rest : List (List IndexRecord)} {events : List (Event Effects)}
      {count : Int} (outcome : UpsertOutcome) (clean : outcome.failed = [])
      (partition : Partitions batch outcome) (later : Upserted rest events count) :
      Upserted (batch :: rest) (upsertEvent batch (.ok outcome) :: events) (outcome.succeeded.length + count)
  | retried {batch : List IndexRecord} {rest : List (List IndexRecord)} {events : List (Event Effects)}
      {count : Int} (outcome retryOutcome : UpsertOutcome) (partition : Partitions batch outcome)
      (clean : retryOutcome.failed = []) (retryPartition : Partitions (reportedFailed batch outcome) retryOutcome)
      (later : Upserted rest events count) :
      Upserted (batch :: rest)
        (upsertEvent batch (.ok outcome) :: upsertEvent (reportedFailed batch outcome) (.ok retryOutcome) :: events)
        (outcome.succeeded.length + retryOutcome.succeeded.length + count)

section Trace

variable {V X : Type} {adapter : IndexerAdapter V X}

theorem wp_logged_upsert (batch : List IndexRecord) (s : System × X) (trace : List (Event Effects))
    (Q : Except Exc UpsertOutcome → (System × X) × List (Event Effects) → Prop) :
    Prog.wp (Prog.logged (pipeline adapter)) (fun _ => True) (Py.upsert batch).run Q (s, trace) ↔
      ∀ w : World × V, True ∧ Q (adapter.upsert w.2 batch s.2).1 ((s.1, (adapter.upsert w.2 batch s.2).2),
        trace ++ [upsertEvent batch (adapter.upsert w.2 batch s.2).1]) := Iff.rfl

theorem wp_logged_upsertBatch (honest : Honest adapter) (batch : List IndexRecord) (s : System × X)
    (trace : List (Event Effects)) :
    Prog.wp (Prog.logged (pipeline adapter)) (fun _ => True) (upsertBatchWithRetry batch).run
      (fun result logs => ∀ total, result = .ok total → ∃ events, logs.2 = trace ++ events ∧
        ∀ rest later count, Upserted rest later count → Upserted (batch :: rest) (events ++ later) (total + count))
      (s, trace) := by
  simp only [upsertBatchWithRetry, Prog.wp_run_bind, wp_logged_upsert]
  intro w
  refine ⟨trivial, ?_⟩
  have partition := honest w.2 batch s.2
  generalize adapter.upsert w.2 batch s.2 = answered at partition ⊢
  obtain ⟨answer, index⟩ := answered
  cases answer with
  | error exc => simp
  | ok outcome =>
    by_cases clean : outcome.failed = []
    next =>
      simp only [clean, List.isEmpty_nil, if_true]
      intro total same
      cases same
      refine ⟨[upsertEvent batch (.ok outcome)], rfl, fun rest later count tail => ?_⟩
      exact .whole outcome clean (partition outcome rfl) tail
    next =>
      have failing : outcome.failed.isEmpty = false := by simpa using clean
      simp only [failing, Bool.false_eq_true, if_false, Prog.wp_run_bind, wp_logged_upsert]
      intro w'
      refine ⟨trivial, ?_⟩
      have retryPartition := honest w'.2 (reportedFailed batch outcome) index
      simp only [reportedFailed] at retryPartition
      generalize adapter.upsert w'.2 (batch.filter _) index = answered at retryPartition ⊢
      obtain ⟨retryAnswer, index'⟩ := answered
      cases retryAnswer with
      | error exc => simp
      | ok retryOutcome =>
        by_cases retryClean : retryOutcome.failed = []
        next =>
          simp only [retryClean, List.isEmpty_nil, not_true_eq_false, if_false]
          intro total same
          cases same
          refine ⟨[upsertEvent batch (.ok outcome), upsertEvent (reportedFailed batch outcome) (.ok retryOutcome)],
            by simp [reportedFailed], fun rest later count tail => ?_⟩
          exact .retried outcome retryOutcome (partition outcome rfl) retryClean
            (retryPartition retryOutcome rfl) tail
        next =>
          have stillFailing : retryOutcome.failed.isEmpty = false := by simpa using retryClean
          simp only [stillFailing, Bool.false_eq_true, not_false_eq_true, if_true]
          intro total same
          cases same

theorem wp_logged_upsertBatches (honest : Honest adapter) (batches : List (List IndexRecord))
    (upserted : Int) (s : System × X) (trace : List (Event Effects)) :
    Prog.wp (Prog.logged (pipeline adapter)) (fun _ => True)
      (batches.foldlM (fun upserted batch => do
        return upserted + (← upsertBatchWithRetry batch)) upserted : Py Int).run
      (fun result logs => ∀ total, result = .ok total → ∃ events count, logs.2 = trace ++ events ∧
        Upserted batches events count ∧ total = upserted + count)
      (s, trace) := by
  induction batches generalizing upserted s trace with
  | nil =>
    intro total same
    cases same
    exact ⟨[], 0, by simp, .done, by simp⟩
  | cons batch rest ih =>
    simp only [List.foldlM_cons, Prog.wp_run_bind, Prog.wp_run_pure]
    refine Prog.wp_mono (fun result logs step => ?_) (wp_logged_upsertBatch honest batch s trace)
    cases result with
    | error exc => simp
    | ok stored =>
      obtain ⟨first, extended, head⟩ := step stored rfl
      refine Prog.wp_mono (fun _ logs' later total same => ?_) (ih (upserted + stored) logs.1 logs.2)
      obtain ⟨events, count, traced, tail, sum⟩ := later total same
      refine ⟨first ++ events, stored + count, by rw [traced, extended, List.append_assoc],
        head _ _ _ tail, ?_⟩
      omega

end Trace

theorem upsertEvent_injective {batch other : List IndexRecord} {answer reply : Except Exc UpsertOutcome}
    (same : upsertEvent batch answer = upsertEvent other reply) : batch = other ∧ answer = reply := by
  cases same
  exact ⟨rfl, rfl⟩

theorem Partitions.length_eq {batch : List IndexRecord} {outcome : UpsertOutcome}
    (partition : Partitions batch outcome) :
    outcome.succeeded.length + outcome.failed.length = batch.length := by
  have sameLength := List.Perm.length_eq partition
  simpa [failedIds] using sameLength

theorem Partitions.mem_succeeded {batch : List IndexRecord} {outcome : UpsertOutcome}
    (partition : Partitions batch outcome) (clean : outcome.failed = []) {record : IndexRecord}
    (member : record ∈ batch) : record.chunkId ∈ outcome.succeeded := by
  have listed := partition.mem_iff.mpr (List.mem_map_of_mem member)
  simpa [failedIds, clean] using listed

theorem reportedFailed_length {batch : List IndexRecord} {outcome : UpsertOutcome}
    (partition : Partitions batch outcome) (distinct : (batch.map (·.chunkId)).Nodup) :
    (reportedFailed batch outcome).length = outcome.failed.length := by
  have apart := List.nodup_append.mp (partition.nodup_iff.mpr distinct)
  have failedOnly : (outcome.succeeded ++ failedIds outcome).filter (· ∈ failedIds outcome) = failedIds outcome := by
    have none : outcome.succeeded.filter (· ∈ failedIds outcome) = [] := by
      apply List.filter_eq_nil_iff.mpr
      intro id succeeded failed
      exact apart.2.2 id succeeded id (by simpa using failed) rfl
    have all : (failedIds outcome).filter (· ∈ failedIds outcome) = failedIds outcome :=
      List.filter_eq_self.mpr (by simp)
    rw [List.filter_append, none, all, List.nil_append]
  have filtered := (partition.filter (· ∈ failedIds outcome)).length_eq
  rw [failedOnly, List.filter_map, List.length_map] at filtered
  simpa [reportedFailed, failedIds, Function.comp_def] using filtered.symm

theorem Upserted.stored {batches : List (List IndexRecord)} {events : List (Event Effects)} {count : Int}
    (upserted : Upserted batches events count) {record : IndexRecord} (given : record ∈ batches.flatten) :
    ∃ batch outcome, upsertEvent batch (.ok outcome) ∈ events ∧ record ∈ batch ∧
      record.chunkId ∈ outcome.succeeded := by
  induction upserted with
  | done => simp at given
  | whole outcome clean partition later ih =>
    rcases List.mem_append.mp given with member | member
    next => exact ⟨_, outcome, by simp, member, partition.mem_succeeded clean member⟩
    next =>
      obtain ⟨batch, found, event, rest⟩ := ih member
      exact ⟨batch, found, by simp [event], rest⟩
  | @retried batch _ _ _ outcome retryOutcome partition clean retryPartition later ih =>
    rcases List.mem_append.mp given with member | member
    next =>
      have listed := partition.mem_iff.mpr (List.mem_map_of_mem member)
      rcases List.mem_append.mp listed with succeeded | failed
      next => exact ⟨batch, outcome, by simp, member, succeeded⟩
      next =>
        have again : record ∈ reportedFailed batch outcome := by simp [reportedFailed, member, failed]
        exact ⟨_, retryOutcome, by simp, again, retryPartition.mem_succeeded clean again⟩
    next =>
      obtain ⟨batch, found, event, rest⟩ := ih member
      exact ⟨batch, found, by simp [event], rest⟩

theorem Upserted.count_eq {batches : List (List IndexRecord)} {events : List (Event Effects)} {count : Int}
    (upserted : Upserted batches events count) (distinct : (batches.flatten.map (·.chunkId)).Nodup) :
    count = batches.flatten.length := by
  induction upserted with
  | done => simp
  | whole outcome clean partition later ih =>
    simp only [List.flatten_cons, List.map_append] at distinct
    have tail := ih distinct.of_append_right
    have head := partition.length_eq
    simp only [clean, List.length_nil] at head
    simp only [List.flatten_cons, List.length_append]
    omega
  | retried outcome retryOutcome partition clean retryPartition later ih =>
    simp only [List.flatten_cons, List.map_append] at distinct
    have tail := ih distinct.of_append_right
    have head := partition.length_eq
    have again := retryPartition.length_eq
    have retried := reportedFailed_length partition distinct.of_append_left
    simp only [clean, List.length_nil] at again
    simp only [List.flatten_cons, List.length_append]
    omega

theorem Upserted.bounded {batches : List (List IndexRecord)} {events : List (Event Effects)} {count bound : Int}
    (upserted : Upserted batches events count) (small : ∀ batch ∈ batches, (batch.length : Int) ≤ bound)
    {batch : List IndexRecord} {answer : Except Exc UpsertOutcome} (event : upsertEvent batch answer ∈ events) :
    (batch.length : Int) ≤ bound := by
  induction upserted with
  | done => simp at event
  | @whole first _ _ _ outcome clean partition later ih =>
    rcases List.mem_cons.mp event with same | event
    next =>
      obtain ⟨rfl, -⟩ := upsertEvent_injective same
      exact small _ (by simp)
    next => exact ih (fun other member => small other (by simp [member])) event
  | @retried first _ _ _ outcome retryOutcome partition clean retryPartition later ih =>
    have whole := small first (by simp)
    rcases List.mem_cons.mp event with same | event
    next =>
      obtain ⟨rfl, -⟩ := upsertEvent_injective same
      exact whole
    next =>
      rcases List.mem_cons.mp event with same | event
      next =>
        obtain ⟨rfl, -⟩ := upsertEvent_injective same
        have shorter := List.length_filter_le (fun record => record.chunkId ∈ failedIds outcome) first
        simp only [reportedFailed]
        omega
      next => exact ih (fun other member => small other (by simp [member])) event

def RetriesFollow (trace : List (Event Effects)) : Prop :=
  ∀ earlier batch outcome later, trace = earlier ++ upsertEvent batch (.ok outcome) :: later →
    outcome.failed ≠ [] → ∃ answer rest, later = upsertEvent (reportedFailed batch outcome) answer :: rest

theorem retriesFollow_cons {event : Event Effects} {trace : List (Event Effects)}
    (head : ∀ batch outcome, event = upsertEvent batch (.ok outcome) → outcome.failed ≠ [] →
      ∃ answer rest, trace = upsertEvent (reportedFailed batch outcome) answer :: rest)
    (tail : RetriesFollow trace) : RetriesFollow (event :: trace) := by
  intro earlier batch outcome later same failed
  cases earlier with
  | nil =>
    obtain ⟨first, rfl⟩ := List.cons.inj same
    exact head batch outcome first failed
  | cons other earlier => exact tail earlier batch outcome later (List.cons.inj same).2 failed

theorem Upserted.retriesFollow {batches : List (List IndexRecord)} {events after : List (Event Effects)}
    {count : Int} (upserted : Upserted batches events count) (tail : RetriesFollow after) :
    RetriesFollow (events ++ after) := by
  have passed {batch : List IndexRecord} {outcome : UpsertOutcome} (clean : outcome.failed = [])
      {trace : List (Event Effects)} (later : RetriesFollow trace) :
      RetriesFollow (upsertEvent batch (.ok outcome) :: trace) := by
    refine retriesFollow_cons (fun given found same failed => ?_) later
    obtain ⟨-, answer⟩ := upsertEvent_injective same
    cases answer
    exact (failed clean).elim
  induction upserted with
  | done => exact tail
  | whole outcome clean partition later ih => exact passed clean ih
  | retried outcome retryOutcome partition clean retryPartition later ih =>
    refine retriesFollow_cons (fun given found same failed => ?_) (passed clean ih)
    obtain ⟨rfl, answer⟩ := upsertEvent_injective same
    cases answer
    exact ⟨_, _, rfl⟩

def MarksIndexed (o : Op) : Prop := ∃ request, o = .ledgerTransition request ∧ request.toStatus = .indexed

def Quiet (o : Op) : Prop := (∀ batch, o ≠ .upsert batch) ∧ ¬ MarksIndexed o

theorem retriesFollow_of_quiet {quiet trace : List (Event Effects)} (idle : ∀ event ∈ quiet, Quiet event.1)
    (tail : RetriesFollow trace) : RetriesFollow (quiet ++ trace) := by
  induction quiet with
  | nil => exact tail
  | cons event rest ih =>
    refine retriesFollow_cons (fun batch outcome same _ => ?_) (ih fun other member => idle other (by simp [member]))
    exact ((idle event (by simp)).1 batch (by rw [same]; rfl)).elim

structure Written (indexer : Indexer) (records : List IndexRecord) (receipt : IndexResult)
    (quiet : List (Event Effects)) (batches : List (List IndexRecord)) (events : List (Event Effects)) : Prop where
  idle : ∀ event ∈ quiet, Quiet event.1
  covers : batches.flatten = records
  small : ∀ batch ∈ batches, (batch.length : Int) ≤ indexer.maxBatchSize
  upserted : Upserted batches events receipt.chunksUpserted

def Admissible (self : Indexer) : Prop := ∀ size, self.config.batchSize = some size → 0 ≤ size

theorem batches_of_admissible {self : Indexer} (admissible : Admissible self) (positive : 1 ≤ self.maxBatchSize)
    {records : List IndexRecord} {batches : List (List IndexRecord)}
    (split : batched records (effectiveBatchSize self.config.batchSize self.maxBatchSize) = .ok batches) :
    batches.flatten = records ∧ ∀ batch ∈ batches, (batch.length : Int) ≤ self.maxBatchSize := by
  have bounds : 0 ≤ effectiveBatchSize self.config.batchSize self.maxBatchSize ∧
      effectiveBatchSize self.config.batchSize self.maxBatchSize ≤ self.maxBatchSize := by
    cases configured : self.config.batchSize with
    | none =>
      simp only [effectiveBatchSize]
      omega
    | some size =>
      have nonneg := admissible size configured
      simp only [effectiveBatchSize]
      omega
  have nonzero : effectiveBatchSize self.config.batchSize self.maxBatchSize ≠ 0 := by
    intro zero
    simp [batched, zero] at split
  constructor
  next => exact batched_flatten (by omega) split
  next =>
    intro batch member
    have := batched_length_le split member
    omega

section Call

variable {V X : Type} {adapter : IndexerAdapter V X} {self : Indexer}

theorem wp_logged_upsertAll (honest : Honest adapter) (admissible : Admissible self)
    (positive : 1 ≤ self.maxBatchSize) (docId : String) (records : List IndexRecord) (s : System × X)
    (trace : List (Event Effects)) :
    Prog.wp (Prog.logged (pipeline adapter)) (fun _ => True) (self.upsertAll docId records).run
      (fun result logs => ∀ receipt, result = .ok receipt →
        ∃ quiet batches events, logs.2 = trace ++ (quiet ++ events) ∧
          Written self records receipt quiet batches events) (s, trace) := by
  cases records with
  | nil =>
    intro receipt same
    cases same
  | cons first rest =>
    have idle : (self.maybeDeleteStaleVersion docId first.docVersion).run.Uses Quiet :=
      self.maybeDeleteStaleVersion_uses (by simp [Quiet, MarksIndexed]) (by simp [Quiet, MarksIndexed]) _
    simp only [upsertAll, Prog.wp_run_bind, wp_ofExcept]
    refine Prog.wp_mono (fun result logs deleted => ?_) (Prog.wp_logged_of_uses idle s trace)
    obtain ⟨quiet, extended, quietOnly⟩ := deleted
    cases result with
    | error exc => simp
    | ok chunksDeleted =>
      cases split : batched (first :: rest) (effectiveBatchSize self.config.batchSize self.maxBatchSize) with
      | error exc => simp
      | ok batches =>
        obtain ⟨covers, small⟩ := batches_of_admissible admissible positive split
        refine Prog.wp_mono (fun result logs' stored => ?_)
          (wp_logged_upsertBatches honest batches 0 logs.1 logs.2)
        cases result with
        | error exc => simp
        | ok total =>
          intro receipt same
          cases same
          obtain ⟨events, count, traced, upserted, sum⟩ := stored total rfl
          have counted : total = count := by omega
          refine ⟨quiet, batches, events, by rw [traced, extended, List.append_assoc], ?_⟩
          exact ⟨quietOnly, covers, small, counted ▸ upserted⟩

theorem wp_logged_runWithRecovery (honest : Honest adapter) (admissible : Admissible self)
    (positive : 1 ≤ self.maxBatchSize) (docId : String) (records : List IndexRecord) (s : System × X)
    (trace : List (Event Effects)) :
    Prog.wp (Prog.logged (pipeline adapter)) (fun _ => True) (self.runWithRecovery docId records).run
      (fun result logs => ∀ receipt, result = .ok receipt →
        ∃ quiet batches events, logs.2 = trace ++ (quiet ++ events) ∧
          Written self records receipt quiet batches events) (s, trace) := by
  simp only [runWithRecovery, Prog.wp_run_tryCatch]
  refine Prog.wp_mono (fun result logs stored => ?_)
    (wp_logged_upsertAll honest admissible positive docId records s trace)
  cases result with
  | ok receipt => exact stored
  | error exc =>
    have raised {p : Py IndexResult} (raises : Prog.wp (Prog.logged (pipeline adapter)) (fun _ => True) p.run
        (fun result _ => ∀ value, result ≠ .ok value) logs) :=
      Prog.wp_mono (R := fun result (logs : (System × X) × List (Event Effects)) =>
        ∀ receipt, result = .ok receipt → ∃ quiet batches events, logs.2 = trace ++ (quiet ++ events) ∧
          Written self records receipt quiet batches events)
        (fun _ _ never receipt same => (never receipt same).elim) raises
    simp only
    split
    · split
      · exact raised (Py.terminalize_raises _ _ _ _ _ _)
      · split <;> exact raised (selfTransitionAndRaise_raises _ _ _ _ _)
    · exact raised (selfTransitionAndRaise_raises _ _ _ _ _)

theorem wp_logged_transitionToIndexed (docId : String) (receipt : IndexResult) (s : System × X)
    (trace : List (Event Effects)) :
    Prog.wp (Prog.logged (pipeline adapter)) (fun _ => True) (transitionToIndexed docId receipt).run
      (fun result logs => (∀ value, result = .ok value → value = receipt) ∧
        ∃ event : Event Effects, MarksIndexed event.1 ∧ logs.2 = trace ++ [event]) (s, trace) := by
  simp only [transitionToIndexed, Prog.wp_run_bind, Prog.wp_run_pure]
  rw [Py.wp_transitionTriaged_iff]
  have marked : MarksIndexed (.ledgerTransition { docId, toStatus := .indexed, stage := .indexed }) := ⟨_, rfl, rfl⟩
  refine fun w => ⟨trivial, ?_⟩
  split
  · exact ⟨fun value same => (Except.ok.inj same).symm, _, marked, rfl⟩
  · exact ⟨by simp, _, marked, rfl⟩

end Call

theorem wellTyped_of_built {docId configVersion : String} {envelope : ArrivalEnvelope} {indexedAt : DateTime}
    {embeddedChunks : List EmbeddedChunk} {records : List IndexRecord}
    (built : embeddedChunks.mapM (buildRecord docId envelope configVersion indexedAt) = .ok records) :
    WellTyped embeddedChunks := by
  intro ec member value held
  obtain ⟨record, _, one⟩ := result_of_mapM_ok built member
  cases value with
  | none => exact .inl rfl
  | str text => exact .inr ⟨text, rfl⟩
  | _ => simp [buildRecord, sectionPath, held, Bind.bind, Except.bind] at one

def StoredAll (envelope : ArrivalEnvelope) (embeddedChunks : List EmbeddedChunk) (trace : List (Event Effects)) :
    Prop :=
  ∀ ec ∈ embeddedChunks, ∃ batch outcome record configVersion indexedAt,
    buildRecord envelope.docId envelope configVersion indexedAt ec = .ok record ∧ record ∈ batch ∧
      upsertEvent batch (.ok outcome) ∈ trace ∧ record.chunkId ∈ outcome.succeeded

structure FullyIndexed (indexer : Indexer) (envelope : ArrivalEnvelope) (embeddedChunks : List EmbeddedChunk)
    (receipt : IndexResult) (trace : List (Event Effects)) : Prop where
  stored : StoredAll envelope embeddedChunks trace
  counted : receipt.chunksUpserted = embeddedChunks.length
  bounded : ∀ batch answer, upsertEvent batch answer ∈ trace → (batch.length : Int) ≤ indexer.maxBatchSize
  retried : RetriesFollow trace

structure IndexedMeansIndexed (indexer : Indexer) (envelope : ArrivalEnvelope) (embeddedChunks : List EmbeddedChunk)
    (result : Except Exc IndexResult) (trace : List (Event Effects)) : Prop where
  returned : ∀ receipt, result = .ok receipt → FullyIndexed indexer envelope embeddedChunks receipt trace
  marked : ∀ earlier event later, trace = earlier ++ event :: later → MarksIndexed event.1 →
    StoredAll envelope embeddedChunks earlier

theorem storedAll_of_upserted {envelope : ArrivalEnvelope} {embeddedChunks : List EmbeddedChunk}
    {records : List IndexRecord} {configVersion : String} {indexedAt : DateTime}
    (built : embeddedChunks.mapM (buildRecord envelope.docId envelope configVersion indexedAt) = .ok records)
    {batches : List (List IndexRecord)} {trace events : List (Event Effects)} {count : Int}
    (covers : batches.flatten = records) (upserted : Upserted batches events count) (within : events ⊆ trace) :
    StoredAll envelope embeddedChunks trace := by
  intro ec member
  obtain ⟨record, given, same⟩ := result_of_mapM_ok built member
  rw [← covers] at given
  obtain ⟨batch, outcome, event, inside, succeeded⟩ := upserted.stored given
  exact ⟨batch, outcome, record, configVersion, indexedAt, same, inside, within event, succeeded⟩

theorem fullyIndexed_of_written {self : Indexer} {envelope : ArrivalEnvelope}
    {embeddedChunks : List EmbeddedChunk} (distinct : (embeddedChunks.map (·.chunk.chunkId)).Nodup)
    {records : List IndexRecord} {configVersion : String} {indexedAt : DateTime}
    (built : embeddedChunks.mapM (buildRecord envelope.docId envelope configVersion indexedAt) = .ok records)
    {receipt : IndexResult} {started quiet events : List (Event Effects)} {batches : List (List IndexRecord)}
    (written : Written self records receipt quiet batches events)
    (idle : ∀ event ∈ started, Quiet event.1) {mark : Event Effects} (marks : MarksIndexed mark.1) :
    FullyIndexed self envelope embeddedChunks receipt (started ++ (quiet ++ (events ++ [mark]))) where
  stored := by
    refine storedAll_of_upserted built written.covers written.upserted fun event member => ?_
    simp [member]
  counted := by
    rw [← chunkIds_of_built built, ← written.covers] at distinct
    have total := written.upserted.count_eq distinct
    have sameLength := congrArg List.length (chunkIds_of_built built)
    simp only [List.length_map] at sameLength
    rw [total, written.covers, sameLength]
  bounded := by
    intro batch answer member
    have notMark : upsertEvent batch answer ≠ mark := by
      rintro rfl
      obtain ⟨request, same, _⟩ := marks
      cases same
    have notQuiet (others : List (Event Effects)) (silent : ∀ event ∈ others, Quiet event.1) :
        upsertEvent batch answer ∉ others := fun inside => (silent _ inside).1 batch rfl
    have inside : upsertEvent batch answer ∈ events := by
      simpa [notMark, notQuiet started idle, notQuiet quiet written.idle] using member
    exact written.upserted.bounded written.small inside
  retried := by
    have last : RetriesFollow [mark] := by
      refine retriesFollow_cons (fun batch outcome same _ => ?_) (fun earlier _ _ _ same => by simp at same)
      obtain ⟨request, write, _⟩ := marks
      rw [same] at write
      cases write
    exact retriesFollow_of_quiet idle (retriesFollow_of_quiet written.idle (written.upserted.retriesFollow last))

theorem indexedMeansIndexed_of_unmarked {self : Indexer} {envelope : ArrivalEnvelope}
    {embeddedChunks : List EmbeddedChunk} {result : Except Exc IndexResult} {trace : List (Event Effects)}
    (raised : ∀ receipt, result ≠ .ok receipt) (unmarked : ∀ event ∈ trace, ¬ MarksIndexed event.1) :
    IndexedMeansIndexed self envelope embeddedChunks result trace where
  returned receipt same := (raised receipt same).elim
  marked earlier event later same marks := (unmarked event (by simp [same]) marks).elim

theorem storedAll_of_marked {envelope : ArrivalEnvelope} {embeddedChunks : List EmbeddedChunk}
    {trace earlier later : List (Event Effects)} {mark event : Event Effects}
    (stored : StoredAll envelope embeddedChunks trace) (unmarked : ∀ event ∈ trace, ¬ MarksIndexed event.1)
    (same : trace ++ [mark] = earlier ++ event :: later) (marks : MarksIndexed event.1) :
    StoredAll envelope embeddedChunks earlier := by
  rcases List.append_eq_append_iff.mp same with ⟨middle, rfl, tail⟩ | ⟨middle, rfl, tail⟩
  next =>
    cases middle with
    | nil => simpa using stored
    | cons => simp at tail
  next =>
    cases middle with
    | nil => simpa using stored
    | cons head rest =>
      obtain ⟨rfl, -⟩ := List.cons.inj tail
      exact (unmarked _ (by simp) marks).elim

section Whole

variable {V X : Type} {adapter : IndexerAdapter V X} {self : Indexer} (honest : Honest adapter)
  (positive : 1 ≤ self.maxBatchSize) (envelope : ArrivalEnvelope)
  {embeddedChunks : List EmbeddedChunk} (distinct : (embeddedChunks.map (·.chunk.chunkId)).Nodup)

include honest positive distinct

theorem wp_logged_writeRecords (admissible : Admissible self) {records : List IndexRecord}
    {configVersion : String} {indexedAt : DateTime}
    (built : embeddedChunks.mapM (buildRecord envelope.docId envelope configVersion indexedAt) = .ok records)
    {started : List (Event Effects)} (idle : ∀ event ∈ started, Quiet event.1) (s : System × X) :
    Prog.wp (Prog.logged (pipeline adapter)) (fun _ => True)
      (do
        let result ← self.runWithRecovery envelope.docId records
        transitionToIndexed envelope.docId result : Py IndexResult).run
      (fun result logs => IndexedMeansIndexed self envelope embeddedChunks result logs.2) (s, started) := by
  have uses : (self.runWithRecovery envelope.docId records).run.Uses (fun o => ¬ MarksIndexed o) := by
    apply self.runWithRecovery_uses
    all_goals simp [MarksIndexed, Py.errorRequest]
  rw [Prog.wp_run_bind]
  refine Prog.wp_mono (fun result logs ended => ?_) (Prog.wp_and
    (wp_logged_runWithRecovery honest admissible positive envelope.docId records s started)
    (Prog.wp_logged_of_uses uses s started))
  obtain ⟨stored, all, sameTrace, silent⟩ := ended
  have unmarked : ∀ event ∈ logs.2, ¬ MarksIndexed event.1 := by
    intro event member
    rw [sameTrace, List.mem_append] at member
    exact member.elim (fun inside => (idle event inside).2) (silent event)
  cases result with
  | error exc => exact indexedMeansIndexed_of_unmarked (by simp) unmarked
  | ok receipt =>
    obtain ⟨quiet, batches, events, traced, written⟩ := stored receipt rfl
    refine Prog.wp_mono (fun result logs' finished => ?_)
      (wp_logged_transitionToIndexed envelope.docId receipt logs.1 logs.2)
    obtain ⟨same, mark, marks, extended⟩ := finished
    constructor
    next =>
      intro value returned
      rw [same value returned, extended, traced]
      have full := fullyIndexed_of_written distinct built written idle marks
      simpa using full
    next =>
      intro earlier event later cut marksEvent
      rw [extended] at cut
      refine storedAll_of_marked ?_ unmarked cut marksEvent
      refine storedAll_of_upserted built written.covers written.upserted fun event member => ?_
      simp [traced, member]

theorem wp_logged_index (condition : Accepts self embeddedChunks → WellTyped embeddedChunks → Admissible self)
    (s : System × X) :
    Prog.wp (Prog.logged (pipeline adapter)) (fun _ => True) (self.index envelope embeddedChunks).run
      (fun result logs => IndexedMeansIndexed self envelope embeddedChunks result logs.2) (s, []) := by
  by_cases accepts : Accepts self embeddedChunks
  next =>
    rw [index_of_accepts self accepts, Prog.wp_run_bind]
    have building := Prog.wp_logged (h := pipeline adapter) [] (wp_buildRecords (I := fun _ => True) envelope.docId
      envelope embeddedChunks (s := s) trivial (Q := fun result _ => ∃ configVersion indexedAt,
        embeddedChunks.mapM (buildRecord envelope.docId envelope configVersion indexedAt) = result)
      fun indexedAt => ⟨_, indexedAt, rfl⟩)
    have reads : (buildRecords envelope.docId envelope embeddedChunks).run.Uses Quiet :=
      buildRecords_uses (by simp [Quiet, MarksIndexed]) (by simp [Quiet, MarksIndexed]) envelope embeddedChunks
    refine Prog.wp_mono (fun result logs ended => ?_)
      (Prog.wp_and building (Prog.wp_logged_of_uses reads s []))
    obtain ⟨⟨configVersion, indexedAt, built⟩, started, extended, idle⟩ := ended
    rw [List.nil_append] at extended
    subst extended
    cases result with
    | error exc => exact indexedMeansIndexed_of_unmarked (by simp) fun event member => (idle event member).2
    | ok records =>
      have admissible := condition accepts (wellTyped_of_built built)
      exact wp_logged_writeRecords honest positive envelope distinct admissible built idle logs.1
  next =>
    obtain ⟨code, _, reason, rejected⟩ := index_of_not_accepts self envelope accepts
    rw [rejected]
    have unmarked : (Py.terminalize .indexer envelope.docId code reason : Py IndexResult).run.Uses
        (fun o => ¬ MarksIndexed o) :=
      Py.terminalize_uses .indexer (by simp [MarksIndexed, Py.errorRequest])
    refine Prog.wp_mono (fun result logs ended => ?_) (Prog.wp_and
      (Py.terminalize_raises _ .indexer envelope.docId code reason (s, [])) (Prog.wp_logged_of_uses unmarked s []))
    obtain ⟨raised, events, same, silent⟩ := ended
    rw [List.nil_append] at same
    exact indexedMeansIndexed_of_unmarked raised (same ▸ silent)

end Whole

-- `range` over a negative step is empty: no batch is ever written, and the call goes on to mark the
-- document.

theorem batched_of_negative {α : Type} (items : List α) {size bound : Int} (negative : size < 0) :
    batched items (effectiveBatchSize (some size) bound) = .ok [] := by
  have below : effectiveBatchSize (some size) bound < 0 := by
    simp only [effectiveBatchSize]
    omega
  have nonzero : effectiveBatchSize (some size) bound ≠ 0 := by omega
  simp [batched, nonzero, below]

theorem wp_maybeDeleteStaleVersion_idle (self : Indexer) (docId newVersion : String) {s : System × Unit}
    {Q : Except Exc Int → System × Unit → Prop} (after : Q (.ok 0) s) :
    Prog.wp (pipeline idleIndex) (fun _ => True) (self.maybeDeleteStaleVersion docId newVersion).run Q s := by
  simp only [maybeDeleteStaleVersion]
  split
  next => exact after
  next =>
    rw [Prog.wp_run_bind, wp_getDocVersion]
    exact fun w => ⟨trivial, after⟩

theorem wp_index_of_negative {self : Indexer} {size : Int} (configured : self.config.batchSize = some size)
    (negative : size < 0) (envelope : ArrivalEnvelope) {embeddedChunks : List EmbeddedChunk}
    (accepts : Accepts self embeddedChunks) (typed : WellTyped embeddedChunks) {before : LedgerRow}
    {s : System × Unit} (present : s.1.ledger.get envelope.docId = some before)
    (status : before.status = .indexing) :
    Prog.wp (pipeline idleIndex) (fun _ => True) (self.index envelope embeddedChunks).run
      (fun result _ => ∃ receipt, result = .ok receipt ∧ receipt.chunksUpserted = 0) s := by
  rw [index_of_accepts self accepts, Prog.wp_run_bind]
  refine wp_buildRecords envelope.docId envelope embeddedChunks trivial fun indexedAt => ?_
  obtain ⟨records, built⟩ := exists_buildRecords typed envelope.docId envelope
    (configVersionOf (s.1.ledger.get envelope.docId)) indexedAt
  rw [built]
  cases records with
  | nil =>
    have none := congrArg List.length (chunkIds_of_built built)
    simp only [List.length_map, List.length_nil] at none
    exact (accepts.nonempty (List.length_eq_zero_iff.mp none.symm)).elim
  | cons first rest =>
    simp only [runWithRecovery, upsertAll, Prog.wp_run_bind, Prog.wp_run_tryCatch, transitionToIndexed]
    refine wp_maybeDeleteStaleVersion_idle self envelope.docId first.docVersion ?_
    simp only [wp_ofExcept, configured, batched_of_negative _ negative, List.foldlM_nil, Prog.wp_run_pure]
    have edge : .indexed ∈ legalTransitions before.status := by
      rw [status]
      decide
    exact wp_transitionTriaged _ present rfl (.inl edge) (by simp) fun _ _ _ _ => ⟨trivial, _, rfl, rfl⟩

theorem not_indexedMeansIndexed_of_negative {self : Indexer} {size : Int}
    (configured : self.config.batchSize = some size) (negative : size < 0) (envelope : ArrivalEnvelope)
    {embeddedChunks : List EmbeddedChunk} (accepts : Accepts self embeddedChunks)
    (typed : WellTyped embeddedChunks) {before : LedgerRow} {s : System × Unit}
    (present : s.1.ledger.get envelope.docId = some before) (status : before.status = .indexing)
    (oracle : Nat → World × Unit) :
    ¬ IndexedMeansIndexed self envelope embeddedChunks
      (Prog.run (Prog.logged (pipeline idleIndex)) (self.index envelope embeddedChunks).run oracle (s, [])).1
      (Prog.run (Prog.logged (pipeline idleIndex)) (self.index envelope embeddedChunks).run oracle (s, [])).2.2 := by
  intro means
  have returns := Prog.wp_logged [] (wp_index_of_negative configured negative envelope accepts typed present status)
  obtain ⟨receipt, returned, nothing⟩ := Prog.run_of_wp returns oracle
  have counted := (means.returned receipt returned).counted
  have some : 0 < embeddedChunks.length := List.length_pos_iff.mpr accepts.nonempty
  omega

theorem idleIndex_honest : Honest idleIndex := by
  intro v batch index outcome answered
  obtain rfl := Except.ok.inj answered
  simp [Partitions, failedIds]

theorem indexed_means_indexed (self : Indexer) (positive : 1 ≤ self.maxBatchSize) (envelope : ArrivalEnvelope)
    (embeddedChunks : List EmbeddedChunk) (distinct : (embeddedChunks.map (·.chunk.chunkId)).Nodup) :
    (∀ (V X : Type) (adapter : IndexerAdapter V X), Honest adapter → ∀ s oracle,
      IndexedMeansIndexed self envelope embeddedChunks
        (Prog.run (Prog.logged (pipeline adapter)) (self.index envelope embeddedChunks).run oracle (s, [])).1
        (Prog.run (Prog.logged (pipeline adapter)) (self.index envelope embeddedChunks).run oracle (s, [])).2.2) ↔
    (Accepts self embeddedChunks → WellTyped embeddedChunks → Admissible self) := by
  constructor
  next =>
    intro means accepts typed size configured
    by_contra negative
    obtain ⟨row, present, status⟩ := StageCall.indexingSystem_status envelope.docIdFormat
    exact not_indexedMeansIndexed_of_negative configured (by omega) envelope accepts typed present status
      (fun _ => ({}, ())) (means Unit Unit idleIndex idleIndex_honest _ _)
  next =>
    intro condition V X adapter honest s oracle
    exact Prog.run_of_wp (wp_logged_index honest positive envelope distinct condition s) oracle

def sampleIndexer (batchSize : Option Int) : Indexer := ⟨{ dimensions := 1, batchSize }, "memory", 100⟩

def sampleRun (batchSize : Option Int) :
    Except Exc IndexResult × (System × Unit) × List (Event Effects) :=
  Prog.run (Prog.logged (pipeline idleIndex))
    ((sampleIndexer batchSize).index StageCall.sampleEnvelope [StageCall.sampleChunk "c"]).run
    (fun _ => ({}, ())) (StageCall.sampleSystem, [])

theorem indexed_means_indexed_whole_batches :
    IndexedMeansIndexed (sampleIndexer none) StageCall.sampleEnvelope [StageCall.sampleChunk "c"]
      (sampleRun none).1 (sampleRun none).2.2 := by
  have holds := indexed_means_indexed (sampleIndexer none) (by decide) StageCall.sampleEnvelope
    [StageCall.sampleChunk "c"] (by simp)
  unfold sampleRun
  exact holds.mpr (by simp [Admissible, sampleIndexer]) Unit Unit idleIndex idleIndex_honest _ _

theorem sampleChunk_accepted (batchSize : Option Int) :
    Accepts (sampleIndexer batchSize) [StageCall.sampleChunk "c"] :=
  ⟨by simp, by decide, by simp [sampleIndexer, StageCall.sampleChunk]⟩

theorem negative_batch_size_indexes_nothing :
    ¬ IndexedMeansIndexed (sampleIndexer (some (-1))) StageCall.sampleEnvelope [StageCall.sampleChunk "c"]
      (sampleRun (some (-1))).1 (sampleRun (some (-1))).2.2 := by
  obtain ⟨row, present, status⟩ := StageCall.indexingSystem_status StageCall.sampleEnvelope.docIdFormat
  unfold sampleRun
  exact not_indexedMeansIndexed_of_negative rfl (by decide) StageCall.sampleEnvelope (sampleChunk_accepted _)
    (StageCall.sampleChunk_wellTyped "c") present status _

end Indexer

end Vestibule
