import Vestibule.Library.KeyedStore
import Vestibule.Pipeline.Outcome

set_option autoImplicit false

namespace Vestibule

open Library

-- The adapter is any store of records by `chunk_id` that keeps the adapter contract, however often its
-- calls fail. The rest of the system is left open: whatever the ledger and the clock answer.

namespace Indexer

def Owned (owner : String → String) (batch : List IndexRecord) : Prop :=
  ∀ record ∈ batch, record.docId = owner record.chunkId

abbrev stored (records : String → Option IndexRecord) (batch : List IndexRecord) : String → Option IndexRecord :=
  KeyedStore.overwrite IndexRecord.chunkId records batch

/-- The adapter contract. A call may raise at any time: a failing delete has removed any part of the
document's records, a failing upsert has stored any part of its batch. `owner` is the document a
`chunk_id` belongs to. -/
structure Contract {V X : Type} (adapter : IndexerAdapter V X) (owner : String → String) where
  Valid : X → Prop
  records : X → String → Option IndexRecord
  owned {index : X} (valid : Valid index) {chunkId : String} {record : IndexRecord}
    (held : records index chunkId = some record) : record.docId = owner chunkId
  versionValid (v : V) (docId : String) {index : X} (valid : Valid index) :
    Valid (adapter.getDocVersion v docId index).2
  versionKeeps (v : V) (docId : String) {index : X} (valid : Valid index) :
    records (adapter.getDocVersion v docId index).2 = records index
  versionFound {v : V} {docId : String} {index : X} (valid : Valid index) {version : String}
    (answer : (adapter.getDocVersion v docId index).1 = .ok (some version)) :
    ∃ chunkId record, records index chunkId = some record ∧ owner chunkId = docId ∧ record.docVersion = version
  versionNone {v : V} {docId : String} {index : X} (valid : Valid index)
    (answer : (adapter.getDocVersion v docId index).1 = .ok none) {chunkId : String} (own : owner chunkId = docId) :
    records index chunkId = none
  deleteValid (v : V) (docId : String) {index : X} (valid : Valid index) :
    Valid (adapter.deleteByDocId v docId index).2
  deleteTouches (v : V) (docId : String) {index : X} (valid : Valid index) (chunkId : String) :
    records (adapter.deleteByDocId v docId index).2 chunkId = records index chunkId ∨
      records (adapter.deleteByDocId v docId index).2 chunkId = none ∧ owner chunkId = docId
  deleteClears {v : V} {docId : String} {index : X} (valid : Valid index) {count : Int}
    (answer : (adapter.deleteByDocId v docId index).1 = .ok count) {chunkId : String} (own : owner chunkId = docId) :
    records (adapter.deleteByDocId v docId index).2 chunkId = none
  upsertValid (v : V) {batch : List IndexRecord} {index : X} (valid : Valid index) (own : Owned owner batch) :
    Valid (adapter.upsert v batch index).2
  upsertTouches (v : V) {batch : List IndexRecord} {index : X} (valid : Valid index) (own : Owned owner batch)
    (chunkId : String) :
    records (adapter.upsert v batch index).2 chunkId = records index chunkId ∨
      ∃ record ∈ batch, record.chunkId = chunkId ∧ records (adapter.upsert v batch index).2 chunkId = some record
  upsertStores {v : V} {batch : List IndexRecord} {index : X} (valid : Valid index) (own : Owned owner batch)
    {outcome : UpsertOutcome} (answer : (adapter.upsert v batch index).1 = .ok outcome) {chunkId : String}
    (accepted : chunkId ∉ failedIds outcome) :
    records (adapter.upsert v batch index).2 chunkId = stored (records index) batch chunkId

section View

variable {V X A α : Type}

def IsIndexOp : Op → Prop
  | .getDocVersion _ => True
  | .deleteByDocId _ => True
  | .upsert _ => True
  | _ => False

def storeView (answer : A → (o : Op) → o.Res) (adapter : IndexerAdapter V X) : Handler Effects (A × V) X :=
  fun w o index => match o with
  | .getDocVersion docId => adapter.getDocVersion w.2 docId index
  | .deleteByDocId docId => adapter.deleteByDocId w.2 docId index
  | .upsert records => adapter.upsert w.2 records index
  | other => (answer w.1 other, index)

variable {answer : A → (o : Op) → o.Res} {adapter : IndexerAdapter V X}

theorem storeView_of_not_indexOp {o : Op} (idle : ¬ IsIndexOp o) (w : A × V) (index : X) :
    storeView answer adapter w o index = (answer w.1 o, index) := by
  cases o <;> first | rfl | exact (idle trivial).elim

theorem pipeline_of_not_indexOp {o : Op} (idle : ¬ IsIndexOp o) (w : World × V) (s : System × X) :
    (pipeline adapter w o s).2.2 = s.2 := by
  cases o <;> first | rfl | exact (idle trivial).elim

theorem pipeline_of_indexOp {o : Op} (acts : IsIndexOp o) (w : World × V) (a : A) (s : System × X) :
    (storeView answer adapter (a, w.2) o s.2).1 = (pipeline adapter w o s).1 ∧
      (pipeline adapter w o s).2 = (s.1, (storeView answer adapter (a, w.2) o s.2).2) := by
  cases o <;> first | exact ⟨rfl, rfl⟩ | exact acts.elim

-- What holds of a program whatever the rest of the system answers holds of it in the pipeline.
theorem wp_of_storeView {K : System × X → Prop} (kept : ∀ w o s, K s → K (pipeline adapter w o s).2)
    (answered : ∀ w o s, K s → ∃ a, ¬ IsIndexOp o → answer a o = (pipeline adapter w o s).1)
    {I : X → Prop} {Q : α → X → Prop} {p : Prog Effects α} {s : System × X} (initial : K s)
    (holds : Prog.wp (storeView answer adapter) I p Q s.2) :
    Prog.wp (pipeline adapter) (fun s => K s ∧ I s.2) p (fun value s => K s ∧ Q value s.2) s := by
  let R : System × X → X → Prop := fun s index => K s ∧ s.2 = index
  have matched (o : Op) (_ : True) (w : World × V) (s : System × X) (index : X) (related : R s index) :
      ∃ v, (storeView answer adapter v o index).1 = (pipeline adapter w o s).1 ∧
        R (pipeline adapter w o s).2 (storeView answer adapter v o index).2 := by
    obtain ⟨held, rfl⟩ := related
    obtain ⟨a, agrees⟩ := answered w o s held
    refine ⟨(a, w.2), ?_⟩
    by_cases acts : IsIndexOp o
    next =>
      have step : (storeView answer adapter (a, w.2) o s.2).1 = (pipeline adapter w o s).1 ∧
          (pipeline adapter w o s).2 = (s.1, (storeView answer adapter (a, w.2) o s.2).2) :=
        pipeline_of_indexOp acts w a s
      exact ⟨step.1, kept w o s held, by rw [step.2]⟩
    next =>
      rw [storeView_of_not_indexOp acts]
      exact ⟨agrees acts, kept w o s held, pipeline_of_not_indexOp acts w s⟩
  refine Prog.wp_consequence ?_ ?_ (Prog.wp_simulate matched (Prog.uses_trivial p) ⟨initial, rfl⟩ holds)
  next =>
    intro s found
    obtain ⟨index, ⟨held, rfl⟩, invariant⟩ := found
    exact ⟨held, invariant⟩
  next =>
    intro value s found
    obtain ⟨index, ⟨held, rfl⟩, post⟩ := found
    exact ⟨held, post⟩

variable {I : X → Prop} {index : X}

theorem wp_storeView_getDocVersion (docId : String) (Q : Except Exc (Option String) → X → Prop) :
    Prog.wp (storeView answer adapter) I (Py.getDocVersion docId).run Q index ↔
      ∀ w : A × V, I (adapter.getDocVersion w.2 docId index).2 ∧
        Q (adapter.getDocVersion w.2 docId index).1 (adapter.getDocVersion w.2 docId index).2 := Iff.rfl

theorem wp_storeView_deleteByDocId (docId : String) (Q : Except Exc Int → X → Prop) :
    Prog.wp (storeView answer adapter) I (Py.deleteByDocId docId).run Q index ↔
      ∀ w : A × V, I (adapter.deleteByDocId w.2 docId index).2 ∧
        Q (adapter.deleteByDocId w.2 docId index).1 (adapter.deleteByDocId w.2 docId index).2 := Iff.rfl

theorem wp_storeView_upsert (batch : List IndexRecord) (Q : Except Exc UpsertOutcome → X → Prop) :
    Prog.wp (storeView answer adapter) I (Py.upsert batch).run Q index ↔
      ∀ w : A × V, I (adapter.upsert w.2 batch index).2 ∧
        Q (adapter.upsert w.2 batch index).1 (adapter.upsert w.2 batch index).2 := Iff.rfl

theorem wp_idle {p : Prog Effects α} (uses : p.Uses (fun o => ¬ IsIndexOp o)) (initial : I index) :
    Prog.wp (storeView answer adapter) I p (fun _ after => I after ∧ after = index) index := by
  have unchanged : Prog.wp (storeView answer adapter) (fun after => I after ∧ after = index) p
      (fun _ after => I after ∧ after = index) index := by
    refine Prog.wp_of_uses uses (fun o idle w after kept => ?_) ⟨initial, rfl⟩
    rw [storeView_of_not_indexOp idle]
    exact kept
  exact Prog.wp_consequence (fun _ kept => kept.1) (fun _ _ kept => kept) unchanged

def Ends (I Done : X → Prop) {β : Type} (result : Except Exc β) (after : X) : Prop :=
  I after ∧ ∀ value, result = .ok value → Done after

theorem ends_error {Done : X → Prop} {β : Type} {exc : Exc} (held : I index) :
    Ends I Done (.error exc : Except Exc β) index := by
  refine ⟨held, fun value same => ?_⟩
  cases same

theorem wp_ends_of_raises {Done : X → Prop} {β : Type} {p : Py β} (uses : p.run.Uses (fun o => ¬ IsIndexOp o))
    (raises : Prog.wp (storeView answer adapter) (fun _ => True) p.run
      (fun result _ => ∀ value, result ≠ .ok value) index)
    (initial : I index) : Prog.wp (storeView answer adapter) I p.run (Ends I Done) index := by
  refine Prog.wp_mono (fun result after ended => ?_) (Prog.wp_and (wp_idle uses initial) raises)
  exact ⟨ended.1.1, fun value same => (ended.2 value same).elim⟩

theorem wp_storeView_buildRecords (docId : String) (envelope : ArrivalEnvelope) (embeddedChunks : List EmbeddedChunk)
    {Q : Except Exc (List IndexRecord) → X → Prop} (initial : I index)
    (after : ∀ a indexedAt, Q (embeddedChunks.mapM
      (buildRecord docId envelope (configVersionOf (answer a (.ledgerGet docId))) indexedAt)) index) :
    Prog.wp (storeView answer adapter) I (buildRecords docId envelope embeddedChunks).run Q index := by
  intro w
  refine ⟨initial, fun w' => ⟨initial, ?_⟩⟩
  exact after w.1 (answer w'.1 .now)

theorem wp_storeView_recovery {Done : X → Prop} (self : Indexer) (docId : String) (records : List IndexRecord)
    (work : Prog.wp (storeView answer adapter) I (self.upsertAll docId records).run (Ends I Done) index) :
    Prog.wp (storeView answer adapter) I (self.runWithRecovery docId records).run (Ends I Done) index := by
  simp only [runWithRecovery, Prog.wp_run_tryCatch]
  refine Prog.wp_mono (fun result after ended => ?_) work
  have again (code reason : String) : Prog.wp (storeView answer adapter) I
      (selfTransitionAndRaise docId code reason : Py IndexResult).run (Ends I Done) after :=
    wp_ends_of_raises (Prog.uses_run_bind (Py.transitionTriaged_uses (by simp [IsIndexOp])) fun _ => trivial)
      (selfTransitionAndRaise_raises _ docId code reason after) ended.1
  cases result with
  | ok receipt => exact ended
  | error exc =>
    simp only
    split
    · split
      · exact wp_ends_of_raises (Py.terminalize_uses .indexer (by simp [IsIndexOp]))
          (Py.terminalize_raises _ .indexer docId _ _ after) ended.1
      · split <;> exact again _ _
    · exact again _ _

theorem wp_storeView_index {Done : X → Prop} (self : Indexer) (envelope : ArrivalEnvelope)
    (embeddedChunks : List EmbeddedChunk) (initial : I index)
    (work : Accepts self embeddedChunks → ∀ a indexedAt records,
      embeddedChunks.mapM (buildRecord envelope.docId envelope
        (configVersionOf (answer a (.ledgerGet envelope.docId))) indexedAt) = .ok records →
      Prog.wp (storeView answer adapter) I (self.upsertAll envelope.docId records).run (Ends I Done) index) :
    Prog.wp (storeView answer adapter) I (self.index envelope embeddedChunks).run (Ends I Done) index := by
  by_cases accepts : Accepts self embeddedChunks
  next =>
    simp only [index_of_accepts self accepts, Prog.wp_run_bind, transitionToIndexed]
    refine wp_storeView_buildRecords envelope.docId envelope embeddedChunks initial fun a indexedAt => ?_
    cases built : embeddedChunks.mapM (buildRecord envelope.docId envelope
        (configVersionOf (answer a (.ledgerGet envelope.docId))) indexedAt) with
    | error exc => exact ends_error initial
    | ok records =>
      refine Prog.wp_mono (fun result after ended => ?_)
        (wp_storeView_recovery self envelope.docId records (work accepts a indexedAt records built))
      cases result with
      | error exc => exact ends_error ended.1
      | ok receipt =>
        have marks : (Py.transitionTriaged
            { docId := envelope.docId, toStatus := .indexed, stage := .indexed }).run.Uses
              (fun o => ¬ IsIndexOp o) :=
          Py.transitionTriaged_uses (by simp [IsIndexOp])
        refine Prog.wp_mono (fun result last unchanged => ?_) (wp_idle marks ended.1)
        obtain ⟨kept, rfl⟩ := unchanged
        cases result with
        | error exc => exact ends_error kept
        | ok _ => exact ⟨kept, fun value same => ended.2 receipt rfl⟩
  next =>
    obtain ⟨code, _, reason, rejected⟩ := index_of_not_accepts self envelope accepts
    rw [rejected]
    exact wp_ends_of_raises (Py.terminalize_uses .indexer (by simp [IsIndexOp]))
      (Py.terminalize_raises _ .indexer envelope.docId code reason index) initial

end View

def OneVersion (owner : String → String) (docId : String) (records : String → Option IndexRecord) : Prop :=
  ∀ first second record other, records first = some record → records second = some other →
    owner first = docId → owner second = docId → record.docVersion = other.docVersion

def SharesVersion (docId : String) (records : String → Option IndexRecord) : Prop :=
  ∀ first second record other, records first = some record → records second = some other →
    record.docId = docId → other.docId = docId → record.docVersion = other.docVersion

def Stale (indexer : Indexer) (owner : String → String) (docId version : String)
    (records : String → Option IndexRecord) : Prop :=
  indexer.config.deleteBeforeUpsertOnVersionChange = true ∧
    ∃ chunkId record, records chunkId = some record ∧ owner chunkId = docId ∧ record.docVersion ≠ version

open scoped Classical in
noncomputable def purged (indexer : Indexer) (owner : String → String) (docId version : String)
    (records : String → Option IndexRecord) : String → Option IndexRecord :=
  fun chunkId =>
    if Stale indexer owner docId version records ∧ owner chunkId = docId then none else records chunkId

theorem purged_of_fresh {self : Indexer} {owner : String → String} {docId version : String}
    {records : String → Option IndexRecord} (fresh : ¬ Stale self owner docId version records) :
    purged self owner docId version records = records := by
  funext chunkId
  simp [purged, fresh]

section Phases

variable {V X A : Type} {answer : A → (o : Op) → o.Res} {adapter : IndexerAdapter V X} {owner : String → String}
  (contract : Contract adapter owner) {I : X → Prop} {index : X}

theorem stored_of_retry {batch : List IndexRecord} (own : Owned owner batch) {v w : V}
    {outcome retryOutcome : UpsertOutcome} (valid : contract.Valid index)
    (first : (adapter.upsert v batch index).1 = .ok outcome)
    (second : (adapter.upsert w (batch.filter (fun record => record.chunkId ∈ failedIds outcome))
      (adapter.upsert v batch index).2).1 = .ok retryOutcome)
    (clean : retryOutcome.failed = []) :
    contract.records (adapter.upsert w (batch.filter (fun record => record.chunkId ∈ failedIds outcome))
      (adapter.upsert v batch index).2).2 = stored (contract.records index) batch := by
  have between := contract.upsertValid v valid own
  have ownRetry : Owned owner (batch.filter (fun record => record.chunkId ∈ failedIds outcome)) :=
    fun record member => own record (List.mem_filter.mp member).1
  funext chunkId
  by_cases failed : chunkId ∈ failedIds outcome
  next =>
    rw [contract.upsertStores between ownRetry second (by simp [failedIds, clean])]
    have same : KeyedStore.last IndexRecord.chunkId
        (batch.filter (fun record => record.chunkId ∈ failedIds outcome)) chunkId =
          KeyedStore.last IndexRecord.chunkId batch chunkId :=
      KeyedStore.last_filter IndexRecord.chunkId (fun id => id ∈ failedIds outcome) (by simpa using failed)
    simp only [KeyedStore.overwrite, same]
    cases missing : KeyedStore.last IndexRecord.chunkId batch chunkId with
    | some record => rfl
    | none =>
      simp only [Option.none_or]
      rcases contract.upsertTouches v valid own chunkId with unchanged | ⟨record, member, other, _⟩
      next => exact unchanged
      next => exact ((KeyedStore.last_eq_none _).mp missing record member other).elim
  next =>
    rw [← contract.upsertStores valid own first failed]
    rcases contract.upsertTouches w between ownRetry chunkId with unchanged | ⟨record, member, rfl, _⟩
    next => exact unchanged
    next => exact (failed (by simpa using (List.mem_filter.mp member).2)).elim

theorem sharesVersion_iff {docId : String} (held : contract.Valid index) :
    SharesVersion docId (contract.records index) ↔ OneVersion owner docId (contract.records index) := by
  constructor
  next =>
    intro shares first second record other present also own ownOther
    exact shares first second record other present also (by rw [contract.owned held present, own])
      (by rw [contract.owned held also, ownOther])
  next =>
    intro single first second record other present also mine same
    exact single first second record other present also (by rw [← contract.owned held present, mine])
      (by rw [← contract.owned held also, same])

theorem fewer_of_delete {docId : String} (held : contract.Valid index) (v : V) {chunkId : String}
    {record : IndexRecord} (stays : contract.records (adapter.deleteByDocId v docId index).2 chunkId = some record) :
    contract.records index chunkId = some record := by
  rcases contract.deleteTouches v docId held chunkId with same | ⟨gone, _⟩
  next => rw [← same, stays]
  next => simp [gone] at stays

theorem purged_of_delete {self : Indexer} {docId version : String} (held : contract.Valid index)
    (stale : Stale self owner docId version (contract.records index)) {v : V} {count : Int}
    (cleared : (adapter.deleteByDocId v docId index).1 = .ok count) :
    contract.records (adapter.deleteByDocId v docId index).2 =
      purged self owner docId version (contract.records index) := by
  funext chunkId
  by_cases own : owner chunkId = docId
  next =>
    rw [contract.deleteClears held cleared own]
    simp [purged, stale, own]
  next =>
    rcases contract.deleteTouches v docId held chunkId with kept | ⟨_, gone⟩
    next => simp [kept, purged, own]
    next => exact (own gone).elim

-- A check that finds nothing, or the call's own version, has found all there is.
theorem current_of_check {docId version : String} {v : V} (held : contract.Valid index)
    (single : OneVersion owner docId (contract.records index)) {found : Option String}
    (answered : (adapter.getDocVersion v docId index).1 = .ok found)
    (current : ∀ existing, found = some existing → existing = version) {chunkId : String} {record : IndexRecord}
    (present : contract.records index chunkId = some record) (own : owner chunkId = docId) :
    record.docVersion = version := by
  cases found with
  | none => simp [contract.versionNone held answered own] at present
  | some existing =>
    obtain ⟨sample, seen, heldSample, ownSample, isExisting⟩ := contract.versionFound held answered
    rw [← single sample chunkId seen record heldSample present ownSample own, isExisting]
    exact current existing rfl

variable (valid : ∀ {index}, I index → contract.Valid index)

include valid

theorem wp_upsertBatch {batch : List IndexRecord} (own : Owned owner batch)
    (keeps : ∀ v given index, given ⊆ batch → I index → I (adapter.upsert v given index).2) (initial : I index) :
    Prog.wp (storeView answer adapter) I (upsertBatchWithRetry batch).run
      (Ends I (fun after => contract.records after = stored (contract.records index) batch)) index := by
  simp only [upsertBatchWithRetry, Prog.wp_run_bind, wp_storeView_upsert]
  intro w
  have first : I (adapter.upsert w.2 batch index).2 := keeps w.2 batch index (fun _ member => member) initial
  refine ⟨first, ?_⟩
  cases answered : (adapter.upsert w.2 batch index).1 with
  | error exc => exact ends_error first
  | ok outcome =>
    by_cases clean : outcome.failed = []
    next =>
      simp only [clean, List.isEmpty_nil, if_true]
      refine ⟨first, fun value _ => funext fun chunkId => ?_⟩
      exact contract.upsertStores (valid initial) own answered (by simp [failedIds, clean])
    next =>
      have failing : outcome.failed.isEmpty = false := by simpa using clean
      simp only [failing, Bool.false_eq_true, if_false, Prog.wp_run_bind, wp_storeView_upsert]
      intro w'
      have second := keeps w'.2 (batch.filter (fun record => record.chunkId ∈ failedIds outcome)) _
        (fun record member => (List.mem_filter.mp member).1) first
      refine ⟨second, ?_⟩
      cases retried : (adapter.upsert w'.2 (batch.filter (fun record => record.chunkId ∈ failedIds outcome))
          (adapter.upsert w.2 batch index).2).1 with
      | error exc => exact ends_error second
      | ok retryOutcome =>
        by_cases retryClean : retryOutcome.failed = []
        next =>
          simp only [retryClean, List.isEmpty_nil, not_true_eq_false, if_false]
          exact ⟨second, fun value _ => stored_of_retry contract own (valid initial) answered retried retryClean⟩
        next =>
          have stillFailing : retryOutcome.failed.isEmpty = false := by simpa using retryClean
          simp only [stillFailing, Bool.false_eq_true, not_false_eq_true, if_true]
          exact ends_error second

theorem wp_upsertBatches (batches : List (List IndexRecord)) (own : Owned owner batches.flatten)
    (keeps : ∀ v given index, given ⊆ batches.flatten → I index → I (adapter.upsert v given index).2)
    (upserted : Int) (initial : I index) :
    Prog.wp (storeView answer adapter) I
      (batches.foldlM (fun upserted batch => do
        return upserted + (← upsertBatchWithRetry batch)) upserted : Py Int).run
      (Ends I (fun after => contract.records after = stored (contract.records index) batches.flatten)) index := by
  induction batches generalizing upserted index with
  | nil => exact ⟨initial, fun value _ => rfl⟩
  | cons batch rest ih =>
    have head : batch ⊆ (batch :: rest).flatten := by simp
    have tail : rest.flatten ⊆ (batch :: rest).flatten := by simp
    simp only [List.foldlM_cons, Prog.wp_run_bind, Prog.wp_run_pure]
    refine Prog.wp_mono (fun result after ended => ?_)
      (wp_upsertBatch contract valid (fun record member => own record (head member))
        (fun v given index inside => keeps v given index (List.Subset.trans inside head)) initial)
    cases result with
    | error exc => exact ends_error ended.1
    | ok count =>
      refine Prog.wp_mono (fun result last finished => ⟨finished.1, fun value same => ?_⟩)
        (ih (fun record member => own record (tail member))
          (fun v given index inside => keeps v given index (List.Subset.trans inside tail)) (upserted + count) ended.1)
      have later := finished.2 value same
      rw [ended.2 count rfl] at later
      exact later.trans (KeyedStore.overwrite_overwrite ..)

-- After a delete that went through, or that there was no need for, nothing stale is left.
theorem wp_maybeDelete (self : Indexer) {docId version : String}
    (single : self.config.deleteBeforeUpsertOnVersionChange = true → OneVersion owner docId (contract.records index))
    (keepsVersion : ∀ v index, I index → I (adapter.getDocVersion v docId index).2)
    (keepsDelete : ∀ v index, I index → Stale self owner docId version (contract.records index) →
      I (adapter.deleteByDocId v docId index).2)
    (initial : I index) :
    Prog.wp (storeView answer adapter) I (self.maybeDeleteStaleVersion docId version).run
      (Ends I (fun after => contract.records after = purged self owner docId version (contract.records index)))
      index := by
  simp only [maybeDeleteStaleVersion]
  split
  next off =>
    have fresh : ¬ Stale self owner docId version (contract.records index) := fun stale => off stale.1
    exact ⟨initial, fun value _ => (purged_of_fresh fresh).symm⟩
  next on =>
    have enabled : self.config.deleteBeforeUpsertOnVersionChange = true := by simpa using on
    simp only [Prog.wp_run_bind, wp_storeView_getDocVersion]
    intro w
    have looked := keepsVersion w.2 index initial
    have unchanged := contract.versionKeeps w.2 docId (valid initial)
    refine ⟨looked, ?_⟩
    have settled (value : Int) (fresh : ¬ Stale self owner docId version (contract.records index)) :
        Ends I (fun after => contract.records after = purged self owner docId version (contract.records index))
          (.ok value : Except Exc Int) (adapter.getDocVersion w.2 docId index).2 :=
      ⟨looked, fun _ _ => unchanged.trans (purged_of_fresh fresh).symm⟩
    cases answered : (adapter.getDocVersion w.2 docId index).1 with
    | error exc => exact ends_error looked
    | ok found =>
      have fresh (current : ∀ existing, found = some existing → existing = version) :
          ¬ Stale self owner docId version (contract.records index) := by
        intro stale
        obtain ⟨chunkId, record, held, own, other⟩ := stale.2
        exact other (current_of_check contract (valid initial) (single enabled) answered current held own)
      cases found with
      | none => exact settled 0 (fresh (by simp))
      | some existing =>
        by_cases same : existing = version
        next =>
          simp only [same, ne_eq, not_true_eq_false, if_false]
          exact settled 0 (fresh fun other found => by cases found; exact same)
        next =>
          obtain ⟨sample, seen, heldSample, ownSample, isExisting⟩ := contract.versionFound (valid initial) answered
          have stale : Stale self owner docId version (contract.records index) :=
            ⟨enabled, sample, seen, heldSample, ownSample, by rw [isExisting]; exact same⟩
          simp only [ne_eq, same, not_false_eq_true, if_true, wp_storeView_deleteByDocId]
          intro w'
          have deleted := keepsDelete w'.2 _ looked (by rw [unchanged]; exact stale)
          refine ⟨deleted, deleted, fun value cleared => ?_⟩
          have emptied := purged_of_delete contract (valid looked) (by rw [unchanged]; exact stale) cleared
          rw [unchanged] at emptied
          exact emptied

theorem wp_upsertAll {J : X → Prop} (self : Indexer) {docId version : String} {records : List IndexRecord}
    (own : Owned owner records) (sameVersion : ∀ record ∈ records, record.docVersion = version)
    (single : self.config.deleteBeforeUpsertOnVersionChange = true → OneVersion owner docId (contract.records index))
    (keepsVersion : ∀ v index, I index → I (adapter.getDocVersion v docId index).2)
    (keepsDelete : ∀ v index, I index → Stale self owner docId version (contract.records index) →
      I (adapter.deleteByDocId v docId index).2)
    (within : ∀ {after}, J after → I after)
    (enter : ∀ after, I after →
      contract.records after = purged self owner docId version (contract.records index) → J after)
    (keepsUpsert : 0 < effectiveBatchSize self.config.batchSize self.maxBatchSize →
      ∀ v given index, given ⊆ records → J index → J (adapter.upsert v given index).2)
    (initial : I index) :
    Prog.wp (storeView answer adapter) I (self.upsertAll docId records).run
      (Ends I (fun after => ∃ batches,
        batched records (effectiveBatchSize self.config.batchSize self.maxBatchSize) = .ok batches ∧
          contract.records after = stored (purged self owner docId version (contract.records index)) batches.flatten))
      index := by
  cases records with
  | nil => exact ends_error initial
  | cons first rest =>
    simp only [upsertAll, Prog.wp_run_bind, sameVersion first (by simp)]
    refine Prog.wp_mono (fun result after ended => ?_)
      (wp_maybeDelete contract valid self single keepsVersion keepsDelete initial)
    cases result with
    | error exc => exact ends_error ended.1
    | ok deleted =>
      have ready := enter after ended.1 (ended.2 deleted rfl)
      simp only [wp_ofExcept]
      cases split : batched (first :: rest) (effectiveBatchSize self.config.batchSize self.maxBatchSize) with
      | error exc => exact ends_error ended.1
      | ok batches =>
        rcases batched_cases split with ⟨positive, whole⟩ | ⟨_, rfl⟩
        next =>
          have writes : Prog.wp (storeView answer adapter) J _ _ after :=
            wp_upsertBatches contract (fun held => valid (within held)) batches (by rw [whole]; exact own)
              (by rw [whole]; exact keepsUpsert positive) 0 ready
          refine Prog.wp_consequence (fun _ held => within held) (fun result last finished => ?_) writes
          cases result with
          | error exc => exact ends_error (within finished.1)
          | ok total =>
            have written := finished.2 total rfl
            rw [ended.2 deleted rfl] at written
            exact ⟨within finished.1, fun value _ => ⟨batches, rfl, written⟩⟩
        next =>
          -- No batch at all: the fold is over at once.
          exact ⟨ended.1, fun value _ => ⟨[], rfl, ended.2 deleted rfl⟩⟩

end Phases

def ChunksOf (owner : String → String) (docId : String) (embeddedChunks : List EmbeddedChunk) : Prop :=
  ∀ ec ∈ embeddedChunks, owner ec.chunk.chunkId = docId

section Call

variable {V X A : Type} {answer : A → (o : Op) → o.Res} {adapter : IndexerAdapter V X} {owner : String → String}
  (contract : Contract adapter owner)

def Rewrites (indexer : Indexer) (envelope : ArrivalEnvelope) (embeddedChunks : List EmbeddedChunk)
    (configVersion : String) (before after : X) : Prop :=
  ∃ indexedAt built batches,
    embeddedChunks.mapM (buildRecord envelope.docId envelope configVersion indexedAt) = .ok built ∧
    batched built (effectiveBatchSize indexer.config.batchSize indexer.maxBatchSize) = .ok batches ∧
    contract.records after =
      stored (purged indexer owner envelope.docId envelope.contentHash (contract.records before)) batches.flatten

theorem recordOf_of_built {envelope : ArrivalEnvelope} {embeddedChunks : List EmbeddedChunk}
    {configVersion : String} {indexedAt : DateTime} {built : List IndexRecord}
    (all : embeddedChunks.mapM (buildRecord envelope.docId envelope configVersion indexedAt) = .ok built)
    {record : IndexRecord} (member : record ∈ built) :
    ∃ ec ∈ embeddedChunks, RecordOf envelope.docId envelope ec record := by
  obtain ⟨ec, given, one⟩ := source_of_mapM_ok all member
  exact ⟨ec, given, recordOf_of_buildRecord one⟩

theorem owned_of_built {envelope : ArrivalEnvelope} {embeddedChunks : List EmbeddedChunk}
    (own : ChunksOf owner envelope.docId embeddedChunks) {configVersion : String} {indexedAt : DateTime}
    {built : List IndexRecord}
    (all : embeddedChunks.mapM (buildRecord envelope.docId envelope configVersion indexedAt) = .ok built) :
    Owned owner built := by
  intro record member
  obtain ⟨ec, given, of⟩ := recordOf_of_built all member
  rw [of.docId, of.chunkId, own ec given]

theorem wp_index_rewrites {I J : X → Prop} {index : X} (valid : ∀ {index}, I index → contract.Valid index)
    (self : Indexer) (envelope : ArrivalEnvelope) {embeddedChunks : List EmbeddedChunk}
    (own : ChunksOf owner envelope.docId embeddedChunks)
    (single : self.config.deleteBeforeUpsertOnVersionChange = true →
      OneVersion owner envelope.docId (contract.records index))
    (keepsVersion : ∀ v index, I index → I (adapter.getDocVersion v envelope.docId index).2)
    (keepsDelete : ∀ v index, I index →
      Stale self owner envelope.docId envelope.contentHash (contract.records index) →
      I (adapter.deleteByDocId v envelope.docId index).2)
    (within : ∀ {after}, J after → I after)
    (enter : ∀ after, I after → contract.records after =
      purged self owner envelope.docId envelope.contentHash (contract.records index) → J after)
    (keepsUpsert : 0 < effectiveBatchSize self.config.batchSize self.maxBatchSize →
      ∀ a indexedAt built, embeddedChunks.mapM (buildRecord envelope.docId envelope
        (configVersionOf (answer a (.ledgerGet envelope.docId))) indexedAt) = .ok built →
      ∀ v given index, given ⊆ built → J index → J (adapter.upsert v given index).2)
    (initial : I index) :
    Prog.wp (storeView answer adapter) I (self.index envelope embeddedChunks).run
      (Ends I (fun after => ∃ a, Rewrites contract self envelope embeddedChunks
        (configVersionOf (answer a (.ledgerGet envelope.docId))) index after)) index := by
  refine wp_storeView_index self envelope embeddedChunks initial fun _ a indexedAt built all => ?_
  have sameVersion (record : IndexRecord) (member : record ∈ built) : record.docVersion = envelope.contentHash := by
    obtain ⟨ec, _, of⟩ := recordOf_of_built all member
    exact of.docVersion
  refine Prog.wp_mono (fun result after ended => ⟨ended.1, fun value same => ?_⟩)
    (wp_upsertAll contract valid self (owned_of_built own all) sameVersion single keepsVersion keepsDelete within
      enter (fun positive => keepsUpsert positive a indexedAt built all) initial)
  obtain ⟨batches, split, written⟩ := ended.2 value same
  exact ⟨a, indexedAt, built, batches, all, split, written⟩

end Call

end Indexer

end Vestibule
