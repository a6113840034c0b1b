import Vestibule.Library.Interleaving
import Vestibule.Indexer.Histories

set_option autoImplicit false

namespace Vestibule

open Library

-- Several workers index the same document at once. Each adapter call is atomic, and the version check, the
-- delete and the upserts of one call are separate steps.

namespace Indexer

structure Job where
  indexer : Indexer
  envelope : ArrivalEnvelope
  embeddedChunks : List EmbeddedChunk

def Job.program (job : Job) : Prog Effects (Except Exc IndexResult) :=
  (job.indexer.index job.envelope job.embeddedChunks).run

def IsUpsert : Op → Prop
  | .upsert _ => True
  | _ => False

section Steps

variable {V X : Type} {adapter : IndexerAdapter V X} {owner : String → String} (contract : Contract adapter owner)
  {docId version : String}

def Shared (docId : String) (s : System × X) : Prop :=
  contract.Valid s.2 ∧ OneVersion owner docId (contract.records s.2)

def Clean (docId version : String) (s : System × X) : Prop :=
  AllVersion owner docId version (contract.records s.2)

theorem oneVersion_of_all {records : String → Option IndexRecord} (all : AllVersion owner docId version records) :
    OneVersion owner docId records := by
  intro first second record other held also own ownOther
  rw [all first record held own, all second other also ownOther]

-- Whatever is not an upsert can only take records away.
theorem fewer_of_quiet {o : Op} (quiet : ¬ IsUpsert o) (w : World × V) {s : System × X} (valid : contract.Valid s.2) :
    contract.Valid (pipeline adapter w o s).2.2 ∧ ∀ chunkId record,
      contract.records (pipeline adapter w o s).2.2 chunkId = some record →
        contract.records s.2 chunkId = some record := by
  cases o with
  | getDocVersion target =>
    refine ⟨contract.versionValid w.2 target valid, fun chunkId record held => ?_⟩
    rw [← contract.versionKeeps w.2 target valid]
    exact held
  | deleteByDocId target =>
    exact ⟨contract.deleteValid w.2 target valid, fun _ _ => fewer_of_delete contract valid w.2⟩
  | upsert records => exact (quiet trivial).elim
  | _ => exact ⟨valid, fun _ _ held => held⟩

theorem shared_of_quiet {o : Op} (quiet : ¬ IsUpsert o) (w : World × V) (s : System × X)
    (shared : Shared contract docId s) : Shared contract docId (pipeline adapter w o s).2 := by
  obtain ⟨valid, fewer⟩ := fewer_of_quiet contract quiet w shared.1
  refine ⟨valid, fun first second record other held also => ?_⟩
  exact shared.2 first second record other (fewer first record held) (fewer second other also)

theorem clean_of_quiet {o : Op} (quiet : ¬ IsUpsert o) (w : World × V) {s : System × X} (valid : contract.Valid s.2)
    (clean : Clean contract docId version s) : Clean contract docId version (pipeline adapter w o s).2 :=
  fun chunkId record held => clean chunkId record ((fewer_of_quiet contract quiet w valid).2 chunkId record held)

theorem guarded_upsert {batch : List IndexRecord} (own : Owned owner batch)
    (same : ∀ record ∈ batch, record.docVersion = version) :
    (Py.upsert batch).run.Guarded (pipeline adapter) (Shared contract docId) (Clean contract docId version) IsUpsert
      (fun _ => True) := by
  refine ⟨fun w s shared checked => ?_, fun _ => trivial⟩
  have clean : Clean contract docId version (pipeline adapter w (.upsert batch) s).2 :=
    allVersion_of_upsert contract own same shared.1 (checked trivial) w.2
  exact ⟨⟨contract.upsertValid w.2 shared.1 own, oneVersion_of_all clean⟩, fun _ => clean⟩

theorem guarded_upsertBatch {batch : List IndexRecord} (own : Owned owner batch)
    (same : ∀ record ∈ batch, record.docVersion = version) :
    (upsertBatchWithRetry batch).run.Guarded (pipeline adapter) (Shared contract docId)
      (Clean contract docId version) IsUpsert (fun _ => True) := by
  refine Prog.guarded_run_bind (Prog.guarded_mono (fun _ _ => trivial) (guarded_upsert contract own same))
    fun outcome => ?_
  split
  next => trivial
  next =>
    have part (record : IndexRecord)
        (member : record ∈ batch.filter (fun record => record.chunkId ∈ failedIds outcome)) : record ∈ batch :=
      (List.mem_filter.mp member).1
    refine Prog.guarded_run_bind (Prog.guarded_mono (fun _ _ => trivial)
      (guarded_upsert contract (fun record member => own record (part record member))
        fun record member => same record (part record member))) fun retryOutcome => ?_
    split <;> trivial

theorem guarded_upsertBatches (batches : List (List IndexRecord)) (own : Owned owner batches.flatten)
    (same : ∀ record ∈ batches.flatten, record.docVersion = version) (upserted : Int) :
    (batches.foldlM (fun upserted batch => do
        return upserted + (← upsertBatchWithRetry batch)) upserted : Py Int).run.Guarded (pipeline adapter)
      (Shared contract docId) (Clean contract docId version) IsUpsert (fun _ => True) := by
  induction batches generalizing upserted with
  | nil => trivial
  | cons batch rest ih =>
    have head : batch ⊆ (batch :: rest).flatten := by simp
    have tail : rest.flatten ⊆ (batch :: rest).flatten := by simp
    rw [List.foldlM_cons]
    refine Prog.guarded_run_bind (Prog.guarded_run_bind (Prog.guarded_mono (fun _ _ => trivial)
      (guarded_upsertBatch contract (fun record member => own record (head member))
        fun record member => same record (head member))) fun count => trivial) fun total => ?_
    exact ih (fun record member => own record (tail member)) (fun record member => same record (tail member)) total

theorem guarded_getDocVersion {Q : Except Exc (Option String) → Prop}
    (ready : ∀ (w : World × V) s, Shared contract docId s → Q (adapter.getDocVersion w.2 docId s.2).1 →
      Clean contract docId version s) :
    (Py.getDocVersion docId).run.Guarded (pipeline adapter) (Shared contract docId) (Clean contract docId version)
      IsUpsert Q := by
  refine ⟨fun w s shared _ => ⟨shared_of_quiet contract id w s shared, fun due => ?_⟩, fun _ => trivial⟩
  exact clean_of_quiet contract id w shared.1 (ready w s shared due)

theorem guarded_deleteByDocId :
    (Py.deleteByDocId docId).run.Guarded (pipeline adapter) (Shared contract docId) (Clean contract docId version)
      IsUpsert (fun result => result.isOk) := by
  refine ⟨fun w s shared _ => ⟨shared_of_quiet contract id w s shared, fun done => ?_⟩, fun _ => trivial⟩
  obtain ⟨count, answer⟩ := exists_of_isOk done
  intro chunkId record held own
  cases (contract.deleteClears shared.1 answer own).symm.trans held

-- When the version check lets a call go on, every record of the document has the call's version.
theorem guarded_maybeDelete (self : Indexer) (on : self.config.deleteBeforeUpsertOnVersionChange = true) :
    (self.maybeDeleteStaleVersion docId version).run.Guarded (pipeline adapter) (Shared contract docId)
      (Clean contract docId version) IsUpsert (fun result => result.isOk) := by
  have enabled : ¬ ¬ self.config.deleteBeforeUpsertOnVersionChange = true := by simpa using on
  simp only [maybeDeleteStaleVersion, if_neg enabled]
  refine Prog.guarded_run_bind (guarded_getDocVersion contract fun w s shared due => ?_) fun found => ?_
  next =>
    intro chunkId record held own
    cases answered : (adapter.getDocVersion w.2 docId s.2).1 with
    | error exc =>
      rw [answered] at due
      cases due
    | ok found =>
      refine current_of_check contract shared.1 shared.2 answered (fun existing same => ?_) held own
      subst same
      by_contra differs
      simp only [answered, ne_eq, differs, not_false_eq_true, if_true] at due
      exact due
  next =>
    split
    next => trivial
    next existing =>
      split
      next => exact guarded_deleteByDocId contract
      next => trivial

theorem guarded_upsertAll (self : Indexer) (on : self.config.deleteBeforeUpsertOnVersionChange = true)
    {records : List IndexRecord} (own : Owned owner records)
    (same : ∀ record ∈ records, record.docVersion = version) :
    (self.upsertAll docId records).run.Guarded (pipeline adapter) (Shared contract docId)
      (Clean contract docId version) IsUpsert (fun _ => False) := by
  cases records with
  | nil => trivial
  | cons first rest =>
    simp only [upsertAll, same first (by simp)]
    refine Prog.guarded_run_bind (Prog.guarded_mono (fun result due => ?_)
      (guarded_maybeDelete contract self on)) fun deleted => ?_
    next =>
      cases result with
      | ok count => rfl
      | error exc => exact due.elim
    next =>
      cases split : batched (first :: rest) (effectiveBatchSize self.config.batchSize self.maxBatchSize) with
      | error exc => trivial
      | ok batches =>
        have inside : batches.flatten ⊆ first :: rest := by
          rcases batched_cases split with ⟨_, whole⟩ | ⟨_, none⟩
          next => simp [whole]
          next => simp [none]
        rw [Py.ofExcept_ok_bind]
        exact Prog.guarded_run_bind (Prog.guarded_mono (fun _ _ => trivial)
          (guarded_upsertBatches contract batches (fun record member => own record (inside member))
            (fun record member => same record (inside member)) 0)) fun total => trivial

theorem guarded_runWithRecovery (self : Indexer) (on : self.config.deleteBeforeUpsertOnVersionChange = true)
    {records : List IndexRecord} (own : Owned owner records)
    (same : ∀ record ∈ records, record.docVersion = version) :
    (self.runWithRecovery docId records).run.Guarded (pipeline adapter) (Shared contract docId)
      (Clean contract docId version) IsUpsert (fun _ => False) := by
  have again (code reason : String) :
      (selfTransitionAndRaise docId code reason : Py IndexResult).run.Uses (fun o => ¬ IsUpsert o) :=
    Prog.uses_run_bind (Py.transitionTriaged_uses (by simp [IsUpsert])) fun _ => trivial
  refine Prog.guarded_run_tryCatch_of_uses (fun o quiet => shared_of_quiet contract quiet)
    (guarded_upsertAll contract self on own same) fun exc => ?_
  split
  next =>
    split
    next => exact Py.terminalize_uses .indexer (by simp [IsUpsert])
    next => split <;> exact again _ _
  next => exact again _ _

theorem buildRecords_bind (docId : String) (envelope : ArrivalEnvelope) (embeddedChunks : List EmbeddedChunk)
    (f : List IndexRecord → Py IndexResult) :
    (buildRecords docId envelope embeddedChunks >>= f).run =
      .op (.ledgerGet docId) fun row => .op .now fun indexedAt =>
        (Py.ofExcept (embeddedChunks.mapM
          (buildRecord docId envelope (configVersionOf row) indexedAt)) >>= f).run := rfl

theorem guarded_buildRecords {I P : System × X → Prop} (envelope : ArrivalEnvelope)
    (embeddedChunks : List EmbeddedChunk) {f : List IndexRecord → Py IndexResult}
    (idle : ∀ records, ¬ (f records).run.Due IsUpsert (fun _ => False))
    (rest : ∀ configVersion indexedAt records,
      embeddedChunks.mapM (buildRecord docId envelope configVersion indexedAt) = .ok records →
      (f records).run.Guarded (pipeline adapter) I P IsUpsert (fun _ => False)) :
    (buildRecords docId envelope embeddedChunks >>= f).run.Guarded (pipeline adapter) I P IsUpsert
      (fun _ => False) := by
  have built (row : Option LedgerRow) (indexedAt : DateTime) :
      ¬ (Py.ofExcept (embeddedChunks.mapM (buildRecord docId envelope (configVersionOf row) indexedAt)) >>= f).run.Due
          IsUpsert (fun _ => False) ∧
        (Py.ofExcept (embeddedChunks.mapM
            (buildRecord docId envelope (configVersionOf row) indexedAt)) >>= f).run.Guarded
          (pipeline adapter) I P IsUpsert (fun _ => False) := by
    cases all : embeddedChunks.mapM (buildRecord docId envelope (configVersionOf row) indexedAt) with
    | error exc => exact ⟨id, trivial⟩
    | ok records =>
      rw [Py.ofExcept_ok_bind]
      exact ⟨idle records, rest _ _ records all⟩
  rw [buildRecords_bind]
  refine ⟨fun w s kept _ => ⟨kept, False.elim⟩,
    fun row => ⟨fun w s kept _ => ⟨kept, fun due => ?_⟩, fun indexedAt => ?_⟩⟩
  next => exact ((built row w.1.now).1 due).elim
  next => exact (built row indexedAt).2

theorem not_due_runWithRecovery {self : Indexer} (on : self.config.deleteBeforeUpsertOnVersionChange = true)
    (records : List IndexRecord) {Q : Except Exc IndexResult → Prop} :
    ¬ (self.runWithRecovery docId records).run.Due IsUpsert Q := by
  have enabled : ¬ ¬ self.config.deleteBeforeUpsertOnVersionChange = true := by simpa using on
  cases records with
  | nil => exact id
  | cons first rest =>
    simp only [runWithRecovery, upsertAll, maybeDeleteStaleVersion, if_neg enabled]
    exact id

theorem guarded_program (job : Job) (on : job.indexer.config.deleteBeforeUpsertOnVersionChange = true)
    (own : ChunksOf owner job.envelope.docId job.embeddedChunks) :
    job.program.Guarded (pipeline adapter) (Shared contract job.envelope.docId)
      (Clean contract job.envelope.docId job.envelope.contentHash) IsUpsert (fun _ => False) := by
  have quietly (o : Op) (quiet : ¬ IsUpsert o) (w : World × V) (s : System × X)
      (shared : Shared contract job.envelope.docId s) :
      Shared contract job.envelope.docId (pipeline adapter w o s).2 := shared_of_quiet contract quiet w s shared
  by_cases accepts : Accepts job.indexer job.embeddedChunks
  next =>
    simp only [Job.program, index_of_accepts job.indexer accepts]
    refine guarded_buildRecords job.envelope job.embeddedChunks (fun records due => ?_)
      fun configVersion indexedAt records built => ?_
    next => exact not_due_runWithRecovery on records (Prog.due_bind.mp due)
    next =>
      refine Prog.guarded_run_bind_of_uses quietly (guarded_runWithRecovery contract job.indexer on
        (owned_of_built own built) fun record member => ?_) fun receipt => ?_
      next =>
        obtain ⟨ec, _, of⟩ := recordOf_of_built built member
        exact of.docVersion
      next => exact Prog.uses_run_bind (Py.transitionTriaged_uses (by simp [IsUpsert])) fun _ => trivial
  next =>
    obtain ⟨code, _, reason, rejected⟩ := index_of_not_accepts job.indexer job.envelope accepts
    simp only [Job.program, rejected]
    exact Prog.guarded_of_uses (Py.terminalize_uses .indexer (by simp [IsUpsert])) quietly

end Steps

section Schedules

variable {V X ι : Type} [DecidableEq ι] {adapter : IndexerAdapter V X} {owner : String → String}
  (contract : Contract adapter owner)

abbrev Workers (ι X : Type) : Type := Pool Effects (fun _ : ι => Except Exc IndexResult) (System × X)

def started (jobs : ι → Job) (s : System × X) : Workers ι X := ⟨fun i => (jobs i).program, s⟩

/-- No worker upserts while another one has its check and its delete behind it and a batch to write. -/
def Apart (c : Workers ι X) (i : ι) (_ : World × V) : Prop :=
  (c.threads i).AboutTo IsUpsert → ∀ j, j ≠ i → ¬ (c.threads j).AboutTo IsUpsert

theorem not_aboutTo_program (job : Job) : ¬ job.program.AboutTo IsUpsert := by
  by_cases accepts : Accepts job.indexer job.embeddedChunks
  next =>
    rw [Job.program, index_of_accepts job.indexer accepts, buildRecords_bind, Prog.aboutTo_op]
    exact id
  next =>
    obtain ⟨code, _, reason, rejected⟩ := index_of_not_accepts job.indexer job.envelope accepts
    rw [Job.program, rejected, Prog.aboutTo_iff_due]
    exact Prog.not_due_of_uses (Py.terminalize_uses .indexer (by simp [IsUpsert]))

theorem watched_of_apart {docId : String} {jobs : ι → Job} {c : Workers ι X} {i : ι} {w : World × V}
    (watched : Pool.Watched (pipeline adapter) (Shared contract docId)
      (fun i => Clean contract docId (jobs i).envelope.contentHash) IsUpsert (fun _ => True) c)
    (apart : Apart c i w) :
    Pool.Watched (pipeline adapter) (Shared contract docId)
      (fun i => Clean contract docId (jobs i).envelope.contentHash) IsUpsert (fun _ => True)
      (Pool.step (pipeline adapter) i w c) := by
  refine Pool.watched_step watched (fun outside => (outside trivial).elim) fun j other _ due clean => ?_
  -- While `j` is about to upsert, the step of `i` is none: it takes records away or leaves them.
  cases current : (c.threads i).nextOp with
  | none => rw [Pool.step_state_of_ended current]; exact clean
  | some o =>
    rw [Pool.step_state current]
    refine clean_of_quiet contract (fun upserts => ?_) w watched.1.1 clean
    exact apart ⟨o, current, upserts⟩ j other due

theorem concurrent_calls_share_version (docId : String) (jobs : ι → Job)
    (same : ∀ i, (jobs i).envelope.docId = docId)
    (on : ∀ i, (jobs i).indexer.config.deleteBeforeUpsertOnVersionChange = true)
    (own : ∀ i, ChunksOf owner docId (jobs i).embeddedChunks) (s : System × X) (valid : contract.Valid s.2)
    (single : SharesVersion docId (contract.records s.2)) (schedule : List (ι × (World × V)))
    (apart : Pool.Conforms (pipeline adapter) Apart schedule (started jobs s)) :
    SharesVersion docId (contract.records (Pool.run (pipeline adapter) schedule (started jobs s)).state.2) := by
  have initial : Pool.Watched (pipeline adapter) (Shared contract docId)
      (fun i => Clean contract docId (jobs i).envelope.contentHash) IsUpsert (fun _ => True) (started jobs s) := by
    refine ⟨⟨valid, (sharesVersion_iff contract valid).mp single⟩, fun i _ => ⟨?_, fun due => ?_⟩⟩
    next =>
      have guarded := guarded_program contract (jobs i) (on i) (by rw [same]; exact own i)
      rw [same] at guarded
      exact guarded
    next => exact (not_aboutTo_program (jobs i) due).elim
  have final := Pool.run_invariant (fun c i w watched apart => watched_of_apart contract watched apart) initial apart
  exact (sharesVersion_iff contract final.1.1).mpr final.1.2

end Schedules

instance : DecidablePred IsUpsert
  | .upsert _ => isTrue trivial
  | .now | .ledgerGet _ | .ledgerTransition _ | .registryRecord _ _ | .registryDiscard _ | .scenarioGet _
  | .scenarioGetByVertical _ | .chunkRegion _ _ _ _ | .count _ | .embedBatch _ | .getDocVersion _
  | .deleteByDocId _ => isFalse id

instance {V X : Type} (c : Workers Bool X) (i : Bool) (w : World × V) : Decidable (Apart c i w) :=
  decidable_of_iff ((c.threads i).AboutTo IsUpsert → ¬ (c.threads !i).AboutTo IsUpsert) <| by
    constructor
    next =>
      intro alone upserts j other
      obtain rfl : j = !i := Bool.eq_not_of_ne other
      exact alone upserts
    next => exact fun apart upserts => apart upserts (!i) (by simp)

def jobOf {V : Type} (call : IndexCall V) : Job := ⟨call.indexer, call.envelope, call.embeddedChunks⟩

-- The newer version has one chunk where the older one has two.
def twoVersions : Bool → Job
  | false => jobOf wholeCall
  | true => jobOf (shrunkCall digestAbcd digestAbcd_hex)

def emptyIndex : System × InMemoryIndexer := (StageCall.sampleSystem.1, {})

def turns (workers : List Bool) : List (Bool × (World × String)) := workers.map (·, ({}, ""))

def after (workers : List Bool) : Workers Bool InMemoryIndexer :=
  Pool.run (pipeline InMemoryIndexer.adapter) (turns workers) (started twoVersions emptyIndex)

def returned : Prog Effects (Except Exc IndexResult) → Bool
  | .ret result => result.isOk
  | .op _ _ => false

-- The newer worker reads the ledger while the older one writes, and checks the version after it.
def inTurn : List Bool := [false, false, false, true, false, false, true, true, true, true, true]

theorem concurrent_calls_share_version_in_turn :
    (∀ worker, returned ((after inTurn).threads worker)) ∧
      SharesVersion digestAbc (after inTurn).state.2.records.get? := by
  refine ⟨by decide +kernel, ?_⟩
  have apart : Pool.Conforms (pipeline InMemoryIndexer.adapter) Apart (turns inTurn)
      (started twoVersions emptyIndex) := by
    decide +kernel
  have shares := concurrent_calls_share_version (InMemoryIndexer.contract fun _ => digestAbc) digestAbc twoVersions
    (fun worker => by cases worker <;> rfl) (fun worker => by cases worker <;> rfl)
    (fun worker ec _ => by cases worker <;> rfl) emptyIndex InMemoryIndexer.repInv_empty
    (fun _ _ _ _ held => by cases held) (turns inTurn) apart
  simp only [InMemoryIndexer.contract] at shares
  unfold after
  exact shares

-- Both workers check before either has written, and find nothing to delete.
def overlapping : List Bool := [false, false, false, true, true, true, false, false, true, true]

theorem overlapping_calls_mix_versions :
    (∀ worker, returned ((after overlapping).threads worker)) ∧
      (twoVersions false).envelope.contentHash ≠ (twoVersions true).envelope.contentHash ∧
      ¬ SharesVersion digestAbc (after overlapping).state.2.records.get? := by
  refine ⟨by decide +kernel, by decide, fun shares => ?_⟩
  have newer : ((after overlapping).state.2.records.get? "c1").map (fun record => (record.docId, record.docVersion)) =
      some (digestAbc, digestAbcd) := by
    decide +kernel
  have older : ((after overlapping).state.2.records.get? "c2").map (fun record => (record.docId, record.docVersion)) =
      some (digestAbc, digestAbc) := by
    decide +kernel
  obtain ⟨record, held, same⟩ := Option.map_eq_some_iff.mp newer
  obtain ⟨other, also, sameOther⟩ := Option.map_eq_some_iff.mp older
  have equal := shares "c1" "c2" record other held also (Prod.mk.inj same).1 (Prod.mk.inj sameOther).1
  rw [(Prod.mk.inj same).2, (Prod.mk.inj sameOther).2] at equal
  revert equal
  decide

end Indexer

end Vestibule
