import Vestibule.Indexer.Coverage
import Vestibule.Indexer.InMemory

set_option autoImplicit false

namespace Vestibule

open Library

-- Calls follow one another on one index, each with whatever ledger it finds. A call may stop after any of
-- its operations: a history that ends in a call cut short is a state between two adapter calls.

structure IndexCall (V : Type) where
  system : System
  indexer : Indexer
  envelope : ArrivalEnvelope
  embeddedChunks : List EmbeddedChunk
  oracle : Nat → World × V
  steps : Nat

namespace IndexCall

variable {V X : Type} (adapter : IndexerAdapter V X)

def program (call : IndexCall V) : Prog Effects (Except Exc IndexResult) :=
  (call.indexer.index call.envelope call.embeddedChunks).run

def apply (call : IndexCall V) (index : X) : X :=
  (Prog.steps (pipeline adapter) call.steps call.oracle (call.program, (call.system, index))).2.2

def finish (call : IndexCall V) (index : X) : Except Exc IndexResult × System × X :=
  Prog.run (pipeline adapter) call.program call.oracle (call.system, index)

def runAll (calls : List (IndexCall V)) (index : X) : X :=
  calls.foldl (fun index call => call.apply adapter index) index

variable {adapter}

abbrev anyAnswer (answers : (o : Op) → o.Res) (o : Op) : o.Res := answers o

theorem wp_of_anyAnswer {α : Type} {I : X → Prop} {Q : α → X → Prop} {p : Prog Effects α} {s : System × X}
    (holds : Prog.wp (Indexer.storeView anyAnswer adapter) I p Q s.2) :
    Prog.wp (pipeline adapter) (fun s => I s.2) p (fun value s => Q value s.2) s := by
  refine Prog.wp_consequence (fun _ kept => kept.2) (fun _ _ kept => kept.2)
    (Indexer.wp_of_storeView (K := fun _ => True) (fun _ _ _ _ => trivial) (fun w o s _ => ?_) trivial holds)
  exact ⟨fun o => (pipeline adapter w o s).1, fun _ => rfl⟩

theorem apply_of_wp {I : X → Prop} {Q : Except Exc IndexResult → X → Prop} (call : IndexCall V) {index : X}
    (initial : I index) (holds : Prog.wp (Indexer.storeView anyAnswer adapter) I call.program Q index) :
    I (call.apply adapter index) :=
  (Prog.steps_of_wp (I := fun s : System × X => I s.2) (s := (call.system, index)) initial (wp_of_anyAnswer holds)
    call.steps call.oracle).1

end IndexCall

namespace Indexer

def SingleVersion (records : String → Option IndexRecord) : Prop :=
  ∀ first second record other, records first = some record → records second = some other →
    record.docId = other.docId → record.docVersion = other.docVersion

theorem SingleVersion.of_subset {records after : String → Option IndexRecord} (single : SingleVersion records)
    (fewer : ∀ chunkId record, after chunkId = some record → records chunkId = some record) : SingleVersion after := by
  intro first second record other held also
  exact single first second record other (fewer _ _ held) (fewer _ _ also)

theorem singleVersion_empty : SingleVersion ({} : InMemoryIndexer).records.get? := by
  intro first second record other held
  cases held

def AllVersion (owner : String → String) (docId version : String) (records : String → Option IndexRecord) : Prop :=
  ∀ chunkId record, records chunkId = some record → owner chunkId = docId → record.docVersion = version

section Single

variable {V X A : Type} {answer : A → (o : Op) → o.Res} {adapter : IndexerAdapter V X} {owner : String → String}
  (contract : Contract adapter owner)

def Kept (index : X) : Prop := contract.Valid index ∧ SingleVersion (contract.records index)

theorem oneVersion_of_kept {index : X} (kept : Kept contract index) (docId : String) :
    OneVersion owner docId (contract.records index) := by
  intro first second record other held also own ownOther
  apply kept.2 first second record other held also
  rw [contract.owned kept.1 held, contract.owned kept.1 also, own, ownOther]

theorem kept_of_delete {index : X} (kept : Kept contract index) (v : V) (docId : String) :
    Kept contract (adapter.deleteByDocId v docId index).2 := by
  exact ⟨contract.deleteValid v docId kept.1, kept.2.of_subset fun _ _ => fewer_of_delete contract kept.1 v⟩

theorem allVersion_of_purged {self : Indexer} {docId version : String} {records after : String → Option IndexRecord}
    (on : self.config.deleteBeforeUpsertOnVersionChange = true)
    (same : after = purged self owner docId version records) : AllVersion owner docId version after := by
  intro chunkId record held own
  subst same
  by_contra other
  simp only [purged] at held
  split at held
  next => cases held
  next fresh =>
    have stale : Stale self owner docId version records := ⟨on, chunkId, record, held, own, other⟩
    exact fresh ⟨stale, own⟩

theorem allVersion_of_upsert {index : X} {docId version : String} {given : List IndexRecord}
    (own : Owned owner given) (same : ∀ record ∈ given, record.docVersion = version) (valid : contract.Valid index)
    (all : AllVersion owner docId version (contract.records index)) (v : V) :
    AllVersion owner docId version (contract.records (adapter.upsert v given index).2) := by
  intro chunkId record held owns
  rcases contract.upsertTouches v valid own chunkId with unchanged | ⟨written, member, _, found⟩
  next => exact all chunkId record (by rw [← unchanged, held]) owns
  next =>
    obtain rfl : written = record := by simpa [found] using held
    exact same written member

theorem kept_of_upsert {index : X} {docId version : String} {given : List IndexRecord}
    (own : Owned owner given) (mine : ∀ record ∈ given, record.docId = docId ∧ record.docVersion = version)
    (kept : Kept contract index) (all : AllVersion owner docId version (contract.records index)) (v : V) :
    Kept contract (adapter.upsert v given index).2 ∧
      AllVersion owner docId version (contract.records (adapter.upsert v given index).2) := by
  have valid := contract.upsertValid v kept.1 own
  have allAfter := allVersion_of_upsert contract own (fun record member => (mine record member).2) kept.1 all v
  refine ⟨⟨valid, fun first second record other held also sameDoc => ?_⟩, allAfter⟩
  -- Outside the document nothing was written; inside it every record has the call's version.
  by_cases inside : record.docId = docId
  next =>
    have ownFirst := contract.owned valid held
    have ownSecond := contract.owned valid also
    rw [allAfter first record held (by rw [← ownFirst, inside]),
      allAfter second other also (by rw [← ownSecond, ← sameDoc, inside])]
  next =>
    have old (chunkId : String) (found : IndexRecord) (outside : found.docId ≠ docId)
        (stays : contract.records (adapter.upsert v given index).2 chunkId = some found) :
        contract.records index chunkId = some found := by
      rcases contract.upsertTouches v kept.1 own chunkId with same | ⟨written, member, _, placed⟩
      next => rw [← same, stays]
      next =>
        obtain rfl : written = found := by simpa [placed] using stays
        exact (outside (mine written member).1).elim
    exact kept.2 first second record other (old first record inside held)
      (old second other (sameDoc ▸ inside) also) sameDoc

theorem wp_index_kept (self : Indexer) (on : self.config.deleteBeforeUpsertOnVersionChange = true)
    (envelope : ArrivalEnvelope) {embeddedChunks : List EmbeddedChunk}
    (own : ChunksOf owner envelope.docId embeddedChunks) {index : X} (kept : Kept contract index) :
    Prog.wp (storeView answer adapter) (Kept contract) (self.index envelope embeddedChunks).run
      (Ends (Kept contract) (fun after => ∃ a, Rewrites contract self envelope embeddedChunks
        (configVersionOf (answer a (.ledgerGet envelope.docId))) index after)) index := by
  refine wp_index_rewrites contract (J := fun after => Kept contract after ∧
      AllVersion owner envelope.docId envelope.contentHash (contract.records after))
    (fun held => held.1) self envelope own (fun _ => oneVersion_of_kept contract kept envelope.docId)
    (fun v index held => ?_) (fun v index held _ => kept_of_delete contract held v envelope.docId)
    (fun held => held.1) (fun after held same => ⟨held, allVersion_of_purged on same⟩)
    (fun _ a indexedAt built all v given index part held => ?_) kept
  next =>
    refine ⟨contract.versionValid v envelope.docId held.1, ?_⟩
    rw [contract.versionKeeps v envelope.docId held.1]
    exact held.2
  next =>
    have ownBuilt := owned_of_built own all
    refine kept_of_upsert contract (fun record member => ownBuilt record (part member)) (fun record member => ?_)
      held.1 held.2 v
    obtain ⟨ec, _, of⟩ := recordOf_of_built all (part member)
    exact ⟨of.docId, of.docVersion⟩

theorem kept_of_runAll (calls : List (IndexCall V))
    (on : ∀ call ∈ calls, call.indexer.config.deleteBeforeUpsertOnVersionChange = true)
    (own : ∀ call ∈ calls, ChunksOf owner call.envelope.docId call.embeddedChunks) {index : X}
    (kept : Kept contract index) : Kept contract (IndexCall.runAll adapter calls index) := by
  induction calls generalizing index with
  | nil => exact kept
  | cons call rest ih =>
    have step : Kept contract (call.apply adapter index) :=
      call.apply_of_wp kept (wp_index_kept contract call.indexer (on call (by simp)) call.envelope
        (own call (by simp)) kept)
    exact ih (fun other member => on other (by simp [member])) (fun other member => own other (by simp [member])) step

theorem single_version_in_store (calls : List (IndexCall V))
    (on : ∀ call ∈ calls, call.indexer.config.deleteBeforeUpsertOnVersionChange = true)
    (own : ∀ call ∈ calls, ChunksOf owner call.envelope.docId call.embeddedChunks) (index : X)
    (valid : contract.Valid index) (single : SingleVersion (contract.records index)) :
    SingleVersion (contract.records (IndexCall.runAll adapter calls index)) :=
  (kept_of_runAll contract calls on own ⟨valid, single⟩).2

end Single

def sampleCall {V : Type} (contentHash : String) (format : hexRe (PyStr.ofString contentHash))
    (chunkIds : List String) (worlds : Nat → V) : IndexCall V where
  system := StageCall.sampleSystem.1
  indexer := ⟨{ dimensions := 1 }, "in-memory", InMemoryIndexer.maxBatchSize⟩
  envelope := { StageCall.sampleEnvelope with contentHash, contentHashFormat := format }
  embeddedChunks := chunkIds.map StageCall.sampleChunk
  oracle step := ({}, worlds step)
  steps := 10

-- The second version's delete times out with one of the two records gone; the third call goes through.
def interruptedCalls : List (IndexCall InMemoryIndexer.CallFate) :=
  [sampleCall digestAbc digestAbc_hex ["c1", "c2"] (fun _ => {}),
   sampleCall digestAbcd digestAbcd_hex ["c1"] (fun step =>
     { failure := if step = 3 then some (.other "timed out") else none, reaches := fun chunkId => chunkId = "c1" }),
   sampleCall digestAbcd digestAbcd_hex ["c1"] (fun _ => {})]

theorem single_version_after_interruption :
    SingleVersion ((InMemoryIndexer.flakyContract (fun _ => digestAbc)).records
      (IndexCall.runAll InMemoryIndexer.flakyAdapter interruptedCalls {})) := by
  refine single_version_in_store (InMemoryIndexer.flakyContract (fun _ => digestAbc)) interruptedCalls ?_ ?_ {}
    InMemoryIndexer.repInv_empty singleVersion_empty
  next =>
    intro call member
    simp only [interruptedCalls, List.mem_cons, List.not_mem_nil, or_false] at member
    rcases member with rfl | rfl | rfl <;> rfl
  next =>
    intro call member ec _
    simp only [interruptedCalls, List.mem_cons, List.not_mem_nil, or_false] at member
    rcases member with rfl | rfl | rfl <;> rfl

section Contents

variable {V X : Type} {adapter : IndexerAdapter V X} {owner : String → String} (contract : Contract adapter owner)

def LeavesExactly (envelope : ArrivalEnvelope) (embeddedChunks : List EmbeddedChunk)
    (before after : String → Option IndexRecord) : Prop :=
  ∃ configVersion indexedAt, ∀ chunkId record,
    after chunkId = some record ∧ record.docId = envelope.docId ↔
      (∃ ec ∈ embeddedChunks, ec.chunk.chunkId = chunkId ∧
        buildRecord envelope.docId envelope configVersion indexedAt ec = .ok record) ∨
      chunkId ∉ embeddedChunks.map (·.chunk.chunkId) ∧ before chunkId = some record ∧
        record.docId = envelope.docId ∧ record.docVersion = envelope.contentHash

theorem last_built_eq_none {envelope : ArrivalEnvelope} {embeddedChunks : List EmbeddedChunk}
    {configVersion : String} {indexedAt : DateTime} {built : List IndexRecord}
    (all : embeddedChunks.mapM (buildRecord envelope.docId envelope configVersion indexedAt) = .ok built)
    (chunkId : String) :
    KeyedStore.last IndexRecord.chunkId built chunkId = none ↔ chunkId ∉ embeddedChunks.map (·.chunk.chunkId) := by
  rw [KeyedStore.last_eq_none, ← chunkIds_of_built all]
  simp

-- A record of the call's own version shows that nothing is stale.
theorem fresh_of_current {self : Indexer} {docId version : String} {records : String → Option IndexRecord}
    (single : OneVersion owner docId records) {chunkId : String} {record : IndexRecord}
    (held : records chunkId = some record) (own : owner chunkId = docId) (current : record.docVersion = version) :
    ¬ Stale self owner docId version records := by
  intro stale
  obtain ⟨other, found, heldOther, ownOther, differs⟩ := stale.2
  exact differs (by rw [single other chunkId found record heldOther held ownOther own, current])

theorem record_of_purged {self : Indexer} {docId version : String} {records : String → Option IndexRecord}
    {chunkId : String} {record : IndexRecord}
    (left : purged self owner docId version records chunkId = some record) : records chunkId = some record := by
  simp only [purged] at left
  split at left
  next => cases left
  next => exact left

-- What is left of the old records has the call's version.
theorem survivor_of_purged {self : Indexer} (on : self.config.deleteBeforeUpsertOnVersionChange = true)
    {docId version : String} {records : String → Option IndexRecord} {chunkId : String} {record : IndexRecord}
    (left : purged self owner docId version records chunkId = some record) (own : owner chunkId = docId) :
    records chunkId = some record ∧ record.docVersion = version := by
  have purgedVersion : AllVersion owner docId version (purged self owner docId version records) :=
    allVersion_of_purged on rfl
  exact ⟨record_of_purged left, purgedVersion chunkId record left own⟩

theorem leavesExactly_of_rewrites {self : Indexer} (on : self.config.deleteBeforeUpsertOnVersionChange = true)
    (positive : 0 < effectiveBatchSize self.config.batchSize self.maxBatchSize) {envelope : ArrivalEnvelope}
    {embeddedChunks : List EmbeddedChunk} (distinct : (embeddedChunks.map (·.chunk.chunkId)).Nodup)
    {before after : X} (kept : Kept contract before) {configVersion : String}
    (rewrites : Rewrites contract self envelope embeddedChunks configVersion before after) :
    LeavesExactly envelope embeddedChunks (contract.records before) (contract.records after) := by
  obtain ⟨indexedAt, built, batches, all, split, written⟩ := rewrites
  rw [batched_flatten positive split] at written
  have single := oneVersion_of_kept contract kept envelope.docId
  refine ⟨configVersion, indexedAt, fun chunkId record => ?_⟩
  rw [written]
  constructor
  next =>
    intro held
    obtain ⟨held, mine⟩ := held
    simp only [KeyedStore.overwrite] at held
    cases found : KeyedStore.last IndexRecord.chunkId built chunkId with
    | some latest =>
      obtain rfl : latest = record := by simpa [found] using held
      obtain ⟨member, same⟩ := KeyedStore.mem_of_last _ found
      obtain ⟨ec, given, one⟩ := source_of_mapM_ok all member
      exact .inl ⟨ec, given, by rw [← (recordOf_of_buildRecord one).chunkId, same], one⟩
    | none =>
      have missing := (last_built_eq_none all chunkId).mp found
      simp only [found, Option.none_or] at held
      have own : owner chunkId = envelope.docId := by
        rw [← contract.owned kept.1 (record_of_purged held), mine]
      obtain ⟨old, current⟩ := survivor_of_purged on held own
      exact .inr ⟨missing, old, mine, current⟩
  next =>
    intro cases_
    rcases cases_ with ⟨ec, given, rfl, one⟩ | ⟨missing, held, mine, current⟩
    next =>
      obtain ⟨record', member, one'⟩ := result_of_mapM_ok all given
      obtain rfl : record = record' := Except.ok.inj (one.symm.trans one')
      have latest := KeyedStore.last_of_nodup IndexRecord.chunkId
        (by rw [chunkIds_of_built all]; exact distinct) member
      rw [(recordOf_of_buildRecord one).chunkId] at latest
      exact ⟨by simp [KeyedStore.overwrite, latest], (recordOf_of_buildRecord one).docId⟩
    next =>
      refine ⟨?_, mine⟩
      have own : owner chunkId = envelope.docId := by rw [← contract.owned kept.1 held, mine]
      have fresh : ¬ Stale self owner envelope.docId envelope.contentHash (contract.records before) :=
        fresh_of_current single held own current
      simp [KeyedStore.overwrite, (last_built_eq_none all chunkId).mpr missing, purged_of_fresh fresh, held]

theorem rewrites_of_returned (call : IndexCall V)
    (on : call.indexer.config.deleteBeforeUpsertOnVersionChange = true)
    (own : ChunksOf owner call.envelope.docId call.embeddedChunks) {index : X} (kept : Kept contract index)
    (returned : (call.finish adapter index).1.isOk) :
    ∃ configVersion, Rewrites contract call.indexer call.envelope call.embeddedChunks configVersion index
      (call.finish adapter index).2.2 := by
  have holds : Prog.wp (storeView IndexCall.anyAnswer adapter) (Kept contract) call.program _ index :=
    wp_index_kept contract call.indexer on call.envelope own kept
  have ended := Prog.run_of_wp (s := (call.system, index)) (IndexCall.wp_of_anyAnswer holds) call.oracle
  obtain ⟨receipt, result⟩ := exists_of_isOk returned
  obtain ⟨a, rewrites⟩ := ended.2 receipt result
  exact ⟨_, rewrites⟩

end Contents

theorem kept_empty (owner : String → String) : Kept (InMemoryIndexer.contract owner) {} :=
  ⟨InMemoryIndexer.repInv_empty, singleVersion_empty⟩

theorem index_leaves_exactly (owner : String → String) (calls : List (IndexCall String)) (call : IndexCall String)
    (on : ∀ other ∈ call :: calls, other.indexer.config.deleteBeforeUpsertOnVersionChange = true)
    (own : ∀ other ∈ call :: calls, ChunksOf owner other.envelope.docId other.embeddedChunks)
    (declared : call.indexer.maxBatchSize = InMemoryIndexer.maxBatchSize)
    (batches : ∀ size, call.indexer.config.batchSize = some size → 1 ≤ size)
    (distinct : (call.embeddedChunks.map (·.chunk.chunkId)).Nodup)
    (returned : (call.finish InMemoryIndexer.adapter (IndexCall.runAll InMemoryIndexer.adapter calls {})).1.isOk) :
    LeavesExactly call.envelope call.embeddedChunks
      (IndexCall.runAll InMemoryIndexer.adapter calls {}).records.get?
      (call.finish InMemoryIndexer.adapter (IndexCall.runAll InMemoryIndexer.adapter calls {})).2.2.records.get? := by
  have positive : 0 < effectiveBatchSize call.indexer.config.batchSize call.indexer.maxBatchSize := by
    rw [declared]
    cases configured : call.indexer.config.batchSize with
    | none => decide
    | some size =>
      have atLeast := batches size configured
      simp only [effectiveBatchSize, InMemoryIndexer.maxBatchSize]
      omega
  have kept := kept_of_runAll (InMemoryIndexer.contract owner) calls
    (fun other member => on other (by simp [member])) (fun other member => own other (by simp [member]))
    (kept_empty owner)
  obtain ⟨configVersion, rewrites⟩ := rewrites_of_returned (InMemoryIndexer.contract owner) call (on call (by simp))
    (own call (by simp)) kept returned
  exact leavesExactly_of_rewrites (InMemoryIndexer.contract owner) (on call (by simp)) positive distinct kept rewrites

def wholeCall : IndexCall String := sampleCall digestAbc digestAbc_hex ["c1", "c2"] (fun _ => "")

def shrunkCall (contentHash : String) (format : hexRe (PyStr.ofString contentHash)) : IndexCall String :=
  sampleCall contentHash format ["c1"] (fun _ => "")

theorem index_leaves_exactly_after_version_change :
    LeavesExactly (shrunkCall digestAbcd digestAbcd_hex).envelope (shrunkCall digestAbcd digestAbcd_hex).embeddedChunks
      (IndexCall.runAll InMemoryIndexer.adapter [wholeCall] {}).records.get?
      ((shrunkCall digestAbcd digestAbcd_hex).finish InMemoryIndexer.adapter
        (IndexCall.runAll InMemoryIndexer.adapter [wholeCall] {})).2.2.records.get? := by
  have returned : ((shrunkCall digestAbcd digestAbcd_hex).finish InMemoryIndexer.adapter
      (IndexCall.runAll InMemoryIndexer.adapter [wholeCall] {})).1.isOk := by
    decide +kernel
  refine index_leaves_exactly (fun _ => digestAbc) [wholeCall] (shrunkCall digestAbcd digestAbcd_hex) ?_ ?_ rfl
    (fun size configured => by cases configured) (by decide) returned
  next =>
    intro other member
    simp only [List.mem_cons, List.not_mem_nil, or_false] at member
    rcases member with rfl | rfl <;> rfl
  next =>
    intro other member ec _
    simp only [List.mem_cons, List.not_mem_nil, or_false] at member
    rcases member with rfl | rfl <;> rfl

-- The document shrinks from two chunks to one under one content hash: nothing is deleted.
theorem reindex_of_same_hash_leaves_orphan :
    ((shrunkCall digestAbc digestAbc_hex).finish InMemoryIndexer.adapter
        (IndexCall.runAll InMemoryIndexer.adapter [wholeCall] {})).1.isOk ∧
      ∃ record, ((shrunkCall digestAbc digestAbc_hex).finish InMemoryIndexer.adapter
          (IndexCall.runAll InMemoryIndexer.adapter [wholeCall] {})).2.2.records.get? "c2" = some record ∧
        record.docId = (shrunkCall digestAbc digestAbc_hex).envelope.docId ∧
        "c2" ∉ (shrunkCall digestAbc digestAbc_hex).embeddedChunks.map (·.chunk.chunkId) := by
  have orphan : (((shrunkCall digestAbc digestAbc_hex).finish InMemoryIndexer.adapter
      (IndexCall.runAll InMemoryIndexer.adapter [wholeCall] {})).2.2.records.get? "c2").map (·.docId) =
        some (shrunkCall digestAbc digestAbc_hex).envelope.docId := by
    decide +kernel
  obtain ⟨record, held, mine⟩ := Option.map_eq_some_iff.mp orphan
  exact ⟨by decide +kernel, record, held, mine, by decide⟩

end Indexer

end Vestibule
