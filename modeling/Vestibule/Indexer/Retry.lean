import Vestibule.Indexer.Histories

set_option autoImplicit false

namespace Vestibule

open Library

-- However many attempts fail, and wherever, an attempt that returns leaves the records that a single
-- attempt would have left.

namespace Indexer

def withoutTime (record : IndexRecord) : IndexRecord := { record with indexedAt := 0 }

theorem buildRecord_withoutTime (docId configVersion : String) (envelope : ArrivalEnvelope)
    (first second : DateTime) (ec : EmbeddedChunk) :
    (buildRecord docId envelope configVersion first ec).map withoutTime =
      (buildRecord docId envelope configVersion second ec).map withoutTime := by
  simp only [buildRecord]
  cases sectionPath ec.chunk.metadata <;> rfl

theorem built_withoutTime {docId configVersion : String} {envelope : ArrivalEnvelope}
    {embeddedChunks : List EmbeddedChunk} {first second : DateTime} {built again : List IndexRecord}
    (all : embeddedChunks.mapM (buildRecord docId envelope configVersion first) = .ok built)
    (once : embeddedChunks.mapM (buildRecord docId envelope configVersion second) = .ok again) :
    built.map withoutTime = again.map withoutTime := by
  have canonical {indexedAt : DateTime} {records : List IndexRecord}
      (each : embeddedChunks.mapM (buildRecord docId envelope configVersion indexedAt) = .ok records) :
      (records.map withoutTime).map (Except.ok : IndexRecord → Except Exc IndexRecord) =
        embeddedChunks.map fun ec => (buildRecord docId envelope configVersion 0 ec).map withoutTime := by
    rw [List.map_map]
    refine map_of_mapM_ok (fun ec record one => ?_) each
    rw [← buildRecord_withoutTime docId configVersion envelope indexedAt 0 ec, one]
    rfl
  have same := (canonical all).trans (canonical once).symm
  exact List.map_injective_iff.mpr (fun _ _ equal => Except.ok.inj equal) same

theorem last_withoutTime {docId configVersion : String} {envelope : ArrivalEnvelope}
    {embeddedChunks : List EmbeddedChunk} {first second : DateTime} {built again : List IndexRecord}
    (all : embeddedChunks.mapM (buildRecord docId envelope configVersion first) = .ok built)
    (once : embeddedChunks.mapM (buildRecord docId envelope configVersion second) = .ok again) (chunkId : String) :
    (KeyedStore.last IndexRecord.chunkId built chunkId).map withoutTime =
      (KeyedStore.last IndexRecord.chunkId again chunkId).map withoutTime := by
  have keyed (record : IndexRecord) : (withoutTime record).chunkId = record.chunkId := rfl
  rw [KeyedStore.map_last _ keyed, KeyedStore.map_last _ keyed, built_withoutTime all once]

section Progress

variable (self : Indexer) (owner : String → String) (envelope : ArrivalEnvelope)
  (embeddedChunks : List EmbeddedChunk) (configVersion : String)

def Attempted (chunkId : String) (record : IndexRecord) : Prop :=
  0 < effectiveBatchSize self.config.batchSize self.maxBatchSize ∧ ∃ indexedAt built,
    embeddedChunks.mapM (buildRecord envelope.docId envelope configVersion indexedAt) = .ok built ∧
      record ∈ built ∧ record.chunkId = chunkId

def Deleting (before after : String → Option IndexRecord) : Prop :=
  Stale self owner envelope.docId envelope.contentHash before ∧ ∀ chunkId, owner chunkId = envelope.docId →
    after chunkId = before chunkId ∨ after chunkId = none

def Writing (before after : String → Option IndexRecord) : Prop :=
  ∀ chunkId, owner chunkId = envelope.docId →
    after chunkId = purged self owner envelope.docId envelope.contentHash before chunkId ∨
      ∃ record, after chunkId = some record ∧ Attempted self envelope embeddedChunks configVersion chunkId record

def Elsewhere (docId : String) (before after : String → Option IndexRecord) : Prop :=
  ∀ chunkId, owner chunkId ≠ docId → after chunkId = before chunkId

def Progress (before after : String → Option IndexRecord) : Prop :=
  Elsewhere owner envelope.docId before after ∧ (Deleting self owner envelope before after ∨
    Writing self owner envelope embeddedChunks configVersion before after)

variable {self owner envelope embeddedChunks configVersion} {before after : String → Option IndexRecord}

theorem progress_refl : Progress self owner envelope embeddedChunks configVersion before before := by
  refine ⟨fun _ _ => rfl, ?_⟩
  by_cases stale : Stale self owner envelope.docId envelope.contentHash before
  next => exact .inl ⟨stale, fun _ _ => .inl rfl⟩
  next => exact .inr fun chunkId _ => .inl (by rw [purged_of_fresh stale])

theorem attempted_version {chunkId : String} {record : IndexRecord}
    (attempted : Attempted self envelope embeddedChunks configVersion chunkId record) :
    record.docVersion = envelope.contentHash := by
  obtain ⟨_, indexedAt, built, all, member, _⟩ := attempted
  obtain ⟨ec, _, of⟩ := recordOf_of_built all member
  exact of.docVersion

theorem allVersion_of_writing (on : self.config.deleteBeforeUpsertOnVersionChange = true)
    (writing : Writing self owner envelope embeddedChunks configVersion before after) :
    AllVersion owner envelope.docId envelope.contentHash after := by
  intro chunkId record held own
  rcases writing chunkId own with base | ⟨written, placed, attempted⟩
  next =>
    have purgedVersion : AllVersion owner envelope.docId envelope.contentHash
        (purged self owner envelope.docId envelope.contentHash before) := allVersion_of_purged on rfl
    exact purgedVersion chunkId record (by rw [← base, held]) own
  next =>
    obtain rfl : written = record := by simpa [placed] using held
    exact attempted_version attempted

theorem fresh_of_writing (writing : Writing self owner envelope embeddedChunks configVersion before after) :
    ¬ Stale self owner envelope.docId envelope.contentHash after := by
  intro stale
  obtain ⟨on, chunkId, record, held, own, other⟩ := stale
  exact other (allVersion_of_writing on writing chunkId record held own)

theorem oneVersion_of_progress (single : OneVersion owner envelope.docId before)
    (progress : Progress self owner envelope embeddedChunks configVersion before after)
    (on : self.config.deleteBeforeUpsertOnVersionChange = true) : OneVersion owner envelope.docId after := by
  intro first second record other held also own ownOther
  rcases progress.2 with deleting | writing
  next =>
    have old (chunkId : String) (found : IndexRecord) (stays : after chunkId = some found)
        (mine : owner chunkId = envelope.docId) : before chunkId = some found := by
      rcases deleting.2 chunkId mine with same | gone
      next => rw [← same, stays]
      next => simp [gone] at stays
    exact single first second record other (old first record held own) (old second other also ownOther) own ownOther
  next =>
    have all := allVersion_of_writing on writing
    rw [all first record held own, all second other also ownOther]

-- Whatever the attempts before have left, the delete of the next one ends the first phase.
theorem writing_of_purged (single : OneVersion owner envelope.docId before)
    (progress : Progress self owner envelope embeddedChunks configVersion before after) :
    Writing self owner envelope embeddedChunks configVersion before
      (purged self owner envelope.docId envelope.contentHash after) := by
  rcases progress.2 with deleting | writing
  next =>
    intro chunkId own
    left
    obtain ⟨stale, remains⟩ := deleting
    have base : purged self owner envelope.docId envelope.contentHash before chunkId = none := by
      simp [purged, stale, own]
    rw [base]
    by_cases staleAfter : Stale self owner envelope.docId envelope.contentHash after
    next => simp [purged, staleAfter, own]
    next =>
      rw [purged_of_fresh staleAfter]
      rcases remains chunkId own with same | gone
      next =>
        -- A record still there would be of the old version.
        cases held : after chunkId with
        | none => rfl
        | some record =>
          obtain ⟨on, other, found, heldOther, ownOther, differs⟩ := stale
          have old := single other chunkId found record heldOther (by rw [← same, held]) ownOther own
          exact (staleAfter ⟨on, chunkId, record, held, own, by rw [← old]; exact differs⟩).elim
      next => exact gone
  next =>
    rw [purged_of_fresh (fresh_of_writing writing)]
    exact writing

theorem elsewhere_of_purged (elsewhere : Elsewhere owner envelope.docId before after) :
    Elsewhere owner envelope.docId before (purged self owner envelope.docId envelope.contentHash after) := by
  intro chunkId foreign
  simp [purged, foreign, elsewhere chunkId foreign]

theorem purged_agrees (single : OneVersion owner envelope.docId before)
    (progress : Progress self owner envelope embeddedChunks configVersion before after) {chunkId : String}
    (unwritten : ∀ record, ¬ Attempted self envelope embeddedChunks configVersion chunkId record) :
    purged self owner envelope.docId envelope.contentHash after chunkId =
      purged self owner envelope.docId envelope.contentHash before chunkId := by
  by_cases own : owner chunkId = envelope.docId
  next =>
    rcases writing_of_purged single progress chunkId own with same | ⟨record, _, attempted⟩
    next => exact same
    next => exact (unwritten record attempted).elim
  next => simp [purged, own, progress.1 chunkId own]

end Progress

section Attempt

variable {V X A : Type} {answer : A → (o : Op) → o.Res} {adapter : IndexerAdapter V X} {owner : String → String}
  (contract : Contract adapter owner) {self : Indexer} {envelope : ArrivalEnvelope}
  {embeddedChunks : List EmbeddedChunk} {configVersion : String} {before : String → Option IndexRecord}

theorem progress_of_delete {index : X} (valid : contract.Valid index)
    (progress : Progress self owner envelope embeddedChunks configVersion before (contract.records index))
    (stale : Stale self owner envelope.docId envelope.contentHash (contract.records index)) (v : V) :
    Progress self owner envelope embeddedChunks configVersion before
      (contract.records (adapter.deleteByDocId v envelope.docId index).2) := by
  have touches := contract.deleteTouches v envelope.docId valid
  constructor
  next =>
    intro chunkId foreign
    rcases touches chunkId with same | ⟨_, own⟩
    next => rw [same, progress.1 chunkId foreign]
    next => exact (foreign own).elim
  next =>
    rcases progress.2 with ⟨wasStale, remains⟩ | writing
    next =>
      refine .inl ⟨wasStale, fun chunkId own => ?_⟩
      rcases touches chunkId with same | ⟨gone, _⟩
      next => rw [same]; exact remains chunkId own
      next => exact .inr gone
    next => exact (fresh_of_writing writing stale).elim

theorem progress_of_upsert {index : X} (valid : contract.Valid index)
    (own : ChunksOf owner envelope.docId embeddedChunks)
    (elsewhere : Elsewhere owner envelope.docId before (contract.records index))
    (writing : Writing self owner envelope embeddedChunks configVersion before (contract.records index))
    (positive : 0 < effectiveBatchSize self.config.batchSize self.maxBatchSize) {indexedAt : DateTime}
    {built given : List IndexRecord}
    (all : embeddedChunks.mapM (buildRecord envelope.docId envelope configVersion indexedAt) = .ok built)
    (part : given ⊆ built) (v : V) :
    Elsewhere owner envelope.docId before (contract.records (adapter.upsert v given index).2) ∧
      Writing self owner envelope embeddedChunks configVersion before
        (contract.records (adapter.upsert v given index).2) := by
  have ownBuilt := owned_of_built own all
  have touches := contract.upsertTouches v valid (fun record member => ownBuilt record (part member))
  constructor
  next =>
    intro chunkId foreign
    rcases touches chunkId with same | ⟨record, member, rfl, _⟩
    next => rw [same, elsewhere chunkId foreign]
    next =>
      obtain ⟨ec, _, of⟩ := recordOf_of_built all (part member)
      exact (foreign (by rw [← ownBuilt record (part member), of.docId])).elim
  next =>
    intro chunkId mine
    rcases touches chunkId with same | ⟨record, member, named, placed⟩
    next => rw [same]; exact writing chunkId mine
    next => exact .inr ⟨record, placed, positive, indexedAt, built, all, part member, named⟩

-- Every operation of an attempt leaves the records on the way.
theorem wp_index_progress (answered : ∀ a, configVersionOf (answer a (.ledgerGet envelope.docId)) = configVersion)
    (own : ChunksOf owner envelope.docId embeddedChunks) (single : OneVersion owner envelope.docId before) {index : X}
    (valid : contract.Valid index)
    (progress : Progress self owner envelope embeddedChunks configVersion before (contract.records index)) :
    Prog.wp (storeView answer adapter) (fun after => contract.Valid after ∧
        Progress self owner envelope embeddedChunks configVersion before (contract.records after))
      (self.index envelope embeddedChunks).run
      (Ends (fun after => contract.Valid after ∧
          Progress self owner envelope embeddedChunks configVersion before (contract.records after))
        (fun after => ∃ a, Rewrites contract self envelope embeddedChunks
          (configVersionOf (answer a (.ledgerGet envelope.docId))) index after)) index := by
  refine wp_index_rewrites contract (J := fun after => contract.Valid after ∧
      Elsewhere owner envelope.docId before (contract.records after) ∧
        Writing self owner envelope embeddedChunks configVersion before (contract.records after))
    (fun held => held.1) self envelope own (oneVersion_of_progress single progress) (fun v index held => ?_)
    (fun v index held stale => ⟨contract.deleteValid v envelope.docId held.1,
      progress_of_delete contract held.1 held.2 stale v⟩)
    (fun held => ⟨held.1, held.2.1, .inr held.2.2⟩) (fun after held same => ?_)
    (fun positive a indexedAt built all v given index part held => ?_) ⟨valid, progress⟩
  next =>
    refine ⟨contract.versionValid v envelope.docId held.1, ?_⟩
    rw [contract.versionKeeps v envelope.docId held.1]
    exact held.2
  next =>
    refine ⟨held.1, ?_⟩
    rw [same]
    exact ⟨elsewhere_of_purged progress.1, writing_of_purged single progress⟩
  next =>
    rw [answered a] at all
    have ownBuilt := owned_of_built own all
    exact ⟨contract.upsertValid v held.1 (fun record member => ownBuilt record (part member)),
      progress_of_upsert contract held.1 own held.2.1 held.2.2 positive all part v⟩

theorem unwritten_of_not_given {indexedAt : DateTime} {built : List IndexRecord}
    (all : embeddedChunks.mapM (buildRecord envelope.docId envelope configVersion indexedAt) = .ok built)
    {chunkId : String} (missing : KeyedStore.last IndexRecord.chunkId built chunkId = none) (record : IndexRecord) :
    ¬ Attempted self envelope embeddedChunks configVersion chunkId record := by
  intro attempted
  obtain ⟨_, _, records, made, member, named⟩ := attempted
  refine (last_built_eq_none all chunkId).mp missing ?_
  rw [← chunkIds_of_built made, ← named]
  exact List.mem_map_of_mem member

-- Two attempts that return, one from the start and one from wherever earlier ones have come.
theorem withoutTime_of_rewrites {start middle after once : X}
    (single : OneVersion owner envelope.docId (contract.records start))
    (progress : Progress self owner envelope embeddedChunks configVersion (contract.records start)
      (contract.records middle))
    (last : Rewrites contract self envelope embeddedChunks configVersion middle after)
    (only : Rewrites contract self envelope embeddedChunks configVersion start once) (chunkId : String) :
    (contract.records after chunkId).map withoutTime = (contract.records once chunkId).map withoutTime := by
  obtain ⟨lastAt, built, batches, all, split, written⟩ := last
  obtain ⟨onlyAt, again, parts, each, cut, wrote⟩ := only
  rw [written, wrote]
  rcases batched_cases split with ⟨positive, whole⟩ | ⟨negative, rfl⟩
  next =>
    rw [whole, batched_flatten positive cut]
    have latest := last_withoutTime all each chunkId
    cases found : KeyedStore.last IndexRecord.chunkId built chunkId with
    | some record =>
      rw [found, Option.map_some] at latest
      obtain ⟨other, foundOther, same⟩ := Option.map_eq_some_iff.mp latest.symm
      simp [KeyedStore.overwrite, found, foundOther, same]
    | none =>
      have foundOther : KeyedStore.last IndexRecord.chunkId again chunkId = none := by
        simpa [found] using latest.symm
      have same := purged_agrees single progress (unwritten_of_not_given all found)
      simp [KeyedStore.overwrite, found, foundOther, same]
  next =>
    have nothing : parts = [] := by
      rcases batched_cases cut with ⟨positive, _⟩ | ⟨_, none⟩
      next => omega
      next => exact none
    have unwritten (record : IndexRecord) : ¬ Attempted self envelope embeddedChunks configVersion chunkId record := by
      intro attempted
      have positive := attempted.1
      omega
    simp [nothing, KeyedStore.overwrite, purged_agrees single progress unwritten]

end Attempt

-- Between two attempts the ledger moves on, by transitions of this document or of others. None of them
-- changes the `config_version` that the records carry.

theorem configVersionOf_transition (ledger : InMemoryLedgerStore) (now : DateTime) (request : TransitionRequest)
    (docId : String) :
    configVersionOf ((ledger.transition now request).2.get docId) = configVersionOf (ledger.get docId) := by
  rcases ledger.transition_cases now request with ⟨fault, refused⟩ | ⟨current, present, _, _, _, _, moved⟩
  next => rw [refused]
  next =>
    rw [moved, InMemoryLedgerStore.get_put]
    split
    next same =>
      rw [same, present]
      rfl
    next => rfl

structure Attempt (V : Type) where
  updates : List (DateTime × TransitionRequest) := []
  oracle : Nat → World × V
  steps : Nat

section Attempts

variable {V X : Type} (adapter : IndexerAdapter V X) (self : Indexer) (envelope : ArrivalEnvelope)
  (embeddedChunks : List EmbeddedChunk)

def applyUpdates (updates : List (DateTime × TransitionRequest)) (system : System) : System :=
  { system with ledger := updates.foldl (fun ledger update => (ledger.transition update.1 update.2).2) system.ledger }

def attempt (s : System × X) (attempt : Attempt V) : System × X :=
  (Prog.steps (pipeline adapter) attempt.steps attempt.oracle
    ((self.index envelope embeddedChunks).run, (applyUpdates attempt.updates s.1, s.2))).2

def attempts (s : System × X) (all : List (Attempt V)) : System × X :=
  all.foldl (attempt adapter self envelope embeddedChunks) s

def finalAttempt (s : System × X) (oracle : Nat → World × V) : Except Exc IndexResult × System × X :=
  Prog.run (pipeline adapter) (self.index envelope embeddedChunks).run oracle s

variable {adapter self envelope embeddedChunks} {owner : String → String} (contract : Contract adapter owner)

theorem configVersionOf_applyUpdates (updates : List (DateTime × TransitionRequest)) (system : System)
    (docId : String) :
    configVersionOf ((applyUpdates updates system).ledger.get docId) = configVersionOf (system.ledger.get docId) := by
  simp only [applyUpdates]
  generalize system.ledger = ledger
  induction updates generalizing ledger with
  | nil => rfl
  | cons update rest ih => rw [List.foldl_cons, ih, configVersionOf_transition]

theorem configVersionOf_pipeline (w : World × V) (o : Op) (s : System × X) (docId : String) :
    configVersionOf ((pipeline adapter w o s).2.1.ledger.get docId) = configVersionOf (s.1.ledger.get docId) := by
  cases o with
  | ledgerTransition request => exact configVersionOf_transition s.1.ledger w.1.now request docId
  | _ => rfl

def Underway (self : Indexer) (envelope : ArrivalEnvelope) (embeddedChunks : List EmbeddedChunk)
    (start s : System × X) : Prop :=
  configVersionOf (s.1.ledger.get envelope.docId) = configVersionOf (start.1.ledger.get envelope.docId) ∧
    contract.Valid s.2 ∧ Progress self owner envelope embeddedChunks
      (configVersionOf (start.1.ledger.get envelope.docId)) (contract.records start.2) (contract.records s.2)

theorem wp_index_underway (own : ChunksOf owner envelope.docId embeddedChunks) {start s : System × X}
    (single : OneVersion owner envelope.docId (contract.records start.2))
    (underway : Underway contract self envelope embeddedChunks start s) :
    Prog.wp (pipeline adapter) (Underway contract self envelope embeddedChunks start)
      (self.index envelope embeddedChunks).run
      (fun result after => Underway contract self envelope embeddedChunks start after ∧
        ∀ value, result = .ok value → Rewrites contract self envelope embeddedChunks
          (configVersionOf (start.1.ledger.get envelope.docId)) s.2 after.2) s := by
  obtain ⟨sameConfig, valid, progress⟩ := underway
  -- The ledger may answer anything, as long as it answers with the `config_version` of the start.
  let Answers := { answers : (o : Op) → o.Res // configVersionOf (answers (.ledgerGet envelope.docId)) =
    configVersionOf (start.1.ledger.get envelope.docId) }
  let answer (answers : Answers) (o : Op) : o.Res := answers.1 o
  have answered (answers : Answers) : configVersionOf (answer answers (.ledgerGet envelope.docId)) =
      configVersionOf (start.1.ledger.get envelope.docId) := answers.2
  have call := wp_index_progress contract answered own single valid progress
  have inPipeline := wp_of_storeView
    (K := fun s : System × X => configVersionOf (s.1.ledger.get envelope.docId) =
      configVersionOf (start.1.ledger.get envelope.docId))
    (fun w o s same => (configVersionOf_pipeline w o s envelope.docId).trans same)
    (fun w o s same => ⟨⟨fun o => (pipeline adapter w o s).1, same⟩, fun _ => rfl⟩) sameConfig call
  refine Prog.wp_mono (fun result after ended => ⟨⟨ended.1, ended.2.1⟩, fun value same => ?_⟩) inPipeline
  obtain ⟨answers, rewrites⟩ := ended.2.2 value same
  rw [← answers.2]
  exact rewrites

theorem underway_of_attempts (own : ChunksOf owner envelope.docId embeddedChunks) {start s : System × X}
    (single : OneVersion owner envelope.docId (contract.records start.2))
    (underway : Underway contract self envelope embeddedChunks start s) (all : List (Attempt V)) :
    Underway contract self envelope embeddedChunks start (attempts adapter self envelope embeddedChunks s all) := by
  induction all generalizing s with
  | nil => exact underway
  | cons first rest ih =>
    apply ih
    have updated : Underway contract self envelope embeddedChunks start (applyUpdates first.updates s.1, s.2) :=
      ⟨(configVersionOf_applyUpdates first.updates s.1 envelope.docId).trans underway.1, underway.2⟩
    exact (Prog.steps_of_wp updated (wp_index_underway contract own single updated) first.steps first.oracle).1

def SameOutside (docId : String) (before after : String → Option IndexRecord) : Prop :=
  ∀ chunkId record, record.docId ≠ docId → (after chunkId = some record ↔ before chunkId = some record)

theorem sameOutside_of_underway {start s : System × X} (valid : contract.Valid start.2)
    (underway : Underway contract self envelope embeddedChunks start s) :
    SameOutside envelope.docId (contract.records start.2) (contract.records s.2) := by
  obtain ⟨_, validAfter, elsewhere, _⟩ := underway
  intro chunkId record foreign
  constructor
  next =>
    intro held
    rw [← elsewhere chunkId (by rw [← contract.owned validAfter held]; exact foreign), held]
  next =>
    intro held
    rw [elsewhere chunkId (by rw [← contract.owned valid held]; exact foreign), held]

theorem retry_idempotent (self : Indexer) (envelope : ArrivalEnvelope) (embeddedChunks : List EmbeddedChunk)
    (own : ChunksOf owner envelope.docId embeddedChunks) (start : System × X) (valid : contract.Valid start.2)
    (single : SharesVersion envelope.docId (contract.records start.2)) (failed : List (Attempt V)) :
    SameOutside envelope.docId (contract.records start.2)
        (contract.records (attempts adapter self envelope embeddedChunks start failed).2) ∧
      ∀ oracle once,
        (finalAttempt adapter self envelope embeddedChunks
          (attempts adapter self envelope embeddedChunks start failed) oracle).1.isOk →
        (finalAttempt adapter self envelope embeddedChunks start once).1.isOk →
        SameOutside envelope.docId (contract.records start.2)
          (contract.records (finalAttempt adapter self envelope embeddedChunks
            (attempts adapter self envelope embeddedChunks start failed) oracle).2.2) ∧
        ∀ chunkId,
          (contract.records (finalAttempt adapter self envelope embeddedChunks
            (attempts adapter self envelope embeddedChunks start failed) oracle).2.2 chunkId).map withoutTime =
          (contract.records (finalAttempt adapter self envelope embeddedChunks start once).2.2 chunkId).map
            withoutTime := by
  have one : OneVersion owner envelope.docId (contract.records start.2) := (sharesVersion_iff contract valid).mp single
  have begun : Underway contract self envelope embeddedChunks start start := ⟨rfl, valid, progress_refl⟩
  have underway := underway_of_attempts contract own one begun failed
  refine ⟨sameOutside_of_underway contract valid underway, fun oracle once returned returnedOnce => ?_⟩
  have ended := Prog.run_of_wp (wp_index_underway contract own one underway) oracle
  have endedOnce := Prog.run_of_wp (wp_index_underway contract own one begun) once
  refine ⟨sameOutside_of_underway contract valid ended.1, ?_⟩
  obtain ⟨receipt, result⟩ := exists_of_isOk returned
  obtain ⟨receiptOnce, resultOnce⟩ := exists_of_isOk returnedOnce
  exact withoutTime_of_rewrites contract one underway.2.2 (ended.2 receipt result) (endedOnce.2 receiptOnce resultOnce)

end Attempts

def firstVersion : IndexCall InMemoryIndexer.CallFate := sampleCall digestAbc digestAbc_hex ["c1", "c2"] (fun _ => {})

def secondVersion : IndexCall InMemoryIndexer.CallFate :=
  sampleCall digestAbcd digestAbcd_hex ["c1", "c3"] (fun _ => {})

def firstIndex : InMemoryIndexer := IndexCall.runAll InMemoryIndexer.flakyAdapter [firstVersion] {}

theorem kept_firstIndex : Kept (InMemoryIndexer.flakyContract fun _ => digestAbc) firstIndex := by
  unfold firstIndex
  refine kept_of_runAll (InMemoryIndexer.flakyContract fun _ => digestAbc) [firstVersion] (fun call member => ?_)
    (fun call member ec _ => ?_) ⟨InMemoryIndexer.repInv_empty, singleVersion_empty⟩
  next =>
    obtain rfl := List.mem_singleton.mp member
    rfl
  next =>
    obtain rfl := List.mem_singleton.mp member
    rfl

-- The fourth operation is the delete, the fifth the upsert; each loses its connection half-way.
def lostAt (operation : Nat) (reached : String) : Attempt InMemoryIndexer.CallFate where
  oracle step := ({}, { failure := if step = operation then some (.other "connection lost") else none,
                        reaches := fun chunkId => chunkId = reached })
  steps := 10

def healthy : Nat → World × InMemoryIndexer.CallFate := fun _ => ({}, {})

def afterFirst : System × InMemoryIndexer := (StageCall.sampleSystem.1, firstIndex)

def retried (failed : List (Attempt InMemoryIndexer.CallFate)) : System × InMemoryIndexer :=
  attempts InMemoryIndexer.flakyAdapter secondVersion.indexer secondVersion.envelope secondVersion.embeddedChunks
    afterFirst failed

def finished (s : System × InMemoryIndexer) : Except Exc IndexResult × System × InMemoryIndexer :=
  finalAttempt InMemoryIndexer.flakyAdapter secondVersion.indexer secondVersion.envelope secondVersion.embeddedChunks
    s healthy

theorem retry_idempotent_after_lost_connections :
    (finished (retried [lostAt 3 "c2", lostAt 4 "c3"])).1.isOk ∧
      ∀ chunkId, ((finished (retried [lostAt 3 "c2", lostAt 4 "c3"])).2.2.records.get? chunkId).map withoutTime =
        ((finished afterFirst).2.2.records.get? chunkId).map withoutTime := by
  have returned : (finished (retried [lostAt 3 "c2", lostAt 4 "c3"])).1.isOk := by decide +kernel
  have returnedOnce : (finished afterFirst).1.isOk := by decide +kernel
  refine ⟨returned, ?_⟩
  have idempotent := retry_idempotent (InMemoryIndexer.flakyContract fun _ => digestAbc) secondVersion.indexer
    secondVersion.envelope secondVersion.embeddedChunks (fun _ _ => rfl) afterFirst kept_firstIndex.1
    (fun first second record other held also mine same =>
      kept_firstIndex.2 first second record other held also (mine.trans same.symm)) [lostAt 3 "c2", lostAt 4 "c3"]
  unfold finished retried at *
  have same := (idempotent.2 healthy healthy returned returnedOnce).2
  simp only [InMemoryIndexer.flakyContract] at same
  exact same

end Indexer

end Vestibule
