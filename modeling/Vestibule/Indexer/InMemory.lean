import Vestibule.Indexer.Contract

set_option autoImplicit false

namespace Vestibule

open Library

-- Each list of `byDoc` stands for a set: it has no duplicates and its order is never read.
structure InMemoryIndexer where
  records : Dict String IndexRecord := .empty
  byDoc : Dict String (List String) := .empty

namespace InMemoryIndexer

def maxBatchSize : Int := 1000

def chunkIds (index : InMemoryIndexer) (docId : String) : List String := (index.byDoc.get? docId).getD []

def put (index : InMemoryIndexer) (record : IndexRecord) : InMemoryIndexer where
  records := index.records.insert record.chunkId record
  byDoc := index.byDoc.insert record.docId ((index.chunkIds record.docId).insert record.chunkId)

def upsert (index : InMemoryIndexer) (records : List IndexRecord) : UpsertOutcome × InMemoryIndexer :=
  (⟨records.map (·.chunkId), []⟩, records.foldl put index)

def deleteByDocId (index : InMemoryIndexer) (docId : String) : Int × InMemoryIndexer :=
  ((index.chunkIds docId).length,
    { records := (index.chunkIds docId).foldl Dict.erase index.records, byDoc := index.byDoc.erase docId })

def countByDocId (index : InMemoryIndexer) (docId : String) : Int := (index.chunkIds docId).length

-- The first element a set yields may be any of its elements: `sample`, if it is one.
def anyChunkId (sample : String) (chunkIds : List String) : Option String :=
  if sample ∈ chunkIds then some sample else chunkIds.head?

def getDocVersion (sample : String) (index : InMemoryIndexer) (docId : String) : Except Exc (Option String) :=
  match anyChunkId sample (index.chunkIds docId) with
  | none => .ok none
  | some chunkId =>
      match index.records.get? chunkId with
      | none => .error (.other (reprStr chunkId))
      | some record => .ok (some record.docVersion)

def adapter : IndexerAdapter String InMemoryIndexer where
  getDocVersion sample docId index := (index.getDocVersion sample docId, index)
  deleteByDocId _ docId index := ((.ok (index.deleteByDocId docId).1), (index.deleteByDocId docId).2)
  upsert _ records index := (.ok (index.upsert records).1, (index.upsert records).2)

structure RepInv (owner : String → String) (index : InMemoryIndexer) : Prop where
  owned : ∀ chunkId record, index.records.get? chunkId = some record → record.docId = owner chunkId
  listed : ∀ docId chunkId,
    chunkId ∈ index.chunkIds docId ↔ (index.records.get? chunkId).isSome ∧ owner chunkId = docId

variable {owner : String → String} {index : InMemoryIndexer}

theorem repInv_empty : RepInv owner {} := ⟨by simp, by simp [chunkIds]⟩

theorem chunkIds_put (record : IndexRecord) (docId : String) :
    (index.put record).chunkIds docId =
      if docId = record.docId then (index.chunkIds docId).insert record.chunkId else index.chunkIds docId := by
  simp only [chunkIds, put, Dict.get?_insert]
  split
  next same => simp [same]
  next => rfl

theorem records_put (record : IndexRecord) (chunkId : String) :
    (index.put record).records.get? chunkId =
      if chunkId = record.chunkId then some record else index.records.get? chunkId :=
  Dict.get?_insert ..

theorem RepInv.put (inv : RepInv owner index) {record : IndexRecord} (own : record.docId = owner record.chunkId) :
    RepInv owner (index.put record) := by
  constructor
  next =>
    intro chunkId held present
    rw [records_put] at present
    split at present
    next same =>
      cases present
      rw [same, own]
    next => exact inv.owned chunkId held present
  next =>
    intro docId chunkId
    have old := inv.listed docId chunkId
    rw [chunkIds_put, records_put]
    by_cases same : chunkId = record.chunkId
    next =>
      subst same
      by_cases mine : docId = record.docId
      next => simp [mine, own]
      next =>
        have other : ¬ owner record.chunkId = docId := fun equal => mine (by rw [own, equal])
        simpa [mine, other] using old
    next =>
      split
      next => simpa [same] using old
      next => simpa [same] using old

theorem RepInv.foldl_put (inv : RepInv owner index) {batch : List IndexRecord} (own : Indexer.Owned owner batch) :
    RepInv owner (batch.foldl InMemoryIndexer.put index) := by
  induction batch generalizing index with
  | nil => exact inv
  | cons record rest ih =>
    exact ih (inv.put (own record (by simp))) fun other member => own other (by simp [member])

theorem records_foldl_put (batch : List IndexRecord) :
    (batch.foldl put index).records.get? = Indexer.stored index.records.get? batch := by
  induction batch generalizing index with
  | nil => rfl
  | cons record rest ih =>
    have one : (index.put record).records.get? = Indexer.stored index.records.get? [record] := by
      funext chunkId
      simp only [records_put, KeyedStore.overwrite, KeyedStore.last]
      by_cases same : chunkId = record.chunkId
      next => simp [same]
      next => simp [same, Ne.symm same]
    rw [List.foldl_cons, ih, one]
    exact KeyedStore.overwrite_overwrite ..

theorem RepInv.removed (inv : RepInv owner index) {after : InMemoryIndexer} (docId : String) {gone : List String}
    (inside : gone ⊆ index.chunkIds docId)
    (records : ∀ chunkId, after.records.get? chunkId = if chunkId ∈ gone then none else index.records.get? chunkId)
    (ids : ∀ other, after.chunkIds other =
      if other = docId then (index.chunkIds docId).filter (· ∉ gone) else index.chunkIds other) :
    RepInv owner after := by
  constructor
  next =>
    intro chunkId record held
    rw [records] at held
    split at held
    next => cases held
    next => exact inv.owned chunkId record held
  next =>
    intro other chunkId
    have old := inv.listed other chunkId
    rw [ids, records]
    by_cases lost : chunkId ∈ gone
    next =>
      have mine := ((inv.listed docId chunkId).mp (inside lost)).2
      split
      next => simp [lost]
      next different =>
        have foreign : ¬ owner chunkId = other := fun equal => different (by rw [← equal, mine])
        simpa [lost, foreign] using old
    next =>
      split
      next same =>
        subst same
        simpa [lost] using old
      next => simpa [lost] using old

theorem records_deleteByDocId (docId chunkId : String) :
    (index.deleteByDocId docId).2.records.get? chunkId =
      if chunkId ∈ index.chunkIds docId then none else index.records.get? chunkId :=
  Dict.get?_foldl_erase ..

theorem chunkIds_deleteByDocId (docId other : String) :
    (index.deleteByDocId docId).2.chunkIds other = if other = docId then [] else index.chunkIds other := by
  simp only [chunkIds, InMemoryIndexer.deleteByDocId, Dict.get?_erase]
  split <;> rfl

theorem RepInv.deleteByDocId (inv : RepInv owner index) (docId : String) :
    RepInv owner (index.deleteByDocId docId).2 := by
  refine inv.removed docId (fun _ member => member) (records_deleteByDocId docId) fun other => ?_
  have none : (index.chunkIds docId).filter (· ∉ index.chunkIds docId) = [] :=
    List.filter_eq_nil_iff.mpr fun chunkId member => by simp [member]
  rw [chunkIds_deleteByDocId, none]

theorem getDocVersion_cases (inv : RepInv owner index) (sample docId : String) :
    index.getDocVersion sample docId = .ok none ∧ index.chunkIds docId = [] ∨
      ∃ chunkId record, index.records.get? chunkId = some record ∧ owner chunkId = docId ∧
        index.getDocVersion sample docId = .ok (some record.docVersion) := by
  cases found : anyChunkId sample (index.chunkIds docId) with
  | none =>
    refine .inl ⟨by simp [getDocVersion, found], ?_⟩
    simp only [anyChunkId] at found
    split at found
    next => cases found
    next => simpa using found
  | some chunkId =>
    have member : chunkId ∈ index.chunkIds docId := by
      simp only [anyChunkId] at found
      split at found
      next inside =>
        obtain rfl := Option.some.inj found
        exact inside
      next => exact List.mem_of_mem_head? found
    obtain ⟨present, own⟩ := (inv.listed docId chunkId).mp member
    obtain ⟨record, held⟩ := Option.isSome_iff_exists.mp present
    exact .inr ⟨chunkId, record, held, own, by simp [getDocVersion, found, held]⟩

def contract (owner : String → String) : Indexer.Contract adapter owner where
  Valid := RepInv owner
  records index := index.records.get?
  owned inv _ _ held := inv.owned _ _ held
  versionValid _ _ _ inv := inv
  versionKeeps _ _ _ _ := rfl
  versionFound := by
    intro sample docId index inv version answer
    rcases getDocVersion_cases inv sample docId with ⟨none, _⟩ | ⟨chunkId, record, held, own, found⟩
    next =>
      rw [show adapter.getDocVersion sample docId index = (index.getDocVersion sample docId, index) from rfl, none]
        at answer
      cases answer
    next =>
      rw [show adapter.getDocVersion sample docId index = (index.getDocVersion sample docId, index) from rfl, found]
        at answer
      cases answer
      exact ⟨chunkId, record, held, own, rfl⟩
  versionNone := by
    intro sample docId index inv answer chunkId own
    rcases getDocVersion_cases inv sample docId with ⟨_, empty⟩ | ⟨_, record, _, _, found⟩
    next =>
      have absent := (inv.listed docId chunkId).not.mp (by simp [empty])
      simpa [own] using absent
    next =>
      rw [show adapter.getDocVersion sample docId index = (index.getDocVersion sample docId, index) from rfl, found]
        at answer
      cases answer
  deleteValid _ docId _ inv := inv.deleteByDocId docId
  deleteTouches := by
    intro _ docId index inv chunkId
    rw [show (adapter.deleteByDocId _ docId index).2 = (index.deleteByDocId docId).2 from rfl,
      records_deleteByDocId]
    split
    next listed => exact .inr ⟨rfl, ((inv.listed docId chunkId).mp listed).2⟩
    next => exact .inl rfl
  deleteClears := by
    intro _ docId index inv _ _ chunkId own
    rw [show (adapter.deleteByDocId _ docId index).2 = (index.deleteByDocId docId).2 from rfl,
      records_deleteByDocId]
    split
    next => rfl
    next unlisted =>
      have absent := (inv.listed docId chunkId).not.mp unlisted
      simpa [own] using absent
  upsertValid _ _ _ inv own := inv.foldl_put own
  upsertTouches := by
    intro _ batch index _ _ chunkId
    rw [show (adapter.upsert _ batch index).2 = batch.foldl put index from rfl, records_foldl_put]
    exact KeyedStore.overwrite_cases ..
  upsertStores := by
    intro _ batch index _ _ _ _ chunkId _
    rw [show (adapter.upsert _ batch index).2 = batch.foldl put index from rfl, records_foldl_put]

-- A failing call raises, and still reaches any part of the document or of the batch; an upsert may also
-- refuse a part of its batch and report it.

structure CallFate where
  failure : Option Exc := none
  reaches : String → Bool := fun _ => true
  sample : String := ""

def drop (index : InMemoryIndexer) (docId : String) (gone : List String) : InMemoryIndexer where
  records := gone.foldl Dict.erase index.records
  byDoc := index.byDoc.insert docId ((index.chunkIds docId).filter (· ∉ gone))

def flakyAdapter : IndexerAdapter CallFate InMemoryIndexer where
  getDocVersion fate docId index :=
    match fate.failure with
    | some exc => (.error exc, index)
    | none => (index.getDocVersion fate.sample docId, index)
  deleteByDocId fate docId index :=
    match fate.failure with
    | some exc => (.error exc, index.drop docId ((index.chunkIds docId).filter fate.reaches))
    | none => (.ok (index.deleteByDocId docId).1, (index.deleteByDocId docId).2)
  upsert fate batch index :=
    let reached := batch.filter (fun record => fate.reaches record.chunkId)
    let refused := batch.filter (fun record => !fate.reaches record.chunkId)
    match fate.failure with
    | some exc => (.error exc, reached.foldl put index)
    | none => (.ok ⟨reached.map (·.chunkId), refused.map fun record => (record.chunkId, "refused")⟩,
        reached.foldl put index)

theorem RepInv.drop (inv : RepInv owner index) (docId : String) {gone : List String}
    (inside : gone ⊆ index.chunkIds docId) : RepInv owner (index.drop docId gone) := by
  refine inv.removed docId inside (fun chunkId => Dict.get?_foldl_erase ..) fun other => ?_
  simp only [chunkIds, InMemoryIndexer.drop, Dict.get?_insert]
  split <;> rfl

theorem flaky_upsert_state (fate : CallFate) (batch : List IndexRecord) :
    (flakyAdapter.upsert fate batch index).2 =
      (batch.filter (fun record => fate.reaches record.chunkId)).foldl put index := by
  simp only [flakyAdapter]
  split <;> rfl

theorem flaky_upsert_ok {fate : CallFate} {batch : List IndexRecord} {outcome : UpsertOutcome}
    (answer : (flakyAdapter.upsert fate batch index).1 = .ok outcome) {record : IndexRecord} (member : record ∈ batch)
    (refused : fate.reaches record.chunkId = false) : record.chunkId ∈ Indexer.failedIds outcome := by
  simp only [flakyAdapter] at answer
  split at answer
  next => cases answer
  next =>
    cases answer
    simp only [Indexer.failedIds, List.map_map, List.mem_map, List.mem_filter]
    exact ⟨record, ⟨member, by simp [refused]⟩, rfl⟩

theorem flaky_delete_failed {fate : CallFate} {exc : Exc} (failed : fate.failure = some exc) (docId chunkId : String) :
    (flakyAdapter.deleteByDocId fate docId index).2.records.get? chunkId =
      if chunkId ∈ (index.chunkIds docId).filter fate.reaches then none else index.records.get? chunkId := by
  simp only [flakyAdapter, failed]
  exact Dict.get?_foldl_erase ..

def flakyContract (owner : String → String) : Indexer.Contract flakyAdapter owner where
  Valid := RepInv owner
  records index := index.records.get?
  owned inv _ _ held := inv.owned _ _ held
  versionValid fate docId index inv := by
    simp only [flakyAdapter]
    split <;> exact inv
  versionKeeps fate docId index _ := by
    simp only [flakyAdapter]
    split <;> rfl
  versionFound := by
    intro fate docId index inv version answer
    simp only [flakyAdapter] at answer
    split at answer
    next => cases answer
    next => exact (contract owner).versionFound inv answer
  versionNone := by
    intro fate docId index inv answer chunkId own
    simp only [flakyAdapter] at answer
    split at answer
    next => cases answer
    next => exact (contract owner).versionNone inv answer own
  deleteValid fate docId index inv := by
    simp only [flakyAdapter]
    split
    next => exact inv.drop docId (fun chunkId member => (List.mem_filter.mp member).1)
    next => exact inv.deleteByDocId docId
  deleteTouches := by
    intro fate docId index inv chunkId
    cases failed : fate.failure with
    | some exc =>
      rw [flaky_delete_failed failed]
      split
      next lost => exact .inr ⟨rfl, ((inv.listed docId chunkId).mp (List.mem_filter.mp lost).1).2⟩
      next => exact .inl rfl
    | none =>
      simp only [flakyAdapter, failed]
      exact (contract owner).deleteTouches "" docId inv chunkId
  deleteClears := by
    intro fate docId index inv count answer chunkId own
    cases failed : fate.failure with
    | some exc =>
      simp only [flakyAdapter, failed] at answer
      cases answer
    | none =>
      simp only [flakyAdapter, failed] at answer ⊢
      exact (contract owner).deleteClears (v := "") inv answer own
  upsertValid fate batch index inv own := by
    rw [flaky_upsert_state]
    exact inv.foldl_put fun record member => own record (List.mem_filter.mp member).1
  upsertTouches := by
    intro fate batch index _ _ chunkId
    rw [flaky_upsert_state, records_foldl_put]
    rcases KeyedStore.overwrite_cases IndexRecord.chunkId index.records.get?
      (batch.filter (fun record => fate.reaches record.chunkId)) chunkId with same | ⟨record, member, mine, found⟩
    next => exact .inl same
    next => exact .inr ⟨record, (List.mem_filter.mp member).1, mine, found⟩
  upsertStores := by
    intro fate batch index _ _ outcome answer chunkId accepted
    rw [flaky_upsert_state, records_foldl_put]
    simp only [KeyedStore.overwrite]
    cases reached : fate.reaches chunkId with
    | true => rw [KeyedStore.last_filter IndexRecord.chunkId fate.reaches reached]
    | false =>
      have absent : ∀ record ∈ batch, record.chunkId ≠ chunkId := by
        intro record member same
        exact accepted (same ▸ flaky_upsert_ok answer member (by rw [same]; exact reached))
      have nowhere : KeyedStore.last IndexRecord.chunkId batch chunkId = none :=
        (KeyedStore.last_eq_none _).mpr absent
      have nowhereReached : KeyedStore.last IndexRecord.chunkId
          (batch.filter (fun record => fate.reaches record.chunkId)) chunkId = none :=
        (KeyedStore.last_eq_none _).mpr fun record member => absent record (List.mem_filter.mp member).1
      rw [nowhere, nowhereReached]

inductive Call where
  | upsert (records : List IndexRecord)
  | deleteByDocId (docId : String)

def Call.written : Call → List IndexRecord
  | upsert records => records
  | deleteByDocId _ => []

def perform (index : InMemoryIndexer) : Call → InMemoryIndexer
  | .upsert records => (index.upsert records).2
  | .deleteByDocId docId => (index.deleteByDocId docId).2

def Consistent (calls : List Call) : Prop :=
  ∀ first ∈ calls.flatMap Call.written, ∀ second ∈ calls.flatMap Call.written,
    first.chunkId = second.chunkId → first.docId = second.docId

def recordsOf (index : InMemoryIndexer) (docId : String) : List IndexRecord :=
  index.records.values.filter (fun record => record.docId = docId)

structure InStep (index : InMemoryIndexer) : Prop where
  listed : ∀ docId chunkId, chunkId ∈ index.chunkIds docId ↔
    ∃ record, index.records.get? chunkId = some record ∧ record.docId = docId
  distinct : ∀ docId, (index.chunkIds docId).Nodup
  counted : ∀ docId, index.countByDocId docId = (index.recordsOf docId).length
  deleted : ∀ docId, (index.deleteByDocId docId).1 = (index.recordsOf docId).length ∧
    ∀ chunkId, (index.deleteByDocId docId).2.records.get? chunkId =
      (index.records.get? chunkId).filter (fun record => record.docId ≠ docId)
  version : ∀ sample docId, ∃ version, index.getDocVersion sample docId = .ok version ∧
    (version = none ↔ index.recordsOf docId = []) ∧
    ∀ held, version = some held → ∃ record ∈ index.recordsOf docId, record.docVersion = held

theorem mem_recordsOf {docId : String} {record : IndexRecord} :
    record ∈ index.recordsOf docId ↔
      ∃ chunkId, index.records.get? chunkId = some record ∧ record.docId = docId := by
  simp [recordsOf, Dict.mem_values]

def Distinct (index : InMemoryIndexer) : Prop := ∀ docId, (index.chunkIds docId).Nodup

theorem Distinct.put (distinct : Distinct index) (record : IndexRecord) : Distinct (index.put record) := by
  intro docId
  rw [chunkIds_put]
  split
  next => exact (distinct docId).insert
  next => exact distinct docId

theorem Distinct.foldl_put (distinct : Distinct index) (batch : List IndexRecord) :
    Distinct (batch.foldl InMemoryIndexer.put index) := by
  induction batch generalizing index with
  | nil => exact distinct
  | cons record rest ih => exact ih (distinct.put record)

theorem Distinct.perform (distinct : Distinct index) (call : Call) : Distinct (index.perform call) := by
  cases call with
  | upsert records => exact distinct.foldl_put records
  | deleteByDocId gone =>
    intro docId
    simp only [InMemoryIndexer.perform, chunkIds_deleteByDocId]
    split
    next => exact List.nodup_nil
    next => exact distinct docId

def ownerIn (calls : List Call) (chunkId : String) : String :=
  ((calls.flatMap Call.written).find? (fun record => record.chunkId = chunkId)).elim "" IndexRecord.docId

theorem Consistent.owned {calls : List Call} (consistent : Consistent calls) :
    Indexer.Owned (ownerIn calls) (calls.flatMap Call.written) := by
  intro record member
  cases found : (calls.flatMap Call.written).find? (fun other => other.chunkId = record.chunkId) with
  | none => simpa using List.find?_eq_none.mp found record member
  | some other =>
    have same : other.chunkId = record.chunkId := by simpa using List.find?_some found
    simp only [ownerIn, found, Option.elim]
    exact consistent record member other (List.mem_of_find?_eq_some found) same.symm

theorem RepInv.perform (inv : RepInv owner index) {call : Call} (own : Indexer.Owned owner call.written) :
    RepInv owner (index.perform call) := by
  cases call with
  | upsert records => exact inv.foldl_put own
  | deleteByDocId docId => exact inv.deleteByDocId docId

theorem kept_by_calls (calls : List Call) (own : Indexer.Owned owner (calls.flatMap Call.written))
    (inv : RepInv owner index) (distinct : Distinct index) :
    RepInv owner (calls.foldl InMemoryIndexer.perform index) ∧
      Distinct (calls.foldl InMemoryIndexer.perform index) := by
  induction calls generalizing index with
  | nil => exact ⟨inv, distinct⟩
  | cons call rest ih =>
    have first : Indexer.Owned owner call.written := fun record member => own record (by simp [member])
    have later : Indexer.Owned owner (rest.flatMap Call.written) := by
      intro record member
      apply own record
      rw [List.flatMap_cons]
      exact List.mem_append_right _ member
    exact ih later (inv.perform first) (distinct.perform call)

theorem RepInv.listed_iff (inv : RepInv owner index) (docId chunkId : String) :
    chunkId ∈ index.chunkIds docId ↔ ∃ record, index.records.get? chunkId = some record ∧ record.docId = docId := by
  rw [inv.listed, Option.isSome_iff_exists]
  constructor
  next =>
    rintro ⟨⟨record, held⟩, own⟩
    exact ⟨record, held, (inv.owned chunkId record held).trans own⟩
  next =>
    rintro ⟨record, held, own⟩
    exact ⟨⟨record, held⟩, (inv.owned chunkId record held).symm.trans own⟩

theorem RepInv.length_recordsOf (inv : RepInv owner index) (distinct : Distinct index) (docId : String) :
    (index.recordsOf docId).length = (index.chunkIds docId).length := by
  apply Dict.length_filter_values _ _ (distinct docId)
  intro chunkId
  simp [inv.listed_iff]

theorem RepInv.records_deleted (inv : RepInv owner index) (docId chunkId : String) :
    (index.deleteByDocId docId).2.records.get? chunkId =
      (index.records.get? chunkId).filter (fun record => record.docId ≠ docId) := by
  rw [records_deleteByDocId]
  cases held : index.records.get? chunkId with
  | none => simp
  | some record => simp [inv.listed_iff, held, Option.filter]

theorem RepInv.version (inv : RepInv owner index) (sample docId : String) :
    ∃ version, index.getDocVersion sample docId = .ok version ∧ (version = none ↔ index.recordsOf docId = []) ∧
      ∀ held, version = some held → ∃ record ∈ index.recordsOf docId, record.docVersion = held := by
  rcases getDocVersion_cases inv sample docId with ⟨answer, empty⟩ | ⟨chunkId, record, held, own, answer⟩
  next =>
    have none_ : index.recordsOf docId = [] := by
      apply List.eq_nil_iff_forall_not_mem.mpr
      intro record member
      obtain ⟨chunkId, held, mine⟩ := mem_recordsOf.mp member
      have listed := (inv.listed_iff docId chunkId).mpr ⟨record, held, mine⟩
      simp [empty] at listed
    exact ⟨none, answer, by simp [none_], by simp⟩
  next =>
    have member : record ∈ index.recordsOf docId :=
      mem_recordsOf.mpr ⟨chunkId, held, (inv.owned chunkId record held).trans own⟩
    refine ⟨some record.docVersion, answer, ?_, ?_⟩
    next => simp [List.ne_nil_of_mem member]
    next => exact fun version same => ⟨record, member, Option.some.inj same⟩

theorem RepInv.inStep (inv : RepInv owner index) (distinct : Distinct index) : InStep index where
  listed := inv.listed_iff
  distinct := distinct
  counted docId := by rw [inv.length_recordsOf distinct]; rfl
  deleted docId := ⟨by rw [inv.length_recordsOf distinct]; rfl, inv.records_deleted docId⟩
  version := inv.version

theorem Consistent.of_prefix {done calls : List Call} (consistent : Consistent calls) (reached : done <+: calls) :
    Consistent done := by
  obtain ⟨rest, rfl⟩ := reached
  intro first firstWritten second secondWritten
  rw [Consistent, List.flatMap_append] at consistent
  exact consistent first (List.mem_append_left _ firstWritten) second (List.mem_append_left _ secondWritten)

theorem inStep_throughout (calls : List Call) (consistent : Consistent calls) {done : List Call}
    (reached : done <+: calls) : InStep (done.foldl perform {}) := by
  have start : Distinct {} := fun _ => List.nodup_nil
  obtain ⟨inv, distinct⟩ := kept_by_calls done (consistent.of_prefix reached).owned repInv_empty start
  exact inv.inStep distinct

instance (calls : List Call) : Decidable (Consistent calls) :=
  inferInstanceAs (Decidable (∀ first ∈ _, ∀ second ∈ _, _ → _))

def sampleRecord (chunkId docId docVersion : String) : IndexRecord where
  chunkId := chunkId
  docId := docId
  docVersion := docVersion
  vector := [1]
  text := "text"
  position := 0
  sectionPath := none
  elementTypes := ["paragraph"]
  strategy := []
  allowedGroups := []
  trustTier := "internal"
  embeddingModel := "hash"
  embeddingDimensions := 1
  configVersion := "1"
  indexedAt := 0

-- One batch repeats a `chunk_id`, a later one writes it again, and another document is deleted.
def sampleCalls : List Call :=
  [.upsert [sampleRecord "a1" "a" "v1", sampleRecord "a2" "a" "v1", sampleRecord "a1" "a" "v1"],
   .upsert [sampleRecord "b1" "b" "v1", sampleRecord "a1" "a" "v2"], .deleteByDocId "b"]

theorem inStep_throughout_sampleCalls :
    Consistent sampleCalls ∧ InStep (sampleCalls.foldl perform {}) := by
  have consistent : Consistent sampleCalls := by decide
  exact ⟨consistent, inStep_throughout sampleCalls consistent List.prefix_rfl⟩

end InMemoryIndexer

end Vestibule
