import Vestibule.Indexer.Histories
import Vestibule.Indexer.SearchDocuments
import Vestibule.Retries

set_option autoImplicit false

namespace Vestibule

open Library

-- Every call of the adapter is one or two requests of the search service. A request is tried several times,
-- and an attempt that fails may have been carried out in part.

inductive SearchOp where
  | uploadDocuments (indexName : String) (documents : List SearchDocument)
  | deleteDocuments (indexName : String) (chunkIds : List PyStr)
  | documentsForDocId (indexName docId : String)

def SearchOp.Res : SearchOp → Type
  | uploadDocuments _ _ => List (String × Bool × Option String)
  | deleteDocuments _ _ => Unit
  | documentsForDocId _ _ => List SearchDocument

abbrev SearchEffects : Signature := ⟨SearchOp, SearchOp.Res⟩

abbrev SearchPy (α : Type) := RemotePy SearchEffects Exc α

def indexerTimeout : String := "INDEXER_TIMEOUT"
def indexerRateLimited : String := "INDEXER_RATE_LIMITED"
def indexerUpstreamError : String := "INDEXER_UPSTREAM_ERROR"

structure AzureAISearchIndexer where
  indexName : String
  settings : RetrySettings := {}

namespace AzureAISearchIndexer

def maxBatchSize : Int := 100

def mapStatusToErrorCode (statusCode : Option Int) : Option String :=
  if statusCode = some httpTooManyRequests then some indexerRateLimited
  else if statusCode.any (httpServerErrorFloor ≤ ·) then some indexerUpstreamError
  else none

def isRetryable : Fault → Bool
  | .timeout _ => true
  | .http e _ => (mapStatusToErrorCode e.statusCode).isSome
  | .other _ => false

def raisedOf : Fault → Exc
  | .timeout text => .ragged .indexer "" text indexerTimeout
  | .http e _ => match mapStatusToErrorCode e.statusCode with
      | none => .other e.text
      | some code => .ragged .indexer "" e.text code
  | .other text => .other text

variable (self : AzureAISearchIndexer) (rendering : Rendering)

def withRetry (o : SearchOp) : SearchPy o.Res :=
  ExceptT.adapt raisedOf
    (retryingCall (S := SearchEffects) self.settings isRetryable self.settings.retryAfterAwareWait o .ok)

def outcomeOf (results : List (String × Bool × Option String)) : UpsertOutcome where
  succeeded := (results.filter (·.2.1)).map (·.1)
  failed := (results.filter (!·.2.1)).map fun result =>
    (result.1, if result.2.2.getD "" = "" then "upload failed" else result.2.2.getD "")

def upsert (records : List IndexRecord) : SearchPy UpsertOutcome := do
  let documents := records.map (recordToDocument rendering)
  ExceptT.mk (.ret (checkRecordSizes rendering (records.zip documents)))
  let results ← self.withRetry (.uploadDocuments self.indexName documents)
  return outcomeOf results

def chunkIdOf (document : SearchDocument) : Except Exc PyStr :=
  match document.get? "chunk_id" with
  | none => .error (.other "'chunk_id'")
  | some value => .ok (value.toStr rendering)

def deleteByDocId (docId : String) : SearchPy Int := do
  let documents ← self.withRetry (.documentsForDocId self.indexName docId)
  if documents.isEmpty then return 0
  let chunkIds ← ExceptT.mk (.ret (documents.mapM (chunkIdOf rendering)))
  self.withRetry (.deleteDocuments self.indexName chunkIds)
  return chunkIds.length

-- A lone surrogate does not reach a version: the service answers in UTF-8.
def versionText (value : PyStr) : String := value.toString?.getD ""

def getDocVersion (docId : String) : SearchPy (Option String) := do
  match ← self.withRetry (.documentsForDocId self.indexName docId) with
  | [] => return none
  | document :: _ =>
      return some (versionText (((document.get? "doc_version").getD .none).toStr rendering))

/-- The requests of a call are answered by `oracle`, one after the other. -/
def adapter {V X : Type} (backend : Handler (Over SearchEffects) V X) : IndexerAdapter (Nat → V) X where
  getDocVersion oracle docId index := (self.getDocVersion rendering docId).run.run backend oracle index
  deleteByDocId oracle docId index := (self.deleteByDocId rendering docId).run.run backend oracle index
  upsert oracle records index := (self.upsert rendering records).run.run backend oracle index

def selected (document : SearchDocument) : SearchDocument :=
  document.filterKeys (· ∈ ["chunk_id", "doc_version"])

def HasKey (chunkId : String) (document : SearchDocument) : Prop :=
  document.get? "chunk_id" = some (.ofString chunkId)

end AzureAISearchIndexer

open AzureAISearchIndexer in
/-- What the service does on an attempt, whether it answers or fails. An upload merges a document into
the one that is there, and reports the documents that it did not take. -/
structure SearchContract {V X : Type} (backend : Handler (Over SearchEffects) V X) (indexName : String) where
  documents : X → String → Option SearchDocument
  sleepKeeps (v : V) (delay : Delay) (index : X) : documents (backend v (.sleep delay) index).2 = documents index
  listKeeps (v : V) (docId : String) (index : X) :
    documents (backend v (.attempt (.documentsForDocId indexName docId)) index).2 = documents index
  lists {v : V} {docId : String} {index : X} {found : List SearchDocument}
    (answer : (backend v (.attempt (.documentsForDocId indexName docId)) index).1 = .ok found)
    (entry : SearchDocument) :
    entry ∈ found ↔ ∃ chunkId document, documents index chunkId = some document ∧
      document.get? "doc_id" = some (.ofString docId) ∧ entry = selected document
  deletesOnly (v : V) (chunkIds : List PyStr) (index : X) (chunkId : String) :
    documents (backend v (.attempt (.deleteDocuments indexName chunkIds)) index).2 chunkId =
        documents index chunkId ∨
      documents (backend v (.attempt (.deleteDocuments indexName chunkIds)) index).2 chunkId = none ∧
        PyStr.ofString chunkId ∈ chunkIds
  deletes {v : V} {chunkIds : List PyStr} {index : X} {answer : Unit}
    (answered : (backend v (.attempt (.deleteDocuments indexName chunkIds)) index).1 = .ok answer)
    {chunkId : String} (listed : PyStr.ofString chunkId ∈ chunkIds) :
    documents (backend v (.attempt (.deleteDocuments indexName chunkIds)) index).2 chunkId = none
  uploadsOnly (v : V) (batch : List SearchDocument) (index : X) (chunkId : String) :
    documents (backend v (.attempt (.uploadDocuments indexName batch)) index).2 chunkId =
        documents index chunkId ∨
      ∃ old, ∃ document ∈ batch, HasKey chunkId document ∧
        documents (backend v (.attempt (.uploadDocuments indexName batch)) index).2 chunkId =
          some (mergeOrUpload old document)
  uploads {v : V} {batch : List SearchDocument} {index : X} {results : List (String × Bool × Option String)}
    (answered : (backend v (.attempt (.uploadDocuments indexName batch)) index).1 = .ok results)
    {chunkId : String} (taken : ∀ message, (chunkId, false, message) ∉ results) {document : SearchDocument}
    {before after : List SearchDocument} (last : batch = before ++ document :: after)
    (keyed : HasKey chunkId document) (alone : ∀ other ∈ after, ¬ HasKey chunkId other) :
    ∃ old, documents (backend v (.attempt (.uploadDocuments indexName batch)) index).2 chunkId =
      some (mergeOrUpload old document)

namespace AzureAISearchIndexer

variable (rendering : Rendering)

section Records

variable {V X : Type} {backend : Handler (Over SearchEffects) V X} {self : AzureAISearchIndexer}
  (service : SearchContract backend self.indexName) {owner : String → String}

def recordsIn (index : X) (chunkId : String) : Option IndexRecord :=
  (service.documents index chunkId).bind (recordOfDocument rendering)

def Readable (owner : String → String) (index : X) : Prop :=
  ∀ chunkId document, service.documents index chunkId = some document → ∃ record,
    recordOfDocument rendering document = some record ∧ record.chunkId = chunkId ∧ record.docId = owner chunkId

variable {rendering service}

theorem readable_of_documents {index after : X} (readable : Readable rendering service owner index)
    (same : service.documents after = service.documents index) : Readable rendering service owner after := by
  intro chunkId document held
  rw [same] at held
  exact readable chunkId document held

theorem recordsIn_of_documents {index after : X} {chunkId : String}
    (same : service.documents after chunkId = service.documents index chunkId) :
    recordsIn rendering service after chunkId = recordsIn rendering service index chunkId := by
  rw [recordsIn, same, recordsIn]

theorem recordsIn_of_absent {index : X} {chunkId : String} (absent : service.documents index chunkId = none) :
    recordsIn rendering service index chunkId = none := by
  rw [recordsIn, absent]
  rfl

theorem hasKey_recordToDocument {record : IndexRecord} {chunkId : String} :
    HasKey chunkId (recordToDocument rendering record) ↔ record.chunkId = chunkId := by
  have keyed := (keys_of_record (recordOfDocument_recordToDocument rendering record)).1
  simp only [HasKey, keyed, Option.some.injEq]
  exact FieldValue.ofString_injective.eq_iff

variable (rendering service) in
def Uploaded (owner : String → String) (batch : List IndexRecord) (index after : X) : Prop :=
  Readable rendering service owner after ∧ ∀ chunkId,
    service.documents after chunkId = service.documents index chunkId ∨
      ∃ record ∈ batch, record.chunkId = chunkId ∧ recordsIn rendering service after chunkId = some record

variable {batch : List IndexRecord} {index middle after : X}

theorem Uploaded.trans (first : Uploaded rendering service owner batch index middle)
    (second : Uploaded rendering service owner batch middle after) :
    Uploaded rendering service owner batch index after := by
  refine ⟨second.1, fun chunkId => ?_⟩
  rcases second.2 chunkId with same | written
  next =>
    rcases first.2 chunkId with old | ⟨record, member, keyed, held⟩
    next => exact .inl (same.trans old)
    next => exact .inr ⟨record, member, keyed, by rw [recordsIn_of_documents same, held]⟩
  next => exact .inr written

theorem uploaded_attempt (readable : Readable rendering service owner index) (own : Indexer.Owned owner batch) (v : V) :
    Uploaded rendering service owner batch index
      (backend v (.attempt (.uploadDocuments self.indexName (batch.map (recordToDocument rendering)))) index).2 := by
  have written (chunkId : String) := service.uploadsOnly v (batch.map (recordToDocument rendering)) index chunkId
  have cases_ (chunkId : String) :
      service.documents (backend v (.attempt (.uploadDocuments self.indexName
        (batch.map (recordToDocument rendering)))) index).2 chunkId = service.documents index chunkId ∨
      ∃ record ∈ batch, record.chunkId = chunkId ∧ ∃ old,
        service.documents (backend v (.attempt (.uploadDocuments self.indexName
          (batch.map (recordToDocument rendering)))) index).2 chunkId =
            some (mergeOrUpload old (recordToDocument rendering record)) := by
    rcases written chunkId with same | ⟨old, document, member, keyed, merged⟩
    next => exact .inl same
    next =>
      obtain ⟨record, listed, rfl⟩ := List.mem_map.mp member
      exact .inr ⟨record, listed, hasKey_recordToDocument.mp keyed, old, merged⟩
  constructor
  next =>
    intro chunkId document held
    rcases cases_ chunkId with same | ⟨record, listed, rfl, old, merged⟩
    next => exact readable chunkId document (same ▸ held)
    next =>
      obtain rfl := Option.some.inj (merged.symm.trans held)
      exact ⟨record, recordOfDocument_mergeOrUpload rendering old record, rfl, own record listed⟩
  next =>
    intro chunkId
    rcases cases_ chunkId with same | ⟨record, listed, rfl, old, merged⟩
    next => exact .inl same
    next =>
      exact .inr ⟨record, listed, rfl, by simp [recordsIn, merged, recordOfDocument_mergeOrUpload]⟩

-- What is tried again is written over what the earlier attempts have written.
theorem stored_of_uploaded {batch : List IndexRecord} (uploaded : Uploaded rendering service owner batch index middle)
    (chunkId : String) :
    Indexer.stored (recordsIn rendering service middle) batch chunkId =
      Indexer.stored (recordsIn rendering service index) batch chunkId := by
  cases found : KeyedStore.last IndexRecord.chunkId batch chunkId with
  | some latest => simp [KeyedStore.overwrite, found]
  | none =>
    have missing := (KeyedStore.last_eq_none _).mp found
    rcases uploaded.2 chunkId with same | ⟨record, listed, keyed, _⟩
    next => simp [KeyedStore.overwrite, found, recordsIn_of_documents same]
    next => exact absurd keyed (missing record listed)

theorem stored_of_answer (readable : Readable rendering service owner index) (own : Indexer.Owned owner batch) {v : V}
    {results : List (String × Bool × Option String)}
    (answered : (backend v (.attempt (.uploadDocuments self.indexName (batch.map (recordToDocument rendering))))
      index).1 = .ok results)
    {chunkId : String} (taken : ∀ message, (chunkId, false, message) ∉ results) :
    recordsIn rendering service (backend v (.attempt (.uploadDocuments self.indexName
      (batch.map (recordToDocument rendering)))) index).2 chunkId =
        Indexer.stored (recordsIn rendering service index) batch chunkId := by
  cases found : KeyedStore.last IndexRecord.chunkId batch chunkId with
  | none =>
    have missing := (KeyedStore.last_eq_none _).mp found
    rcases (uploaded_attempt readable own v).2 chunkId with same | ⟨record, listed, keyed, _⟩
    next =>
      rw [recordsIn_of_documents same]
      simp [KeyedStore.overwrite, found]
    next => exact absurd keyed (missing record listed)
  | some latest =>
    obtain ⟨before, later, rfl, alone⟩ := KeyedStore.split_of_last _ found
    obtain ⟨_, keyed⟩ := KeyedStore.mem_of_last _ found
    have split : (before ++ latest :: later).map (recordToDocument rendering) =
        before.map (recordToDocument rendering) ++ recordToDocument rendering latest ::
          later.map (recordToDocument rendering) := by simp
    have others : ∀ other ∈ later.map (recordToDocument rendering), ¬ HasKey chunkId other := by
      intro other member
      obtain ⟨record, listed, rfl⟩ := List.mem_map.mp member
      rw [hasKey_recordToDocument]
      exact alone record listed
    obtain ⟨old, merged⟩ := service.uploads answered taken split (hasKey_recordToDocument.mpr keyed) others
    simp [recordsIn, merged, recordOfDocument_mergeOrUpload, KeyedStore.overwrite, found]

theorem wp_withRetry {o : SearchOp} (Inv : X → Prop) {Q : Except Exc o.Res → X → Prop}
    (sleeps : ∀ v delay index, Inv index → Inv (backend v (.sleep delay) index).2)
    (attempts : ∀ v index, Inv index → Contract.ends (fun value => Q (.ok value))
      (fun fault after => Q (.error (raisedOf fault)) after ∧ Inv after)
      (backend v (.attempt o) index).1 (backend v (.attempt o) index).2) (initial : Inv index) :
    Prog.wp backend (fun _ => True) (self.withRetry o).run Q index := by
  rw [withRetry, Prog.wp_run_adapt]
  apply wp_retryingCall _ _ _ _ _ initial
  next => exact fun v delay index held => ⟨trivial, sleeps v delay index held⟩
  next =>
    intro v index held
    have ended := attempts v index held
    cases answer : (backend v (.attempt o) index).1 with
    | ok value =>
      rw [answer] at ended
      exact ⟨trivial, ended⟩
    | error fault =>
      rw [answer] at ended
      exact ⟨trivial, ended⟩

variable (service) in
def Listed (docId : String) (index : X) (found : List SearchDocument) : Prop :=
  ∀ entry, entry ∈ found ↔ ∃ chunkId document, service.documents index chunkId = some document ∧
    document.get? "doc_id" = some (.ofString docId) ∧ entry = selected document

variable (service) in
theorem wp_list (docId : String) (index : X) :
    Prog.wp backend (fun _ => True) (self.withRetry (.documentsForDocId self.indexName docId)).run
      (fun result after => service.documents after = service.documents index ∧
        ∀ found, result = .ok found → Listed service docId index found) index := by
  apply wp_withRetry (fun after => service.documents after = service.documents index) _ _ rfl
  next => exact fun v delay after same => (service.sleepKeeps v delay after).trans same
  next =>
    intro v after same
    have kept := (service.listKeeps v docId after).trans same
    cases answer : (backend v (.attempt (.documentsForDocId self.indexName docId)) after).1 with
    | ok found =>
      refine ⟨kept, fun found' given => ?_⟩
      obtain rfl := Except.ok.inj given
      intro entry
      rw [service.lists answer entry, same]
    | error fault => exact ⟨⟨kept, by simp⟩, kept⟩

theorem get?_selected (document : SearchDocument) {field : String} (kept : field ∈ ["chunk_id", "doc_version"]) :
    (selected document).get? field = document.get? field := by
  simp only [selected, Dict.filterKeys, Dict.get?, List.find?_filter]
  congr 2
  funext entry
  by_cases same : entry.1 = field
  next => simp [same, kept]
  next => simp [same]

section Listed

variable (readable : Readable rendering service owner index) {docId : String} {found : List SearchDocument}
  (listed : Listed service docId index found)

include readable listed

theorem record_of_listed {entry : SearchDocument} (member : entry ∈ found) :
    ∃ record, recordsIn rendering service index record.chunkId = some record ∧ owner record.chunkId = docId ∧
      entry.get? "chunk_id" = some (.ofString record.chunkId) ∧
      entry.get? "doc_version" = some (.ofString record.docVersion) := by
  obtain ⟨chunkId, document, held, mine, rfl⟩ := (listed entry).mp member
  obtain ⟨record, reads, rfl, own⟩ := readable chunkId document held
  obtain ⟨keyed, ofDoc, version⟩ := keys_of_record reads
  have same : record.docId = docId := FieldValue.ofString_injective (Option.some.inj (ofDoc.symm.trans mine))
  refine ⟨record, by simp [recordsIn, held, reads], by rw [← own, same], ?_, ?_⟩
  next => rw [get?_selected _ (by simp), keyed]
  next => rw [get?_selected _ (by simp), version]

theorem listed_of_record {chunkId : String} (own : owner chunkId = docId)
    (present : service.documents index chunkId ≠ none) :
    ∃ entry ∈ found, entry.get? "chunk_id" = some (.ofString chunkId) := by
  obtain ⟨document, held⟩ := Option.ne_none_iff_exists'.mp present
  obtain ⟨record, reads, rfl, mine⟩ := readable chunkId document held
  obtain ⟨keyed, ofDoc, _⟩ := keys_of_record reads
  refine ⟨selected document, (listed _).mpr ⟨record.chunkId, document, held, ?_, rfl⟩, ?_⟩
  next => rw [ofDoc, mine, own]
  next => rw [get?_selected _ (by simp), keyed]

theorem absent_of_listed_nil (empty : found = []) {chunkId : String} (own : owner chunkId = docId) :
    service.documents index chunkId = none := by
  by_contra present
  obtain ⟨entry, member, _⟩ := listed_of_record readable listed own present
  simp [empty] at member

theorem chunkIds_of_listed :
    ∃ chunkIds, found.mapM (chunkIdOf rendering) = .ok chunkIds ∧
      (∀ chunkId, PyStr.ofString chunkId ∈ chunkIds → owner chunkId = docId) ∧
      ∀ chunkId, owner chunkId = docId → service.documents index chunkId ≠ none →
        PyStr.ofString chunkId ∈ chunkIds := by
  have read (entry : SearchDocument) (chunkId : String) (keyed : entry.get? "chunk_id" = some (.ofString chunkId)) :
      chunkIdOf rendering entry = .ok (PyStr.ofString chunkId) := by
    simp [chunkIdOf, keyed, FieldValue.toStr, FieldValue.ofString]
  have each : ∀ entry ∈ found, ∃ chunkId, chunkIdOf rendering entry = .ok chunkId := by
    intro entry member
    obtain ⟨record, _, _, keyed, _⟩ := record_of_listed readable listed member
    exact ⟨_, read entry _ keyed⟩
  obtain ⟨chunkIds, all⟩ := exists_mapM_ok each
  refine ⟨chunkIds, all, fun chunkId member => ?_, fun chunkId own present => ?_⟩
  next =>
    obtain ⟨entry, inside, given⟩ := source_of_mapM_ok all member
    obtain ⟨record, _, own, keyed, _⟩ := record_of_listed readable listed inside
    have same := Except.ok.inj ((read entry _ keyed).symm.trans given)
    rwa [← PyStr.ofString_injective same]
  next =>
    obtain ⟨entry, inside, keyed⟩ := listed_of_record readable listed own present
    obtain ⟨result, member, given⟩ := result_of_mapM_ok all inside
    obtain rfl := Except.ok.inj ((read entry _ keyed).symm.trans given)
    exact member

end Listed

theorem taken_of_accepted {results : List (String × Bool × Option String)} {chunkId : String}
    (accepted : chunkId ∉ Indexer.failedIds (outcomeOf results)) (message : Option String) :
    (chunkId, false, message) ∉ results := by
  intro member
  apply accepted
  simp only [Indexer.failedIds, outcomeOf, List.map_map, List.mem_map, List.mem_filter]
  exact ⟨(chunkId, false, message), ⟨member, rfl⟩, rfl⟩

theorem wp_getDocVersion_search (readable : Readable rendering service owner index) (docId : String) :
    Prog.wp backend (fun _ => True) (self.getDocVersion rendering docId).run
      (fun result after => service.documents after = service.documents index ∧
        (result = .ok none → ∀ chunkId, owner chunkId = docId → service.documents index chunkId = none) ∧
        ∀ version, result = .ok (some version) → ∃ chunkId record,
          recordsIn rendering service index chunkId = some record ∧ owner chunkId = docId ∧
            record.docVersion = version) index := by
  rw [getDocVersion, Prog.wp_run_bind]
  apply Prog.wp_mono _ (wp_list service docId index)
  intro result after told
  obtain ⟨same, lists⟩ := told
  cases result with
  | error e => exact ⟨same, by simp, by simp⟩
  | ok found =>
    have listed := lists found rfl
    cases found with
    | nil => exact ⟨same, fun _ chunkId own => absent_of_listed_nil readable listed rfl own, by simp⟩
    | cons entry rest =>
      obtain ⟨record, held, own, _, version⟩ := record_of_listed readable listed List.mem_cons_self
      refine ⟨same, by simp, fun text given => ⟨record.chunkId, record, held, own, ?_⟩⟩
      have answer := Option.some.inj (Except.ok.inj given)
      rw [← answer, version]
      simp [FieldValue.toStr, FieldValue.ofString, versionText, PyStr.ofString, FieldValue.toString?_scalars]

variable (service) in
def Removed (owner : String → String) (docId : String) (index after : X) : Prop :=
  ∀ chunkId, service.documents after chunkId = service.documents index chunkId ∨
    service.documents after chunkId = none ∧ owner chunkId = docId

theorem readable_of_removed (readable : Readable rendering service owner index) {docId : String}
    (removed : Removed service owner docId index after) : Readable rendering service owner after := by
  intro chunkId document held
  rcases removed chunkId with same | ⟨gone, _⟩
  next => exact readable chunkId document (same ▸ held)
  next => simp [gone] at held

theorem removed_attempt {docId : String} (removed : Removed service owner docId index middle) {chunkIds : List PyStr}
    (mine : ∀ chunkId, PyStr.ofString chunkId ∈ chunkIds → owner chunkId = docId) (v : V) :
    Removed service owner docId index
      (backend v (.attempt (.deleteDocuments self.indexName chunkIds)) middle).2 := by
  intro chunkId
  rcases service.deletesOnly v chunkIds middle chunkId with same | ⟨gone, listed⟩
  next =>
    rw [same]
    exact removed chunkId
  next => exact .inr ⟨gone, mine chunkId listed⟩

theorem wp_deleteByDocId_search (readable : Readable rendering service owner index) (docId : String) :
    Prog.wp backend (fun _ => True) (self.deleteByDocId rendering docId).run
      (fun result after => Removed service owner docId index after ∧
        (result.isOk → ∀ chunkId, owner chunkId = docId → service.documents after chunkId = none)) index := by
  rw [deleteByDocId, Prog.wp_run_bind]
  apply Prog.wp_mono _ (wp_list service docId index)
  intro result after told
  obtain ⟨same, lists⟩ := told
  have unchanged : Removed service owner docId index after := fun chunkId => .inl (by rw [same])
  cases result with
  | error e => exact ⟨unchanged, by simp [Except.isOk, Except.toBool]⟩
  | ok found =>
    have listed := lists found rfl
    cases found with
    | nil =>
      refine ⟨unchanged, fun _ chunkId own => ?_⟩
      rw [same]
      exact absent_of_listed_nil readable listed rfl own
    | cons entry rest =>
      obtain ⟨chunkIds, read, mine, complete⟩ := chunkIds_of_listed readable listed
      simp only [List.isEmpty_cons, Bool.false_eq_true, if_false, read]
      change Prog.wp backend (fun _ => True) (self.withRetry (.deleteDocuments self.indexName chunkIds) >>=
        fun _ => pure (chunkIds.length : Int) : SearchPy Int).run _ after
      rw [Prog.wp_run_bind]
      apply wp_withRetry (Removed service owner docId index) _ _ unchanged
      next =>
        intro v delay middle removed chunkId
        rw [service.sleepKeeps v delay middle]
        exact removed chunkId
      next =>
        intro v middle removed
        have still := removed_attempt removed mine v
        cases answer : (backend v (.attempt (.deleteDocuments self.indexName chunkIds)) middle).1 with
        | error fault => exact ⟨⟨still, by simp [Except.isOk, Except.toBool]⟩, still⟩
        | ok done =>
          refine ⟨still, fun _ chunkId own => ?_⟩
          by_cases present : service.documents index chunkId = none
          next =>
            rcases still chunkId with kept | ⟨gone, _⟩
            next => rw [kept, present]
            next => exact gone
          next => exact service.deletes answer (complete chunkId own present)

theorem wp_upsert_search (readable : Readable rendering service owner index) {batch : List IndexRecord}
    (own : Indexer.Owned owner batch) :
    Prog.wp backend (fun _ => True) (self.upsert rendering batch).run
      (fun result after => Uploaded rendering service owner batch index after ∧
        ∀ outcome, result = .ok outcome → ∀ chunkId, chunkId ∉ Indexer.failedIds outcome →
          recordsIn rendering service after chunkId =
            Indexer.stored (recordsIn rendering service index) batch chunkId) index := by
  have unchanged : Uploaded rendering service owner batch index index := ⟨readable, fun _ => .inl rfl⟩
  simp only [upsert]
  cases checked : checkRecordSizes rendering (batch.zip (batch.map (recordToDocument rendering))) with
  | error e => exact ⟨unchanged, by simp⟩
  | ok _ =>
    let documents := batch.map (recordToDocument rendering)
    change Prog.wp backend (fun _ => True)
      (self.withRetry (.uploadDocuments self.indexName documents) >>= fun results => pure
        (outcomeOf results) : SearchPy UpsertOutcome).run _ index
    rw [Prog.wp_run_bind]
    apply wp_withRetry (Uploaded rendering service owner batch index) _ _ unchanged
    next =>
      intro v delay middle uploaded
      have same := service.sleepKeeps v delay middle
      refine uploaded.trans ⟨readable_of_documents uploaded.1 same, fun chunkId => .inl (by rw [same])⟩
    next =>
      intro v middle uploaded
      have still := uploaded.trans (uploaded_attempt uploaded.1 own v)
      cases answer : (backend v (.attempt (.uploadDocuments self.indexName documents)) middle).1 with
      | error fault => exact ⟨⟨still, by simp⟩, still⟩
      | ok results =>
        refine ⟨still, fun outcome given chunkId accepted => ?_⟩
        obtain rfl := Except.ok.inj given
        rw [stored_of_answer uploaded.1 own answer (taken_of_accepted accepted), stored_of_uploaded uploaded]

variable (rendering service) in
def contract (owner : String → String) : Indexer.Contract (self.adapter rendering backend) owner where
  Valid := Readable rendering service owner
  records := recordsIn rendering service
  owned := by
    intro index readable chunkId record held
    obtain ⟨document, found, reads⟩ := Option.bind_eq_some_iff.mp held
    obtain ⟨record', reads', _, own⟩ := readable chunkId document found
    rwa [Option.some.inj (reads.symm.trans reads')]
  versionValid oracle docId index readable :=
    readable_of_documents readable (Prog.run_of_wp (wp_getDocVersion_search readable docId) oracle).1
  versionKeeps oracle docId index readable := by
    funext chunkId
    have same := (Prog.run_of_wp (wp_getDocVersion_search readable docId) oracle).1
    exact recordsIn_of_documents (congrFun same chunkId)
  versionFound := by
    intro oracle docId index readable version answer
    exact (Prog.run_of_wp (wp_getDocVersion_search readable docId) oracle).2.2 version answer
  versionNone := by
    intro oracle docId index readable answer chunkId own
    have absent := (Prog.run_of_wp (wp_getDocVersion_search readable docId) oracle).2.1 answer chunkId own
    exact recordsIn_of_absent absent
  deleteValid oracle docId index readable :=
    readable_of_removed readable (Prog.run_of_wp (wp_deleteByDocId_search readable docId) oracle).1
  deleteTouches := by
    intro oracle docId index readable chunkId
    rcases (Prog.run_of_wp (wp_deleteByDocId_search readable docId) oracle).1 chunkId with same | ⟨gone, own⟩
    next => exact .inl (recordsIn_of_documents same)
    next => exact .inr ⟨recordsIn_of_absent gone, own⟩
  deleteClears := by
    intro oracle docId index readable count answer chunkId own
    have returned : ((self.adapter rendering backend).deleteByDocId oracle docId index).1.isOk := by rw [answer]; rfl
    have gone := (Prog.run_of_wp (wp_deleteByDocId_search readable docId) oracle).2 returned chunkId own
    exact recordsIn_of_absent gone
  upsertValid oracle _ _ readable own := (Prog.run_of_wp (wp_upsert_search readable own) oracle).1.1
  upsertTouches := by
    intro oracle batch index readable own chunkId
    rcases (Prog.run_of_wp (wp_upsert_search readable own) oracle).1.2 chunkId with same | written
    next => exact .inl (recordsIn_of_documents same)
    next => exact .inr written
  upsertStores := by
    intro oracle batch index readable own outcome answer chunkId accepted
    exact (Prog.run_of_wp (wp_upsert_search readable own) oracle).2 outcome answer chunkId accepted

end Records

structure SearchFate where
  failure : Option Fault := none
  reaches : String → Bool := fun _ => true

abbrev SearchState := Dict String SearchDocument

def keyOf (document : SearchDocument) : Option String := (document.get? "chunk_id").bind FieldValue.string?

def place (index : SearchState) (document : SearchDocument) : SearchState :=
  match keyOf document with
  | none => index
  | some chunkId => index.insert chunkId (mergeOrUpload (index.get? chunkId) document)

def ofDocument (docId : String) (document : SearchDocument) : Bool :=
  (document.get? "doc_id").bind FieldValue.str? = some (PyStr.ofString docId)

def idleAnswer : (o : SearchOp) → o.Res
  | .uploadDocuments _ _ => []
  | .deleteDocuments _ _ => ()
  | .documentsForDocId _ _ => []

def SearchFate.answer {α : Type} (fate : SearchFate) (value : α) : Except Fault α :=
  match fate.failure with
  | some fault => .error fault
  | none => .ok value

def idealSearch : Handler (Over SearchEffects) SearchFate SearchState := fun fate o index =>
  match o with
  | .sleep _ => ((), index)
  | .here o => (idleAnswer o, index)
  | .attempt (.documentsForDocId _ docId) =>
      (fate.answer ((index.values.filter (ofDocument docId)).map selected), index)
  | .attempt (.deleteDocuments _ chunkIds) =>
      (fate.answer (), (index.keys.filter fun chunkId => PyStr.ofString chunkId ∈ chunkIds ∧
        (fate.failure = none ∨ fate.reaches chunkId)).foldl Dict.erase index)
  | .attempt (.uploadDocuments _ documents) =>
      let keys := documents.filterMap keyOf
      (fate.answer (keys.map fun chunkId => (chunkId, fate.reaches chunkId, none)),
        (documents.filter fun document => (keyOf document).any fate.reaches).foldl place index)

theorem bind_string?_iff {value : Option FieldValue} {text : String} :
    value.bind FieldValue.string? = some text ↔ value = some (.ofString text) := by
  constructor
  next =>
    intro reads
    obtain ⟨found, rfl, reads⟩ := Option.bind_eq_some_iff.mp reads
    rw [FieldValue.eq_of_string? reads]
  next =>
    rintro rfl
    simp

theorem ofDocument_iff {docId : String} {document : SearchDocument} :
    ofDocument docId document = true ↔ document.get? "doc_id" = some (.ofString docId) := by
  simp only [ofDocument, decide_eq_true_eq, Option.bind_eq_some_iff]
  constructor
  next =>
    rintro ⟨value, found, reads⟩
    cases value with
    | str text =>
      obtain rfl := Option.some.inj reads
      exact found
    | _ => cases reads
  next => exact fun found => ⟨_, found, rfl⟩

theorem keyOf_iff {document : SearchDocument} {chunkId : String} :
    keyOf document = some chunkId ↔ HasKey chunkId document := bind_string?_iff

theorem get?_place (index : SearchState) (document : SearchDocument) (chunkId : String) :
    (place index document).get? chunkId =
      if keyOf document = some chunkId then some (mergeOrUpload (index.get? chunkId) document)
      else index.get? chunkId := by
  simp only [place]
  cases keyed : keyOf document with
  | none => simp
  | some key =>
    by_cases same : chunkId = key
    next => simp [Dict.get?_insert, same]
    next => simp [Dict.get?_insert, same, Ne.symm same]

theorem place_cases (documents : List SearchDocument) (index : SearchState) (chunkId : String) :
    (documents.foldl place index).get? chunkId = index.get? chunkId ∨
      ∃ old, ∃ document ∈ documents, HasKey chunkId document ∧
        (documents.foldl place index).get? chunkId = some (mergeOrUpload old document) := by
  induction documents generalizing index with
  | nil => exact .inl rfl
  | cons document rest ih =>
    rw [List.foldl_cons]
    rcases ih (place index document) with same | ⟨old, other, member, keyed, merged⟩
    next =>
      rw [same, get?_place]
      split
      next keyed => exact .inr ⟨_, document, List.mem_cons_self, keyOf_iff.mp keyed, rfl⟩
      next => exact .inl rfl
    next => exact .inr ⟨old, other, List.mem_cons_of_mem _ member, keyed, merged⟩

theorem place_last {before after : List SearchDocument} {document : SearchDocument} {chunkId : String}
    (keyed : HasKey chunkId document) (alone : ∀ other ∈ after, ¬ HasKey chunkId other) (index : SearchState) :
    ∃ old, ((before ++ document :: after).foldl place index).get? chunkId = some (mergeOrUpload old document) := by
  rw [List.foldl_append, List.foldl_cons]
  rcases place_cases after (place (before.foldl place index) document) chunkId with same | ⟨_, other, member, own, _⟩
  next =>
    rw [same, get?_place, if_pos (keyOf_iff.mpr keyed)]
    exact ⟨_, rfl⟩
  next => exact absurd own (alone other member)

theorem ok_of_answer {α : Type} {fate : SearchFate} {value found : α} (answered : fate.answer value = .ok found) :
    fate.failure = none ∧ value = found := by
  unfold SearchFate.answer at answered
  split at answered
  next => cases answered
  next healthy => exact ⟨healthy, Except.ok.inj answered⟩

theorem get?_deleted (fate : SearchFate) (indexName : String) (chunkIds : List PyStr) (index : SearchState)
    (chunkId : String) :
    (idealSearch fate (.attempt (.deleteDocuments indexName chunkIds)) index).2.get? chunkId =
      if PyStr.ofString chunkId ∈ chunkIds ∧ (fate.failure = none ∨ fate.reaches chunkId) then none
      else index.get? chunkId := by
  simp only [idealSearch, Dict.get?_foldl_erase, List.mem_filter, decide_eq_true_eq]
  by_cases present : chunkId ∈ index.keys
  next => simp [present]
  next =>
    have absent : index.get? chunkId = none := by
      cases found : index.get? chunkId with
      | none => rfl
      | some document =>
        exact absurd (List.mem_map.mpr ⟨_, (Dict.get?_eq_some ..).mp found, rfl⟩) present
    simp [absent]

def idealContract (indexName : String) : SearchContract idealSearch indexName where
  documents := Dict.get?
  sleepKeeps _ _ _ := rfl
  listKeeps _ _ _ := rfl
  lists := by
    intro fate docId index found answer entry
    obtain ⟨_, rfl⟩ := ok_of_answer answer
    simp only [List.mem_map, List.mem_filter, Dict.mem_values, ofDocument_iff]
    constructor
    next =>
      rintro ⟨document, ⟨⟨chunkId, held⟩, mine⟩, rfl⟩
      exact ⟨chunkId, document, held, mine, rfl⟩
    next =>
      rintro ⟨chunkId, document, held, mine, rfl⟩
      exact ⟨document, ⟨⟨chunkId, held⟩, mine⟩, rfl⟩
  deletesOnly := by
    intro fate chunkIds index chunkId
    rw [get?_deleted]
    split
    next reached => exact .inr ⟨rfl, reached.1⟩
    next => exact .inl rfl
  deletes := by
    intro fate chunkIds index answer answered chunkId listed
    obtain ⟨healthy, _⟩ := ok_of_answer answered
    rw [get?_deleted, if_pos ⟨listed, .inl healthy⟩]
  uploadsOnly := by
    intro fate batch index chunkId
    rcases place_cases (batch.filter fun document => (keyOf document).any fate.reaches) index chunkId with
      same | ⟨old, document, member, keyed, merged⟩
    next => exact .inl same
    next => exact .inr ⟨old, document, (List.mem_filter.mp member).1, keyed, merged⟩
  uploads := by
    intro fate batch index results answered chunkId taken document before after last keyed alone
    obtain ⟨_, rfl⟩ := ok_of_answer answered
    subst last
    have key := keyOf_iff.mpr keyed
    have reached : fate.reaches chunkId = true := by
      by_contra refused
      apply taken none
      simp only [Bool.not_eq_true] at refused
      exact List.mem_map.mpr ⟨chunkId, List.mem_filterMap.mpr ⟨document, by simp, key⟩, by rw [refused]⟩
    have kept : (keyOf document).any fate.reaches = true := by simp [key, reached]
    simp only [idealSearch, List.filter_append, List.filter_cons, kept, if_true]
    exact place_last keyed (fun other member => alone other (List.mem_filter.mp member).1) index

-- A document of two chunks becomes one of a single chunk. The delete times out with one of the two gone,
-- and the upload is tried twice.

def sampleRendering : Rendering where
  reprFloat _ := "0.0"
  isoformat time := toString time
  fromisoformat := int?
  fromisoformat_isoformat := int?_toString

def sampleSearch : AzureAISearchIndexer := { indexName := "policies" }

def sampleService : SearchContract idealSearch sampleSearch.indexName := idealContract _

def oldRecord (chunkId : String) : IndexRecord where
  chunkId := chunkId
  docId := digestAbc
  docVersion := "v1"
  vector := []
  text := "old"
  position := 0
  sectionPath := none
  elementTypes := []
  strategy := []
  allowedGroups := ["hr"]
  trustTier := "trusted"
  embeddingModel := "m"
  embeddingDimensions := 1
  configVersion := "v1"
  indexedAt := 0

def oldIndex : SearchState :=
  Dict.empty
    |>.insert "c1" (recordToDocument sampleRendering (oldRecord "c1"))
    |>.insert "c2" (recordToDocument sampleRendering (oldRecord "c2"))

def nextVersion : IndexCall (Nat → SearchFate) where
  system := StageCall.sampleSystem.1
  indexer := ⟨{ dimensions := 1 }, "policies", maxBatchSize⟩
  envelope := StageCall.sampleEnvelope
  embeddedChunks := [StageCall.sampleChunk "c1"]
  oracle step := ({}, fun attempt =>
    if step = 3 ∧ attempt = 1 then
      { failure := some (.timeout "backend call did not return within 30.0s"), reaches := (· = "c1") }
    else if step = 4 ∧ attempt = 0 then
      { failure := some (.http ⟨some 429, "slow down"⟩ (some 3)) }
    else {})
  steps := 10

theorem held_oldIndex {chunkId : String} {document : SearchDocument} (held : oldIndex.get? chunkId = some document) :
    document = recordToDocument sampleRendering (oldRecord chunkId) := by
  simp only [oldIndex, Dict.get?_insert] at held
  split at held
  next same => rw [same, Option.some.inj held]
  next =>
    split at held
    next same => rw [same, Option.some.inj held]
    next => cases held

theorem readable_oldIndex : Readable sampleRendering sampleService (fun _ => digestAbc) oldIndex := by
  intro chunkId document held
  rw [held_oldIndex held]
  exact ⟨_, recordOfDocument_recordToDocument _ _, rfl, rfl⟩

theorem single_oldIndex : Indexer.SingleVersion (recordsIn sampleRendering sampleService oldIndex) := by
  have version (chunkId : String) (record : IndexRecord)
      (held : recordsIn sampleRendering sampleService oldIndex chunkId = some record) : record.docVersion = "v1" := by
    obtain ⟨document, found, reads⟩ := Option.bind_eq_some_iff.mp held
    rw [held_oldIndex found, recordOfDocument_recordToDocument] at reads
    rw [← Option.some.inj reads]
    rfl
  intro first second record other held held' _
  rw [version first record held, version second other held']

theorem nextVersion_returns :
    (nextVersion.finish (sampleSearch.adapter sampleRendering idealSearch) oldIndex).1.isOk := by
  decide +kernel

end AzureAISearchIndexer

end Vestibule
