import Vestibule.Chunker.Merge
import Vestibule.Chunker.Strategies
import Vestibule.Identity.Chunks

set_option autoImplicit false

namespace Vestibule

open Library

namespace Chunker

def plainTools (split : String → List String) (count : String → Int) : TextTools Id where
  textSplitter _ _ := pure ()
  splitText _ _ text := pure (split text)
  count text := pure (count text)
  indexError := pure []

def hasHeadings (elements : List Element) : Bool := elements.any (fun element => element.type = .heading)

section Plain

variable (split : String → List String) (count : String → Int) (config : ChunkerConfig)

def plainServices : Services Id := strategies (plainTools split count) config

def assembledDrafts (docId : String) (elements : List Element) : List ChunkDraft :=
  (assembleDrafts (plainServices split count config) config docId elements).run

def proseDraft (elements : List Element) (piece : String) : ChunkDraft :=
  { elementTypes := uniqueElementTypes elements, text := piece, tokenCount := count piece,
    metadata := recursiveMetadata elements }

def sectionDrafts (elements : List Element) : List ChunkDraft :=
  if elements.isEmpty then [] else (split (joinElementText elements)).map (proseDraft count elements)

def tableDraft (table : Element) (captionText : Option String) : ChunkDraft :=
  let text := serializeTable table captionText
  { elementTypes := [table.type], text, tokenCount := count text,
    metadata := tableMetadata table (config.maxChunkTokens < count text) }

theorem recursiveChunkRegion_plain (elements : List Element) :
    (recursiveChunkRegion (plainTools split count) config elements).run = sectionDrafts split count elements := by
  simp only [recursiveChunkRegion, sectionDrafts]
  split
  next => rfl
  next => exact List.mapM_pure

theorem foldlM_append_plain {ι α : Type} (f : ι → Id (List α)) (items : List ι) (before : List α) :
    (items.foldlM (fun all item => do return all ++ (← f item)) before : Id (List α)).run =
      before ++ items.flatMap fun item => (f item).run := by
  induction items generalizing before with
  | nil => simp
  | cons item rest ih =>
    rw [List.foldlM_cons]
    simpa using ih (before ++ (f item).run)

theorem structureAwareChunkRegion_plain (elements : List Element) :
    (structureAwareChunkRegion (plainTools split count) config elements).run =
      (splitIntoSections elements).flatMap fun part => (sectionDrafts split count part.2).map (retag · part.1) := by
  have folded := foldlM_append_plain
    (fun part : Option String × List Element => do
      return (← recursiveChunkRegion (plainTools split count) config part.2).map (retag · part.1))
    (splitIntoSections elements) []
  simp only [List.nil_append] at folded
  refine Eq.trans ?_ (folded.trans ?_)
  next => rfl
  next =>
    congr 1
    funext part
    exact congrArg (List.map (retag · part.1)) (recursiveChunkRegion_plain split count config part.2)

def dispatchedDrafts (headed : Bool) (region : Region) : List ChunkDraft :=
  match region.kind, region.elements with
  | .table, [] => []
  | .table, table :: _ => [tableDraft count config table region.captionText]
  | .nonTable, elements =>
      if headed then
        (splitIntoSections elements).flatMap fun part => (sectionDrafts split count part.2).map (retag · part.1)
      else sectionDrafts split count elements

theorem dispatchRegion_plain (headed : Bool) (docId : String) (region : Region) :
    (dispatchRegion (plainServices split count config) headed docId region).run =
      dispatchedDrafts split count config headed region := by
  obtain ⟨kind, elements, captionText⟩ := region
  cases kind with
  | table => cases elements <;> rfl
  | nonTable =>
    cases headed with
    | false => exact recursiveChunkRegion_plain split count config elements
    | true => exact structureAwareChunkRegion_plain split count config elements

def regionDrafts (headed : Bool) (region : Region) : List ChunkDraft :=
  (mergeUndersizedTail (plainServices split count config) config
    (dispatchedDrafts split count config headed region)).run

theorem assembledDrafts_eq (docId : String) (elements : List Element) :
    assembledDrafts split count config docId elements =
      (partitionRegions elements).flatMap (regionDrafts split count config (hasHeadings elements)) := by
  have folded := foldlM_append_plain
    (fun region => do
      mergeUndersizedTail (plainServices split count config) config
        (← dispatchRegion (plainServices split count config) (hasHeadings elements) docId region))
    (partitionRegions elements) []
  simp only [List.nil_append] at folded
  refine Eq.trans ?_ (folded.trans ?_)
  next => rfl
  next =>
    congr 1
    funext region
    exact congrArg (fun drafts => (mergeUndersizedTail (plainServices split count config) config drafts).run)
      (dispatchRegion_plain split count config (hasHeadings elements) docId region)

end Plain

inductive RegionOf : Region → Prop where
  | table (table : Element) (captionText : Option String) (isTable : table.type = .table) :
      RegionOf { kind := .table, elements := [table], captionText }
  | nonTable (elements : List Element) (nonempty : elements ≠ [])
      (noTable : ∀ element ∈ elements, element.type ≠ .table) : RegionOf { kind := .nonTable, elements }

theorem flushBuffer_regionOf {buffer : List Element} (noTable : ∀ element ∈ buffer, element.type ≠ .table)
    {region : Region} (member : region ∈ flushBuffer buffer) : RegionOf region := by
  simp only [flushBuffer] at member
  split at member
  next => simp at member
  next nonempty =>
    obtain rfl := List.mem_singleton.mp member
    exact .nonTable buffer (by simpa using nonempty) noTable

theorem flushBuffer_elements (buffer : List Element) : (flushBuffer buffer).flatMap (·.elements) = buffer := by
  cases buffer <;> simp [flushBuffer]

theorem partitionFrom_regionOf (elements rest : List Element) (index : Nat) (buffer : List Element)
    (noTable : ∀ element ∈ buffer, element.type ≠ .table) :
    ∀ region ∈ partitionFrom elements index buffer rest, RegionOf region := by
  induction rest generalizing index buffer with
  | nil =>
    intro region member
    exact flushBuffer_regionOf noTable member
  | cons element rest ih =>
    intro region member
    simp only [partitionFrom] at member
    split at member
    next prose =>
      apply ih (index + 1) (buffer ++ [element]) _ region member
      intro other listed
      rcases List.mem_append.mp listed with held | last
      next => exact noTable other held
      next => simpa [List.mem_singleton.mp last] using prose
    next isTable =>
      rcases List.mem_append.mp member with flushed | later
      next => exact flushBuffer_regionOf noTable flushed
      next =>
        rcases List.mem_cons.mp later with rfl | later
        next => exact .table element _ (by simpa using isTable)
        next => exact ih (index + 1) [] (by simp) region later

theorem partitionFrom_elements (elements rest : List Element) (index : Nat) (buffer : List Element) :
    (partitionFrom elements index buffer rest).flatMap (·.elements) = buffer ++ rest := by
  induction rest generalizing index buffer with
  | nil => simp [partitionFrom, flushBuffer_elements]
  | cons element rest ih =>
    simp only [partitionFrom]
    split
    next => simp [ih]
    next => simp [ih, flushBuffer_elements]

theorem partitionRegions_regionOf {elements : List Element} {region : Region}
    (member : region ∈ partitionRegions elements) : RegionOf region :=
  partitionFrom_regionOf elements elements 0 [] (by simp) region member

theorem partitionRegions_elements (elements : List Element) :
    (partitionRegions elements).flatMap (·.elements) = elements :=
  partitionFrom_elements elements elements 0 []

theorem recursiveMetadata_strategy (elements : List Element) :
    (recursiveMetadata elements).get? "strategy" = some (.ofString strategyRecursive) := by
  simp only [recursiveMetadata, Dict.update_append]
  rw [get?_pageMetadata _ _ (by decide)]
  decide

theorem recursiveMetadata_sectionPath (elements : List Element) :
    (recursiveMetadata elements).get? "section_path" = some .none := by
  simp only [recursiveMetadata, Dict.update_append]
  rw [get?_pageMetadata _ _ (by decide)]
  decide

theorem tableMetadata_strategy (table : Element) (oversized : Bool) :
    (tableMetadata table oversized).get? "strategy" = some (.ofString strategyTableAtomic) := by
  simp only [tableMetadata, Dict.update_append]
  rw [get?_pageMetadata _ _ (by decide)]
  cases oversized <;> decide

theorem tableMetadata_sectionPath (table : Element) (oversized : Bool) :
    (tableMetadata table oversized).get? "section_path" = some .none := by
  simp only [tableMetadata, Dict.update_append]
  rw [get?_pageMetadata _ _ (by decide)]
  cases oversized <;> decide

@[simp]
theorem retag_strategy (draft : ChunkDraft) (path : Option String) :
    (retag draft path).metadata.get? "strategy" = some (.ofString strategyStructureAware) := by
  simp [retag]

@[simp]
theorem retag_sectionPath (draft : ChunkDraft) (path : Option String) :
    (retag draft path).metadata.get? "section_path" = some (pathValue path) := by
  simp [retag]

section Tags

variable (split : String → List String) (count : String → Int) (config : ChunkerConfig)

theorem isTableAtomic_tableDraft (table : Element) (captionText : Option String) :
    isTableAtomic (tableDraft count config table captionText) = true := by
  simp [isTableAtomic, tableDraft, tableMetadata_strategy]

theorem isTableAtomic_retag (draft : ChunkDraft) (path : Option String) : isTableAtomic (retag draft path) = false := by
  rw [isTableAtomic, retag_strategy]
  decide

theorem isTableAtomic_sectionDrafts {elements : List Element} {draft : ChunkDraft}
    (member : draft ∈ sectionDrafts split count elements) : isTableAtomic draft = false := by
  simp only [sectionDrafts] at member
  split at member
  next => simp at member
  next =>
    obtain ⟨piece, _, rfl⟩ := List.mem_map.mp member
    rw [isTableAtomic, proseDraft, recursiveMetadata_strategy]
    decide

theorem isTableAtomic_dispatchedDrafts {headed : Bool} {elements : List Element} {draft : ChunkDraft}
    (member : draft ∈ dispatchedDrafts split count config headed { kind := .nonTable, elements }) :
    isTableAtomic draft = false := by
  simp only [dispatchedDrafts] at member
  split at member
  next =>
    obtain ⟨part, _, listed⟩ := List.mem_flatMap.mp member
    obtain ⟨own, _, rfl⟩ := List.mem_map.mp listed
    exact isTableAtomic_retag own part.1
  next => exact isTableAtomic_sectionDrafts split count member

theorem regionDrafts_table (headed : Bool) (table : Element) (captionText : Option String) :
    regionDrafts split count config headed { kind := .table, elements := [table], captionText } =
      [tableDraft count config table captionText] := rfl

theorem isTableAtomic_regionDrafts {headed : Bool} {elements : List Element} {draft : ChunkDraft}
    (member : draft ∈ regionDrafts split count config headed { kind := .nonTable, elements }) :
    isTableAtomic draft = false := by
  by_cases empty : dispatchedDrafts split count config headed { kind := .nonTable, elements } = []
  next => simp [regionDrafts, empty, mergeUndersizedTail_nil] at member
  next =>
    obtain ⟨kept, first, rest, input, _, result⟩ :=
      mergeUndersizedTail_absorbing (plainServices split count config) config empty
    have prose (draft : ChunkDraft) (listed : draft ∈ kept ++ first :: rest) : isTableAtomic draft = false :=
      isTableAtomic_dispatchedDrafts split count config (input ▸ listed)
    rw [regionDrafts, result] at member
    rcases List.mem_append.mp member with held | last
    next => exact prose draft (by simp [held])
    next =>
      obtain rfl := List.mem_singleton.mp last
      rw [isTableAtomic_absorb]
      exact prose first (by simp)

end Tags

section Tables

variable (split : String → List String) (count : String → Int) (config : ChunkerConfig)

def tableDrafts (elements : List Element) : List ChunkDraft :=
  elements.zipIdx.flatMap fun (element, index) =>
    if element.type = .table then [tableDraft count config element (captionForTable elements index)] else []

theorem flushBuffer_no_tables (headed : Bool) (buffer : List Element) :
    ((flushBuffer buffer).flatMap (regionDrafts split count config headed)).filter isTableAtomic = [] := by
  rw [List.filter_eq_nil_iff]
  intro draft member
  obtain ⟨region, listed, drafted⟩ := List.mem_flatMap.mp member
  simp only [flushBuffer] at listed
  split at listed
  next => simp at listed
  next =>
    obtain rfl := List.mem_singleton.mp listed
    simp [isTableAtomic_regionDrafts split count config drafted]

theorem partitionFrom_tables (headed : Bool) (elements rest : List Element) (index : Nat) (buffer : List Element) :
    ((partitionFrom elements index buffer rest).flatMap (regionDrafts split count config headed)).filter
        isTableAtomic =
      (rest.zipIdx index).flatMap fun (element, index) =>
        if element.type = .table then [tableDraft count config element (captionForTable elements index)] else [] := by
  induction rest generalizing index buffer with
  | nil => simpa [partitionFrom] using flushBuffer_no_tables split count config headed buffer
  | cons element rest ih =>
    have flushed := flushBuffer_no_tables split count config headed buffer
    simp only [partitionFrom, List.zipIdx_cons, List.flatMap_cons]
    by_cases isTable : element.type = .table
    next =>
      rw [if_neg (by simpa using isTable), List.flatMap_append, List.filter_append, flushed, List.flatMap_cons,
        regionDrafts_table, List.filter_append, ih, if_pos isTable]
      simp [isTableAtomic_tableDraft]
    next => rw [if_pos isTable, ih, if_neg isTable, List.nil_append]

theorem assembledDrafts_tables (docId : String) (elements : List Element) :
    (assembledDrafts split count config docId elements).filter isTableAtomic = tableDrafts count config elements := by
  rw [assembledDrafts_eq]
  exact partitionFrom_tables split count config (hasHeadings elements) elements elements 0 []

end Tables

theorem flushSection_content (path : Option String) (content : List Element) :
    (flushSection path content).flatMap Prod.snd = content := by
  cases content <;> simp [flushSection]

theorem splitFrom_content (path : Option String) (content elements : List Element) :
    (splitFrom path content elements).flatMap Prod.snd =
      content ++ elements.filter (fun element => element.type ≠ .heading) := by
  induction elements generalizing path content with
  | nil => simp [splitFrom, flushSection_content]
  | cons element rest ih =>
    simp only [splitFrom]
    split
    next isHeading => simp [ih, flushSection_content, isHeading]
    next isContent => simp [ih, isContent]

theorem splitIntoSections_content (elements : List Element) :
    (splitIntoSections elements).flatMap Prod.snd = elements.filter (fun element => element.type ≠ .heading) :=
  splitFrom_content none [] elements

def draftOf (chunk : Chunk) : ChunkDraft :=
  { elementTypes := chunk.elementTypes, text := chunk.text, tokenCount := chunk.tokenCount,
    metadata := chunk.metadata }

section Positions

variable {hexdigest : ByteArray → String} {docId : String} {drafts : List ChunkDraft} {chunks : List Chunk}

theorem assignPositions_ok (hexdigest : ByteArray → String) (hex : hexRe (PyStr.ofString docId))
    (drafts : List ChunkDraft) : ∃ chunks, assignPositions hexdigest docId drafts = .ok chunks := by
  apply exists_mapM_ok
  intro item _
  obtain ⟨bytes, _, derived⟩ := deriveChunkId_ok hexdigest hex (Int.natCast_nonneg item.2)
  simp only [PyValue.ofString, derived, Except.mapError, Bind.bind, Except.bind]
  exact ⟨_, rfl⟩

-- What one turn of the loop builds.
theorem chunk_of_draft {item : ChunkDraft × Nat} {chunk : Chunk} (built : (do
      let chunkId ← (deriveChunkId hexdigest (.ofString docId) (.int item.2)).mapError Exc.identity
      return { chunkId, docId, position := item.2, elementTypes := item.1.elementTypes, text := item.1.text,
               tokenCount := item.1.tokenCount, metadata := item.1.metadata } : Except Exc Chunk) = .ok chunk) :
    draftOf chunk = item.1 ∧ chunk.position = (item.2 : Int) ∧
      deriveChunkId hexdigest (.ofString docId) (.int item.2) = .ok chunk.chunkId := by
  cases derived : deriveChunkId hexdigest (.ofString docId) (.int item.2) with
  | error fault => simp [derived, Except.mapError, Bind.bind, Except.bind] at built
  | ok chunkId =>
    simp only [derived, Except.mapError, Bind.bind, Except.bind, Pure.pure, Except.pure, Except.ok.injEq] at built
    subst built
    exact ⟨rfl, rfl, rfl⟩

theorem draftOf_assigned (assigned : assignPositions hexdigest docId drafts = .ok chunks) :
    chunks.map draftOf = drafts := by
  rw [map_of_mapM_ok (fun _ _ built => (chunk_of_draft built).1) assigned, List.zipIdx_map_fst]

theorem positions_assigned (assigned : assignPositions hexdigest docId drafts = .ok chunks) :
    chunks.map (·.position) = (List.range drafts.length).map Int.ofNat := by
  rw [map_of_mapM_ok (k := Int.ofNat ∘ Prod.snd) (fun _ _ built => (chunk_of_draft built).2.1) assigned,
    ← List.map_map, List.zipIdx_map_snd, List.range_eq_range']

theorem chunkIds_assigned (injective : Function.Injective hexdigest) (hex : hexRe (PyStr.ofString docId))
    (assigned : assignPositions hexdigest docId drafts = .ok chunks) : (chunks.map (·.chunkId)).Nodup := by
  have places : (chunks.map (·.position)).Nodup := by
    rw [positions_assigned assigned]
    exact List.nodup_range.map fun _ _ same => Int.ofNat.inj same
  apply (List.Nodup.of_map _ places).map_on
  intro first listedFirst second listedSecond same
  obtain ⟨item₁, _, built₁⟩ := source_of_mapM_ok assigned listedFirst
  obtain ⟨item₂, _, built₂⟩ := source_of_mapM_ok assigned listedSecond
  have derived₂ := (chunk_of_draft built₂).2.2
  rw [← same] at derived₂
  have place : item₁.2 = item₂.2 := by
    have derivedSame := (chunk_of_draft built₁).2.2.trans derived₂.symm
    have separated := deriveChunkId_separates injective hex hex (Int.natCast_nonneg _) (Int.natCast_nonneg _) derivedSame
    exact Int.ofNat.inj separated.2
  apply List.inj_on_of_nodup_map places listedFirst listedSecond
  rw [(chunk_of_draft built₁).2.1, (chunk_of_draft built₂).2.1, place]

theorem hexRe_of_derived {position : Nat} {chunkId : String}
    (derived : deriveChunkId hexdigest (.ofString docId) (.int position) = .ok chunkId) : hexRe (PyStr.ofString docId) := by
  by_contra malformed
  simp [deriveChunkId, validateIdFormat_ofString, malformed, Bind.bind, Except.bind] at derived

theorem chunkIds_disjoint (injective : Function.Injective hexdigest) {other : String} (different : docId ≠ other)
    {otherDrafts : List ChunkDraft} {otherChunks : List Chunk}
    (assigned : assignPositions hexdigest docId drafts = .ok chunks)
    (assignedOther : assignPositions hexdigest other otherDrafts = .ok otherChunks) :
    ∀ chunk ∈ chunks, ∀ chunk' ∈ otherChunks, chunk.chunkId ≠ chunk'.chunkId := by
  intro chunk member chunk' member' same
  obtain ⟨item, _, built⟩ := source_of_mapM_ok assigned member
  obtain ⟨item', _, built'⟩ := source_of_mapM_ok assignedOther member'
  have derived := (chunk_of_draft built).2.2
  have derived' := (chunk_of_draft built').2.2
  rw [← same] at derived'
  have separated := deriveChunkId_separates injective (hexRe_of_derived derived) (hexRe_of_derived derived')
    (Int.natCast_nonneg _) (Int.natCast_nonneg _) (derived.trans derived'.symm)
  exact different (PyStr.ofString_injective separated.1)

end Positions

structure ChunkIdentity (hexdigest : ByteArray → String) : Prop where
  separates : ∀ (docId other : PyValue) (text otherText : PyStr) (index otherIndex : Int),
    validateIdFormat docId "doc_id" = .ok text → validateIdFormat other "doc_id" = .ok otherText →
    0 ≤ index → 0 ≤ otherIndex →
    deriveChunkId hexdigest docId (.int index) = deriveChunkId hexdigest other (.int otherIndex) →
    docId = other ∧ index = otherIndex
  derives : ∀ (docId : PyValue) (text : PyStr) (index : Int), validateIdFormat docId "doc_id" = .ok text →
    0 ≤ index → ∃ chunkId, deriveChunkId hexdigest docId (.int index) = .ok chunkId
  disjoint : ∀ (docId other : String) (drafts otherDrafts : List ChunkDraft) (chunks otherChunks : List Chunk),
    docId ≠ other → assignPositions hexdigest docId drafts = .ok chunks →
    assignPositions hexdigest other otherDrafts = .ok otherChunks →
    ∀ chunk ∈ chunks, ∀ chunk' ∈ otherChunks, chunk.chunkId ≠ chunk'.chunkId
  batch : ∀ (docId : PyValue) (text : PyStr) (chunkIndices : List PyValue),
    validateIdFormat docId "doc_id" = .ok text → (∀ chunkIndex ∈ chunkIndices, ValidIndex chunkIndex) →
    ∃ ids, deriveChunkIdsBatch hexdigest docId chunkIndices = .ok ids ∧ BatchOf hexdigest docId chunkIndices ids
  batchRaises : ∀ (docId : PyValue) (text : PyStr) (chunkIndices : List PyValue),
    validateIdFormat docId "doc_id" = .ok text → (∃ chunkIndex ∈ chunkIndices, ¬ ValidIndex chunkIndex) →
    ∃ reason, deriveChunkIdsBatch hexdigest docId chunkIndices = .error (.identityInvalid "chunk_index" reason)

theorem chunk_identity (hexdigest : ByteArray → String) (injective : Function.Injective hexdigest) :
    ChunkIdentity hexdigest where
  separates docId other text otherText index otherIndex accepted acceptedOther nonneg nonnegOther same := by
    obtain ⟨rfl, hex⟩ := (validateIdFormat_eq_ok ..).mp accepted
    obtain ⟨rfl, hexOther⟩ := (validateIdFormat_eq_ok ..).mp acceptedOther
    obtain ⟨rfl, rfl⟩ := deriveChunkId_separates injective hex hexOther nonneg nonnegOther same
    exact ⟨rfl, rfl⟩
  derives docId text index accepted nonneg := by
    obtain ⟨rfl, hex⟩ := (validateIdFormat_eq_ok ..).mp accepted
    obtain ⟨bytes, -, derived⟩ := deriveChunkId_ok hexdigest hex nonneg
    exact ⟨_, derived⟩
  disjoint docId other drafts otherDrafts chunks otherChunks different := chunkIds_disjoint injective different
  batch docId text chunkIndices accepted valid := by
    obtain ⟨rfl, hex⟩ := (validateIdFormat_eq_ok ..).mp accepted
    exact deriveChunkIdsBatch_ok hex injective valid
  batchRaises docId text chunkIndices accepted invalid := by
    obtain ⟨rfl, hex⟩ := (validateIdFormat_eq_ok ..).mp accepted
    exact deriveChunkIdsBatch_error hex hexdigest invalid

theorem chunk_identity_at_sample : Function.Injective sampleHexdigest ∧ ChunkIdentity sampleHexdigest :=
  ⟨sampleHexdigest_injective, chunk_identity sampleHexdigest sampleHexdigest_injective⟩

def assembledChunks (hexdigest : ByteArray → String) (split : String → List String) (count : String → Int)
    (config : ChunkerConfig) (docId : String) (elements : List Element) : Except Exc (List Chunk) :=
  assignPositions hexdigest docId (assembledDrafts split count config docId elements)

-- A splitter that records the texts it is given, in a run that is otherwise the same.

def recordingTools (split : String → List String) (count : String → Int) : TextTools (StateM (List String)) where
  textSplitter _ _ := pure ()
  splitText _ _ text := do
    modify (· ++ [text])
    return split text
  count text := pure (count text)
  indexError := pure []

def Records {α : Type} (p : StateM (List String) α) (value : α) (texts : List String) : Prop :=
  ∀ log, (p.run log).run = (value, log ++ texts)

theorem records_pure {α : Type} (value : α) : Records (pure value) value [] := by
  intro log
  simp

theorem records_bind {α β : Type} {p : StateM (List String) α} {f : α → StateM (List String) β} {value : α} {result : β}
    {first second : List String} (head : Records p value first) (tail : Records (f value) result second) :
    Records (p >>= f) result (first ++ second) := by
  intro log
  have step : ((p >>= f).run log).run = ((f (p.run log).run.1).run (p.run log).run.2).run := rfl
  rw [step, head log, tail, List.append_assoc]

def silently : MonadRel (StateM (List String)) Id where
  rel p q := Records p q.run []
  pure value := records_pure value
  bind head tail := records_bind head (tail _)

theorem records_foldlM {ι α : Type} {f : ι → StateM (List String) (List α)} {values : ι → List α}
    {texts : ι → List String} (each : ∀ item, Records (f item) (values item) (texts item)) (items : List ι)
    (before : List α) :
    Records (items.foldlM (fun all item => do return all ++ (← f item)) before) (before ++ items.flatMap values)
      (items.flatMap texts) := by
  induction items generalizing before with
  | nil => simpa using records_pure before
  | cons item rest ih =>
    have head : Records (do return before ++ (← f item)) (before ++ values item) (texts item ++ []) :=
      records_bind (each item) (records_pure _)
    rw [List.append_nil] at head
    rw [List.foldlM_cons, List.flatMap_cons, List.flatMap_cons, ← List.append_assoc]
    exact records_bind head (ih (before ++ values item))

def calls (elements : List Element) : List (List Element) := if elements.isEmpty then [] else [elements]

theorem calls_flatten (elements : List Element) : (calls elements).flatten = elements := by
  cases elements <;> simp [calls]

def passedSections (headed : Bool) (region : Region) : List (List Element) :=
  match region.kind with
  | .table => []
  | .nonTable =>
      if headed then (splitIntoSections region.elements).flatMap fun part => calls part.2 else calls region.elements

section Recording

variable (split : String → List String) (count : String → Int) (config : ChunkerConfig)

theorem recursiveChunkRegion_records (elements : List Element) :
    Records (recursiveChunkRegion (recordingTools split count) config elements) (sectionDrafts split count elements)
      ((calls elements).map joinElementText) := by
  simp only [recursiveChunkRegion, sectionDrafts, calls]
  split
  next => exact records_pure []
  next =>
    have counted : Records ((split (joinElementText elements)).mapM fun piece => do
        return { elementTypes := uniqueElementTypes elements, text := piece,
                 tokenCount := ← (recordingTools split count).count piece, metadata := recursiveMetadata elements })
        ((split (joinElementText elements)).map (proseDraft count elements)) [] := by
      have silent := records_pure ((split (joinElementText elements)).map (proseDraft count elements))
      rw [← List.mapM_pure] at silent
      exact silent
    have passed : Records ((recordingTools split count).splitText config.targetChunkTokens config.overlapTokens
        (joinElementText elements)) (split (joinElementText elements)) [joinElementText elements] := fun log => rfl
    have constructed : Records ((recordingTools split count).textSplitter config.targetChunkTokens
        config.overlapTokens) () [] := records_pure ()
    exact records_bind constructed (records_bind passed counted)

theorem dispatchRegion_records (headed : Bool) (docId : String) (region : Region) :
    Records (dispatchRegion (strategies (recordingTools split count) config) headed docId region)
      (dispatchedDrafts split count config headed region) ((passedSections headed region).map joinElementText) := by
  obtain ⟨kind, elements, captionText⟩ := region
  cases kind with
  | table => cases elements <;> exact records_pure _
  | nonTable =>
    cases headed with
    | false => exact recursiveChunkRegion_records split count config elements
    | true =>
      have each (part : Option String × List Element) : Records (do
          return (← recursiveChunkRegion (recordingTools split count) config part.2).map (retag · part.1))
          ((sectionDrafts split count part.2).map (retag · part.1)) ((calls part.2).map joinElementText) := by
        rw [← List.append_nil ((calls part.2).map joinElementText)]
        exact records_bind (recursiveChunkRegion_records split count config part.2) (records_pure _)
      have folded := records_foldlM each (splitIntoSections elements) []
      rw [← List.map_flatMap] at folded
      exact folded

theorem assembleDrafts_records (docId : String) (elements : List Element) :
    Records (assembleDrafts (strategies (recordingTools split count) config) config docId elements)
      (assembledDrafts split count config docId elements)
      (((partitionRegions elements).flatMap (passedSections (hasHeadings elements))).map joinElementText) := by
  have each (region : Region) : Records (do
      mergeUndersizedTail (strategies (recordingTools split count) config) config
        (← dispatchRegion (strategies (recordingTools split count) config) (hasHeadings elements) docId region))
      (regionDrafts split count config (hasHeadings elements) region)
      ((passedSections (hasHeadings elements) region).map joinElementText) := by
    have counts (text : String) : silently.rel ((strategies (recordingTools split count) config).count text)
        ((plainServices split count config).count text) := silently.pure (count text)
    have merged : Records (mergeUndersizedTail (strategies (recordingTools split count) config) config _) _ [] :=
      mergeUndersizedTail_related config counts (dispatchedDrafts split count config (hasHeadings elements) region)
    rw [← List.append_nil (List.map _ _)]
    exact records_bind (dispatchRegion_records split count config (hasHeadings elements) docId region) merged
  have folded := records_foldlM each (partitionRegions elements) []
  rw [← List.map_flatMap, List.nil_append, ← assembledDrafts_eq split count config docId] at folded
  exact folded

end Recording

-- Headings are not content of their sections, and a document with a heading has no other regions.
def reachesSplitter (elements : List Element) (element : Element) : Bool :=
  element.type ≠ .table && !(hasHeadings elements && element.type = .heading)

theorem passedSections_flatten {elements : List Element} {region : Region}
    (member : region ∈ partitionRegions elements) :
    (passedSections (hasHeadings elements) region).flatten = region.elements.filter (reachesSplitter elements) := by
  cases partitionRegions_regionOf member with
  | table table captionText isTable => simp [passedSections, reachesSplitter, isTable]
  | nonTable content nonempty noTable =>
    simp only [passedSections]
    cases headed : hasHeadings elements with
    | true =>
      have sections : ((splitIntoSections content).flatMap fun part => calls part.2).flatten =
          (splitIntoSections content).flatMap Prod.snd := by
        rw [List.flatMap_def, List.flatMap_def, List.flatten_flatten, List.map_map]
        congr 2
        funext part
        exact calls_flatten part.2
      rw [if_pos rfl, sections, splitIntoSections_content]
      apply List.filter_congr
      intro element listed
      simp [reachesSplitter, headed, noTable element listed]
    | false =>
      rw [if_neg (by simp), calls_flatten]
      symm
      rw [List.filter_eq_self]
      intro element listed
      simp [reachesSplitter, headed, noTable element listed]

theorem passed_flatten (elements : List Element) :
    ((partitionRegions elements).flatMap (passedSections (hasHeadings elements))).flatten =
      elements.filter (reachesSplitter elements) := by
  have regions : ((partitionRegions elements).flatMap (passedSections (hasHeadings elements))).flatten =
      (partitionRegions elements).flatMap fun region => region.elements.filter (reachesSplitter elements) := by
    rw [List.flatMap_def, List.flatten_flatten, List.map_map, List.flatMap_def]
    congr 1
    apply List.map_congr_left
    intro region member
    exact passedSections_flatten member
  rw [regions, ← List.filter_flatMap, partitionRegions_elements]

def recordedChunks (hexdigest : ByteArray → String) (split : String → List String) (count : String → Int)
    (config : ChunkerConfig) (docId : String) (elements : List Element) :
    Except Exc (List Chunk) × List String :=
  let recorded := (assembleDrafts (strategies (recordingTools split count) config) config docId elements).run []
  (assignPositions hexdigest docId recorded.run.1, recorded.run.2)

structure ChunkStream (hexdigest : ByteArray → String) (split : String → List String) (count : String → Int)
    (config : ChunkerConfig) (elements : List Element) (chunks : List Chunk) (passed : List String) : Prop where
  concatenated : (partitionRegions elements).flatMap (·.elements) = elements
  tables : (chunks.map draftOf).filter isTableAtomic = tableDrafts count config elements
  passedOnce : ∃ sections : List (List Element), passed = sections.map joinElementText ∧
    sections.flatten = elements.filter (reachesSplitter elements)
  ordered : chunks.map draftOf =
    (partitionRegions elements).flatMap (regionDrafts split count config (hasHeadings elements))
  positions : chunks.map (·.position) = (List.range chunks.length).map Int.ofNat
  distinct : Function.Injective hexdigest → (chunks.map (·.chunkId)).Nodup

theorem chunkStream_of_envelope (hexdigest : ByteArray → String) (split : String → List String)
    (count : String → Int) (config : ChunkerConfig) (envelope : ArrivalEnvelope) (elements : List Element) :
    ∃ chunks passed,
      recordedChunks hexdigest split count config envelope.docId elements = (.ok chunks, passed) ∧
        ChunkStream hexdigest split count config elements chunks passed := by
  obtain ⟨chunks, assigned⟩ := assignPositions_ok hexdigest envelope.docIdFormat
    (assembledDrafts split count config envelope.docId elements)
  have recorded := assembleDrafts_records split count config envelope.docId elements []
  have drafts := draftOf_assigned assigned
  have ran : recordedChunks hexdigest split count config envelope.docId elements = (.ok chunks,
      ((partitionRegions elements).flatMap (passedSections (hasHeadings elements))).map joinElementText) := by
    simp only [recordedChunks, recorded, assigned, List.nil_append]
  refine ⟨chunks, _, ran, ?_⟩
  constructor
  next => exact partitionRegions_elements elements
  next => rw [drafts, assembledDrafts_tables]
  next => exact ⟨_, rfl, passed_flatten elements⟩
  next => rw [drafts, assembledDrafts_eq]
  next =>
    have lengths : chunks.length = (assembledDrafts split count config envelope.docId elements).length := by
      rw [← drafts, List.length_map]
    rw [positions_assigned assigned, lengths]
  next =>
    intro injective
    exact chunkIds_assigned injective envelope.docIdFormat assigned

end Chunker

end Vestibule
