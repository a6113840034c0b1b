import Vestibule.Chunker.Stream

set_option autoImplicit false

namespace Vestibule

open Library

-- Where in the document the text of a chunk comes from. A part is what a strategy made of one piece of
-- text, with the content it was split from and everything that stands before that content; a group is a
-- part with the parts that the merge pass added to it.

namespace Chunker

structure Part where
  before : List Element
  content : List Element
  draft : ChunkDraft

structure Group where
  first : Part
  rest : List Part

def Group.parts (group : Group) : List Part := group.first :: group.rest

def lastHeading (elements : List Element) : Option String :=
  elements.foldl (fun path element => if element.type = .heading then some element.text else path) none

-- A table takes the heading away.
def headingSinceTable (elements : List Element) : Option String :=
  elements.foldl (fun path element =>
    if element.type = .heading then some element.text else if element.type = .table then none else path) none

def headingCount (elements : List Element) : Nat := elements.countP (fun element => element.type = .heading)

def tableCount (elements : List Element) : Nat := elements.countP (fun element => element.type = .table)

theorem headingSinceTable_heading (before : List Element) {element : Element} (isHeading : element.type = .heading) :
    headingSinceTable (before ++ [element]) = some element.text := by
  simp [headingSinceTable, isHeading]

theorem headingSinceTable_table (before : List Element) {element : Element} (isTable : element.type = .table) :
    headingSinceTable (before ++ [element]) = none := by
  simp [headingSinceTable, isTable]

def placedSection (path : Option String) (before content : List Element) :
    List (Option String × List Element × List Element) :=
  if content.isEmpty then [] else [(path, before, content)]

def placedFrom (path : Option String) (before content : List Element) :
    List Element → List (Option String × List Element × List Element)
  | [] => placedSection path before content
  | element :: rest =>
      if element.type = .heading then
        placedSection path before content ++
          placedFrom (some element.text) (before ++ content ++ [element]) [] rest
      else placedFrom path before (content ++ [element]) rest

def placedSections (before elements : List Element) : List (Option String × List Element × List Element) :=
  placedFrom none before [] elements

theorem placedFrom_sections (path : Option String) (before content elements : List Element) :
    (placedFrom path before content elements).map (fun part => (part.1, part.2.2)) =
      splitFrom path content elements := by
  induction elements generalizing path before content with
  | nil =>
    simp only [placedFrom, splitFrom, placedSection, flushSection]
    split <;> simp
  | cons element rest ih =>
    simp only [placedFrom, splitFrom]
    split
    next =>
      rw [List.map_append, ih]
      congr 1
      simp only [placedSection, flushSection]
      split <;> simp
    next => exact ih path before (content ++ [element])

-- `tables` is the number of tables before the region, and so before every section of it.
structure SectionAt (document : List Element) (tables : Nat) (part : Option String × List Element × List Element) :
    Prop where
  placed : part.2.1 ++ part.2.2 <+: document
  region : tableCount part.2.1 = tables
  path : part.1 = headingSinceTable part.2.1
  noHeading : ∀ element ∈ part.2.2, element.type ≠ .heading
  noTable : ∀ element ∈ part.2.2, element.type ≠ .table

theorem placedSection_at {document before content : List Element} {tables : Nat} {path : Option String}
    (current : SectionAt document tables (path, before, content)) :
    ∀ part ∈ placedSection path before content, SectionAt document tables part := by
  intro part member
  simp only [placedSection] at member
  split at member
  next => simp at member
  next =>
    obtain rfl := List.mem_singleton.mp member
    exact current

theorem tableCount_of_no_table {before content : List Element} (noTable : ∀ element ∈ content, element.type ≠ .table) :
    tableCount (before ++ content) = tableCount before := by
  have zero : content.countP (fun element => element.type = .table) = 0 :=
    List.countP_eq_zero.mpr fun element member => by simpa using noTable element member
  simp [tableCount, zero]

section Scan

variable {document before content rest : List Element} {tables : Nat} {path : Option String} {element : Element}
variable (whole : before ++ content ++ element :: rest <+: document)
variable (current : SectionAt document tables (path, before, content)) (noTable : element.type ≠ .table)

include noTable current in
theorem run_no_table : ∀ other ∈ content ++ [element], other.type ≠ .table := by
  intro other listed
  rcases List.mem_append.mp listed with held | last
  next => exact current.noTable other held
  next => simpa [List.mem_singleton.mp last] using noTable

include whole in
theorem run_placed : before ++ content ++ [element] <+: document :=
  List.IsPrefix.trans ⟨rest, by simp⟩ whole

include whole current noTable in
theorem sectionAt_heading (isHeading : element.type = .heading) :
    SectionAt document tables (some element.text, before ++ content ++ [element], []) where
  placed := by simpa using run_placed whole
  region := by
    rw [List.append_assoc, tableCount_of_no_table (run_no_table current noTable)]
    exact current.region
  path := (headingSinceTable_heading _ isHeading).symm
  noHeading := by simp
  noTable := by simp

include whole current noTable in
theorem sectionAt_content (isContent : element.type ≠ .heading) :
    SectionAt document tables (path, before, content ++ [element]) where
  placed := by simpa using run_placed whole
  region := current.region
  path := current.path
  noHeading other listed := by
    rcases List.mem_append.mp listed with held | last
    next => exact current.noHeading other held
    next => simpa [List.mem_singleton.mp last] using isContent
  noTable := run_no_table current noTable

end Scan

theorem placedFrom_at {document before content elements : List Element} {tables : Nat} {path : Option String}
    (whole : before ++ content ++ elements <+: document) (current : SectionAt document tables (path, before, content))
    (noTable : ∀ element ∈ elements, element.type ≠ .table) :
    ∀ part ∈ placedFrom path before content elements, SectionAt document tables part := by
  induction elements generalizing path before content with
  | nil => exact placedSection_at current
  | cons element rest ih =>
    have first : element.type ≠ .table := noTable element (by simp)
    have later : ∀ element ∈ rest, element.type ≠ .table := fun other member => noTable other (by simp [member])
    simp only [placedFrom]
    split
    next isHeading =>
      intro part member
      rcases List.mem_append.mp member with flushed | following
      next => exact placedSection_at current part flushed
      next =>
        exact ih (by simpa using whole) (sectionAt_heading whole current first isHeading) later part following
    next isContent => exact ih (by simpa using whole) (sectionAt_content whole current first isContent) later

section Parts

variable (split : String → List String) (count : String → Int) (config : ChunkerConfig)

def regionParts (headed : Bool) (before : List Element) (region : Region) : List Part :=
  match region.kind, region.elements with
  | .table, [] => []
  | .table, table :: _ => [⟨before, [table], tableDraft count config table region.captionText⟩]
  | .nonTable, elements =>
      if headed then
        (placedSections before elements).flatMap fun part =>
          (sectionDrafts split count part.2.2).map fun draft => ⟨part.2.1, part.2.2, retag draft part.1⟩
      else (sectionDrafts split count elements).map fun draft => ⟨before, elements, draft⟩

theorem regionParts_drafts (headed : Bool) (before : List Element) (region : Region) :
    (regionParts split count config headed before region).map Part.draft =
      dispatchedDrafts split count config headed region := by
  obtain ⟨kind, elements, captionText⟩ := region
  cases kind with
  | table => cases elements <;> rfl
  | nonTable =>
    simp only [regionParts, dispatchedDrafts]
    split
    next =>
      have sections : splitIntoSections elements =
          (placedSections before elements).map (fun part => (part.1, part.2.2)) :=
        (placedFrom_sections none before [] elements).symm
      rw [sections, List.map_flatMap, List.flatMap_map]
      simp [Function.comp_def]
    next => simp [Function.comp_def]

inductive PartAt (document : List Element) (tables : Nat) : Part → Prop where
  | prose {before content : List Element} {draft : ChunkDraft} (placed : before ++ content <+: document)
      (region : tableCount before = tables) (noHeading : ∀ element ∈ content, element.type ≠ .heading)
      (noTable : ∀ element ∈ content, element.type ≠ .table)
      (text : draft.text ∈ split (joinElementText content))
      (path : draft.metadata.get? "section_path" = some (pathValue (headingSinceTable before))) :
      PartAt document tables ⟨before, content, draft⟩
  | table {before : List Element} {table : Element} (placed : before ++ [table] <+: document)
      (region : tableCount before = tables) (isTable : table.type = .table) :
      PartAt document tables
        ⟨before, [table], tableDraft count config table (captionForTable document before.length)⟩

theorem sectionDrafts_text {elements : List Element} {draft : ChunkDraft}
    (member : draft ∈ sectionDrafts split count elements) :
    draft.text ∈ split (joinElementText elements) ∧ draft.metadata = recursiveMetadata elements := by
  simp only [sectionDrafts] at member
  split at member
  next => simp at member
  next =>
    obtain ⟨piece, listed, rfl⟩ := List.mem_map.mp member
    exact ⟨listed, rfl⟩

-- A region begins after a table or at the start of the document.
structure RegionAt (document before : List Element) (region : Region) : Prop where
  regionOf : RegionOf region
  placed : before ++ region.elements <+: document
  fresh : region.kind = .nonTable → headingSinceTable before = none
  caption : region.kind = .table → region.captionText = captionForTable document before.length

theorem regionParts_at {document before : List Element} {region : Region} (at_ : RegionAt document before region) :
    ∀ part ∈ regionParts split count config (hasHeadings document) before region,
      PartAt split count config document (tableCount before) part := by
  obtain ⟨regionOf, placed, fresh, caption⟩ := at_
  cases regionOf with
  | table table captionText isTable =>
    intro part member
    obtain rfl := List.mem_singleton.mp member
    rw [show captionText = captionForTable document before.length from caption rfl]
    exact .table placed rfl isTable
  | nonTable elements nonempty noTable =>
    simp only [regionParts]
    split
    next =>
      intro part member
      obtain ⟨found, listed, drafted⟩ := List.mem_flatMap.mp member
      obtain ⟨draft, own, rfl⟩ := List.mem_map.mp drafted
      have started : SectionAt document (tableCount before) (none, before, []) :=
        ⟨by simpa using List.IsPrefix.trans (List.prefix_append _ _) placed, rfl, (fresh rfl).symm, by simp, by simp⟩
      have current := placedFrom_at (by simpa using placed) started noTable found listed
      have path : (retag draft found.1).metadata.get? "section_path" =
          some (pathValue (headingSinceTable found.2.1)) := by
        rw [retag_sectionPath, ← current.path]
      exact .prose current.placed current.region current.noHeading current.noTable
        (sectionDrafts_text split count own).1 path
    next headless =>
      have noHeading : ∀ element ∈ document, element.type ≠ .heading := by simpa [hasHeadings] using headless
      intro part member
      obtain ⟨draft, own, rfl⟩ := List.mem_map.mp member
      have drafted := sectionDrafts_text split count own
      have path : draft.metadata.get? "section_path" = some (pathValue (headingSinceTable before)) := by
        rw [fresh rfl, drafted.2, recursiveMetadata_sectionPath]
        rfl
      refine .prose placed rfl ?_ noTable drafted.1 path
      intro element listed
      exact noHeading element (placed.subset (by simp [listed]))

end Parts

section Groups

variable (services : Services Id) (config : ChunkerConfig)

def Group.draft (group : Group) : ChunkDraft := absorb services group.first.draft (group.rest.map Part.draft)

def lastGroup : List Part → List Group
  | [] => []
  | first :: rest => [⟨first, rest⟩]

def groupsOf (parts : List Part) : List Group :=
  let kept := (mergeUndersizedTail services config (parts.map Part.draft)).run.length - 1
  (parts.take kept).map (⟨·, []⟩) ++ lastGroup (parts.drop kept)

theorem groupsOf_nil : groupsOf services config [] = [] := rfl

theorem groupsOf_absorbing {parts : List Part} (nonempty : parts ≠ []) :
    ∃ kept first rest, parts = kept ++ first :: rest ∧
      Absorbing services config (kept.map Part.draft) first.draft (rest.map Part.draft) ∧
      groupsOf services config parts = kept.map (⟨·, []⟩) ++ [⟨first, rest⟩] ∧
      (mergeUndersizedTail services config (parts.map Part.draft)).run =
        kept.map Part.draft ++ [absorb services first.draft (rest.map Part.draft)] := by
  have drafted : parts.map Part.draft ≠ [] := by simpa using nonempty
  obtain ⟨keptDrafts, firstDraft, restDrafts, input, absorbing, result⟩ :=
    mergeUndersizedTail_absorbing services config drafted
  obtain ⟨kept, others, rfl, rfl, tail⟩ := List.map_eq_append_iff.mp input
  obtain ⟨first, rest, rfl, rfl, rfl⟩ := List.map_eq_cons_iff.mp tail
  refine ⟨kept, first, rest, rfl, absorbing, ?_, result⟩
  have count : (mergeUndersizedTail services config ((kept ++ first :: rest).map Part.draft)).run.length - 1 =
      kept.length := by
    rw [result]
    simp
  simp only [groupsOf, count, List.take_left', List.drop_left', lastGroup]

theorem groupsOf_drafts (parts : List Part) :
    (groupsOf services config parts).map (Group.draft services) =
      (mergeUndersizedTail services config (parts.map Part.draft)).run := by
  by_cases empty : parts = []
  next =>
    subst empty
    rfl
  next =>
    obtain ⟨kept, first, rest, rfl, _, groups, result⟩ := groupsOf_absorbing services config empty
    rw [groups, result]
    simp [Group.draft, Function.comp_def]

end Groups

section Document

variable (split : String → List String) (count : String → Int) (config : ChunkerConfig)

def groupsFrom (headed : Bool) (before : List Element) : List Region → List (List Group)
  | [] => []
  | region :: rest =>
      groupsOf (plainServices split count config) config (regionParts split count config headed before region) ::
        groupsFrom headed (before ++ region.elements) rest

def documentGroups (elements : List Element) : List (List Group) :=
  groupsFrom split count config (hasHeadings elements) [] (partitionRegions elements)

theorem groupsFrom_drafts (headed : Bool) (before : List Element) (regions : List Region) :
    (groupsFrom split count config headed before regions).flatten.map (Group.draft (plainServices split count config)) =
      regions.flatMap (regionDrafts split count config headed) := by
  induction regions generalizing before with
  | nil => rfl
  | cons region rest ih =>
    rw [groupsFrom, List.flatten_cons, List.map_append, ih, List.flatMap_cons, groupsOf_drafts, regionParts_drafts,
      regionDrafts]

theorem documentGroups_drafts (docId : String) (elements : List Element) :
    (documentGroups split count config elements).flatten.map (Group.draft (plainServices split count config)) =
      assembledDrafts split count config docId elements := by
  rw [assembledDrafts_eq]
  exact groupsFrom_drafts split count config (hasHeadings elements) [] (partitionRegions elements)

end Document

def RegionsAt (document before : List Element) : List Region → Prop
  | [] => True
  | region :: rest => RegionAt document before region ∧ RegionsAt document (before ++ region.elements) rest

theorem regionsAt_flush {document before buffer : List Element} {regions : List Region}
    (placed : before ++ buffer <+: document) (fresh : headingSinceTable before = none)
    (noTable : ∀ element ∈ buffer, element.type ≠ .table) (later : RegionsAt document (before ++ buffer) regions) :
    RegionsAt document before (flushBuffer buffer ++ regions) := by
  by_cases empty : buffer = []
  next =>
    subst empty
    simpa [flushBuffer] using later
  next =>
    have flushed : flushBuffer buffer = [{ kind := .nonTable, elements := buffer }] := by simp [flushBuffer, empty]
    rw [flushed]
    exact ⟨⟨.nonTable buffer empty noTable, placed, fun _ => fresh, by simp⟩, later⟩

theorem partitionFrom_at (document before buffer rest : List Element) {index : Nat}
    (place : index = before.length + buffer.length) (whole : document = before ++ buffer ++ rest)
    (fresh : headingSinceTable before = none) (noTable : ∀ element ∈ buffer, element.type ≠ .table) :
    RegionsAt document before (partitionFrom document index buffer rest) := by
  induction rest generalizing before buffer index with
  | nil =>
    rw [partitionFrom, ← List.append_nil (flushBuffer buffer)]
    exact regionsAt_flush ⟨[], by simpa using whole.symm⟩ fresh noTable trivial
  | cons element rest ih =>
    have placed : before ++ buffer ++ [element] <+: document := ⟨rest, by simp [whole]⟩
    simp only [partitionFrom]
    split
    next prose =>
      apply ih before (buffer ++ [element]) (by simp [place, Nat.add_assoc]) (by simpa using whole) fresh
      intro other listed
      rcases List.mem_append.mp listed with held | last
      next => exact noTable other held
      next => simpa [List.mem_singleton.mp last] using prose
    next isTable =>
      have table : element.type = .table := by simpa using isTable
      have caption : captionForTable document index = captionForTable document (before ++ buffer).length := by
        rw [place, List.length_append]
      apply regionsAt_flush (List.IsPrefix.trans (List.prefix_append _ _) placed) fresh noTable
      refine ⟨⟨.table element _ table, placed, by simp, fun _ => caption⟩, ?_⟩
      exact ih (before ++ buffer ++ [element]) [] (by simp [place, Nat.add_assoc]) (by simpa using whole)
        (headingSinceTable_table _ table) (by simp)

theorem partitionRegions_at (elements : List Element) : RegionsAt elements [] (partitionRegions elements) :=
  partitionFrom_at elements [] [] elements rfl rfl rfl (by simp)

section Chunks

variable (split : String → List String) (count : String → Int) (config : ChunkerConfig)

def partPath (part : Part) : Option String :=
  if part.content.any (fun element => element.type = .table) then none else headingSinceTable part.before

theorem partPath_of_no_table {part : Part} (noTable : ∀ element ∈ part.content, element.type ≠ .table) :
    partPath part = headingSinceTable part.before := by
  have bare : part.content.any (fun element => element.type = .table) = false := by simpa using noTable
  simp [partPath, bare]

theorem PartAt.prose_of_not_tableAtomic {document : List Element} {tables : Nat} {part : Part}
    (located : PartAt split count config document tables part) (prose : isTableAtomic part.draft = false) :
    part.before ++ part.content <+: document ∧ part.draft.text ∈ split (joinElementText part.content) ∧
      ∀ element ∈ part.content, element.type ≠ .table := by
  cases located with
  | prose placed region noHeading noTable text path => exact ⟨placed, text, noTable⟩
  | table placed region isTable => simp [isTableAtomic_tableDraft] at prose

theorem PartAt.sectionPath {document : List Element} {tables : Nat} {part : Part}
    (located : PartAt split count config document tables part) :
    part.draft.metadata.get? "section_path" = some (pathValue (partPath part)) := by
  cases located with
  | prose placed region noHeading noTable text path =>
    rw [partPath_of_no_table noTable]
    exact path
  | table placed region isTable =>
    simp only [partPath, tableDraft, tableMetadata_sectionPath, List.any_cons, isTable]
    rfl

structure HeadingBoundaries (document : List Element) (groups : List Group) : Prop where
  parts : ∃ tables, ∀ group ∈ groups, ∀ part ∈ group.parts, PartAt split count config document tables part
  unmerged : ∀ group ∈ groups.dropLast, group.rest = []
  small : ∀ group ∈ groups, ∀ middle next tail, group.rest = middle ++ next :: tail →
    (Group.draft (plainServices split count config) ⟨next, tail⟩).tokenCount < config.minChunkTokens
  path : ∀ group ∈ groups,
    (Group.draft (plainServices split count config) group).metadata.get? "section_path" =
      some (pathValue (partPath group.first))

-- The groups of a region: one for each part that was kept, and one for what was absorbed.
theorem mem_of_mem_parts {kept rest : List Part} {first : Part} {group : Group}
    (member : group ∈ kept.map (⟨·, []⟩) ++ [⟨first, rest⟩]) {part : Part} (own : part ∈ group.parts) :
    part ∈ kept ++ first :: rest := by
  rcases List.mem_append.mp member with held | last
  next =>
    obtain ⟨single, listed, rfl⟩ := List.mem_map.mp held
    obtain rfl : part = single := by simpa [Group.parts] using own
    simp [listed]
  next =>
    obtain rfl := List.mem_singleton.mp last
    exact List.mem_append_right kept own

theorem groupsOf_boundaries {document before : List Element} {region : Region}
    (located : RegionAt document before region) :
    HeadingBoundaries split count config document (groupsOf (plainServices split count config) config
      (regionParts split count config (hasHeadings document) before region)) := by
  have parts := regionParts_at split count config located
  by_cases empty : regionParts split count config (hasHeadings document) before region = []
  next =>
    rw [empty, groupsOf_nil]
    exact ⟨⟨0, by simp⟩, by simp, by simp, by simp⟩
  next =>
    obtain ⟨kept, first, rest, input, absorbing, groups, _⟩ :=
      groupsOf_absorbing (plainServices split count config) config empty
    rw [groups]
    rw [input] at parts
    constructor
    next =>
      refine ⟨tableCount before, ?_⟩
      intro group member part own
      exact parts part (mem_of_mem_parts member own)
    next =>
      intro group member
      rw [List.dropLast_concat] at member
      obtain ⟨single, _, rfl⟩ := List.mem_map.mp member
      rfl
    next =>
      intro group member middle next tail same
      rcases List.mem_append.mp member with held | last
      next =>
        obtain ⟨single, _, rfl⟩ := List.mem_map.mp held
        simp at same
      next =>
        obtain rfl := List.mem_singleton.mp last
        exact absorbing.small (middle.map Part.draft) next.draft (tail.map Part.draft) (by simp [show rest = _ from same])
    next =>
      intro group member
      have listed := mem_of_mem_parts member (show group.first ∈ group.parts by simp [Group.parts])
      rw [Group.draft, absorb_metadata]
      exact (parts group.first listed).sectionPath

theorem groupsFrom_boundaries {document before : List Element} {regions : List Region}
    (located : RegionsAt document before regions) :
    ∀ groups ∈ groupsFrom split count config (hasHeadings document) before regions,
      HeadingBoundaries split count config document groups := by
  induction regions generalizing before with
  | nil => simp [groupsFrom]
  | cons region rest ih =>
    intro groups member
    rcases List.mem_cons.mp member with rfl | later
    next => exact groupsOf_boundaries split count config located.1
    next => exact ih located.2 groups later

theorem documentGroups_boundaries (elements : List Element) :
    ∀ groups ∈ documentGroups split count config elements, HeadingBoundaries split count config elements groups :=
  groupsFrom_boundaries split count config (partitionRegions_at elements)

theorem assembledChunks_groups (hexdigest : ByteArray → String) (envelope : ArrivalEnvelope)
    (elements : List Element) :
    ∃ chunks, assembledChunks hexdigest split count config envelope.docId elements = .ok chunks ∧
      chunks.map draftOf =
        (documentGroups split count config elements).flatten.map (Group.draft (plainServices split count config)) := by
  obtain ⟨chunks, assigned⟩ := assignPositions_ok hexdigest envelope.docIdFormat
    (assembledDrafts split count config envelope.docId elements)
  exact ⟨chunks, assigned, by rw [draftOf_assigned assigned, documentGroups_drafts]⟩

def isStructureAware (draft : ChunkDraft) : Bool :=
  draft.metadata.get? "strategy" = some (.ofString strategyStructureAware)

theorem breadcrumb_since_table (hexdigest : ByteArray → String) (envelope : ArrivalEnvelope)
    (elements : List Element) :
    ∃ chunks, assembledChunks hexdigest split count config envelope.docId elements = .ok chunks ∧
      chunks.map draftOf =
        (documentGroups split count config elements).flatten.map (Group.draft (plainServices split count config)) ∧
      ∀ group ∈ (documentGroups split count config elements).flatten,
        isTableAtomic (group.draft (plainServices split count config)) = false →
        group.first.before ++ group.first.content <+: elements ∧
          group.first.draft.text ∈ split (joinElementText group.first.content) ∧
          (group.draft (plainServices split count config)).text = joinTexts (group.parts.map Part.draft) ∧
          (group.draft (plainServices split count config)).metadata.get? "section_path" =
            some (pathValue (headingSinceTable group.first.before)) := by
  obtain ⟨chunks, assembled, drafts⟩ := assembledChunks_groups split count config hexdigest envelope elements
  refine ⟨chunks, assembled, drafts, ?_⟩
  intro group member prose
  obtain ⟨groups, region, listed⟩ := List.mem_flatten.mp member
  have boundaries := documentGroups_boundaries split count config elements groups region
  obtain ⟨tables, parts⟩ := boundaries.parts
  have located := parts group listed group.first (by simp [Group.parts])
  have path := boundaries.path group listed
  have text : (group.draft (plainServices split count config)).text = joinTexts (group.parts.map Part.draft) := by
    simp [Group.draft, Group.parts, absorb_text]
  rw [Group.draft, isTableAtomic_absorb] at prose
  obtain ⟨placed, piece, noTable⟩ := located.prose_of_not_tableAtomic split count config prose
  rw [partPath_of_no_table noTable] at path
  exact ⟨placed, piece, text, path⟩

theorem heading_boundaries (hexdigest : ByteArray → String) (envelope : ArrivalEnvelope) (elements : List Element) :
    ∃ chunks, assembledChunks hexdigest split count config envelope.docId elements = .ok chunks ∧
      chunks.map draftOf =
        (documentGroups split count config elements).flatten.map (Group.draft (plainServices split count config)) ∧
      ∀ groups ∈ documentGroups split count config elements,
        HeadingBoundaries split count config elements groups := by
  obtain ⟨chunks, assembled, drafts⟩ := assembledChunks_groups split count config hexdigest envelope elements
  exact ⟨chunks, assembled, drafts, documentGroups_boundaries split count config elements⟩

end Chunks

-- A table between a heading and its second paragraph.
def tableBetween : List Element :=
  [{ type := .heading, text := "H" }, { type := .table, text := "t" }, { type := .paragraph, text := "p" }]

theorem breadcrumb_lost_after_table :
    ¬ ∀ group ∈ (documentGroups (fun text => [text]) (fun _ => 50) {} tableBetween).flatten,
      group.rest.isEmpty →
      isStructureAware (group.draft (plainServices (fun text => [text]) (fun _ => 50) {})) →
      (group.draft (plainServices (fun text => [text]) (fun _ => 50) {})).metadata.get? "section_path" =
        some (pathValue (lastHeading group.first.before)) := by
  decide

-- Two short sections in a row.
def shortSections : List Element :=
  [{ type := .heading, text := "A" }, { type := .paragraph, text := "a" }, { type := .heading, text := "B" },
    { type := .paragraph, text := "b" }]

theorem merge_crosses_heading :
    (assembledDrafts (fun text => [text]) (fun _ => 1) {} digestAbc shortSections).map
        (fun draft => (draft.text, draft.metadata.get? "section_path")) = [("a\n\nb", some (.ofString "A"))] ∧
      ¬ ∀ group ∈ (documentGroups (fun text => [text]) (fun _ => 1) {} shortSections).flatten,
        ∀ part ∈ group.parts,
          headingCount part.before = headingCount group.first.before ∧
            (group.draft (plainServices (fun text => [text]) (fun _ => 1) {})).metadata.get? "section_path" =
              some (pathValue (lastHeading part.before)) := by
  decide

end Chunker

end Vestibule
