import Mathlib.Data.List.Sort
import Vestibule.Chunker
import Vestibule.Library.MonadRel

set_option autoImplicit false

namespace Vestibule

open Library

-- The text splitter and the token counter come from outside; the strategies are written for any monad.

namespace Chunker

def strategyRecursive : String := "recursive"

def strategyStructureAware : String := "structure_aware"

def joinElementText (elements : List Element) : String := "\n\n".intercalate (elements.map (·.text))

def uniqueElementTypes (elements : List Element) : List ElementType :=
  elements.foldl (fun seen element => if element.type ∈ seen then seen else seen ++ [element.type]) []

-- `isinstance(page, int)` holds of `True` and `False` as well.
def pageOf (element : Element) : Option PyInt :=
  match element.metadata.get? "page" with
  | some (.int page) => some (.int page)
  | some (.bool page) => some (.bool page)
  | _ => none

-- Of two equal pages a set keeps the one that it was given first.
def addPage (pages : List PyInt) (page : PyInt) : List PyInt :=
  if pages.any (·.number = page.number) then pages else pages ++ [page]

def pageMetadata (elements : List Element) : List (String × PyValue) :=
  let pages := (elements.filterMap pageOf).foldl addPage []
  match pages.insertionSort (·.number ≤ ·.number) with
  | [] => []
  | [page] => [("page", .ofInt page)]
  | sortedPages => [("pages", .ints sortedPages)]

theorem pageMetadata_keys (elements : List Element) {pair : String × PyValue} (member : pair ∈ pageMetadata elements) :
    pair.1 = "page" ∨ pair.1 = "pages" := by
  simp only [pageMetadata] at member
  split at member
  next => simp at member
  next => simp [List.mem_singleton.mp member]
  next => simp [List.mem_singleton.mp member]

theorem get?_pageMetadata {key : String} (metadata : Metadata) (elements : List Element)
    (other : key ≠ "page" ∧ key ≠ "pages") :
    (metadata.update (pageMetadata elements)).get? key = metadata.get? key := by
  apply Dict.get?_update_of_absent
  intro pair member same
  rcases pageMetadata_keys elements member with page | pages
  next => exact other.1 (same.symm.trans page)
  next => exact other.2 (same.symm.trans pages)

-- `textSplitter` constructs the splitter and may raise; `indexError` is what `elements[0]` does
-- with an empty list.
structure TextTools (m : Type → Type) where
  textSplitter : (chunkSize chunkOverlap : Int) → m Unit
  splitText : (chunkSize chunkOverlap : Int) → String → m (List String)
  count : String → m Int
  indexError : m (List ChunkDraft)

def cellText (cell : TableCell) : String :=
  match cell.content with
  | none => ""
  | some none => "None"
  | some (some text) => text

def rowCount (cells : List TableCell) : Nat := (cells.map (·.rowIndex)).foldl max 0 + 1

def columnCount (cells : List TableCell) : Nat := (cells.map (·.columnIndex)).foldl max 0 + 1

def grid (cells : List TableCell) : List (List String) :=
  cells.foldl (fun grid cell => grid.modify cell.rowIndex (·.set cell.columnIndex (cellText cell)))
    (List.replicate (rowCount cells) (List.replicate (columnCount cells) ""))

def tableLine (row : List String) : String := "| " ++ " | ".intercalate row ++ " |"

def markdownTable (cells : List TableCell) : String :=
  let header := tableLine ((grid cells).headD [])
  let separator := tableLine (List.replicate (columnCount cells) "---")
  let bodyRows := (grid cells).tail.map tableLine
  "\n".intercalate (header :: separator :: bodyRows)

def serializeTable (table : Element) (captionText : Option String) : String :=
  let body := match table.cells with
    | some (cell :: rest) => markdownTable (cell :: rest)
    | _ => table.text
  match captionText with
  | none => body
  | some caption => if caption = "" then body else caption ++ "\n\n" ++ body

def flushSection (path : Option String) (content : List Element) : List (Option String × List Element) :=
  if content.isEmpty then [] else [(path, content)]

def splitFrom (currentPath : Option String) (currentContent : List Element) :
    List Element → List (Option String × List Element)
  | [] => flushSection currentPath currentContent
  | element :: rest =>
      if element.type = .heading then
        flushSection currentPath currentContent ++ splitFrom (some element.text) [] rest
      else splitFrom currentPath (currentContent ++ [element]) rest

def splitIntoSections (elements : List Element) : List (Option String × List Element) := splitFrom none [] elements

def pathValue : Option String → PyValue
  | none => .none
  | some path => .ofString path

def retag (draft : ChunkDraft) (sectionPath : Option String) : ChunkDraft :=
  let tagged := draft.metadata.insert "strategy" (.ofString strategyStructureAware)
  { draft with metadata := tagged.insert "section_path" (pathValue sectionPath) }

section Strategies

variable {m : Type → Type} [Monad m] (tools : TextTools m) (config : ChunkerConfig)

def recursiveMetadata (elements : List Element) : Metadata :=
  Dict.update .empty
    ([("strategy", .ofString strategyRecursive), ("section_path", .none)] ++ pageMetadata elements)

def recursiveChunkRegion (elements : List Element) : m (List ChunkDraft) :=
  if elements.isEmpty then return []
  else do
    tools.textSplitter config.targetChunkTokens config.overlapTokens
    let pieces ← tools.splitText config.targetChunkTokens config.overlapTokens (joinElementText elements)
    pieces.mapM fun piece => do
      return { elementTypes := uniqueElementTypes elements, text := piece, tokenCount := ← tools.count piece,
               metadata := recursiveMetadata elements }

def structureAwareChunkRegion (elements : List Element) : m (List ChunkDraft) :=
  (splitIntoSections elements).foldlM (fun drafts (sectionPath, sectionElements) => do
    let sectionDrafts ← recursiveChunkRegion tools config sectionElements
    return drafts ++ sectionDrafts.map (retag · sectionPath)) []

def tableMetadata (table : Element) (oversized : Bool) : Metadata :=
  Dict.update .empty
    ([("strategy", .ofString strategyTableAtomic), ("section_path", .none), ("oversized", .bool oversized)] ++
      pageMetadata [table])

-- The oversized-table warning is a log record only.
def tableAtomicChunkRegion (elements : List Element) (captionText : Option String) : m (List ChunkDraft) :=
  match elements with
  | [] => tools.indexError
  | table :: _ => do
      let text := serializeTable table captionText
      let tokenCount ← tools.count text
      return [{ elementTypes := [table.type], text, tokenCount,
                metadata := tableMetadata table (config.maxChunkTokens < tokenCount) }]

def strategies : Services m where
  chunkRegion slot elements captionText _ := match slot with
    | .recursive => recursiveChunkRegion tools config elements
    | .structureAware => structureAwareChunkRegion tools config elements
    | .tableAtomic => tableAtomicChunkRegion tools config elements captionText
  count := tools.count

end Strategies

structure RelatedTools {m n : Type → Type} [Monad m] [Monad n] (R : MonadRel m n) (config : ChunkerConfig)
    (first : TextTools m) (second : TextTools n) : Prop where
  textSplitter : R.rel (first.textSplitter config.targetChunkTokens config.overlapTokens)
    (second.textSplitter config.targetChunkTokens config.overlapTokens)
  splitText : ∀ text, R.rel (first.splitText config.targetChunkTokens config.overlapTokens text)
    (second.splitText config.targetChunkTokens config.overlapTokens text)
  count : ∀ text, R.rel (first.count text) (second.count text)

section Related

variable {m n : Type → Type} [Monad m] [Monad n] [LawfulMonad m] [LawfulMonad n] {R : MonadRel m n}
variable {first : TextTools m} {second : TextTools n} {config : ChunkerConfig}

theorem recursiveChunkRegion_related (related : RelatedTools R config first second) (elements : List Element) :
    R.rel (recursiveChunkRegion first config elements) (recursiveChunkRegion second config elements) := by
  simp only [recursiveChunkRegion]
  split
  next => exact R.pure []
  next =>
    apply R.bind related.textSplitter
    intro _
    apply R.bind (related.splitText _)
    intro pieces
    apply R.mapM
    intro piece _
    exact R.bind (related.count piece) fun tokenCount => R.pure _

theorem structureAwareChunkRegion_related (related : RelatedTools R config first second) (elements : List Element) :
    R.rel (structureAwareChunkRegion first config elements) (structureAwareChunkRegion second config elements) := by
  apply R.foldlM
  intro drafts part _
  exact R.bind (recursiveChunkRegion_related related part.2) fun sectionDrafts => R.pure _

omit [LawfulMonad m] [LawfulMonad n] in
theorem tableAtomicChunkRegion_related (counts : ∀ text, R.rel (first.count text) (second.count text))
    (table : Element) (captionText : Option String) :
    R.rel (tableAtomicChunkRegion first config [table] captionText)
      (tableAtomicChunkRegion second config [table] captionText) :=
  R.bind (counts _) fun _ => R.pure _

variable {left : Services m} {right : Services n} (config)

omit [LawfulMonad m] [LawfulMonad n] in
theorem mergeTail_related (counts : ∀ text, R.rel (left.count text) (right.count text))
    (predecessors : List ChunkDraft) (last : ChunkDraft) :
    R.rel (mergeTail left config last predecessors) (mergeTail right config last predecessors) := by
  induction predecessors generalizing last with
  | nil => exact R.pure [last]
  | cons predecessor rest ih =>
    simp only [mergeTail]
    split
    next =>
      apply R.bind (R.bind (counts _) fun tokenCount => R.pure _)
      intro merged
      exact ih merged
    next => exact R.pure _

omit [LawfulMonad m] [LawfulMonad n] in
theorem mergeUndersizedTail_related (counts : ∀ text, R.rel (left.count text) (right.count text))
    (drafts : List ChunkDraft) :
    R.rel (mergeUndersizedTail left config drafts) (mergeUndersizedTail right config drafts) := by
  simp only [mergeUndersizedTail]
  split
  next => exact R.pure []
  next => exact R.bind (mergeTail_related config counts _ _) fun merged => R.pure _

omit [LawfulMonad m] [LawfulMonad n] in
theorem assembleDrafts_related (counts : ∀ text, R.rel (left.count text) (right.count text)) (docId : String)
    (elements : List Element)
    (dispatched : ∀ region ∈ partitionRegions elements,
      R.rel (dispatchRegion left (elements.any (fun element => element.type = .heading)) docId region)
        (dispatchRegion right (elements.any (fun element => element.type = .heading)) docId region)) :
    R.rel (assembleDrafts left config docId elements) (assembleDrafts right config docId elements) := by
  apply R.foldlM
  intro allDrafts region member
  apply R.bind (dispatched region member)
  intro regionDrafts
  exact R.bind (mergeUndersizedTail_related config counts regionDrafts) fun merged => R.pure _

end Related

end Chunker

end Vestibule
