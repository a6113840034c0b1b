import Vestibule.Pipeline.Stage

set_option autoImplicit false

namespace Vestibule

open Library

structure ChunkerConfig where
  targetChunkTokens : Int := 512
  overlapTokens : Int := 64
  minChunkTokens : Int := 40
  maxChunkTokens : Int := 800
  deriving DecidableEq

def strategyTableAtomic : String := "table_atomic"

inductive RegionKind where
  | table
  | nonTable
  deriving DecidableEq

structure Region where
  kind : RegionKind
  elements : List Element
  captionText : Option String := none

namespace Chunker

def captionForTable (elements : List Element) (tableIndex : Nat) : Option String :=
  if tableIndex = 0 then none
  else
    match elements[tableIndex - 1]? with
    | some preceding =>
        if preceding.type = .paragraph ∨ preceding.type = .imageCaption then some preceding.text else none
    | none => none

def flushBuffer (buffer : List Element) : List Region :=
  if buffer.isEmpty then [] else [{ kind := .nonTable, elements := buffer }]

-- `buffer` holds the run of elements before `index` that no region has taken yet.
def partitionFrom (elements : List Element) (index : Nat) (buffer : List Element) :
    List Element → List Region
  | [] => flushBuffer buffer
  | element :: rest =>
      if element.type ≠ .table then partitionFrom elements (index + 1) (buffer ++ [element]) rest
      else
        flushBuffer buffer ++
          { kind := .table, elements := [element], captionText := captionForTable elements index } ::
            partitionFrom elements (index + 1) [] rest

def partitionRegions (elements : List Element) : List Region := partitionFrom elements 0 [] elements

-- The strategies and the token counter are injected; they may raise, so the passes over the drafts are
-- written for any monad.

structure Services (m : Type → Type) where
  chunkRegion : StrategySlot → List Element → Option String → Option String → m (List ChunkDraft)
  count : String → m Int

section Passes

variable {m : Type → Type} [Monad m] (services : Services m) (config : ChunkerConfig)

def dispatchRegion (hasHeadings : Bool) (docId : String) (region : Region) : m (List ChunkDraft) :=
  match region.kind with
  | .table => services.chunkRegion .tableAtomic region.elements region.captionText (some docId)
  | .nonTable =>
      services.chunkRegion (if hasHeadings then .structureAware else .recursive) region.elements none none

def mergeTwoDrafts (predecessor last : ChunkDraft) : m ChunkDraft := do
  let mergedText := predecessor.text ++ "\n\n" ++ last.text
  let mergedTypes := last.elementTypes.foldl
    (fun types elementType => if elementType ∈ types then types else types ++ [elementType])
    predecessor.elementTypes
  return { elementTypes := mergedTypes, text := mergedText, tokenCount := ← services.count mergedText,
           metadata := predecessor.metadata }

def isTableAtomic (draft : ChunkDraft) : Bool :=
  draft.metadata.get? "strategy" = some (.ofString strategyTableAtomic)

-- The last draft and, before it, the others from the last to the first.
def mergeTail (last : ChunkDraft) : List ChunkDraft → m (List ChunkDraft)
  | [] => return [last]
  | predecessor :: rest =>
      if last.tokenCount < config.minChunkTokens ∧ ¬ isTableAtomic last ∧ ¬ isTableAtomic predecessor then do
        mergeTail (← mergeTwoDrafts services predecessor last) rest
      else return last :: predecessor :: rest

def mergeUndersizedTail (drafts : List ChunkDraft) : m (List ChunkDraft) :=
  match drafts.reverse with
  | [] => return []
  | last :: predecessors => return (← mergeTail services config last predecessors).reverse

def assembleDrafts (docId : String) (elements : List Element) : m (List ChunkDraft) :=
  let hasHeadings := elements.any (fun element => element.type = .heading)
  (partitionRegions elements).foldlM (fun allDrafts region => do
    let regionDrafts ← dispatchRegion services hasHeadings docId region
    return allDrafts ++ (← mergeUndersizedTail services config regionDrafts)) []

end Passes

def assignPositions (hexdigest : ByteArray → String) (docId : String) (drafts : List ChunkDraft) :
    Except Exc (List Chunk) :=
  drafts.zipIdx.mapM fun (draft, position) => do
    let chunkId ← (deriveChunkId hexdigest (.ofString docId) (.int position)).mapError .identity
    return { chunkId, docId, position, elementTypes := draft.elementTypes, text := draft.text,
             tokenCount := draft.tokenCount, metadata := draft.metadata }

variable (hexdigest : ByteArray → String) (config : ChunkerConfig)

def injected : Services (ExceptT Exc (Prog Effects)) := ⟨Py.chunkRegion, Py.count⟩

def assembleChunks (docId : String) (elements : List Element) : Py (List Chunk) := do
  let drafts ← assembleDrafts injected config docId elements
  Py.ofExcept (assignPositions hexdigest docId drafts)

def buildChunks (docId : String) (elements : List Element) : Py (List Chunk) :=
  tryCatch (assembleChunks hexdigest config docId elements) fun exc =>
    match exc with
    | .ragged .chunker _ reason errorCode =>
        if errorCode = tokenizerLoadFailed then
          Py.selfTransitionAndRaise .chunker .chunking docId tokenizerLoadFailed reason
        else Py.selfTransitionAndRaise .chunker .chunking docId chunkerInternal exc.str
    | _ => Py.selfTransitionAndRaise .chunker .chunking docId chunkerInternal exc.str

def terminalizeEmptyElements {α : Type} (docId : String) : Py α :=
  Py.terminalize .chunker docId chunkerEmptyElements "Analyzer returned zero elements; nothing to chunk"

def transitionToEmbedding (docId : String) (chunks : List Chunk) : Py (List Chunk) := do
  Py.transitionTriaged { docId, toStatus := .embedding, stage := .embedding }
  return chunks

def chunk (envelope : ArrivalEnvelope) (elements : List Element) : Py (List Chunk) := do
  if elements.isEmpty then terminalizeEmptyElements envelope.docId
  let chunks ← buildChunks hexdigest config envelope.docId elements
  transitionToEmbedding envelope.docId chunks

theorem chunk_nil (envelope : ArrivalEnvelope) :
    chunk hexdigest config envelope [] = terminalizeEmptyElements envelope.docId := by
  simp only [chunk, List.isEmpty_nil, if_true]
  exact Py.terminalize_bind ..

end Chunker

end Vestibule
