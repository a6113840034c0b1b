import Vestibule.Errors
import Vestibule.Python
import Vestibule.Library.Dict
import Vestibule.Ledger.Store

set_option autoImplicit false

namespace Vestibule.Scenarios

open Library

structure ChunkerSettings where
  targetChunkTokens : Int
  overlapTokens : Int
  minChunkTokens : Int
  maxChunkTokens : Int
  deriving DecidableEq

inductive EmbedderAdapterName where
  | azureOpenai
  | fastembed
  deriving DecidableEq

def EmbedderAdapterName.value : EmbedderAdapterName → String
  | azureOpenai => "azure_openai"
  | fastembed => "fastembed"

structure EmbedderSettings where
  adapter : EmbedderAdapterName
  model : String
  targetDimensions : Option Int
  deriving DecidableEq

structure IndexerSettings where
  metric : String
  dimensions : Int
  hnswM : Int
  hnswEfConstruction : Int
  hnswEfSearch : Int
  deriving DecidableEq

inductive AclSource where
  | envelope
  | blobMetadata
  | sourceSystem
  deriving DecidableEq

namespace AclSource

def value : AclSource → String
  | envelope => "envelope"
  | blobMetadata => "blob_metadata"
  | sourceSystem => "source_system"

def ofValue? (text : String) : Option AclSource :=
  [envelope, blobMetadata, sourceSystem].find? (·.value = text)

theorem ofValue?_value (source : AclSource) : ofValue? source.value = some source := by cases source <;> decide

end AclSource

-- Each check gives the text of the `ValueError` that it raises.

def isIndexNameChar (c : Char) : Bool := ('a' ≤ c && c ≤ 'z') || ('0' ≤ c && c ≤ '9')

-- `$` also matches before a newline at the very end.
def indexNameRe (name : String) : Bool :=
  let body := if name.toList.getLast? = some '\n' then name.toList.dropLast else name.toList
  2 ≤ body.length && body.length ≤ 128 && body.all (fun c => isIndexNameChar c || c = '-') &&
    body.head?.any isIndexNameChar && body.getLast?.any isIndexNameChar

def validateIndexName (indexName : String) : Except String Unit :=
  if indexNameRe indexName then .ok ()
  else .error ("index_name=" ++ reprStr indexName ++ " is invalid: must be 2-128 characters, " ++
    "lowercase alphanumeric or dashes, and not start/end with a dash")

def validateChunkerBounds (chunker : ChunkerSettings) : Except String Unit :=
  if chunker.minChunkTokens ≤ chunker.targetChunkTokens ∧ chunker.targetChunkTokens ≤ chunker.maxChunkTokens then
    .ok ()
  else .error ("chunker token bounds violated: expected min_chunk_tokens (" ++ toString chunker.minChunkTokens ++
    ") <= target_chunk_tokens (" ++ toString chunker.targetChunkTokens ++ ") <= max_chunk_tokens (" ++
    toString chunker.maxChunkTokens ++ ")")

def nativeDimensions : EmbedderAdapterName → String → Option Int
  | .azureOpenai, "text-embedding-3-large" => some 3072
  | .fastembed, "nomic-ai/nomic-embed-text-v1.5" => some 768
  | _, _ => none

def reprInt? : Option Int → String
  | none => "None"
  | some value => toString value

def validateDimensionConsistency (embedder : EmbedderSettings) (indexer : IndexerSettings) : Except String Unit :=
  match nativeDimensions embedder.adapter embedder.model with
  | none => .error ("embedder (adapter=" ++ reprStr embedder.adapter.value ++ ", model=" ++ reprStr embedder.model ++
      ") is not a recognized (adapter, model) combination in the native-dimensions registry; add an entry to " ++
      "_NATIVE_DIMENSIONS")
  | some native =>
      let target := embedder.targetDimensions
      if target.any (native < ·) then
        .error ("embedder.target_dimensions=" ++ reprInt? target ++ " exceeds model " ++ reprStr embedder.model ++
          "'s native_dimensions=" ++ toString native)
      else if indexer.dimensions ≠ target.getD native then
        .error ("indexer.dimensions=" ++ toString indexer.dimensions ++
          " does not match the embedder's effective dimensions=" ++ toString (target.getD native) ++
          " (target_dimensions=" ++ reprInt? target ++ ", native=" ++ toString native ++ ")")
      else .ok ()

structure Scenario where
  scenarioId : String
  vertical : String
  configVersion : String
  indexName : String
  chunker : ChunkerSettings
  embedder : EmbedderSettings
  indexer : IndexerSettings
  aclSource : AclSource
  defaultTrustTier : String
  enabled : Bool
  createdAt : DateTime
  updatedAt : DateTime
  indexTemplateId : Option String := none
  scenarioIdNonempty : scenarioId ≠ ""
  verticalNonempty : vertical ≠ ""
  trustTierNonempty : defaultTrustTier ≠ ""
  indexNameValid : validateIndexName indexName = .ok ()
  chunkerBounded : validateChunkerBounds chunker = .ok ()
  dimensionsConsistent : validateDimensionConsistency embedder indexer = .ok ()

structure ScenarioError where
  scenarioId : String
  reason : String
  errorCode : String
  deriving DecidableEq

-- Exceptions other than the store's own are known by their `str()`.
inductive Raised where
  | scenario (error : ScenarioError)
  | other (text : String)
  deriving DecidableEq

def selectEnabledForVertical (candidates : List Scenario) : Option Scenario :=
  candidates.foldl (fun best candidate => match best with
    | none => some candidate
    | some held => if candidate.scenarioId < held.scenarioId then some candidate else some held) none

end Vestibule.Scenarios
