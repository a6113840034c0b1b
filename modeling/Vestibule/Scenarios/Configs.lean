import Vestibule.Chunker
import Vestibule.Embedder
import Vestibule.Indexer.Indexer
import Vestibule.Scenarios.Model

set_option autoImplicit false

namespace Vestibule.Scenarios

def ChunkerSettings.toChunkerConfig (settings : ChunkerSettings) : ChunkerConfig :=
  { targetChunkTokens := settings.targetChunkTokens
    overlapTokens := settings.overlapTokens
    minChunkTokens := settings.minChunkTokens
    maxChunkTokens := settings.maxChunkTokens }

namespace Scenario

variable (self : Scenario)

def toChunkerConfig : ChunkerConfig := self.chunker.toChunkerConfig

def toEmbedderConfig : EmbedderConfig := { targetDimensions := self.embedder.targetDimensions }

-- The metric is not read by the indexer.
def toIndexerConfig : IndexerConfig := { dimensions := self.indexer.dimensions }

end Scenario

theorem validateChunkerBounds_ok (settings : ChunkerSettings) :
    validateChunkerBounds settings = .ok () ↔
      settings.minChunkTokens ≤ settings.targetChunkTokens ∧ settings.targetChunkTokens ≤ settings.maxChunkTokens := by
  simp only [validateChunkerBounds]
  split
  next bounded => simp [bounded]
  next unbounded => simp [unbounded]

theorem validateDimensionConsistency_ok {embedder : EmbedderSettings} {indexer : IndexerSettings}
    (consistent : validateDimensionConsistency embedder indexer = .ok ()) :
    ∃ native, nativeDimensions embedder.adapter embedder.model = some native ∧
      (∀ target, embedder.targetDimensions = some target → target ≤ native) ∧
      indexer.dimensions = embedder.targetDimensions.getD native := by
  simp only [validateDimensionConsistency] at consistent
  cases registered : nativeDimensions embedder.adapter embedder.model with
  | none => simp [registered] at consistent
  | some native =>
    simp only [registered] at consistent
    split_ifs at consistent with beyond differs
    refine ⟨native, rfl, ?_, by simpa using differs⟩
    intro target configured
    simpa [configured] using beyond

end Vestibule.Scenarios
