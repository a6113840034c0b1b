import Vestibule.Chunker.Stream
import Vestibule.Pipeline.Outcome
import Vestibule.Scenarios.Configs

set_option autoImplicit false

namespace Vestibule

open Library

-- The splitter keeps every piece within the target. A merge adds less than the minimum and two tokens for
-- the separator, however many merges there are.

namespace Chunker

section Bound

variable {split : String → List String} {count : String → Nat} {config : ChunkerConfig}

def Subadditive (count : String → Nat) : Prop :=
  ∀ first second, count (first ++ "\n\n" ++ second) ≤ count first + count second + 2

def WithinTarget (split : String → List String) (count : String → Nat) (target : Int) : Prop :=
  ∀ text, ∀ piece ∈ split text, (count piece : Int) ≤ target

structure Counted (count : String → Nat) (config : ChunkerConfig) (draft : ChunkDraft) : Prop where
  counted : draft.tokenCount = count draft.text
  within : draft.tokenCount ≤ config.targetChunkTokens

theorem sectionDrafts_counted {elements : List Element} {draft : ChunkDraft}
    (within : WithinTarget split count config.targetChunkTokens)
    (member : draft ∈ sectionDrafts split (fun text => count text) elements) : Counted count config draft := by
  simp only [sectionDrafts] at member
  split at member
  next => simp at member
  next =>
    obtain ⟨piece, listed, rfl⟩ := List.mem_map.mp member
    exact ⟨rfl, within _ piece listed⟩

theorem dispatchedDrafts_counted {headed : Bool} {elements : List Element} {draft : ChunkDraft}
    (within : WithinTarget split count config.targetChunkTokens)
    (member : draft ∈ dispatchedDrafts split (fun text => count text) config headed { kind := .nonTable, elements }) :
    Counted count config draft := by
  simp only [dispatchedDrafts] at member
  split at member
  next =>
    obtain ⟨part, _, listed⟩ := List.mem_flatMap.mp member
    obtain ⟨own, drafted, rfl⟩ := List.mem_map.mp listed
    have same := sectionDrafts_counted within drafted
    exact ⟨same.counted, same.within⟩
  next => exact sectionDrafts_counted within member

-- A run of drafts grows only while its tail is below the minimum.
theorem absorb_le {services : Services Id} (counter : ∀ text, services.count text = (count text : Int))
    (subadditive : Subadditive count) {kept : List ChunkDraft} {first : ChunkDraft} {rest : List ChunkDraft}
    (absorbing : Absorbing services config kept first rest)
    (counted : ∀ draft ∈ first :: rest, Counted count config draft) :
    (absorb services first rest).tokenCount ≤ config.targetChunkTokens ∨
      0 < config.minChunkTokens ∧
        (absorb services first rest).tokenCount ≤ config.targetChunkTokens + config.minChunkTokens + 1 := by
  cases rest with
  | nil => exact .inl (counted first (by simp)).within
  | cons next tail =>
    have small := absorbing.small [] next tail rfl
    have head := counted first (by simp)
    have merged : (absorb services first (next :: tail)).tokenCount =
        count (first.text ++ "\n\n" ++ (absorb services next tail).text) := counter _
    have remaining : (absorb services next tail).tokenCount = count (absorb services next tail).text := by
      rw [← counter]
      exact absorb_counted services ((counted next (by simp)).counted.trans (counter _).symm)
    have bound := subadditive first.text (absorb services next tail).text
    have first' := head.counted
    have within := head.within
    omega

theorem assembledDrafts_le (within : WithinTarget split count config.targetChunkTokens)
    (subadditive : Subadditive count) (target : config.targetChunkTokens ≤ config.maxChunkTokens)
    (room : config.minChunkTokens ≤ 0 ∨ config.targetChunkTokens + config.minChunkTokens + 1 ≤ config.maxChunkTokens)
    {docId : String} {elements : List Element} {draft : ChunkDraft}
    (member : draft ∈ assembledDrafts split (fun text => count text) config docId elements)
    (prose : isTableAtomic draft = false) : draft.tokenCount ≤ config.maxChunkTokens := by
  rw [assembledDrafts_eq] at member
  obtain ⟨region, listed, drafted⟩ := List.mem_flatMap.mp member
  cases partitionRegions_regionOf listed with
  | table table captionText isTable =>
    rw [regionDrafts_table, List.mem_singleton] at drafted
    rw [drafted, isTableAtomic_tableDraft] at prose
    cases prose
  | nonTable content nonempty noTable =>
    by_cases empty : dispatchedDrafts split (fun text => count text) config (hasHeadings elements)
        { kind := .nonTable, elements := content } = []
    next => simp [regionDrafts, empty, mergeUndersizedTail_nil] at drafted
    next =>
      obtain ⟨kept, first, rest, input, absorbing, result⟩ :=
        mergeUndersizedTail_absorbing (plainServices split (fun text => count text) config) config empty
      have counted (other : ChunkDraft) (present : other ∈ kept ++ first :: rest) : Counted count config other :=
        dispatchedDrafts_counted within (input ▸ present)
      rw [regionDrafts, result] at drafted
      rcases List.mem_append.mp drafted with held | last
      next =>
        have bound := (counted draft (by simp [held])).within
        omega
      next =>
        obtain rfl := List.mem_singleton.mp last
        have bound := absorb_le (fun _ => rfl) subadditive absorbing fun other present =>
          counted other (List.mem_append_right _ present)
        omega

end Bound

def HardCeiling (config : ChunkerConfig) : Prop :=
  ∀ (hexdigest : ByteArray → String) (split : String → List String) (count : String → Nat),
    WithinTarget split count config.targetChunkTokens → Subadditive count →
    ∀ (envelope : ArrivalEnvelope) (elements : List Element) (chunks : List Chunk),
      assembledChunks hexdigest split (fun text => count text) config envelope.docId elements = .ok chunks →
      ∀ chunk ∈ chunks, isTableAtomic (draftOf chunk) = false → chunk.tokenCount ≤ config.maxChunkTokens

theorem hardCeiling_of_room {config : ChunkerConfig} (target : config.targetChunkTokens ≤ config.maxChunkTokens)
    (room : config.minChunkTokens ≤ 0 ∨
      config.targetChunkTokens + config.minChunkTokens + 1 ≤ config.maxChunkTokens) : HardCeiling config := by
  intro hexdigest split count within subadditive envelope elements chunks assembled chunk member prose
  have listed : draftOf chunk ∈ assembledDrafts split (fun text => count text) config envelope.docId elements := by
    rw [← draftOf_assigned assembled]
    exact List.mem_map_of_mem member
  exact assembledDrafts_le within subadditive target room listed prose

-- One full piece, and one that falls just short of the minimum.
def shortTail (config : ChunkerConfig) : List String :=
  [String.ofList (List.replicate config.targetChunkTokens.toNat 'a'),
    String.ofList (List.replicate (config.minChunkTokens - 1).toNat 'b')]

def oneParagraph : List Element := [{ type := .paragraph, text := "x" }]

theorem length_subadditive : Subadditive String.length := by
  intro first second
  simp only [String.length_append]
  have separator : "\n\n".length = 2 := by decide
  omega

theorem shortTail_within {config : ChunkerConfig} (ordered : config.minChunkTokens ≤ config.targetChunkTokens)
    (positive : 0 < config.minChunkTokens) :
    WithinTarget (fun _ => shortTail config) String.length config.targetChunkTokens := by
  intro text piece listed
  simp only [shortTail, List.mem_cons, List.not_mem_nil, or_false] at listed
  rcases listed with rfl | rfl
  next =>
    simp only [String.length_ofList, List.length_replicate]
    omega
  next =>
    simp only [String.length_ofList, List.length_replicate]
    omega

def mergedTail (config : ChunkerConfig) : ChunkDraft :=
  { elementTypes := [.paragraph]
    text := String.ofList (List.replicate config.targetChunkTokens.toNat 'a') ++ "\n\n" ++
      String.ofList (List.replicate (config.minChunkTokens - 1).toNat 'b')
    tokenCount := config.targetChunkTokens + config.minChunkTokens + 1
    metadata := recursiveMetadata oneParagraph }

theorem assembledDrafts_shortTail {config : ChunkerConfig}
    (ordered : config.minChunkTokens ≤ config.targetChunkTokens) (positive : 0 < config.minChunkTokens)
    (docId : String) :
    assembledDrafts (fun _ => shortTail config) (fun text => (text.length : Int)) config docId oneParagraph =
      [mergedTail config] := by
  let services := plainServices (fun _ => shortTail config) (fun text => (text.length : Int)) config
  let piece (text : String) := proseDraft (fun text => (text.length : Int)) oneParagraph text
  let full := piece (String.ofList (List.replicate config.targetChunkTokens.toNat 'a'))
  let short := piece (String.ofList (List.replicate (config.minChunkTokens - 1).toNat 'b'))
  have prose (text : String) : ¬ isTableAtomic (piece text) := by
    simp only [piece, isTableAtomic, proseDraft, recursiveMetadata_strategy]
    decide
  have small : short.tokenCount < config.minChunkTokens := by
    simp only [short, piece, proseDraft, String.length_ofList, List.length_replicate]
    omega
  have merges : short.tokenCount < config.minChunkTokens ∧ ¬ isTableAtomic short ∧ ¬ isTableAtomic full :=
    ⟨small, prose _, prose _⟩
  have merged : (mergeUndersizedTail services config [full, short]).run = [absorb services full [short]] := by
    simp only [mergeUndersizedTail, List.reverse_cons, List.reverse_nil, List.nil_append, List.singleton_append,
      mergeTail, if_pos merges]
    rfl
  have tokens : (absorb services full [short]).tokenCount =
      config.targetChunkTokens + config.minChunkTokens + 1 := by
    have counted : (absorb services full [short]).tokenCount = ((full.text ++ "\n\n" ++ short.text).length : Int) := rfl
    have separator : "\n\n".length = 2 := by decide
    rw [counted]
    simp only [String.length_append, full, short, piece, proseDraft, String.length_ofList, List.length_replicate,
      separator]
    omega
  have whole : absorb services full [short] = mergedTail config := by
    rw [mergedTail, ← tokens]
    rfl
  rw [assembledDrafts_eq, ← whole, ← merged]
  exact List.append_nil _

theorem not_hardCeiling {config : ChunkerConfig} (ordered : config.minChunkTokens ≤ config.targetChunkTokens)
    (positive : 0 < config.minChunkTokens)
    (tight : config.maxChunkTokens < config.targetChunkTokens + config.minChunkTokens + 1) :
    ¬ HardCeiling config := by
  intro ceiling
  obtain ⟨chunks, assigned⟩ := assignPositions_ok sampleHexdigest StageCall.sampleEnvelope.docIdFormat [mergedTail config]
  obtain ⟨chunk, rfl⟩ : ∃ chunk, chunks = [chunk] :=
    List.length_eq_one_iff.mp (by simpa using congrArg List.length (draftOf_assigned assigned))
  have same : draftOf chunk = mergedTail config := by simpa using draftOf_assigned assigned
  have assembled : assembledChunks sampleHexdigest (fun _ => shortTail config) (fun text => (text.length : Int)) config
      StageCall.sampleEnvelope.docId oneParagraph = .ok [chunk] := by
    rw [assembledChunks, assembledDrafts_shortTail ordered positive, assigned]
  have prose : isTableAtomic (draftOf chunk) = false := by
    rw [same, isTableAtomic, mergedTail, recursiveMetadata_strategy]
    decide
  have tokens : chunk.tokenCount = config.targetChunkTokens + config.minChunkTokens + 1 :=
    congrArg ChunkDraft.tokenCount same
  have bound := ceiling sampleHexdigest _ String.length (shortTail_within ordered positive) length_subadditive
    StageCall.sampleEnvelope oneParagraph [chunk] assembled chunk (by simp) prose
  omega

theorem hardCeiling_iff (settings : Scenarios.ChunkerSettings)
    (accepted : Scenarios.validateChunkerBounds settings = .ok ()) :
    HardCeiling settings.toChunkerConfig ↔
      settings.minChunkTokens ≤ 0 ∨
        settings.targetChunkTokens + settings.minChunkTokens + 1 ≤ settings.maxChunkTokens := by
  have bounded := (Scenarios.validateChunkerBounds_ok settings).mp accepted
  constructor
  next =>
    intro ceiling
    by_contra tight
    simp only [not_or, Int.not_le] at tight
    exact not_hardCeiling bounded.1 tight.1 tight.2 ceiling
  next =>
    intro room
    exact hardCeiling_of_room bounded.2 room

def defaultSettings : Scenarios.ChunkerSettings :=
  { targetChunkTokens := 512, overlapTokens := 64, minChunkTokens := 40, maxChunkTokens := 800 }

theorem hardCeiling_default :
    Scenarios.validateChunkerBounds defaultSettings = .ok () ∧ HardCeiling defaultSettings.toChunkerConfig := by
  have accepted : Scenarios.validateChunkerBounds defaultSettings = .ok () := by decide
  exact ⟨accepted, (hardCeiling_iff defaultSettings accepted).mpr (by decide)⟩

-- The maximum leaves no room for a merge.
def tightSettings : Scenarios.ChunkerSettings :=
  { targetChunkTokens := 4, overlapTokens := 0, minChunkTokens := 3, maxChunkTokens := 4 }

theorem merge_breaks_ceiling :
    Scenarios.validateChunkerBounds tightSettings = .ok () ∧
      shortTail tightSettings.toChunkerConfig = ["aaaa", "bb"] ∧
      (assembledDrafts (fun _ => shortTail tightSettings.toChunkerConfig) (fun text => (text.length : Int))
        tightSettings.toChunkerConfig digestAbc oneParagraph).map (fun draft => (draft.text, draft.tokenCount)) =
          [("aaaa\n\nbb", 8)] ∧
      ¬ HardCeiling tightSettings.toChunkerConfig := by
  refine ⟨by decide, by decide, by decide, ?_⟩
  exact not_hardCeiling (by decide) (by decide) (by decide)

end Chunker

end Vestibule
