import Vestibule.Chunker.Stream
import Vestibule.Pipeline.Contention
import Vestibule.Scenarios.Configs
import Vestibule.Scenarios.Laws

set_option autoImplicit false

namespace Vestibule

open Library

namespace Chunker

-- `valueError` is the text of the `ValueError` that `RecursiveCharacterTextSplitter` raises for a chunk
-- size and an overlap, if it raises.

def RaisesAsDocumented (valueError : Int → Int → Option String) : Prop :=
  ∀ chunkSize chunkOverlap, valueError chunkSize chunkOverlap = none ↔
    0 < chunkSize ∧ 0 ≤ chunkOverlap ∧ chunkOverlap ≤ chunkSize

def strictTools (valueError : Int → Int → Option String) (split : String → List String) (count : String → Int) :
    TextTools (Except Exc) where
  textSplitter chunkSize chunkOverlap :=
    match valueError chunkSize chunkOverlap with
    | none => .ok ()
    | some text => .error (.other text)
  splitText _ _ text := .ok (split text)
  count text := .ok (count text)
  indexError := .error (.other "list index out of range")

/-- Strategies and counter answer as they are; everything else is answered by `h`. -/
def withStrategies {W σ : Type} (tools : TextTools (Except Exc)) (config : ChunkerConfig)
    (h : Handler Effects W σ) : Handler Effects W σ :=
  fun w o s => match o with
  | .chunkRegion slot elements captionText docId =>
      ((strategies tools config).chunkRegion slot elements captionText docId, s)
  | .count text => (tools.count text, s)
  | o => h w o s

def answers {W σ : Type} (h : Handler Effects W σ) : MonadRel (ExceptT Exc (Prog Effects)) (Except Exc) where
  rel p result := ∀ Q s, Q result s → Prog.wp h (fun _ => True) p.run Q s
  pure value := fun _ _ holds => holds
  bind {α β p q f g} head tail := by
    intro Q s holds
    rw [Prog.wp_run_bind]
    apply head
    cases q with
    | error exc => exact holds
    | ok value => exact tail value Q s holds

def succeeds : MonadRel (Except Exc) Id where
  rel result value := result = .ok value.run
  pure value := rfl
  bind {α β p q f g} head tail := by
    rw [head]
    exact tail q.run

section Runs

variable {W σ : Type} (tools : TextTools (Except Exc)) (config : ChunkerConfig) (h : Handler Effects W σ)

theorem assembleDrafts_answers (docId : String) (elements : List Element) :
    (answers (withStrategies tools config h)).rel (assembleDrafts injected config docId elements)
      (assembleDrafts (strategies tools config) config docId elements) := by
  have asked (slot : StrategySlot) (elements : List Element) (captionText docId : Option String) :
      (answers (withStrategies tools config h)).rel (injected.chunkRegion slot elements captionText docId)
        ((strategies tools config).chunkRegion slot elements captionText docId) :=
    fun Q s holds _ => ⟨trivial, holds⟩
  apply assembleDrafts_related
  next => exact fun text Q s holds _ => ⟨trivial, holds⟩
  next =>
    intro region _
    simp only [dispatchRegion]
    split
    next => exact asked _ _ _ _
    next => exact asked _ _ _ _

theorem assembleChunks_answers (hexdigest : ByteArray → String) (docId : String) (elements : List Element) :
    (answers (withStrategies tools config h)).rel (assembleChunks hexdigest config docId elements)
      (do assignPositions hexdigest docId (← assembleDrafts (strategies tools config) config docId elements)) := by
  apply (answers (withStrategies tools config h)).bind (assembleDrafts_answers tools config h docId elements)
  intro drafts Q s holds
  exact holds

end Runs

def NoProse (elements : List Element) : Prop := ∀ element ∈ elements, element.type = .table ∨ element.type = .heading

section Splitting

variable {valueError : Int → Int → Option String} {config : ChunkerConfig}
variable (split : String → List String) (count : String → Int)

theorem strictTools_counts (text : String) :
    succeeds.rel ((strictTools valueError split count).count text) ((plainTools split count).count text) := rfl

theorem strictTools_related
    (accepted : valueError config.targetChunkTokens config.overlapTokens = none) :
    RelatedTools succeeds config (strictTools valueError split count) (plainTools split count) where
  textSplitter := by
    simp only [strictTools, accepted]
    rfl
  splitText _ := rfl
  count := strictTools_counts split count

theorem dispatchRegion_succeeds
    (accepted : valueError config.targetChunkTokens config.overlapTokens = none) (headed : Bool) (docId : String)
    {region : Region} (regionOf : RegionOf region) :
    succeeds.rel (dispatchRegion (strategies (strictTools valueError split count) config) headed docId region)
      (dispatchRegion (plainServices split count config) headed docId region) := by
  have related := strictTools_related split count accepted
  cases regionOf with
  | table table captionText isTable =>
    exact tableAtomicChunkRegion_related (strictTools_counts split count) table captionText
  | nonTable elements nonempty noTable =>
    cases headed with
    | true => exact structureAwareChunkRegion_related related elements
    | false => exact recursiveChunkRegion_related related elements

theorem splitFrom_of_headings (path : Option String) {elements : List Element}
    (headings : ∀ element ∈ elements, element.type = .heading) : splitFrom path [] elements = [] := by
  induction elements generalizing path with
  | nil => rfl
  | cons element rest ih =>
    rw [splitFrom, if_pos (headings element (by simp)), ih _ fun other member => headings other (by simp [member])]
    rfl

-- Headings alone make no section, so the splitter is not even constructed.
theorem dispatchRegion_no_prose {elements : List Element} (noProse : NoProse elements) (docId : String)
    {region : Region} (member : region ∈ partitionRegions elements) :
    succeeds.rel
      (dispatchRegion (strategies (strictTools valueError split count) config) (hasHeadings elements) docId region)
      (dispatchRegion (plainServices split count config) (hasHeadings elements) docId region) := by
  have inside (element : Element) (listed : element ∈ region.elements) : element ∈ elements := by
    rw [← partitionRegions_elements elements]
    exact List.mem_flatMap.mpr ⟨region, member, listed⟩
  cases partitionRegions_regionOf member with
  | table table captionText isTable =>
    exact tableAtomicChunkRegion_related (strictTools_counts split count) table captionText
  | nonTable content nonempty noTable =>
    have headings : ∀ element ∈ content, element.type = .heading := by
      intro element listed
      rcases noProse element (inside element listed) with table | heading
      next => exact (noTable element listed table).elim
      next => exact heading
    have headed : hasHeadings elements = true := by
      obtain ⟨first, rest, rfl⟩ := List.exists_cons_of_ne_nil nonempty
      exact List.any_eq_true.mpr ⟨first, inside first (by simp), by simp [headings first]⟩
    have sections : splitIntoSections content = [] := splitFrom_of_headings none headings
    simp only [headed, dispatchRegion, if_true, strategies, plainServices, structureAwareChunkRegion, sections]
    rfl

theorem assembleDrafts_succeeds {elements : List Element} (docId : String)
    (either : valueError config.targetChunkTokens config.overlapTokens = none ∨ NoProse elements) :
    assembleDrafts (strategies (strictTools valueError split count) config) config docId elements =
      .ok (assembledDrafts split count config docId elements) := by
  apply assembleDrafts_related (R := succeeds)
  next => exact fun text => rfl
  next =>
    intro region member
    rcases either with accepted | noProse
    next => exact dispatchRegion_succeeds split count accepted _ docId (partitionRegions_regionOf member)
    next => exact dispatchRegion_no_prose split count noProse docId member

theorem recursiveChunkRegion_fails {text : String}
    (rejected : valueError config.targetChunkTokens config.overlapTokens = some text) {elements : List Element}
    (nonempty : elements ≠ []) :
    recursiveChunkRegion (strictTools valueError split count) config elements = .error (.other text) := by
  have filled : ¬ elements.isEmpty := by simpa using nonempty
  simp only [recursiveChunkRegion, if_neg filled, strictTools, rejected]
  rfl

theorem dispatchRegion_fails {text : String}
    (rejected : valueError config.targetChunkTokens config.overlapTokens = some text) {elements : List Element}
    {element : Element} (listed : element ∈ elements) (isContent : element.type ≠ .heading) (headed : Bool)
    (docId : String) (drafts : List ChunkDraft) :
    dispatchRegion (strategies (strictTools valueError split count) config) headed docId
      { kind := .nonTable, elements } ≠ .ok drafts := by
  intro done
  cases headed with
  | false =>
    have failed := recursiveChunkRegion_fails split count rejected (List.ne_nil_of_mem listed)
    exact absurd (failed.symm.trans done) (by simp)
  | true =>
    have content : element ∈ (splitIntoSections elements).flatMap Prod.snd := by
      rw [splitIntoSections_content]
      simp [listed, isContent]
    obtain ⟨part, member, own⟩ := List.mem_flatMap.mp content
    obtain ⟨before, after, turn⟩ := turn_of_foldlM_ok done member
    obtain ⟨_, sectioned, _⟩ := bind_eq_ok turn
    have failed := recursiveChunkRegion_fails split count rejected (List.ne_nil_of_mem own)
    exact absurd (failed.symm.trans sectioned) (by simp)

theorem assembleDrafts_fails {text : String}
    (rejected : valueError config.targetChunkTokens config.overlapTokens = some text) {elements : List Element}
    (prose : ¬ NoProse elements) (docId : String) (drafts : List ChunkDraft) :
    assembleDrafts (strategies (strictTools valueError split count) config) config docId elements ≠ .ok drafts := by
  intro done
  simp only [NoProse, not_forall, not_or] at prose
  obtain ⟨element, listed, notTable, isContent⟩ := prose
  rw [← partitionRegions_elements elements] at listed
  obtain ⟨region, member, own⟩ := List.mem_flatMap.mp listed
  obtain ⟨before, after, turn⟩ := turn_of_foldlM_ok done member
  obtain ⟨regionDrafts, dispatched, _⟩ := bind_eq_ok turn
  cases partitionRegions_regionOf member with
  | table table captionText isTable =>
    obtain rfl : element = table := by simpa using own
    exact notTable isTable
  | nonTable content nonempty noTable =>
    exact dispatchRegion_fails split count rejected own isContent _ docId regionDrafts dispatched

end Splitting

section Call

variable {V X : Type} (adapter : IndexerAdapter V X) (hexdigest : ByteArray → String)

theorem wp_transitionToEmbedding {tools : TextTools (Except Exc)} {config : ChunkerConfig} {docId : String}
    {s : System × X} (ready : HasStatus docId .chunking s) (chunks : List Chunk) :
    Prog.wp (withStrategies tools config (pipeline adapter)) (fun _ => True) (transitionToEmbedding docId chunks).run
      (fun result _ => result = .ok chunks) s := by
  obtain ⟨row, present, status⟩ := ready.exists
  have edge : Edge row.status .embedding := by
    rw [status]
    decide
  simp only [transitionToEmbedding, Prog.wp_run_bind, Prog.wp_run_pure]
  rw [Py.wp_transitionTriaged_iff]
  intro w
  obtain ⟨correct, written⟩ := pipeline_transition_of_edge adapter w
    { docId, toStatus := .embedding, stage := .embedding } present rfl edge (by simp)
  have result : withStrategies tools config (pipeline adapter) w
      (.ledgerTransition { docId, toStatus := .embedding, stage := .embedding }) s = _ := written
  rw [result]
  exact ⟨trivial, trivial⟩

theorem chunk_of_nonempty {config : ChunkerConfig} {envelope : ArrivalEnvelope} {elements : List Element}
    (nonempty : elements ≠ []) :
    chunk hexdigest config envelope elements = (do
      let chunks ← buildChunks hexdigest config envelope.docId elements
      transitionToEmbedding envelope.docId chunks) := by
  have filled : elements.isEmpty = false := by simpa using nonempty
  simp only [chunk, filled, Bool.false_eq_true, if_false]

-- The configuration of the splitter is good, or nothing asks for a splitter.
def Splittable (config : ChunkerConfig) (elements : List Element) : Prop :=
  (0 < config.targetChunkTokens ∧ 0 ≤ config.overlapTokens ∧ config.overlapTokens ≤ config.targetChunkTokens) ∨
    NoProse elements

variable {valueError : Int → Int → Option String} (split : String → List String) (count : String → Int)

theorem wp_chunk_splittable (documented : RaisesAsDocumented valueError) {config : ChunkerConfig}
    {envelope : ArrivalEnvelope} {elements : List Element} (nonempty : elements ≠ []) {s : System × X}
    (ready : HasStatus envelope.docId .chunking s) (splittable : Splittable config elements) :
    Prog.wp (withStrategies (strictTools valueError split count) config (pipeline adapter)) (fun _ => True)
      (chunk hexdigest config envelope elements).run (fun result _ => ∃ chunks, result = .ok chunks) s := by
  have either : valueError config.targetChunkTokens config.overlapTokens = none ∨ NoProse elements := by
    rcases splittable with accepted | noProse
    next => exact .inl ((documented _ _).mpr accepted)
    next => exact .inr noProse
  obtain ⟨chunks, assigned⟩ := assignPositions_ok hexdigest envelope.docIdFormat
    (assembledDrafts split count config envelope.docId elements)
  have assembled := assembleChunks_answers (strictTools valueError split count) config (pipeline adapter) hexdigest
    envelope.docId elements
  rw [assembleDrafts_succeeds split count envelope.docId either] at assembled
  rw [chunk_of_nonempty hexdigest nonempty]
  simp only [buildChunks, Prog.wp_run_bind, Prog.wp_run_tryCatch]
  apply assembled
  simp only [Bind.bind, Except.bind, assigned]
  exact Prog.wp_mono (fun _ _ returned => ⟨chunks, returned⟩) (wp_transitionToEmbedding adapter ready chunks)

theorem wp_chunk_not_splittable (documented : RaisesAsDocumented valueError) {config : ChunkerConfig}
    {envelope : ArrivalEnvelope} {elements : List Element} (nonempty : elements ≠ []) (s : System × X)
    (rejects : ¬ Splittable config elements) :
    Prog.wp (withStrategies (strictTools valueError split count) config (pipeline adapter)) (fun _ => True)
      (chunk hexdigest config envelope elements).run (fun result _ => ∀ chunks, result ≠ .ok chunks) s := by
  have rejected : ∃ text, valueError config.targetChunkTokens config.overlapTokens = some text := by
    rw [← Option.ne_none_iff_exists']
    exact fun accepted => rejects (.inl ((documented _ _).mp accepted))
  obtain ⟨text, rejected⟩ := rejected
  have failed := assembleDrafts_fails split count rejected (fun noProse => rejects (.inr noProse)) envelope.docId
  have assembled := assembleChunks_answers (strictTools valueError split count) config (pipeline adapter) hexdigest
    envelope.docId elements
  cases drafted : assembleDrafts (strategies (strictTools valueError split count) config) config envelope.docId
    elements with
  | ok drafts => exact (failed drafts drafted).elim
  | error exc =>
    rw [drafted] at assembled
    have raised : (answers (withStrategies (strictTools valueError split count) config (pipeline adapter))).rel
      (assembleChunks hexdigest config envelope.docId elements) (.error exc) := assembled
    rw [chunk_of_nonempty hexdigest nonempty]
    simp only [buildChunks, Prog.wp_run_bind, Prog.wp_run_tryCatch]
    apply raised
    simp only [← Prog.wp_run_bind]
    -- Whatever the exception is, the handler ends by raising.
    split
    next =>
      split
      next => exact Py.selfTransitionAndRaise_raises _ _ _ _ _ _ _ s
      next => exact Py.selfTransitionAndRaise_raises _ _ _ _ _ _ _ s
    next => exact Py.selfTransitionAndRaise_raises _ _ _ _ _ _ _ s

theorem chunk_succeeds_iff (scenario : Scenarios.Scenario) (documented : RaisesAsDocumented valueError)
    (envelope : ArrivalEnvelope) (elements : List Element) (nonempty : elements ≠ []) (s : System × X)
    (ready : HasStatus envelope.docId .chunking s) (oracle : Nat → World × V) :
    (∃ chunks, (Prog.run
        (withStrategies (strictTools valueError split count) scenario.toChunkerConfig (pipeline adapter))
        (chunk hexdigest scenario.toChunkerConfig envelope elements).run oracle s).1 = .ok chunks) ↔
      Splittable scenario.toChunkerConfig elements := by
  constructor
  next =>
    rintro ⟨chunks, returned⟩
    by_contra rejects
    exact Prog.run_of_wp (wp_chunk_not_splittable adapter hexdigest split count documented nonempty s rejects) oracle
      chunks returned
  next =>
    intro splittable
    exact Prog.run_of_wp (wp_chunk_splittable adapter hexdigest split count documented nonempty ready splittable) oracle

end Call

def splitterError (chunkSize chunkOverlap : Int) : Option String :=
  if chunkSize ≤ 0 then some ("chunk_size must be > 0, got " ++ toString chunkSize)
  else if chunkOverlap < 0 then some ("chunk_overlap must be >= 0, got " ++ toString chunkOverlap)
  else if chunkSize < chunkOverlap then
    some ("Got a larger chunk overlap (" ++ toString chunkOverlap ++ ") than chunk size (" ++ toString chunkSize ++
      "), should be smaller.")
  else none

theorem splitterError_documented : RaisesAsDocumented splitterError := by
  intro chunkSize chunkOverlap
  simp only [splitterError]
  split_ifs with small negative larger <;> simp <;> omega

def oneSentence : List Element := [{ type := .paragraph, text := "text" }]

theorem oneSentence_nonempty : oneSentence ≠ [] := by simp [oneSentence]

theorem chunk_succeeds_sample :
    HasStatus digestAbc .chunking chunkingSystem ∧
      ∃ chunks, (Prog.run
        (withStrategies (strictTools splitterError (fun text => [text]) (fun text => (text.length : Int)))
          (Scenarios.sampleScenario "hr" Scenarios.hr_nonempty).toChunkerConfig (pipeline idleIndex))
        (chunk sampleHexdigest (Scenarios.sampleScenario "hr" Scenarios.hr_nonempty).toChunkerConfig
          StageCall.sampleEnvelope oneSentence).run (fun _ => ({}, ())) chunkingSystem).1 = .ok chunks := by
  have ready : HasStatus digestAbc .chunking chunkingSystem := by decide
  refine ⟨ready, ?_⟩
  apply (chunk_succeeds_iff idleIndex sampleHexdigest _ _ _ splitterError_documented StageCall.sampleEnvelope oneSentence
    oneSentence_nonempty chunkingSystem ready _).mpr
  exact .inl (by decide)

-- The target lies within the bounds, and the overlap is larger than the target.
def overlappingScenario : Scenarios.Scenario :=
  { Scenarios.sampleScenario "hr" Scenarios.hr_nonempty with
    chunker := ⟨512, 600, 100, 1024⟩
    chunkerBounded := rfl }

theorem accepted_overlap_fails_chunking :
    HasStatus digestAbc .chunking chunkingSystem ∧
      (Prog.run
        (withStrategies (strictTools splitterError (fun text => [text]) (fun text => (text.length : Int)))
          overlappingScenario.toChunkerConfig (pipeline idleIndex))
        (chunk sampleHexdigest overlappingScenario.toChunkerConfig StageCall.sampleEnvelope oneSentence).run
        (fun _ => ({}, ())) chunkingSystem).1 =
          .error (.ragged .chunker digestAbc
            "Got a larger chunk overlap (600) than chunk size (512), should be smaller." chunkerInternal) :=
  ⟨by decide, rfl⟩

end Chunker

end Vestibule
