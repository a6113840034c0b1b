import Vestibule.Chunker
import Vestibule.Library.FirstSeen

set_option autoImplicit false

namespace Vestibule

open Library

namespace Chunker

def joinTexts (drafts : List ChunkDraft) : String := "\n\n".intercalate (drafts.map (·.text))

section Merging

variable (services : Services Id) (config : ChunkerConfig)

/-- One draft for a whole run: the last draft is merged into its predecessor first. -/
def absorb (first : ChunkDraft) : List ChunkDraft → ChunkDraft
  | [] => first
  | next :: rest => mergeTwoDrafts services first (absorb next rest)

@[simp]
theorem absorb_nil (first : ChunkDraft) : absorb services first [] = first := rfl

@[simp]
theorem absorb_metadata (first : ChunkDraft) (rest : List ChunkDraft) :
    (absorb services first rest).metadata = first.metadata := by
  cases rest <;> rfl

theorem absorb_text (first : ChunkDraft) (rest : List ChunkDraft) :
    (absorb services first rest).text = joinTexts (first :: rest) := by
  induction rest generalizing first with
  | nil => simp [joinTexts]
  | cons next rest ih =>
    have merged : (absorb services first (next :: rest)).text =
        first.text ++ "\n\n" ++ (absorb services next rest).text := rfl
    rw [merged, ih, joinTexts, joinTexts, List.map_cons, List.map_cons, List.map_cons,
      String.intercalate_cons_cons]

theorem absorb_elementTypes {first : ChunkDraft} {rest : List ChunkDraft}
    (nodup : ∀ draft ∈ first :: rest, draft.elementTypes.Nodup) :
    (absorb services first rest).elementTypes = ((first :: rest).flatMap (·.elementTypes)).eraseDups := by
  induction rest generalizing first with
  | nil => simpa using (eraseDups_of_nodup (nodup first (by simp))).symm
  | cons next rest ih =>
    have merged : (absorb services first (next :: rest)).elementTypes =
        addUnseen first.elementTypes (absorb services next rest).elementTypes := rfl
    have own := eraseDups_of_nodup (nodup first (by simp))
    calc (absorb services first (next :: rest)).elementTypes
        = addUnseen first.elementTypes ((next :: rest).flatMap (·.elementTypes)).eraseDups := by
          rw [merged, ih fun draft member => nodup draft (List.mem_cons_of_mem _ member)]
      _ = first.elementTypes ++ (((next :: rest).flatMap (·.elementTypes)).removeAll first.elementTypes).eraseDups := by
          rw [addUnseen_eraseDups, addUnseen_eq]
      _ = ((first :: next :: rest).flatMap (·.elementTypes)).eraseDups := by
          rw [List.flatMap_cons (x := first), List.eraseDups_append, own]

theorem isTableAtomic_absorb (first : ChunkDraft) (rest : List ChunkDraft) :
    isTableAtomic (absorb services first rest) = isTableAtomic first := by
  simp [isTableAtomic]

-- The pass keeps all drafts but a run at the end, which it absorbs: as long as what it has is too small.

structure Absorbing (kept : List ChunkDraft) (first : ChunkDraft) (rest : List ChunkDraft) : Prop where
  small : ∀ middle next tail, rest = middle ++ next :: tail →
    (absorb services next tail).tokenCount < config.minChunkTokens
  prose : rest ≠ [] → ∀ draft ∈ first :: rest, isTableAtomic draft = false
  stopped : ∀ others predecessor, kept = others ++ [predecessor] →
    config.minChunkTokens ≤ (absorb services first rest).tokenCount ∨
      isTableAtomic (absorb services first rest) ∨ isTableAtomic predecessor

theorem small_cons {first : ChunkDraft} {rest : List ChunkDraft}
    (here : (absorb services first rest).tokenCount < config.minChunkTokens)
    (small : ∀ middle next tail, rest = middle ++ next :: tail →
      (absorb services next tail).tokenCount < config.minChunkTokens) :
    ∀ middle next tail, first :: rest = middle ++ next :: tail →
      (absorb services next tail).tokenCount < config.minChunkTokens := by
  intro middle next tail same
  cases middle with
  | nil =>
    obtain ⟨rfl, rfl⟩ : first = next ∧ rest = tail := by simpa using same
    exact here
  | cons head middle => exact small middle next tail (by simp_all)

theorem prose_cons {predecessor first : ChunkDraft} {rest : List ChunkDraft}
    (before : isTableAtomic predecessor = false) (here : isTableAtomic first = false)
    (prose : rest ≠ [] → ∀ draft ∈ first :: rest, isTableAtomic draft = false) :
    ∀ draft ∈ predecessor :: first :: rest, isTableAtomic draft = false := by
  intro draft member
  rcases List.mem_cons.mp member with rfl | later
  next => exact before
  next =>
    by_cases alone : rest = []
    next =>
      obtain rfl : draft = first := by simpa [alone] using later
      exact here
    next => exact prose alone draft later

theorem mergeTail_absorbing (predecessors : List ChunkDraft) (first : ChunkDraft) (rest : List ChunkDraft)
    (small : ∀ middle next tail, rest = middle ++ next :: tail →
      (absorb services next tail).tokenCount < config.minChunkTokens)
    (prose : rest ≠ [] → ∀ draft ∈ first :: rest, isTableAtomic draft = false) :
    ∃ kept first' rest', predecessors.reverse ++ first :: rest = kept ++ first' :: rest' ∧
      Absorbing services config kept first' rest' ∧
      (mergeTail services config (absorb services first rest) predecessors).run =
        absorb services first' rest' :: kept.reverse := by
  induction predecessors generalizing first rest with
  | nil => exact ⟨[], first, rest, rfl, ⟨small, prose, by simp⟩, rfl⟩
  | cons predecessor others ih =>
    by_cases merges : (absorb services first rest).tokenCount < config.minChunkTokens ∧
        ¬ isTableAtomic (absorb services first rest) ∧ ¬ isTableAtomic predecessor
    next =>
      have grown : mergeTail services config (absorb services first rest) (predecessor :: others) =
          mergeTail services config (absorb services predecessor (first :: rest)) others := by
        rw [mergeTail, if_pos merges]
        rfl
      have first' : isTableAtomic first = false := by
        simpa [isTableAtomic_absorb] using merges.2.1
      have before : isTableAtomic predecessor = false := by simpa using merges.2.2
      obtain ⟨kept, last, absorbed, input, absorbing, result⟩ := ih predecessor (first :: rest)
        (small_cons services config merges.1 small) fun _ => prose_cons before first' prose
      exact ⟨kept, last, absorbed, by simpa using input, absorbing, by rw [grown]; exact result⟩
    next =>
      have halted : mergeTail services config (absorb services first rest) (predecessor :: others) =
          absorb services first rest :: predecessor :: others := by
        rw [mergeTail, if_neg merges]
        rfl
      have stopped : config.minChunkTokens ≤ (absorb services first rest).tokenCount ∨
          isTableAtomic (absorb services first rest) ∨ isTableAtomic predecessor := by
        by_contra none
        simp only [not_or, Int.not_le] at none
        exact merges none
      refine ⟨(predecessor :: others).reverse, first, rest, rfl, ⟨small, prose, ?_⟩, ?_⟩
      next =>
        intro front held same
        obtain ⟨rfl, rfl⟩ : others.reverse = front ∧ predecessor = held := by simpa using same
        exact stopped
      next =>
        rw [halted, List.reverse_reverse]
        rfl

theorem mergeUndersizedTail_nil : (mergeUndersizedTail services config []).run = [] := rfl

theorem mergeUndersizedTail_absorbing {drafts : List ChunkDraft} (nonempty : drafts ≠ []) :
    ∃ kept first rest, drafts = kept ++ first :: rest ∧ Absorbing services config kept first rest ∧
      (mergeUndersizedTail services config drafts).run = kept ++ [absorb services first rest] := by
  obtain ⟨last, predecessors, reversed⟩ := List.exists_cons_of_ne_nil (List.reverse_ne_nil_iff.mpr nonempty)
  have whole : drafts = predecessors.reverse ++ [last] := by
    rw [← List.reverse_reverse drafts, reversed, List.reverse_cons]
  obtain ⟨kept, first, rest, input, absorbing, result⟩ := mergeTail_absorbing services config predecessors last []
    (by simp) (by simp)
  have merged : (mergeUndersizedTail services config drafts).run =
      (mergeTail services config last predecessors).run.reverse := by
    simp only [mergeUndersizedTail, reversed]
    rfl
  refine ⟨kept, first, rest, whole.trans input, absorbing, ?_⟩
  rw [merged, ← absorb_nil services last, result, List.reverse_cons, List.reverse_reverse]

theorem joinTexts_append_absorb (kept : List ChunkDraft) (first : ChunkDraft) (rest : List ChunkDraft) :
    joinTexts (kept ++ [absorb services first rest]) = joinTexts (kept ++ first :: rest) := by
  cases kept with
  | nil => simpa [joinTexts] using absorb_text services first rest
  | cons head others =>
    have text := absorb_text services first rest
    simp only [joinTexts, List.map_append, List.map_cons, List.map_nil] at text ⊢
    rw [String.intercalate_append_of_ne_nil (by simp) (by simp),
      String.intercalate_append_of_ne_nil (by simp) (by simp), String.intercalate_singleton, text]

-- Nothing is too small at the end any more, so a second pass stops where it starts.
theorem mergeUndersizedTail_of_absorbing {kept : List ChunkDraft} {first : ChunkDraft} {rest : List ChunkDraft}
    (absorbing : Absorbing services config kept first rest) :
    (mergeUndersizedTail services config (kept ++ [absorb services first rest])).run =
      kept ++ [absorb services first rest] := by
  cases kept using List.reverseRecOn with
  | nil => rfl
  | append_singleton others predecessor =>
    have reversed : (others ++ [predecessor] ++ [absorb services first rest]).reverse =
        absorb services first rest :: predecessor :: others.reverse := by simp
    have halted : ¬ ((absorb services first rest).tokenCount < config.minChunkTokens ∧
        ¬ isTableAtomic (absorb services first rest) ∧ ¬ isTableAtomic predecessor) := by
      rintro ⟨small, last, before⟩
      rcases absorbing.stopped others predecessor rfl with enough | table | table
      next => omega
      next => exact last table
      next => exact before table
    simp only [mergeUndersizedTail, reversed, mergeTail, if_neg halted]
    simp

structure TailLaws (kept absorbed : List ChunkDraft) (last : ChunkDraft) : Prop where
  enough : config.minChunkTokens ≤ last.tokenCount ∨ kept = [] ∨ isTableAtomic last ∨
    kept.getLast?.any isTableAtomic
  elementTypes : (∀ draft ∈ kept ++ absorbed, draft.elementTypes.Nodup) →
    last.elementTypes = (absorbed.flatMap (·.elementTypes)).eraseDups
  metadata : absorbed.head?.map (·.metadata) = some last.metadata

structure MergeLaws (drafts result : List ChunkDraft) : Prop where
  text : joinTexts result = joinTexts drafts
  tail : drafts = [] ∧ result = [] ∨
    ∃ kept absorbed last, absorbed ≠ [] ∧ drafts = kept ++ absorbed ∧ result = kept ++ [last] ∧
      TailLaws config kept absorbed last
  counted : (∀ draft ∈ drafts, draft.tokenCount = services.count draft.text) →
    ∀ draft ∈ result, draft.tokenCount = services.count draft.text
  idempotent : (mergeUndersizedTail services config result).run = result

theorem tailLaws_of_absorbing {kept : List ChunkDraft} {first : ChunkDraft} {rest : List ChunkDraft}
    (absorbing : Absorbing services config kept first rest) :
    TailLaws config kept (first :: rest) (absorb services first rest) where
  enough := by
    cases kept using List.reverseRecOn with
    | nil => simp
    | append_singleton others predecessor =>
      rcases absorbing.stopped others predecessor rfl with enough | table | table
      next => exact .inl enough
      next => simp [table]
      next => simp [table]
  elementTypes nodup := absorb_elementTypes services fun draft member => nodup draft (by simp_all)
  metadata := by simp

theorem absorb_counted {first : ChunkDraft} {rest : List ChunkDraft}
    (counted : first.tokenCount = services.count first.text) :
    (absorb services first rest).tokenCount = services.count (absorb services first rest).text := by
  cases rest with
  | nil => exact counted
  | cons next rest => rfl

theorem mergeUndersizedTail_laws (drafts : List ChunkDraft) :
    MergeLaws services config drafts (mergeUndersizedTail services config drafts).run := by
  by_cases empty : drafts = []
  next =>
    subst empty
    exact ⟨rfl, .inl ⟨rfl, rfl⟩, fun _ draft member => by simp [mergeUndersizedTail_nil] at member, rfl⟩
  next =>
    obtain ⟨kept, first, rest, rfl, absorbing, result⟩ := mergeUndersizedTail_absorbing services config empty
    rw [result]
    constructor
    next => exact joinTexts_append_absorb services kept first rest
    next =>
      exact .inr ⟨kept, first :: rest, absorb services first rest, by simp, rfl, rfl,
        tailLaws_of_absorbing services config absorbing⟩
    next =>
      intro counted draft member
      rcases List.mem_append.mp member with held | last
      next => exact counted draft (by simp [held])
      next =>
        obtain rfl := List.mem_singleton.mp last
        exact absorb_counted services (counted first (by simp))
    next => exact mergeUndersizedTail_of_absorbing services config absorbing

end Merging

end Chunker

end Vestibule
