import Vestibule.Vertical.Redelivery

set_option autoImplicit false

namespace Vestibule

open Library

-- The loader records an entry before it knows whether its transition is accepted; a reviewer discards it.
-- The calls here do not overlap: each runs to its end before the next begins.

structure StageWrite where
  docId : String
  toStatus : Status
  errorCode : Option String := none
  errorMessage : Option String := none
  ofPipeline : toStatus ∈ [.analyzing, .chunking, .embedding, .indexing, .indexed, .failed]
  explained : toStatus = .failed → errorCode ≠ none

def StageWrite.request (write : StageWrite) : TransitionRequest :=
  { docId := write.docId, toStatus := write.toStatus, stage := write.toStatus, errorCode := write.errorCode,
    errorMessage := write.errorMessage }

inductive ReviewTurn where
  | create (docId : String) (summary : EnvelopeSummary)
  | load (config : VerticalLoaderConfig) (envelope : ArrivalEnvelope)
  | assign (docId scenarioId : String)
  | reject (docId reason : String)
  | requeue (docId : String)
  | archive (docId reason : String)
  | stage (write : StageWrite)

namespace ReviewTurn

def docId : ReviewTurn → String
  | create docId _ => docId
  | load _ envelope => envelope.docId
  | assign docId _ => docId
  | reject docId _ => docId
  | requeue docId => docId
  | archive docId _ => docId
  | stage write => write.docId

section Turns

variable {V X : Type} (adapter : IndexerAdapter V X)

def after (turn : ReviewTurn) (oracle : Nat → World × V) (s : System × X) : System × X :=
  match turn with
  | create docId summary => ({ s.1 with ledger := (s.1.ledger.create (oracle 0).1.now docId summary).2 }, s.2)
  | load config envelope => (Prog.run (pipeline adapter) (VerticalLoader.load config envelope).run oracle s).2
  | assign docId scenarioId => (Prog.run (pipeline adapter) (ReviewQueue.assign docId scenarioId).run oracle s).2
  | reject docId reason => (Prog.run (pipeline adapter) (ReviewQueue.reject docId reason).run oracle s).2
  | requeue docId => (Prog.run (pipeline adapter) (Reprocessor.requeue docId).run oracle s).2
  | archive docId reason => (Prog.run (pipeline adapter) (Reprocessor.archive docId reason).run oracle s).2
  | stage write => (pipeline adapter (oracle 0) (.ledgerTransition write.request) s).2

/-- An unresolved document is parked only from pending or when it is parked already, and no stage fails a
parked document. -/
def Orderly (turn : ReviewTurn) (s : System × X) : Prop :=
  match turn with
  | load config envelope =>
      config.parkUnresolved = true → VerticalLoader.Unresolved config envelope s →
        HasStatus envelope.docId .pending s ∨ HasStatus envelope.docId .needsReview s
  | stage write => write.toStatus = .failed → ¬ HasStatus write.docId .needsReview s
  | _ => True

end Turns

end ReviewTurn

section Tracking

variable {V X : Type}

def Registered (docId : String) (s : System × X) : Prop := (s.1.registry.get? docId).isSome

def TracksAt (docId : String) (s : System × X) : Prop := Registered docId s ↔ HasStatus docId .needsReview s

def Tracks (s : System × X) : Prop := ∀ docId, TracksAt docId s

structure Frame (docId : String) (before after : System × X) : Prop where
  rows : ∀ other, other ≠ docId → after.1.ledger.get other = before.1.ledger.get other
  entries : ∀ other, other ≠ docId → after.1.registry.get? other = before.1.registry.get? other

theorem Frame.refl (docId : String) (s : System × X) : Frame docId s s := ⟨fun _ _ => rfl, fun _ _ => rfl⟩

theorem Frame.tracks_iff {docId : String} {before after : System × X} (frame : Frame docId before after)
    (tracks : Tracks before) : Tracks after ↔ TracksAt docId after := by
  constructor
  next => exact fun all => all docId
  next =>
    intro here other
    by_cases same : other = docId
    next =>
      subst same
      exact here
    next =>
      have there := tracks other
      simp only [TracksAt, Registered, HasStatus] at there ⊢
      rw [frame.rows other same, frame.entries other same]
      exact there

/-- What a turn about `docId` leaves: the document is still tracked if the turn was an orderly one. -/
structure Settles (docId : String) (orderly : Prop) (s s' : System × X) : Prop where
  frame : Frame docId s s'
  here : TracksAt docId s → (TracksAt docId s' ↔ orderly)

theorem Settles.of_same (docId : String) {orderly : Prop} (holds : orderly) (s : System × X) :
    Settles docId orderly s s where
  frame := .refl docId s
  here tracks := iff_of_true tracks holds

section Put

variable {docId : String} {row : LedgerRow} (correct : RowWellFormed docId row)

theorem frame_of_put (s : System × X) :
    Frame docId s ({ s.1 with ledger := s.1.ledger.put docId row correct }, s.2) where
  rows other different := (s.1.ledger.get_put docId other row correct).trans (if_neg different)
  entries _ _ := rfl

theorem hasStatus_put (status : Status) (s : System × X) :
    HasStatus docId status ({ s.1 with ledger := s.1.ledger.put docId row correct }, s.2) ↔ row.status = status := by
  simp [HasStatus]

-- A row that is not parked goes to a status that is not either, and the registry is left alone.
theorem Settles.of_moved {orderly : Prop} {s : System × X} (outside : ¬ HasStatus docId .needsReview s)
    (elsewhere : row.status ≠ .needsReview) (holds : orderly) :
    Settles docId orderly s ({ s.1 with ledger := s.1.ledger.put docId row correct }, s.2) where
  frame := frame_of_put correct s
  here tracks := by
    have absent : ¬ Registered docId s := fun entry => outside (tracks.mp entry)
    have parked := (hasStatus_put correct .needsReview s).not.mpr elsewhere
    exact iff_of_true (iff_of_false absent parked) holds

end Put

variable (adapter : IndexerAdapter V X)

theorem settles_create (docId : String) (summary : EnvelopeSummary) (oracle : Nat → World × V) (s : System × X) :
    Settles docId True s ((ReviewTurn.create docId summary).after adapter oracle s) := by
  simp only [ReviewTurn.after]
  rcases s.1.ledger.create_cases (oracle 0).1.now docId summary with ⟨fault, same⟩ | ⟨row, _, same⟩ |
    ⟨absent, correct, stored⟩
  next =>
    rw [same]
    exact .of_same docId trivial s
  next =>
    rw [same]
    exact .of_same docId trivial s
  next =>
    rw [stored]
    have outside : ¬ HasStatus docId .needsReview s := by simp [HasStatus, absent]
    exact .of_moved correct outside (by simp [freshRow]) trivial

theorem edge_of_parked {status : Status} (edge : Edge .needsReview status)
    (ofPipeline : status ∈ [.analyzing, .chunking, .embedding, .indexing, .indexed, .failed]) : status = .failed := by
  revert edge ofPipeline
  cases status <;> decide

theorem settles_stage (write : StageWrite) (oracle : Nat → World × V) (s : System × X) :
    Settles write.docId ((ReviewTurn.stage write).Orderly s) s ((ReviewTurn.stage write).after adapter oracle s) := by
  have elsewhere : write.toStatus ≠ .needsReview := by
    intro parks
    have listed := write.ofPipeline
    rw [parks] at listed
    exact absurd listed (by decide)
  simp only [ReviewTurn.after]
  by_cases parked : HasStatus write.docId .needsReview s
  next =>
    obtain ⟨row, present, status⟩ := parked.exists
    by_cases fails : write.toStatus = .failed
    next =>
      -- The row leaves the queue and its entry stays behind.
      have edge : Edge row.status write.toStatus := by
        rw [status, fails]
        decide
      obtain ⟨correct, written⟩ := pipeline_transition_of_edge adapter (oracle 0) write.request present rfl edge
        write.explained
      rw [written]
      refine ⟨frame_of_put correct s, fun tracks => ?_⟩
      have entry : Registered write.docId s := tracks.mpr parked
      have left := (hasStatus_put correct .needsReview s).not.mpr elsewhere
      exact iff_of_false (fun still => left (still.mp entry)) fun orderly => orderly fails parked
    next =>
      rcases pipeline_transition_cases adapter (oracle 0) write.request s with ⟨exc, rejected⟩ |
        ⟨current, held, edge, _⟩
      next =>
        rw [rejected]
        exact .of_same _ (fun failed => absurd failed fails) s
      next =>
        obtain rfl : row = current := Option.some.inj (present.symm.trans held)
        rw [status] at edge
        exact absurd (edge_of_parked edge write.ofPipeline) fails
  next =>
    rcases pipeline_transition_cases adapter (oracle 0) write.request s with ⟨exc, rejected⟩ |
      ⟨current, _, _, correct, written⟩
    next =>
      rw [rejected]
      exact .of_same _ (fun _ => parked) s
    next =>
      rw [written]
      exact .of_moved correct parked elsewhere fun _ => parked

theorem edge_to_parked {status : Status} : Edge status .needsReview ↔ status = .pending ∨ status = .needsReview := by
  cases status <;> decide

theorem parkable_iff (docId : String) (s : System × X) :
    HasStatus docId .pending s ∨ HasStatus docId .needsReview s ↔
      ∃ row, s.1.ledger.get docId = some row ∧ Edge row.status .needsReview := by
  simp only [edge_to_parked]
  constructor
  next =>
    rintro (pending | parked)
    next =>
      obtain ⟨row, present, status⟩ := pending.exists
      exact ⟨row, present, .inl status⟩
    next =>
      obtain ⟨row, present, status⟩ := parked.exists
      exact ⟨row, present, .inr status⟩
  next =>
    rintro ⟨row, present, pending | parked⟩
    next => exact .inl (pending ▸ HasStatus.of_get present)
    next => exact .inr (parked ▸ HasStatus.of_get present)

theorem settles_park (envelope : ArrivalEnvelope) (metadata : ParkedMetadata) (now : DateTime) (s : System × X) :
    Settles envelope.docId (HasStatus envelope.docId .pending s ∨ HasStatus envelope.docId .needsReview s) s
      ({ registry := s.1.registry.insert envelope.docId metadata,
         ledger := (s.1.ledger.transition now (VerticalLoader.parkRequest envelope)).2 }, s.2) := by
  have entries (other : String) (different : other ≠ envelope.docId) :
      (s.1.registry.insert envelope.docId metadata).get? other = s.1.registry.get? other := by
    rw [Dict.get?_insert, if_neg different]
  have entry : ((s.1.registry.insert envelope.docId metadata).get? envelope.docId).isSome := by
    simp [Dict.get?_insert]
  rcases s.1.ledger.transition_cases now (VerticalLoader.parkRequest envelope) with ⟨fault, rejected⟩ |
    ⟨current, present, _, edge, _, correct, written⟩
  next =>
    rw [rejected]
    refine ⟨⟨fun _ _ => rfl, entries⟩, fun _ => ?_⟩
    -- From either status the transition would have been accepted.
    have outside : ¬ (HasStatus envelope.docId .pending s ∨ HasStatus envelope.docId .needsReview s) := by
      intro either
      obtain ⟨row, present, edge⟩ := (parkable_iff envelope.docId s).mp either
      obtain ⟨_, written⟩ := s.1.ledger.transition_of_edge now (VerticalLoader.parkRequest envelope) present rfl edge
        (by simp [VerticalLoader.parkRequest])
      rw [rejected] at written
      cases written
    exact iff_of_false (fun tracked => outside (.inr (tracked.mp entry))) outside
  next =>
    rw [written]
    have parked := hasStatus_put correct .needsReview s
    refine ⟨⟨(frame_of_put correct s).rows, entries⟩, fun _ => ?_⟩
    have either := (parkable_iff envelope.docId s).mpr ⟨current, present, edge⟩
    exact iff_of_true (iff_of_true entry (parked.mpr rfl)) either

theorem settles_load (config : VerticalLoaderConfig) (envelope : ArrivalEnvelope) (oracle : Nat → World × V)
    (s : System × X) :
    Settles envelope.docId ((ReviewTurn.load config envelope).Orderly s) s
      ((ReviewTurn.load config envelope).after adapter oracle s) := by
  simp only [ReviewTurn.after]
  by_cases unresolved : VerticalLoader.Unresolved config envelope s
  next =>
    cases parks : config.parkUnresolved with
    | false =>
      rw [VerticalLoader.load_of_not_parking config envelope adapter unresolved parks]
      exact .of_same _ (fun on => by simp [parks] at on) s
    | true =>
      rw [VerticalLoader.load_of_parking config envelope adapter unresolved parks]
      have settled := settles_park envelope (VerticalLoader.metadata config envelope) (oracle 2).1.now s
      refine ⟨settled.frame, fun tracks => (settled.here tracks).trans ?_⟩
      simp [ReviewTurn.Orderly, parks, unresolved]
  next =>
    rw [VerticalLoader.load_state_of_resolved config envelope adapter unresolved]
    exact .of_same _ (fun _ left => absurd left unresolved) s

theorem settles_reviewed {docId : String} {row : LedgerRow} (correct : RowWellFormed docId row)
    (elsewhere : row.status ≠ .needsReview) (s : System × X) :
    Settles docId True s
      ({ ledger := s.1.ledger.put docId row correct, registry := s.1.registry.erase docId }, s.2) where
  frame :=
    { rows := (frame_of_put correct s).rows
      entries := fun other different => by rw [Dict.get?_erase, if_neg different] }
  here _ := by
    have discarded : ¬ ((s.1.registry.erase docId).get? docId).isSome := by simp
    have left := (hasStatus_put correct .needsReview s).not.mpr elsewhere
    exact iff_of_true (iff_of_false discarded left) trivial

theorem wp_review (docId caller : String) (request : TransitionRequest) (own : request.docId = docId)
    (mirrored : request.stage = request.toStatus) (edge : Edge .needsReview request.toStatus)
    (elsewhere : request.toStatus ≠ .needsReview)
    (explained : request.toStatus = .failed → request.errorCode ≠ none) (s : System × X) :
    Prog.wp (pipeline adapter) (fun _ => True)
      (do
        ReviewQueue.requireNeedsReview docId caller
        Py.transitionTriaged request
        Py.registryDiscard docId : Py Unit).run (fun _ s' => Settles docId True s s') s := by
  subst own
  simp only [ReviewQueue.requireNeedsReview, Prog.wp_run_bind, wp_ledgerGet, wp_ofExcept]
  intro _
  refine ⟨trivial, ?_⟩
  cases checked : ReviewQueue.checkNeedsReview request.docId caller (s.1.ledger.get request.docId) with
  | error exc => exact .of_same _ trivial s
  | ok _ =>
    have parked : HasStatus request.docId .needsReview s := checkNeedsReview_ok request.docId checked
    obtain ⟨row, present, status⟩ := parked.exists
    rw [← status] at edge
    simp only [Py.wp_transitionTriaged_iff]
    intro w
    obtain ⟨correct, written⟩ := pipeline_transition_of_edge adapter w request present mirrored edge explained
    rw [written]
    exact ⟨trivial, fun _ => ⟨trivial, settles_reviewed correct elsewhere s⟩⟩

theorem settles_assign (docId scenarioId : String) (oracle : Nat → World × V) (s : System × X) :
    Settles docId True s ((ReviewTurn.assign docId scenarioId).after adapter oracle s) := by
  have edge : Edge .needsReview .pending := by decide
  have looked : Prog.wp (pipeline adapter) (fun _ => True) (Py.scenarioGet scenarioId).run (fun _ s' => s' = s) s :=
    fun _ => ⟨trivial, rfl⟩
  have settled : Prog.wp (pipeline adapter) (fun _ => True) (ReviewQueue.assign docId scenarioId).run
      (fun _ s' => Settles docId True s s') s := by
    rw [ReviewQueue.assign, Prog.wp_run_bind]
    apply Prog.wp_mono _ looked
    intro found after same
    rw [same]
    cases found with
    | error exc => exact .of_same docId trivial s
    | ok scenario =>
      cases scenario with
      | none => exact .of_same docId trivial s
      | some held =>
        exact wp_review adapter docId "assign" (assignRequest docId scenarioId) rfl rfl edge (by simp [assignRequest])
          (by simp [assignRequest]) s
  exact Prog.run_of_wp settled oracle

theorem settles_reject (docId reason : String) (oracle : Nat → World × V) (s : System × X) :
    Settles docId True s ((ReviewTurn.reject docId reason).after adapter oracle s) := by
  have edge : Edge .needsReview .failed := by decide
  exact Prog.run_of_wp (wp_review adapter docId "reject" (rejectRequest docId reason) rfl rfl edge
    (by simp [rejectRequest]) (by simp [rejectRequest]) s) oracle

-- A failed document is not in the queue, and neither exit leads into it.
theorem settles_exit {docId : String} {row : LedgerRow} {s : System × X} (present : s.1.ledger.get docId = some row)
    (failed : row.status = .failed) {next : LedgerRow} (correct : RowWellFormed docId next)
    (elsewhere : next.status ≠ .needsReview) :
    Settles docId True s ({ s.1 with ledger := s.1.ledger.put docId next correct }, s.2) := by
  have outside : ¬ HasStatus docId .needsReview s := by simp [HasStatus, present, failed]
  exact .of_moved correct outside elsewhere trivial

theorem wp_requireFailed {α : Type} (docId caller : String) {next : LedgerRow → Py α} {s : System × X}
    (found : ∀ current, s.1.ledger.get docId = some current → current.status = .failed →
      Prog.wp (pipeline adapter) (fun _ => True) (next current).run (fun _ s' => Settles docId True s s') s) :
    Prog.wp (pipeline adapter) (fun _ => True) (Reprocessor.requireFailed docId caller >>= next).run
      (fun _ s' => Settles docId True s s') s := by
  simp only [Reprocessor.requireFailed, Prog.wp_run_bind, wp_ledgerGet, wp_ofExcept]
  intro _
  refine ⟨trivial, ?_⟩
  cases checked : Reprocessor.checkFailed docId caller (s.1.ledger.get docId) with
  | error exc => exact .of_same docId trivial s
  | ok current =>
    obtain ⟨present, failed⟩ := checkFailed_ok docId checked
    exact found current present failed

theorem settles_requeue (docId : String) (oracle : Nat → World × V) (s : System × X) :
    Settles docId True s ((ReviewTurn.requeue docId).after adapter oracle s) := by
  have settled : Prog.wp (pipeline adapter) (fun _ => True) (Reprocessor.requeue docId).run
      (fun _ s' => Settles docId True s s') s := by
    apply wp_requireFailed
    intro current present failed
    have edge : Edge current.status .pending := by
      rw [failed]
      decide
    simp only [Prog.wp_run_bind, Prog.wp_run_tryCatch]
    intro w
    obtain ⟨correct, written⟩ := pipeline_transition_of_edge adapter w
      { docId, toStatus := .pending, stage := .pending } present rfl edge (by simp)
    rw [written]
    exact ⟨trivial, settles_exit present failed correct (by simp [nextRow])⟩
  exact Prog.run_of_wp settled oracle

theorem settles_archive (docId reason : String) (oracle : Nat → World × V) (s : System × X) :
    Settles docId True s ((ReviewTurn.archive docId reason).after adapter oracle s) := by
  have settled : Prog.wp (pipeline adapter) (fun _ => True) (Reprocessor.archive docId reason).run
      (fun _ s' => Settles docId True s s') s := by
    apply wp_requireFailed
    intro current present failed
    have edge : Edge current.status .archived := by
      rw [failed]
      decide
    rw [Py.wp_transitionTriaged_iff]
    intro w
    obtain ⟨correct, written⟩ := pipeline_transition_of_edge adapter w
      { docId, toStatus := .archived, stage := .archived, errorCode := current.lastErrorCode,
        errorMessage := some reason } present rfl edge (by simp)
    rw [written]
    exact ⟨trivial, settles_exit present failed correct (by simp [nextRow])⟩
  exact Prog.run_of_wp settled oracle

theorem settles_turn (turn : ReviewTurn) (oracle : Nat → World × V) (s : System × X) :
    Settles turn.docId (turn.Orderly s) s (turn.after adapter oracle s) := by
  cases turn with
  | create docId summary => exact settles_create adapter docId summary oracle s
  | load config envelope => exact settles_load adapter config envelope oracle s
  | assign docId scenarioId => exact settles_assign adapter docId scenarioId oracle s
  | reject docId reason => exact settles_reject adapter docId reason oracle s
  | requeue docId => exact settles_requeue adapter docId oracle s
  | archive docId reason => exact settles_archive adapter docId reason oracle s
  | stage write => exact settles_stage adapter write oracle s

theorem tracks_after_iff {s : System × X} (tracks : Tracks s) (turn : ReviewTurn) (oracle : Nat → World × V) :
    Tracks (turn.after adapter oracle s) ↔ turn.Orderly s := by
  have settled := settles_turn adapter turn oracle s
  exact (settled.frame.tracks_iff tracks).trans (settled.here (tracks turn.docId))

def runTurns (turns : List (ReviewTurn × (Nat → World × V))) (s : System × X) : System × X :=
  turns.foldl (fun s turn => turn.1.after adapter turn.2 s) s

def AllOrderly : List (ReviewTurn × (Nat → World × V)) → System × X → Prop
  | [], _ => True
  | turn :: rest, s => turn.1.Orderly s ∧ AllOrderly rest (turn.1.after adapter turn.2 s)

def emptySystem (index : X) : System × X := ({ ledger := .empty }, index)

theorem tracks_empty (index : X) : Tracks (emptySystem index) := by
  intro docId
  simp [TracksAt, Registered, HasStatus, emptySystem, InMemoryLedgerStore.get, InMemoryLedgerStore.empty]

-- The first turn that is not orderly ends the agreement at once.
theorem tracks_prefixes_iff {s : System × X} (tracks : Tracks s) (turns : List (ReviewTurn × (Nat → World × V))) :
    (∀ earlier, earlier <+: turns → Tracks (runTurns adapter earlier s)) ↔ AllOrderly adapter turns s := by
  induction turns generalizing s with
  | nil =>
    refine iff_of_true (fun earlier initial => ?_) trivial
    rw [List.prefix_nil.mp initial]
    exact tracks
  | cons turn rest ih =>
    have step := tracks_after_iff adapter tracks turn.1 turn.2
    constructor
    next =>
      intro throughout
      have first : Tracks (turn.1.after adapter turn.2 s) := throughout [turn] ⟨rest, rfl⟩
      refine ⟨step.mp first, (ih first).mp fun earlier initial => ?_⟩
      exact throughout (turn :: earlier) (List.cons_prefix_cons.mpr ⟨rfl, initial⟩)
    next =>
      rintro ⟨orderly, later⟩ earlier initial
      cases earlier with
      | nil => exact tracks
      | cons head earlier =>
        obtain ⟨rfl, within⟩ := List.cons_prefix_cons.mp initial
        exact (ih (step.mpr orderly)).mpr later earlier within

theorem registry_tracks_queue_iff (turns : List (ReviewTurn × (Nat → World × V))) (index : X) :
    (∀ earlier, earlier <+: turns → Tracks (runTurns adapter earlier (emptySystem index))) ↔
      AllOrderly adapter turns (emptySystem index) :=
  tracks_prefixes_iff adapter (tracks_empty index) turns

end Tracking

-- The document is parked and rejected, and its envelope is delivered once more.
def deliveredAfterReject : List (ReviewTurn × (Nat → World × Unit)) :=
  [(.create digestAbc ⟨"v1"⟩, fun _ => ({}, ())), (.load {} unresolvedEnvelope, fun _ => ({}, ())),
    (.reject digestAbc "unreadable", fun _ => ({}, ())), (.load {} unresolvedEnvelope, fun _ => ({}, ()))]

theorem rejected_document_registered :
    Registered digestAbc (runTurns idleIndex deliveredAfterReject (emptySystem ())) ∧
      HasStatus digestAbc .failed (runTurns idleIndex deliveredAfterReject (emptySystem ())) ∧
      ¬ Tracks (runTurns idleIndex deliveredAfterReject (emptySystem ())) := by
  have registered : Registered digestAbc (runTurns idleIndex deliveredAfterReject (emptySystem ())) := rfl
  have failed : HasStatus digestAbc .failed (runTurns idleIndex deliveredAfterReject (emptySystem ())) := by decide
  refine ⟨registered, failed, fun tracks => ?_⟩
  exact absurd (hasStatus_unique ((tracks digestAbc).mp registered) failed) (by decide)

end Vestibule
