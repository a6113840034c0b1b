import Vestibule.Vertical.Reparking

set_option autoImplicit false

namespace Vestibule

open Library

-- A load runs to its end before the next begins.

def ReadsOnly (o : Op) : Prop :=
  (∃ docId, o = .ledgerGet docId) ∨ (∃ scenarioId, o = .scenarioGet scenarioId) ∨
    ∃ vertical, o = .scenarioGetByVertical vertical

section Reading

variable {V X α : Type} (adapter : IndexerAdapter V X)

theorem run_state_of_readsOnly {p : Prog Effects α} (reads : p.Uses ReadsOnly) (oracle : Nat → World × V)
    (s : System × X) : (Prog.run (pipeline adapter) p oracle s).2 = s := by
  have kept (o : Op) (allowed : ReadsOnly o) (w : World × V) (s' : System × X) (same : s' = s) :
      (pipeline adapter w o s').2 = s := by
    rcases allowed with ⟨docId, rfl⟩ | ⟨scenarioId, rfl⟩ | ⟨vertical, rfl⟩ <;> exact same
  exact Prog.run_of_wp (Prog.wp_of_uses reads kept rfl) oracle

end Reading

namespace VerticalLoader

variable (config : VerticalLoaderConfig) (envelope : ArrivalEnvelope)

theorem scenarioGet_reads (scenarioId : String) : (Py.scenarioGet scenarioId).run.Uses ReadsOnly :=
  Prog.uses_perform (S := Effects) (.inr (.inl ⟨scenarioId, rfl⟩))

theorem scenarioGetByVertical_reads (vertical : String) : (Py.scenarioGetByVertical vertical).run.Uses ReadsOnly :=
  Prog.uses_perform (S := Effects) (.inr (.inr ⟨vertical, rfl⟩))

inductive Named : Py VerticalResolution → Prop where
  | intro {lookup : Py (Option Scenario)} (reads : lookup.run.Uses ReadsOnly) (subject missing : String)
      (source : ResolutionSource) (confidence : Confidence) (reason : String) :
      Named (resolveNamed lookup subject missing source confidence reason)

theorem resolveFrom_cases (assigned : Option String) :
    (assigned = none ∧ HumanOnly config envelope ∧
      resolveFrom config envelope assigned = pure (unresolvedResolution envelope.source)) ∨
    (¬ (assigned = none ∧ HumanOnly config envelope) ∧ Named (resolveFrom config envelope assigned)) := by
  cases assigned with
  | some scenarioId => exact .inr ⟨by simp, .intro (scenarioGet_reads scenarioId) ..⟩
  | none =>
    cases scenario : envelope.scenarioId with
    | some scenarioId =>
      refine .inr ⟨fun human => by simp [human.2.noScenario] at scenario, ?_⟩
      simp only [resolveFrom, scenario]
      exact .intro (scenarioGet_reads scenarioId) ..
    | none =>
      cases declared : envelope.vertical with
      | some vertical =>
        refine .inr ⟨fun human => by simp [human.2.noVertical] at declared, ?_⟩
        simp only [resolveFrom, scenario, declared]
        exact .intro (scenarioGetByVertical_reads vertical) ..
      | none =>
        cases selected : selectSourceRule envelope.source config.sourceMappings with
        | some rule =>
          refine .inr ⟨fun human => by simp [human.2.noRule] at selected, ?_⟩
          simp only [resolveFrom, scenario, declared, matchSourceMapping, selected, bind_assoc, pure_bind, bind_pure]
          exact .intro (scenarioGetByVertical_reads rule.vertical) ..
        | none =>
          refine .inl ⟨rfl, ⟨scenario, declared, selected⟩, ?_⟩
          simp [resolveFrom, scenario, declared, matchSourceMapping, selected]

variable {config envelope}

theorem Named.load_reads {p : Py VerticalResolution} (named : Named p) :
    (p >>= fetch config envelope).run.Uses ReadsOnly := by
  obtain ⟨reads, subject, missing, source, confidence, reason⟩ := named
  simp only [resolveNamed, bind_assoc]
  apply Prog.uses_run_bind reads
  intro found
  cases found with
  | none => trivial
  | some scenario =>
    simp only [pure_bind, fetch]
    apply Prog.uses_run_bind (scenarioGet_reads _)
    intro again
    cases again <;> trivial

theorem Named.resolves {p : Py VerticalResolution} (named : Named p) {W σ : Type} (h : Handler Effects W σ)
    (s : σ) : Prog.wp h (fun _ => True) p.run
      (fun result _ => ∀ resolution, result = .ok resolution → resolution.scenarioId ≠ none) s := by
  obtain ⟨reads, subject, missing, source, confidence, reason⟩ := named
  rw [resolveNamed, Prog.wp_run_bind]
  apply Prog.wp_mono _ (Prog.wp_trivial _ s)
  intro found after _
  cases found with
  | error exc => simp
  | ok scenario =>
    cases scenario with
    | none =>
      intro resolution returned
      cases returned
    | some held =>
      rintro _ ⟨rfl⟩
      simp

variable {V X : Type} (adapter : IndexerAdapter V X)

theorem resolve_run : (resolve config envelope).run = .op (.ledgerGet envelope.docId) fun row =>
    (resolveFrom config envelope (row.bind (·.assignedScenarioId))).run := by
  refine congrArg (Prog.op _) (funext fun row => ?_)
  cases row with
  | none => rfl
  | some row =>
    obtain ⟨_, _, _, _, _, _, _, _, _, _, assigned⟩ := row
    cases assigned <;> rfl

variable (config envelope)

def LeavesUnresolved (s : System × X) : Prop :=
  ∃ oracle resolution, (Prog.run (pipeline adapter) (resolve config envelope).run oracle s).1 = .ok resolution ∧
    resolution.scenarioId = none

def Unresolved (s : System × X) : Prop :=
  (s.1.ledger.get envelope.docId).bind (·.assignedScenarioId) = none ∧ HumanOnly config envelope

theorem unresolved_of_leavesUnresolved {s : System × X} (left : LeavesUnresolved config envelope adapter s) :
    Unresolved config envelope s := by
  obtain ⟨oracle, resolution, resolved, unnamed⟩ := left
  rcases resolveFrom_cases config envelope ((s.1.ledger.get envelope.docId).bind (·.assignedScenarioId)) with
    ⟨unassigned, human, _⟩ | ⟨_, named⟩
  next => exact ⟨unassigned, human⟩
  next =>
    rw [resolve_run] at resolved
    exact (Prog.run_of_wp (named.resolves (pipeline adapter) s) (fun i => oracle (i + 1)) resolution resolved
      unnamed).elim

theorem load_state_of_resolved {s : System × X} (resolved : ¬ Unresolved config envelope s)
    (oracle : Nat → World × V) : (Prog.run (pipeline adapter) (load config envelope).run oracle s).2 = s := by
  rcases resolveFrom_cases config envelope ((s.1.ledger.get envelope.docId).bind (·.assignedScenarioId)) with
    ⟨unassigned, human, _⟩ | ⟨_, named⟩
  next => exact (resolved ⟨unassigned, human⟩).elim
  next =>
    rw [load_run]
    exact run_state_of_readsOnly adapter named.load_reads (fun i => oracle (i + 1)) s

def metadata : ParkedMetadata :=
  { source := envelope.source, blobPath := envelope.blobPath,
    suggestedVerticals :=
      if config.suggestVerticals then Vestibule.suggestVerticals envelope.source config.sourceMappings else [] }

def unresolvedError : Exc :=
  .ragged .vertical envelope.docId (unresolvedResolution envelope.source).reason verticalUnresolved

theorem load_of_unresolved {s : System × X} (unresolved : Unresolved config envelope s) (oracle : Nat → World × V) :
    Prog.run (pipeline adapter) (load config envelope).run oracle s =
      Prog.run (pipeline adapter) (park config envelope (unresolvedResolution envelope.source)).run
        (fun i => oracle (i + 1)) s := by
  rw [load_run]
  change Prog.run (pipeline adapter) (resolveFrom config envelope ((s.1.ledger.get envelope.docId).bind
    (·.assignedScenarioId)) >>= fetch config envelope).run (fun i => oracle (i + 1)) s = _
  rcases resolveFrom_cases config envelope ((s.1.ledger.get envelope.docId).bind (·.assignedScenarioId)) with
    ⟨_, _, pure⟩ | ⟨resolved, _⟩
  next =>
    rw [pure, pure_bind]
    rfl
  next => exact (resolved unresolved).elim

theorem load_of_not_parking {s : System × X} (unresolved : Unresolved config envelope s)
    (off : config.parkUnresolved = false) (oracle : Nat → World × V) :
    Prog.run (pipeline adapter) (load config envelope).run oracle s = (.error (unresolvedError envelope), s) := by
  rw [load_of_unresolved config envelope adapter unresolved]
  simp only [park, off]
  rfl

theorem load_of_parking {s : System × X} (unresolved : Unresolved config envelope s)
    (parks : config.parkUnresolved = true) (oracle : Nat → World × V) :
    Prog.run (pipeline adapter) (load config envelope).run oracle s =
      (parkOutcome envelope
        ((s.1.ledger.transition (oracle 2).1.now (parkRequest envelope)).1.mapError Exc.ofLedgerFault),
        ({ registry := s.1.registry.insert envelope.docId (metadata config envelope),
           ledger := (s.1.ledger.transition (oracle 2).1.now (parkRequest envelope)).2 }, s.2)) := by
  have parked : (park config envelope (unresolvedResolution envelope.source)).run =
      .op (.registryRecord envelope.docId (metadata config envelope)) fun _ => (parkWrite envelope).run := by
    simp only [park, parks, if_true]
    rfl
  rw [load_of_unresolved config envelope adapter unresolved, parked, parkWrite_run]
  rfl

def redeliver : List (Nat → World × V) → System × X → List (Except Exc (Scenario × VerticalResolution)) × (System × X)
  | [], s => ([], s)
  | oracle :: rest, s =>
      let (result, next) := Prog.run (pipeline adapter) (load config envelope).run oracle s
      let (results, last) := redeliver rest next
      (result :: results, last)

structure LeftAlone (docId : String) (before after : System) : Prop where
  row : after.ledger.get docId = before.ledger.get docId
  entry : after.registry.get? docId = before.registry.get? docId
  items : ∀ limit, ReviewQueue.listPending after limit = ReviewQueue.listPending before limit

theorem redeliver_of_not_parking {s : System × X} (unresolved : Unresolved config envelope s)
    (off : config.parkUnresolved = false) (oracles : List (Nat → World × V)) :
    (∀ result ∈ (redeliver config envelope adapter oracles s).1, result = .error (unresolvedError envelope)) ∧
      (redeliver config envelope adapter oracles s).2 = s := by
  induction oracles with
  | nil => simp [redeliver]
  | cons oracle rest ih =>
    simp only [redeliver, load_of_not_parking config envelope adapter unresolved off oracle]
    simpa using ih

-- The ledger takes the parking of a parked document for a retry.
theorem load_of_parked {s : System × X} (unresolved : Unresolved config envelope s)
    (parks : config.parkUnresolved = true) {row : LedgerRow} (present : s.1.ledger.get envelope.docId = some row)
    (parked : row.status = .needsReview) (oracle : Nat → World × V) :
    ∃ again, (Prog.run (pipeline adapter) (load config envelope).run oracle s).2.1.ledger.get envelope.docId =
        some again ∧ again.status = .needsReview ∧ again.attempts = row.attempts + 1 ∧
      Unresolved config envelope (Prog.run (pipeline adapter) (load config envelope).run oracle s).2 := by
  have edge : Edge row.status .needsReview := by
    rw [parked]
    decide
  obtain ⟨correct, written⟩ := s.1.ledger.transition_of_edge (oracle 2).1.now (parkRequest envelope) present rfl edge
    (by simp [parkRequest])
  have stored : (s.1.ledger.put (parkRequest envelope).docId _ correct).get envelope.docId =
      some (nextRow (oracle 2).1.now row (parkRequest envelope)) :=
    (s.1.ledger.get_put _ envelope.docId _ correct).trans (if_pos rfl)
  rw [load_of_parking config envelope adapter unresolved parks, written]
  refine ⟨_, stored, rfl, ?_, ?_, unresolved.2⟩
  next => simp [nextRow, nextAttempts, parkRequest, parked]
  next =>
    have unassigned := unresolved.1
    rw [present] at unassigned
    exact (congrArg (fun found => found.bind (·.assignedScenarioId)) stored).trans unassigned

theorem redeliver_attempts {s : System × X} (unresolved : Unresolved config envelope s)
    (parks : config.parkUnresolved = true) {row : LedgerRow} (present : s.1.ledger.get envelope.docId = some row)
    (parked : row.status = .needsReview) (oracles : List (Nat → World × V)) :
    ∃ last, (redeliver config envelope adapter oracles s).2.1.ledger.get envelope.docId = some last ∧
      last.attempts = row.attempts + oracles.length := by
  induction oracles generalizing s row with
  | nil => exact ⟨row, present, by simp⟩
  | cons oracle rest ih =>
    obtain ⟨again, held, still, counted, unassigned⟩ :=
      load_of_parked config envelope adapter unresolved parks present parked oracle
    obtain ⟨last, found, total⟩ := ih unassigned held still
    refine ⟨last, found, ?_⟩
    rw [total, counted, List.length_cons]
    omega

theorem parking_idempotent_iff (s : System × X) (unresolved : LeavesUnresolved config envelope adapter s)
    (parked : HasStatus envelope.docId .needsReview s) (oracles : List (Nat → World × V)) :
    ((∀ result ∈ (redeliver config envelope adapter oracles s).1, result = .error (unresolvedError envelope)) ∧
      LeftAlone envelope.docId s.1 (redeliver config envelope adapter oracles s).2.1) ↔
      config.parkUnresolved = false ∨ oracles = [] := by
  have unassigned := unresolved_of_leavesUnresolved config envelope adapter unresolved
  obtain ⟨row, present, status⟩ := parked.exists
  constructor
  next =>
    rintro ⟨_, alone⟩
    cases parks : config.parkUnresolved with
    | false => exact .inl rfl
    | true =>
      obtain ⟨last, found, counted⟩ := redeliver_attempts config envelope adapter unassigned parks present status oracles
      obtain rfl : last = row := Option.some.inj (found.symm.trans (alone.row.trans present))
      right
      rw [← List.length_eq_zero_iff]
      omega
  next =>
    rintro (off | none)
    next =>
      obtain ⟨raised, same⟩ := redeliver_of_not_parking config envelope adapter unassigned off oracles
      rw [same]
      exact ⟨raised, rfl, rfl, fun _ => rfl⟩
    next =>
      subst none
      exact ⟨by simp [redeliver], rfl, rfl, fun _ => rfl⟩

theorem redelivery_without_parking :
    LeavesUnresolved { parkUnresolved := false } unresolvedEnvelope idleIndex parkedSystem ∧
      HasStatus digestAbc .needsReview parkedSystem ∧
      LeftAlone digestAbc parkedSystem.1
        (redeliver { parkUnresolved := false } unresolvedEnvelope idleIndex
          [fun _ => ({ now := 8 }, ()), fun _ => ({ now := 9 }, ())] parkedSystem).2.1 := by
  have unresolved : LeavesUnresolved { parkUnresolved := false } unresolvedEnvelope idleIndex parkedSystem :=
    ⟨fun _ => ({}, ()), _, rfl, rfl⟩
  have parked : HasStatus digestAbc .needsReview parkedSystem := by decide
  exact ⟨unresolved, parked, ((parking_idempotent_iff _ _ idleIndex parkedSystem unresolved parked _).mpr (.inl rfl)).2⟩

theorem listPending_of_one {s : System} {row : LedgerRow}
    (only : s.ledger.rows.values.filter (·.status = .needsReview) = [row]) :
    ReviewQueue.listPending s = [ReviewQueue.reviewItem s.registry row] := by
  simp [ReviewQueue.listPending, InMemoryLedgerStore.listByStatus, only]

-- The second delivery counts as an attempt and dates the item anew.
theorem parking_again_counts :
    LeavesUnresolved {} unresolvedEnvelope idleIndex parkedSystem ∧ HasStatus digestAbc .needsReview parkedSystem ∧
      (parkedSystem.1.ledger.get digestAbc).map (fun row => (row.attempts, row.updatedAt)) = some (1, 1) ∧
      ((redeliver {} unresolvedEnvelope idleIndex [fun _ => ({ now := 9 }, ())] parkedSystem).2.1.ledger.get
        digestAbc).map (fun row => (row.attempts, row.updatedAt)) = some (2, 9) ∧
      (ReviewQueue.listPending parkedSystem.1).map (·.parkedAt) = [1] ∧
      (ReviewQueue.listPending
        (redeliver {} unresolvedEnvelope idleIndex [fun _ => ({ now := 9 }, ())] parkedSystem).2.1).map (·.parkedAt) =
        [9] := by
  refine ⟨⟨fun _ => ({}, ()), _, rfl, rfl⟩, by decide, by decide, by decide, ?_, ?_⟩
  next =>
    rw [listPending_of_one rfl]
    rfl
  next =>
    rw [listPending_of_one rfl]
    rfl

end VerticalLoader

end Vestibule
