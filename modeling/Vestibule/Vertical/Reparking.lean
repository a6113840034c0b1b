import Vestibule.Vertical.Assignments

set_option autoImplicit false

namespace Vestibule

open Library

-- A loader reads the row, records what it found and parks the document: three operations. A reviewer may
-- assign the document between any two of them.

namespace VerticalLoader

variable (config : VerticalLoaderConfig) (envelope : ArrivalEnvelope)

structure HumanOnly : Prop where
  noScenario : envelope.scenarioId = none
  noVertical : envelope.vertical = none
  noRule : selectSourceRule envelope.source config.sourceMappings = none

def parkRequest : TransitionRequest :=
  { docId := envelope.docId, toStatus := .needsReview, stage := .needsReview, errorCode := some verticalUnresolved,
    errorMessage := some (unresolvedResolution envelope.source).reason }

def parkWrite : Py (Scenario × VerticalResolution) := do
  Py.transitionTriaged (parkRequest envelope)
  throw (.ragged .vertical envelope.docId (unresolvedResolution envelope.source).reason verticalUnresolved)

def parkOutcome (answer : Except Exc LedgerRow) : Except Exc (Scenario × VerticalResolution) :=
  match Py.triaged (parkRequest envelope) answer with
  | .ok _ => .error (.ragged .vertical envelope.docId (unresolvedResolution envelope.source).reason verticalUnresolved)
  | .error exc => .error exc

theorem parkWrite_run : (parkWrite envelope).run =
    .op (.ledgerTransition (parkRequest envelope)) fun answer => .ret (parkOutcome envelope answer) := by
  change Prog.bind (Py.transitionTriaged (parkRequest envelope)).run _ = _
  rw [Py.transitionTriaged_run]
  refine congrArg (Prog.op _) (funext fun answer => ?_)
  simp only [parkOutcome, Prog.bind]
  cases Py.triaged (parkRequest envelope) answer <;> rfl

inductive LoadProgress : Prog Effects (Except Exc (Scenario × VerticalResolution)) → Prop where
  | reading : LoadProgress (load config envelope).run
  | recording (metadata : ParkedMetadata) :
      LoadProgress (.op (.registryRecord envelope.docId metadata) fun _ => (parkWrite envelope).run)
  | writing : LoadProgress (parkWrite envelope).run
  | settled {p : Prog Effects (Except Exc (Scenario × VerticalResolution))} (idle : p.Uses NoWrite) : LoadProgress p

theorem scenarioGet_noWrite (scenarioId : String) : (Py.scenarioGet scenarioId).run.Uses NoWrite :=
  Prog.uses_perform (noWrite_of_ne (by simp))

theorem loadAssigned_noWrite (assigned : String) :
    (resolveFrom config envelope (some assigned) >>= fetch config envelope).run.Uses NoWrite := by
  simp only [resolveFrom, resolveReviewAssignment, resolveNamed, bind_assoc]
  refine Prog.uses_run_bind (scenarioGet_noWrite assigned) fun found => ?_
  cases found with
  | none => trivial
  | some scenario =>
    simp only [pure_bind, fetch]
    refine Prog.uses_run_bind (scenarioGet_noWrite _) fun again => ?_
    cases again <;> trivial

variable {config envelope}

theorem loadUnassigned (human : HumanOnly config envelope) :
    LoadProgress config envelope (resolveFrom config envelope none >>= fetch config envelope).run := by
  have unresolved : resolveFrom config envelope none = pure (unresolvedResolution envelope.source) := by
    simp [resolveFrom, matchSourceMapping, human.noScenario, human.noVertical, human.noRule]
  rw [unresolved, pure_bind]
  change LoadProgress config envelope (park config envelope (unresolvedResolution envelope.source)).run
  by_cases parks : config.parkUnresolved = true
  next =>
    simp only [park, parks, if_true]
    exact .recording _
  next =>
    simp only [park, parks]
    exact .settled trivial

/-- Still to read the row, or done with writing. -/
def Waits (config : VerticalLoaderConfig) (envelope : ArrivalEnvelope)
    (p : Prog Effects (Except Exc (Scenario × VerticalResolution))) : Prop :=
  p = (load config envelope).run ∨ p.Uses NoWrite

def Parks (o : Op) : Prop := IsLedgerWrite o ∨ ∃ docId metadata, o = .registryRecord docId metadata

theorem LoadProgress.waits {p : Prog Effects (Except Exc (Scenario × VerticalResolution))}
    (progress : LoadProgress config envelope p) (idle : ¬ p.AboutTo Parks) : Waits config envelope p := by
  cases progress with
  | reading => exact .inl rfl
  | recording metadata => exact (idle ⟨_, rfl, .inr ⟨_, metadata, rfl⟩⟩).elim
  | writing => exact (idle ⟨_, rfl, .inl ⟨_, rfl⟩⟩).elim
  | settled idle => exact .inr idle

end VerticalLoader

section Race

variable {V X κ : Type} (adapter : IndexerAdapter V X)

theorem ledger_of_noWrite {o : Op} (idle : NoWrite o) (w : World × V) (s : System × X) :
    (pipeline adapter w o s).2.1.ledger = s.1.ledger := by
  cases o with
  | ledgerTransition request => exact (idle ⟨request, rfl⟩).elim
  | _ => rfl

variable (docId scenarioId : String) (loads : κ → VerticalLoaderConfig × ArrivalEnvelope)

def reviewedLoads : Option κ → Call
  | none => .assign docId scenarioId
  | some k => .load (loads k).1 (loads k).2

abbrev Reviewed (X : Type) := Workers (reviewedLoads docId scenarioId loads) X

structure Decided (c : Reviewed docId scenarioId loads X) : Prop where
  review : (c.threads none).Uses (OnlyWrite (assignRequest docId scenarioId))
  waits : ∀ k, VerticalLoader.Waits (loads k).1 (loads k).2 (c.threads (some k))
  row : ∃ row, c.state.1.ledger.get docId = some row ∧ row.status = .pending ∧
    row.assignedScenarioId = some scenarioId

structure Undecided (c : Reviewed docId scenarioId loads X) : Prop where
  review : (c.threads none).Uses (OnlyWrite (assignRequest docId scenarioId))
  progress : ∀ k, VerticalLoader.LoadProgress (loads k).1 (loads k).2 (c.threads (some k))
  unassigned : (c.state.1.ledger.get docId).bind (·.assignedScenarioId) = none

variable {docId scenarioId loads} [DecidableEq κ]

theorem review_step {c : Reviewed docId scenarioId loads X}
    (review : (c.threads none).Uses (OnlyWrite (assignRequest docId scenarioId))) (w : World × V) :
    (Pool.step (pipeline adapter) none w c).state.1.ledger = c.state.1.ledger ∨
      (c.threads none).AboutTo IsLedgerWrite ∧
        ∃ row, (Pool.step (pipeline adapter) none w c).state.1.ledger.get docId = some row ∧
          row.status = .pending ∧ row.assignedScenarioId = some scenarioId := by
  cases due : (c.threads none).nextOp with
  | none => exact .inl (by rw [Pool.step_state_of_ended due])
  | some o =>
    rw [Pool.step_state due]
    have only := Prog.uses_nextOp review due
    by_cases writes : IsLedgerWrite o
    next =>
      obtain ⟨request, rfl⟩ := writes
      obtain rfl := only request rfl
      rcases assign_write adapter w c.state docId scenarioId with
        ⟨row, -, -, pending, carried, held, -⟩ | ⟨exc, rejected, -⟩
      next => exact .inr ⟨⟨_, due, _, rfl⟩, row, held, pending, carried⟩
      next => exact .inl (by rw [rejected])
    next => exact .inl (ledger_of_noWrite adapter writes w c.state)

theorem waits_advance {config : VerticalLoaderConfig} {envelope : ArrivalEnvelope} {s : System × X}
    {p : Prog Effects (Except Exc (Scenario × VerticalResolution))} (waits : VerticalLoader.Waits config envelope p)
    (assigned : Assigned envelope.docId scenarioId s) (w : World × V) :
    VerticalLoader.Waits config envelope (Prog.advance (pipeline adapter) w (p, s)).1 ∧
      (Prog.advance (pipeline adapter) w (p, s)).2.1.ledger = s.1.ledger := by
  rcases waits with rfl | idle
  next =>
    rw [VerticalLoader.load_run]
    refine ⟨.inr ?_, rfl⟩
    change (VerticalLoader.resolveFrom config envelope ((s.1.ledger.get envelope.docId).bind
      (·.assignedScenarioId)) >>= VerticalLoader.fetch config envelope).run.Uses NoWrite
    rw [assigned]
    exact VerticalLoader.loadAssigned_noWrite config envelope scenarioId
  next =>
    cases p with
    | ret value => exact ⟨.inr trivial, rfl⟩
    | op o next => exact ⟨.inr (idle.2 _), ledger_of_noWrite adapter idle.1 w s⟩

theorem progress_advance {config : VerticalLoaderConfig} {envelope : ArrivalEnvelope} {s : System × X}
    {p : Prog Effects (Except Exc (Scenario × VerticalResolution))}
    (human : VerticalLoader.HumanOnly config envelope) (progress : VerticalLoader.LoadProgress config envelope p)
    (unassigned : (s.1.ledger.get envelope.docId).bind (·.assignedScenarioId) = none) (w : World × V) :
    VerticalLoader.LoadProgress config envelope (Prog.advance (pipeline adapter) w (p, s)).1 ∧
      ((Prog.advance (pipeline adapter) w (p, s)).2.1.ledger.get envelope.docId).bind (·.assignedScenarioId) =
        none := by
  cases progress with
  | reading =>
    rw [VerticalLoader.load_run]
    refine ⟨?_, unassigned⟩
    change VerticalLoader.LoadProgress config envelope (VerticalLoader.resolveFrom config envelope
      ((s.1.ledger.get envelope.docId).bind (·.assignedScenarioId)) >>= VerticalLoader.fetch config envelope).run
    rw [unassigned]
    exact VerticalLoader.loadUnassigned human
  | recording metadata => exact ⟨.writing, unassigned⟩
  | writing =>
    rw [VerticalLoader.parkWrite_run]
    refine ⟨.settled trivial, ?_⟩
    have silent : (LedgerCall.transition w.1.now (VerticalLoader.parkRequest envelope)).NoAssignment envelope.docId :=
      fun _ => rfl
    exact (apply_assigned silent).trans unassigned
  | settled idle =>
    cases p with
    | ret value => exact ⟨.settled trivial, unassigned⟩
    | op o next =>
      refine ⟨.settled (idle.2 _), ?_⟩
      have same : (pipeline adapter w o s).2.1.ledger = s.1.ledger := ledger_of_noWrite adapter idle.1 w s
      simpa [Prog.advance, same] using unassigned

theorem decided_step {c : Reviewed docId scenarioId loads X} (own : ∀ k, (loads k).2.docId = docId)
    (decided : Decided docId scenarioId loads c) (i : Option κ) (w : World × V) :
    Decided docId scenarioId loads (Pool.step (pipeline adapter) i w c) := by
  obtain ⟨row, held, pending, carried⟩ := decided.row
  cases i with
  | none =>
    refine ⟨Pool.run_uses decided.review [(none, w)], fun k => ?_, ?_⟩
    next =>
      rw [Pool.step_threads_other _ (by simp)]
      exact decided.waits k
    next =>
      rcases review_step adapter decided.review w with same | ⟨-, written⟩
      next => exact ⟨row, by rw [same]; exact held, pending, carried⟩
      next => exact written
  | some k =>
    have assigned : Assigned (loads k).2.docId scenarioId c.state := by simp [Assigned, own, held, carried]
    obtain ⟨waits, same⟩ := waits_advance adapter (decided.waits k) assigned w
    refine ⟨Pool.run_uses decided.review [(some k, w)], fun j => ?_, row, ?_, pending, carried⟩
    next =>
      by_cases other : j = k
      next =>
        subst other
        rw [Pool.step_threads_self]
        exact waits
      next =>
        rw [Pool.step_threads_other _ (by simpa using other)]
        exact decided.waits j
    next =>
      exact (congrArg (fun ledger => ledger.get docId) same).trans held

/-- When the assignment is written, no loader stands between its read of the row and its own write. -/
def NoLoaderUnderWay (c : Reviewed docId scenarioId loads X) (i : Option κ) (_ : World × V) : Prop :=
  i = none → (c.threads none).AboutTo IsLedgerWrite → ∀ k, ¬ (c.threads (some k)).AboutTo VerticalLoader.Parks

theorem undecided_step {c : Reviewed docId scenarioId loads X} (own : ∀ k, (loads k).2.docId = docId)
    (human : ∀ k, VerticalLoader.HumanOnly (loads k).1 (loads k).2) (undecided : Undecided docId scenarioId loads c)
    {i : Option κ} {w : World × V} (alone : NoLoaderUnderWay c i w) :
    Undecided docId scenarioId loads (Pool.step (pipeline adapter) i w c) ∨
      Decided docId scenarioId loads (Pool.step (pipeline adapter) i w c) := by
  cases i with
  | none =>
    have others (k : κ) : (Pool.step (pipeline adapter) none w c).threads (some k) = c.threads (some k) :=
      Pool.step_threads_other _ (by simp) w c
    rcases review_step adapter undecided.review w with same | ⟨writes, written⟩
    next =>
      refine .inl ⟨Pool.run_uses undecided.review [(none, w)], fun k => ?_, ?_⟩
      next =>
        rw [others]
        exact undecided.progress k
      next =>
        rw [same]
        exact undecided.unassigned
    next =>
      refine .inr ⟨Pool.run_uses undecided.review [(none, w)], fun k => ?_, written⟩
      rw [others]
      exact (undecided.progress k).waits (alone rfl writes k)
  | some k =>
    have unassigned : (c.state.1.ledger.get (loads k).2.docId).bind (·.assignedScenarioId) = none := by
      rw [own]
      exact undecided.unassigned
    obtain ⟨progress, kept⟩ := progress_advance adapter (human k) (undecided.progress k) unassigned w
    refine .inl ⟨Pool.run_uses undecided.review [(some k, w)], fun j => ?_, ?_⟩
    next =>
      by_cases other : j = k
      next =>
        subst other
        rw [Pool.step_threads_self]
        exact progress
      next =>
        rw [Pool.step_threads_other _ (by simpa using other)]
        exact undecided.progress j
    next =>
      rw [own] at kept
      exact kept

variable (docId scenarioId loads)

theorem assigned_never_parked_again (s : System × X)
    (own : ∀ k, (loads k).2.docId = docId) (human : ∀ k, VerticalLoader.HumanOnly (loads k).1 (loads k).2)
    (unassigned : (s.1.ledger.get docId).bind (·.assignedScenarioId) = none)
    (first rest : List (Option κ × (World × V)))
    (alone : Pool.Conforms (pipeline adapter) NoLoaderUnderWay first
      (start (reviewedLoads docId scenarioId loads) s))
    (assigned : ∃ chosen, Assigned docId chosen
      (Pool.run (pipeline adapter) first (start (reviewedLoads docId scenarioId loads) s)).state) :
    ¬ HasStatus docId .needsReview
      (Pool.run (pipeline adapter) (first ++ rest) (start (reviewedLoads docId scenarioId loads) s)).state := by
  have initial : Undecided docId scenarioId loads (start (reviewedLoads docId scenarioId loads) s) :=
    ⟨assign_uses docId scenarioId, fun _ => .reading, unassigned⟩
  have preserved (c : Reviewed docId scenarioId loads X) (i : Option κ) (w : World × V)
      (either : Undecided docId scenarioId loads c ∨ Decided docId scenarioId loads c)
      (ok : NoLoaderUnderWay c i w) :
      Undecided docId scenarioId loads (Pool.step (pipeline adapter) i w c) ∨
        Decided docId scenarioId loads (Pool.step (pipeline adapter) i w c) := by
    rcases either with undecided | decided
    next => exact undecided_step adapter own human undecided ok
    next => exact .inr (decided_step adapter own decided i w)
  have reached := Pool.run_invariant preserved (.inl initial) alone
  have decided : Decided docId scenarioId loads
      (Pool.run (pipeline adapter) first (start (reviewedLoads docId scenarioId loads) s)) := by
    rcases reached with undecided | decided
    next =>
      obtain ⟨chosen, holds⟩ := assigned
      rw [Assigned, undecided.unassigned] at holds
      cases holds
    next => exact decided
  rw [Pool.run_append]
  have final : Decided docId scenarioId loads (Pool.run (pipeline adapter) rest
      (Pool.run (pipeline adapter) first (start (reviewedLoads docId scenarioId loads) s))) := by
    generalize Pool.run (pipeline adapter) first (start (reviewedLoads docId scenarioId loads) s) = c at decided
    induction rest generalizing c with
    | nil => exact decided
    | cons head tail ih => exact ih _ (decided_step adapter own decided head.1 head.2)
  obtain ⟨row, held, pending, -⟩ := final.row
  intro parked
  have same := hasStatus_unique (HasStatus.of_get held) parked
  rw [pending] at same
  cases same

end Race

def pendingSystem : System × Unit := ({ ledger := (InMemoryLedgerStore.empty.create 0 digestAbc ⟨"v1"⟩).2 }, ())

def twoLoads (_ : Bool) : VerticalLoaderConfig × ArrivalEnvelope := ({}, unresolvedEnvelope)

theorem unresolvedEnvelope_humanOnly : VerticalLoader.HumanOnly {} unresolvedEnvelope := ⟨rfl, rfl, rfl⟩

def turns (threads : List (Option Bool)) : List (Option Bool × (World × Unit)) := threads.map (·, foundScenario)

abbrev reviewRun (threads : List (Option Bool)) : Reviewed digestAbc "s1" twoLoads Unit :=
  Pool.run (pipeline idleIndex) (turns threads) (start (reviewedLoads digestAbc "s1" twoLoads) pendingSystem)

theorem assigned_stays_pending :
    Assigned digestAbc "s1" (reviewRun [some true, some true, some true, none, none, none]).state ∧
      ¬ HasStatus digestAbc .needsReview (reviewRun
        ([some true, some true, some true, none, none, none] ++ [some false, some false, some false])).state := by
  have assigned : Assigned digestAbc "s1" (reviewRun [some true, some true, some true, none, none, none]).state := rfl
  have alone : Pool.Conforms (pipeline idleIndex) NoLoaderUnderWay
      (turns [some true, some true, some true, none, none, none])
      (start (reviewedLoads digestAbc "s1" twoLoads) pendingSystem) := by
    refine ⟨?_, ?_, ?_, ?_, ?_, ?_, trivial⟩
    iterate 3 exact fun reviewer => by cases reviewer
    iterate 2
      rintro _ ⟨o, due, request, rfl⟩
      cases due
    rintro _ _ k ⟨o, due, parks⟩
    cases k with
    | true => cases due
    | false =>
      obtain rfl : Op.ledgerGet digestAbc = o := Option.some.inj due
      rcases parks with ⟨_, same⟩ | ⟨_, _, same⟩ <;> cases same
  exact ⟨assigned, assigned_never_parked_again idleIndex digestAbc "s1" twoLoads pendingSystem (fun _ => rfl)
    (fun _ => unresolvedEnvelope_humanOnly) rfl _ _ alone ⟨"s1", assigned⟩⟩

-- One loader has read the row before the reviewer assigns it, and parks it afterwards.
theorem straggler_parks_assigned_row :
    Assigned digestAbc "s1"
        (reviewRun [some false, some true, some true, some true, none, none, none]).state ∧
      HasStatus digestAbc .pending
        (reviewRun [some false, some true, some true, some true, none, none, none]).state ∧
      HasStatus digestAbc .needsReview (reviewRun
        ([some false, some true, some true, some true, none, none, none] ++ [some false, some false])).state := by
  exact ⟨rfl, by decide, by decide⟩

end Vestibule
