import Vestibule.Ledger.Triage
import Vestibule.Library.Rely
import Vestibule.Vertical.Races

set_option autoImplicit false

namespace Vestibule

open Library

-- `ReviewQueue.assign` writes the chosen scenario on the ledger row, and the loader reads it back before it
-- looks at the envelope.

def Assigned {X : Type} (docId scenarioId : String) (s : System × X) : Prop :=
  (s.1.ledger.get docId).bind (·.assignedScenarioId) = some scenarioId

namespace LedgerCall

-- Only `ReviewQueue.assign` passes an assignment to the ledger.
def NoAssignment (docId : String) : LedgerCall → Prop
  | create _ _ _ => True
  | transition _ request => request.docId = docId → request.assignedScenarioId = none

end LedgerCall

theorem apply_assigned {s : InMemoryLedgerStore} {docId : String} {call : LedgerCall}
    (unassigned : call.NoAssignment docId) :
    ((call.apply s).2.get docId).bind (·.assignedScenarioId) = (s.get docId).bind (·.assignedScenarioId) := by
  by_cases own : docId = call.docId
  next =>
    subst own
    cases call.outcome s with
    | rejected fault same => rw [same]
    | found now created summary row present same => rw [LedgerCall.apply, same]
    | created now created summary absent correct stored =>
      simp [LedgerCall.apply, LedgerCall.docId, stored, absent, freshRow]
    | moved now request current present edge correct stored =>
      have carried : nextAssignedScenarioId current request.assignedScenarioId = current.assignedScenarioId := by
        rw [unassigned rfl]
        rfl
      simp [LedgerCall.apply, LedgerCall.docId, stored, nextRow, present, carried]
  next => rw [apply_get_other own]

theorem runCallsFrom_assigned {s : InMemoryLedgerStore} {docId : String} {calls : List LedgerCall}
    (unassigned : ∀ call ∈ calls, call.NoAssignment docId) :
    ((runCallsFrom s calls).get docId).bind (·.assignedScenarioId) = (s.get docId).bind (·.assignedScenarioId) := by
  induction calls generalizing s with
  | nil => rfl
  | cons call rest ih =>
    have later := ih (s := (call.apply s).2) fun other member => unassigned other (by simp [member])
    exact later.trans (apply_assigned (unassigned call (by simp)))

namespace ReviewQueue

def acknowledge (docId scenarioId : String) (answer : Except Exc LedgerRow) : Prog Effects (Except Exc Unit) :=
  match Py.triaged (assignRequest docId scenarioId) answer with
  | .ok _ => .op (.registryDiscard docId) fun _ => .ret (.ok ())
  | .error exc => .ret (.error exc)

def writeChecked (docId scenarioId : String) (row : Option LedgerRow) : Prog Effects (Except Exc Unit) :=
  match checkNeedsReview docId "assign" row with
  | .ok _ => .op (.ledgerTransition (assignRequest docId scenarioId)) (acknowledge docId scenarioId)
  | .error exc => .ret (.error exc)

def checkFound (docId scenarioId : String) : Except Exc (Option Scenario) → Prog Effects (Except Exc Unit)
  | .ok (some _) => .op (.ledgerGet docId) (writeChecked docId scenarioId)
  | .ok none => .ret (.error (.ragged .scenario scenarioId
      ("assign() referenced scenario_id=" ++ reprStr scenarioId ++ ", which does not exist") scenarioNotFound))
  | .error exc => .ret (.error exc)

theorem acknowledge_eq (docId scenarioId : String) (answer : Except Exc LedgerRow) :
    ((ExceptT.mk (.ret (Py.triaged (assignRequest docId scenarioId) answer)) : Py Unit) >>= fun _ =>
      Py.registryDiscard docId).run = acknowledge docId scenarioId answer := by
  simp only [acknowledge]
  cases Py.triaged (assignRequest docId scenarioId) answer <;> rfl

theorem writeChecked_eq (docId scenarioId : String) (row : Option LedgerRow) :
    (do
      Py.ofExcept (checkNeedsReview docId "assign" row)
      Py.transitionTriaged (assignRequest docId scenarioId)
      Py.registryDiscard docId : Py Unit).run = writeChecked docId scenarioId row := by
  simp only [writeChecked]
  cases checkNeedsReview docId "assign" row with
  | error exc => rfl
  | ok value =>
    change Prog.bind (Py.transitionTriaged (assignRequest docId scenarioId)).run _ = _
    rw [Py.transitionTriaged_run]
    exact congrArg (Prog.op _) (funext fun answer => acknowledge_eq docId scenarioId answer)

theorem assign_run (docId scenarioId : String) :
    (assign docId scenarioId).run = .op (.scenarioGet scenarioId) (checkFound docId scenarioId) := by
  refine congrArg (Prog.op _) (funext fun found => ?_)
  cases found with
  | error exc => rfl
  | ok scenario =>
    cases scenario with
    | none => rfl
    | some held => exact congrArg (Prog.op _) (funext fun row => writeChecked_eq docId scenarioId row)

end ReviewQueue

/-- A stage has taken the row on from pending. -/
def BeyondPending {X : Type} (docId : String) (s : System × X) : Prop :=
  ∃ row, s.1.ledger.get docId = some row ∧ row.status ∈ forwardOrder ∧ row.status ≠ .pending

theorem edge_pending {status : Status} (edge : Edge status .pending) : ¬ (status ∈ forwardOrder ∧ status ≠ .pending) := by
  revert edge
  cases status <;> decide

theorem assign_write {V X : Type} (adapter : IndexerAdapter V X) (w : World × V) (s : System × X)
    (docId scenarioId : String) :
    (∃ row, (pipeline adapter w (.ledgerTransition (assignRequest docId scenarioId)) s).1 = .ok row ∧
      row.docId = docId ∧ row.status = .pending ∧ row.assignedScenarioId = some scenarioId ∧
      (pipeline adapter w (.ledgerTransition (assignRequest docId scenarioId)) s).2.1.ledger.get docId = some row ∧
      ¬ BeyondPending docId s) ∨
    (∃ exc, pipeline adapter w (.ledgerTransition (assignRequest docId scenarioId)) s = (.error exc, s) ∧
      (Py.triaged (assignRequest docId scenarioId) (.error exc) = .ok () → BeyondPending docId s)) := by
  rcases transition_answer s.1.ledger w.1.now (assignRequest docId scenarioId) rfl (by simp [assignRequest]) with
    ⟨row, correct, present, edge, accepted⟩ | ⟨fault, rejected, observed, -, -, noEdge⟩ | ⟨fault, rejected, absent⟩
  next =>
    refine .inl ⟨nextRow w.1.now row (assignRequest docId scenarioId), ?_, rfl, rfl, rfl, ?_, ?_⟩
    next =>
      simp only [pipeline, accepted]
      rfl
    next =>
      simp only [pipeline, accepted]
      exact (s.1.ledger.get_put _ docId _ correct).trans (if_pos rfl)
    next =>
      rintro ⟨held, found, beyond⟩
      obtain rfl : row = held := Option.some.inj (present.symm.trans found)
      exact edge_pending edge beyond
  next =>
    refine .inr ⟨.ledgerTransitionInvalid fault, ?_, fun swallowed => ?_⟩
    next => simp only [pipeline, rejected, Except.mapError, Exc.ofLedgerFault]
    next =>
      have benign : isBenignConcurrentLoss (s.1.ledger.get docId) .pending .pending = true := by
        by_contra refused
        simp [Py.triaged, observed, assignRequest, refused] at swallowed
      obtain ⟨-, row, present, overtakes⟩ := overtakes_of_benign benign
      obtain ⟨onPath, -⟩ := (overtakes_forward (by decide)).mp overtakes
      refine ⟨row, present, onPath, fun pending => ?_⟩
      have edge : Edge row.status .pending := by
        rw [pending]
        decide
      exact noEdge row present edge
  next =>
    refine .inr ⟨.identity fault, ?_, fun swallowed => ?_⟩
    next => simp only [pipeline, rejected, Except.mapError, Exc.ofLedgerFault]
    next => simp [Py.triaged] at swallowed

namespace VerticalLoader

variable (config : VerticalLoaderConfig) (envelope : ArrivalEnvelope)

def resolveFrom : Option String → Py VerticalResolution
  | some assigned => resolveReviewAssignment assigned
  | none => do
      if let some scenarioId := envelope.scenarioId then
        return ← resolveScenarioId scenarioId
      if let some vertical := envelope.vertical then
        return ← resolveVertical vertical
      if let some matched ← matchSourceMapping config envelope.source then
        return matched
      return unresolvedResolution envelope.source

def fetch (resolution : VerticalResolution) : Py (Scenario × VerticalResolution) :=
  match resolution.scenarioId with
  | none => park config envelope resolution
  | some scenarioId => do
      match ← Py.scenarioGet scenarioId with
      | none =>
          throw (.ragged .scenario scenarioId
            "scenario no longer exists (concurrent delete between resolve() and load())" scenarioNotFound)
      | some scenario => return (scenario, resolution)

theorem load_run :
    (load config envelope).run = .op (.ledgerGet envelope.docId) fun row =>
      (resolveFrom config envelope (row.bind (·.assignedScenarioId)) >>= fetch config envelope).run := by
  refine congrArg (Prog.op _) (funext fun row => ?_)
  change ((do
    if let some assigned := row.bind (·.assignedScenarioId) then
      return ← resolveReviewAssignment assigned
    resolveFrom config envelope none : Py VerticalResolution) >>= fetch config envelope).run = _
  cases row.bind (·.assignedScenarioId) <;> rfl

end VerticalLoader

/-- A scenario store between two edits: each scenario under its own id. -/
structure ScenarioShelf where
  get : String → Option Scenario
  keyed : ∀ scenarioId scenario, get scenarioId = some scenario → scenario.scenarioId = scenarioId

section RoundTrip

variable {V X : Type} (adapter : IndexerAdapter V X)

def ServedFrom (shelf : ScenarioShelf) (visits : List (Prog.Visit Effects (World × V) (System × X))) : Prop :=
  ∀ visit ∈ visits, ∀ scenarioId, visit.op = .scenarioGet scenarioId →
    visit.world.1.scenario = .ok (shelf.get scenarioId)

theorem wp_assign (docId scenarioId : String) (s : System × X) :
    Prog.wp (pipeline adapter) (fun _ => True) (ReviewQueue.assign docId scenarioId).run
      (fun result s' => result = .ok () → Assigned docId scenarioId s') s := by
  rw [ReviewQueue.assign_run]
  intro w
  refine ⟨trivial, ?_⟩
  simp only [pipeline]
  cases w.1.scenario with
  | error exc => simp [ReviewQueue.checkFound, Prog.wp]
  | ok found =>
    cases found with
    | none => simp [ReviewQueue.checkFound, Prog.wp]
    | some scenario =>
      intro _
      refine ⟨trivial, ?_⟩
      simp only [pipeline, ReviewQueue.writeChecked]
      split
      next value passed =>
        intro w
        refine ⟨trivial, ?_⟩
        obtain ⟨row, present, parked⟩ := Option.map_eq_some_iff.mp (checkNeedsReview_ok docId passed)
        rcases assign_write adapter w s docId scenarioId with
          ⟨stored, accepted, -, -, carried, held, -⟩ | ⟨exc, rejected, swallowed⟩
        next =>
          rw [accepted]
          intro _
          exact ⟨trivial, fun _ => Option.bind_eq_some_iff.mpr ⟨stored, held, carried⟩⟩
        next =>
          rw [rejected]
          simp only [ReviewQueue.acknowledge]
          split
          next value silent =>
            -- The row was parked a moment ago, so nobody can have taken it on.
            obtain ⟨held, found, onPath, -⟩ := swallowed silent
            obtain rfl : row = held := Option.some.inj (present.symm.trans found)
            rw [parked] at onPath
            exact absurd onPath (by decide)
          next => simp [Prog.wp]
      next => simp [Prog.wp]

def reviewResolution (scenario : Scenario) : VerticalResolution where
  vertical := some scenario.vertical
  scenarioId := some scenario.scenarioId
  source := .reviewAssignment
  confidence := .explicit
  reason := "human-assigned scenario_id=" ++ reprStr scenario.scenarioId ++ " via ReviewQueue.assign()"

variable {adapter} {shelf : ScenarioShelf}

theorem servedFrom_cons {visit : Prog.Visit Effects (World × V) (System × X)}
    {visits : List (Prog.Visit Effects (World × V) (System × X))} (served : ServedFrom shelf (visit :: visits)) :
    ServedFrom shelf visits :=
  fun other member => served other (List.mem_cons_of_mem _ member)

theorem served_scenarioGet {α : Type} {scenarioId : String} {f : Option Scenario → Py α} {oracle : Nat → World × V}
    {s : System × X}
    (served : ServedFrom shelf (Prog.visits (pipeline adapter) (Py.scenarioGet scenarioId >>= f).run oracle s)) :
    Prog.run (pipeline adapter) (Py.scenarioGet scenarioId >>= f).run oracle s =
        Prog.run (pipeline adapter) (f (shelf.get scenarioId)).run (fun i => oracle (i + 1)) s ∧
      Prog.visits (pipeline adapter) (Py.scenarioGet scenarioId >>= f).run oracle s =
        ⟨oracle 0, .scenarioGet scenarioId, s⟩ ::
          Prog.visits (pipeline adapter) (f (shelf.get scenarioId)).run (fun i => oracle (i + 1)) s := by
  have answered : (oracle 0).1.scenario = .ok (shelf.get scenarioId) :=
    served ⟨oracle 0, .scenarioGet scenarioId, s⟩ List.mem_cons_self scenarioId rfl
  change Prog.run (pipeline adapter) (ExceptT.bindCont f (oracle 0).1.scenario) (fun i => oracle (i + 1)) s = _ ∧
    ⟨oracle 0, .scenarioGet scenarioId, s⟩ ::
      Prog.visits (pipeline adapter) (ExceptT.bindCont f (oracle 0).1.scenario) (fun i => oracle (i + 1)) s = _
  rw [answered]
  exact ⟨rfl, rfl⟩

def LoadsAssigned (adapter : IndexerAdapter V X) (config : VerticalLoaderConfig) (envelope : ArrivalEnvelope)
    (scenario : Scenario) (oracle : Nat → World × V) (s : System × X) : Prop :=
  Prog.run (pipeline adapter) (VerticalLoader.load config envelope).run oracle s =
      (.ok (scenario, reviewResolution scenario), s) ∧
    ∀ visit ∈ Prog.visits (pipeline adapter) (VerticalLoader.load config envelope).run oracle s,
      visit.op = .ledgerGet envelope.docId ∨ visit.op = .scenarioGet scenario.scenarioId

theorem load_assigned (config : VerticalLoaderConfig) (envelope : ArrivalEnvelope)
    {scenarioId : String} {scenario : Scenario} (found : shelf.get scenarioId = some scenario)
    {s : System × X} (assigned : Assigned envelope.docId scenarioId s) (oracle : Nat → World × V)
    (served : ServedFrom shelf (Prog.visits (pipeline adapter) (VerticalLoader.load config envelope).run oracle s)) :
    LoadsAssigned adapter config envelope scenario oracle s := by
  obtain rfl := shelf.keyed _ _ found
  have read : Prog.run (pipeline adapter) (VerticalLoader.load config envelope).run oracle s =
        Prog.run (pipeline adapter) (VerticalLoader.resolveFrom config envelope (some scenario.scenarioId) >>=
          VerticalLoader.fetch config envelope).run (fun i => oracle (i + 1)) s ∧
      Prog.visits (pipeline adapter) (VerticalLoader.load config envelope).run oracle s =
        ⟨oracle 0, .ledgerGet envelope.docId, s⟩ ::
          Prog.visits (pipeline adapter) (VerticalLoader.resolveFrom config envelope (some scenario.scenarioId) >>=
            VerticalLoader.fetch config envelope).run (fun i => oracle (i + 1)) s := by
    rw [VerticalLoader.load_run, ← assigned]
    exact ⟨rfl, rfl⟩
  rw [LoadsAssigned, read.1, read.2]
  rw [read.2] at served
  replace served := servedFrom_cons served
  simp only [VerticalLoader.resolveFrom, VerticalLoader.resolveReviewAssignment, VerticalLoader.resolveNamed,
    bind_assoc] at served ⊢
  obtain ⟨resolved, looked⟩ := served_scenarioGet served
  rw [looked] at served
  rw [resolved, looked]
  replace served := servedFrom_cons served
  simp only [found, pure_bind, VerticalLoader.fetch] at served ⊢
  obtain ⟨fetched, looked⟩ := served_scenarioGet served
  rw [fetched, looked, found]
  refine ⟨rfl, fun visit member => ?_⟩
  rcases List.mem_cons.mp member with rfl | member
  next => exact .inl rfl
  next =>
    rcases List.mem_cons.mp member with rfl | member
    next => exact .inr rfl
    next =>
      obtain rfl := List.mem_singleton.mp member
      exact .inr rfl

theorem assignment_round_trip (shelf : ScenarioShelf) (docId scenarioId : String) (s : System × X)
    (oracle : Nat → World × V)
    (returned : (Prog.run (pipeline adapter) (ReviewQueue.assign docId scenarioId).run oracle s).1 = .ok ())
    (calls : List LedgerCall) (unassigned : ∀ call ∈ calls, call.NoAssignment docId) (t : System × X)
    (later : t.1.ledger = runCallsFrom
      (Prog.run (pipeline adapter) (ReviewQueue.assign docId scenarioId).run oracle s).2.1.ledger calls)
    (scenario : Scenario) (found : shelf.get scenarioId = some scenario) (config : VerticalLoaderConfig)
    (envelope : ArrivalEnvelope) (same : envelope.docId = docId) (loading : Nat → World × V)
    (served : ServedFrom shelf
      (Prog.visits (pipeline adapter) (VerticalLoader.load config envelope).run loading t)) :
    LoadsAssigned adapter config envelope scenario loading t := by
  subst same
  have recorded := Prog.run_of_wp (wp_assign adapter envelope.docId scenarioId s) oracle returned
  have kept : Assigned envelope.docId scenarioId t := by
    rw [Assigned, later, runCallsFrom_assigned unassigned]
    exact recorded
  exact load_assigned config envelope found kept loading served

def oneScenario : ScenarioShelf where
  get scenarioId := if scenarioId = "s1" then some ⟨"s1", "hr"⟩ else none
  keyed scenarioId scenario found := by
    split at found
    next same =>
      obtain rfl := Option.some.inj found
      exact same.symm
    next => cases found

-- The envelope names another scenario, and a stage has failed the document meanwhile.
def laterCalls : List LedgerCall :=
  [.transition 2 { docId := digestAbc, toStatus := .failed, stage := .failed, errorCode := some chunkerEmptyElements },
   .transition 3 { docId := digestAbc, toStatus := .pending, stage := .pending }]

def misdirectedEnvelope : ArrivalEnvelope := { unresolvedEnvelope with scenarioId := some "s2" }

def afterAssign : System × Unit :=
  (Prog.run (pipeline idleIndex) (ReviewQueue.assign digestAbc "s1").run (fun _ => foundScenario) parkedSystem).2

def muchLater : System × Unit := ({ ledger := runCallsFrom afterAssign.1.ledger laterCalls }, ())

theorem assignment_round_trip_kept :
    LoadsAssigned idleIndex {} misdirectedEnvelope ⟨"s1", "hr"⟩ (fun _ => foundScenario) muchLater := by
  have unassigned (call : LedgerCall) (member : call ∈ laterCalls) : call.NoAssignment digestAbc := by
    simp only [laterCalls, List.mem_cons, List.not_mem_nil, or_false] at member
    rcases member with rfl | rfl <;> exact fun _ => rfl
  have visited : Prog.visits (pipeline idleIndex) (VerticalLoader.load {} misdirectedEnvelope).run
      (fun _ => foundScenario) muchLater =
        [⟨foundScenario, .ledgerGet digestAbc, muchLater⟩, ⟨foundScenario, .scenarioGet "s1", muchLater⟩,
          ⟨foundScenario, .scenarioGet "s1", muchLater⟩] := rfl
  refine assignment_round_trip oneScenario digestAbc "s1" parkedSystem (fun _ => foundScenario) rfl laterCalls unassigned
    muchLater rfl ⟨"s1", "hr"⟩ rfl {} misdirectedEnvelope rfl (fun _ => foundScenario) ?_
  rw [visited]
  intro visit member scenarioId looked
  simp only [List.mem_cons, List.not_mem_nil, or_false, or_self] at member
  rcases member with rfl | rfl
  next => cases looked
  next =>
    obtain rfl : "s1" = scenarioId := by simpa using looked
    rfl

end RoundTrip

section Acknowledged

variable {V X ι : Type}

def storedRow : Deed Effects ι (System × X) → Option LedgerRow
  | ⟨_, .ledgerTransition _, .ok row, _, _⟩ => some row
  | _ => none

def Stores (docId scenarioId : String) (deed : Deed Effects ι (System × X)) : Prop :=
  ∃ row, storedRow deed = some row ∧ row.docId = docId ∧ row.assignedScenarioId = some scenarioId ∧
    deed.after.1.ledger.get docId = some row

variable (i : ι) (docId : String) (log : Chronicle Effects ι (System × X))

def Recorded (scenarioId : String) : Prop := ∃ deed ∈ log, deed.thread = i ∧ Stores docId scenarioId deed

/-- Whenever thread `i` wrote, no stage had taken the row on from pending. -/
def InTime : Prop := ∀ deed ∈ log, deed.thread = i → IsLedgerWrite deed.op → ¬ BeyondPending docId deed.before

variable [DecidableEq ι] {i docId log}

theorem recorded_own {scenarioId : String} :
    Recorded i docId (Chronicle.own i log) scenarioId ↔ Recorded i docId log scenarioId := by
  simp [Recorded, Chronicle.own, and_assoc]

theorem inTime_own : InTime i docId (Chronicle.own i log) ↔ InTime i docId log := by
  simp only [InTime, Chronicle.own, List.mem_filter, decide_eq_true_eq, and_imp]
  constructor
  next => exact fun inTime deed member mine => inTime deed member mine mine
  next => exact fun inTime deed member _ => inTime deed member

omit [DecidableEq ι] in
theorem recorded_cons {scenarioId : String} {deed : Deed Effects ι (System × X)} :
    Recorded i docId (deed :: log) scenarioId ↔
      deed.thread = i ∧ Stores docId scenarioId deed ∨ Recorded i docId log scenarioId := by
  simp [Recorded]

omit [DecidableEq ι] in
theorem inTime_cons {deed : Deed Effects ι (System × X)} :
    InTime i docId (deed :: log) ↔
      (deed.thread = i → IsLedgerWrite deed.op → ¬ BeyondPending docId deed.before) ∧ InTime i docId log := by
  simp [InTime]

omit [DecidableEq ι] in
theorem recorded_cons_idle {scenarioId : String} {deed : Deed Effects ι (System × X)} (idle : NoWrite deed.op) :
    Recorded i docId (deed :: log) scenarioId ↔ Recorded i docId log scenarioId := by
  have nothing : ¬ Stores docId scenarioId deed := by
    rintro ⟨row, stored, -⟩
    obtain ⟨thread, op, answer, before, after⟩ := deed
    cases op with
    | ledgerTransition request => exact idle ⟨request, rfl⟩
    | _ => cases stored
  simp [recorded_cons, nothing]

omit [DecidableEq ι] in
theorem inTime_cons_idle {deed : Deed Effects ι (System × X)} (idle : NoWrite deed.op) :
    InTime i docId (deed :: log) ↔ InTime i docId log := by
  simp [inTime_cons, idle]

omit [DecidableEq ι] in
theorem noWrite_of_ne {o : Op} (different : ∀ request, o ≠ .ledgerTransition request) : NoWrite o := by
  rintro ⟨request, same⟩
  exact different request same

variable (adapter : IndexerAdapter V X) (i)

omit [DecidableEq ι] in
theorem assign_accounted (docId scenarioId : String) :
    Chronicle.Accounted (pipeline adapter) i (ReviewQueue.assign docId scenarioId).run
      (fun result own => result = .ok () → (Recorded i docId own scenarioId ↔ InTime i docId own)) [] := by
  have discards : NoWrite (.registryDiscard docId) := noWrite_of_ne (by simp)
  have reads : NoWrite (.ledgerGet docId) := noWrite_of_ne (by simp)
  have looks : NoWrite (.scenarioGet scenarioId) := noWrite_of_ne (by simp)
  have nothing : InTime i docId ([] : Chronicle Effects ι (System × X)) ∧
      ¬ Recorded i docId ([] : Chronicle Effects ι (System × X)) scenarioId := by simp [InTime, Recorded]
  rw [ReviewQueue.assign_run]
  intro w s₁
  simp only [pipeline]
  cases w.1.scenario with
  | error exc => exact fun returned => by cases returned
  | ok found =>
    cases found with
    | none => exact fun returned => by cases returned
    | some scenario =>
      intro _ s₂
      simp only [ReviewQueue.writeChecked]
      split
      next =>
        intro w s₃
        rcases assign_write adapter w s₃ docId scenarioId with
          ⟨stored, accepted, own, -, carried, held, inTime⟩ | ⟨exc, rejected, swallowed⟩
        next =>
          rw [accepted]
          intro _ s₄ _
          rw [recorded_cons_idle discards, inTime_cons_idle discards]
          refine iff_of_true (recorded_cons.mpr (.inl ⟨rfl, stored, rfl, own, carried, held⟩)) ?_
          exact inTime_cons.mpr ⟨fun _ _ => inTime, (inTime_cons_idle reads).mpr ((inTime_cons_idle looks).mpr nothing.1)⟩
        next =>
          rw [rejected]
          simp only [ReviewQueue.acknowledge]
          split
          next value silent =>
            intro _ s₄ _
            rw [recorded_cons_idle discards, inTime_cons_idle discards]
            refine iff_of_false (fun recorded => ?_) fun inTime => ?_
            next =>
              rcases recorded_cons.mp recorded with ⟨-, row, none, -⟩ | earlier
              next => cases none
              next => exact nothing.2 ((recorded_cons_idle looks).mp ((recorded_cons_idle reads).mp earlier))
            next => exact (inTime_cons.mp inTime).1 rfl ⟨_, rfl⟩ (swallowed silent)
          next => exact fun returned => by cases returned
      next => exact fun returned => by cases returned

def loggedRun (calls : ι → Call) (schedule : List (ι × (World × V))) (s : System × X) :
    Pool Effects (fun i => Except Exc (calls i).Result) ((System × X) × Chronicle Effects ι (System × X)) :=
  Pool.runAs (Chronicle.recorded (pipeline adapter)) schedule ⟨fun i => (calls i).program, (s, [])⟩

def Returned {calls : ι → Call} {σ : Type} (c : Pool Effects (fun i => Except Exc (calls i).Result) σ) : Prop :=
  ∃ value, c.threads i = .ret (.ok value)

theorem assign_recorded_iff_in_time (calls : ι → Call) (schedule : List (ι × (World × V))) (s : System × X)
    (docId scenarioId : String) (assigns : calls i = .assign docId scenarioId)
    (returned : Returned i (loggedRun adapter calls schedule s)) :
    Recorded i docId (loggedRun adapter calls schedule s).state.2 scenarioId ↔
      InTime i docId (loggedRun adapter calls schedule s).state.2 := by
  have accounted (j : ι) : Chronicle.Accounted (pipeline adapter) j (calls j).program
      (fun result own => result.isOk → ∀ docId scenarioId, calls j = .assign docId scenarioId →
        (Recorded j docId own scenarioId ↔ InTime j docId own)) [] := by
    generalize calls j = call
    cases call with
    | assign target chosen =>
      refine Chronicle.accounted_mono (fun result own holds ok docId scenarioId same => ?_)
        (assign_accounted j adapter target chosen)
      cases same
      obtain ⟨value, returned⟩ := exists_of_isOk ok
      exact holds returned
    | _ => exact Chronicle.accounted_trivial _ _ (fun _ _ _ _ _ different => by cases different) _ _
  have told := Chronicle.accounted_run (c := ⟨fun i => (calls i).program, (s, [])⟩) accounted schedule i
  obtain ⟨value, ended⟩ := returned
  change (loggedRun adapter calls schedule s).threads i = .ret (.ok value) at ended
  change Chronicle.Accounted (pipeline adapter) i ((loggedRun adapter calls schedule s).threads i) _
    (Chronicle.own i (loggedRun adapter calls schedule s).state.2) at told
  rw [ended] at told
  rw [← recorded_own, ← inTime_own]
  exact told rfl docId scenarioId assigns

def reviewersAndStage : Fin 3 → Call
  | 0 => .assign digestAbc "s1"
  | 1 => .assign digestAbc "s2"
  | 2 => .stage Unit (Py.transitionTriaged { docId := digestAbc, toStatus := .analyzing, stage := .analyzing })

theorem assign_recorded_undisturbed :
    Returned 0 (loggedRun idleIndex reviewersAndStage (steps [0, 0, 0, 0]) parkedSystem) ∧
      (Recorded 0 digestAbc (loggedRun idleIndex reviewersAndStage (steps [0, 0, 0, 0]) parkedSystem).state.2 "s1" ↔
        InTime 0 digestAbc (loggedRun idleIndex reviewersAndStage (steps [0, 0, 0, 0]) parkedSystem).state.2) := by
  have returned : Returned 0 (loggedRun idleIndex reviewersAndStage (steps [0, 0, 0, 0]) parkedSystem) := ⟨(), rfl⟩
  exact ⟨returned, assign_recorded_iff_in_time 0 idleIndex reviewersAndStage _ parkedSystem digestAbc "s1" rfl returned⟩

-- Both reviewers find the row parked; the second assignment lands and a stage takes the row on. The
-- first write is refused, called benign, and the call returns.
theorem acknowledged_assignment_dropped :
    Returned 0 (loggedRun idleIndex reviewersAndStage (steps [0, 0, 1, 1, 1, 2, 0, 0]) parkedSystem) ∧
      ¬ Recorded 0 digestAbc
        (loggedRun idleIndex reviewersAndStage (steps [0, 0, 1, 1, 1, 2, 0, 0]) parkedSystem).state.2 "s1" ∧
      Assigned digestAbc "s2"
        (loggedRun idleIndex reviewersAndStage (steps [0, 0, 1, 1, 1, 2, 0, 0]) parkedSystem).state.1 := by
  refine ⟨⟨(), rfl⟩, ?_, rfl⟩
  rintro ⟨deed, member, mine, row, stored, -⟩
  have nothing : ∀ deed ∈ (loggedRun idleIndex reviewersAndStage (steps [0, 0, 1, 1, 1, 2, 0, 0])
      parkedSystem).state.2, deed.thread = 0 → storedRow deed = none := by decide
  rw [nothing deed member mine] at stored
  cases stored

end Acknowledged

end Vestibule
