import Mathlib.Data.List.Chain
import Mathlib.Data.List.Induction
import Vestibule.Ledger.Store

set_option autoImplicit false

namespace Vestibule

-- Any sequence of `create` and `transition` calls, each with the clock reading it takes.

inductive LedgerCall where
  | create (now : DateTime) (docId : String) (summary : EnvelopeSummary)
  | transition (now : DateTime) (request : TransitionRequest)

namespace LedgerCall

def docId : LedgerCall → String
  | create _ docId _ => docId
  | transition _ request => request.docId

def apply (s : InMemoryLedgerStore) : LedgerCall → Except LedgerFault LedgerRow × InMemoryLedgerStore
  | create now docId summary => s.create now docId summary
  | transition now request => s.transition now request

inductive Outcome (s : InMemoryLedgerStore) : LedgerCall → Prop where
  | rejected {call : LedgerCall} (fault : LedgerFault) (same : call.apply s = (.error fault, s)) :
      Outcome s call
  | found (now : DateTime) (docId : String) (summary : EnvelopeSummary) (row : LedgerRow)
      (present : s.get docId = some row) (same : s.create now docId summary = (.ok row, s)) :
      Outcome s (create now docId summary)
  | created (now : DateTime) (docId : String) (summary : EnvelopeSummary) (absent : s.get docId = none)
      (correct : RowWellFormed docId (freshRow now docId summary))
      (stored : s.create now docId summary = (.ok (freshRow now docId summary), s.put docId _ correct)) :
      Outcome s (create now docId summary)
  | moved (now : DateTime) (request : TransitionRequest) (current : LedgerRow)
      (present : s.get request.docId = some current) (edge : Edge current.status request.toStatus)
      (correct : RowWellFormed request.docId (nextRow now current request))
      (stored : s.transition now request =
        (.ok (nextRow now current request), s.put request.docId _ correct)) :
      Outcome s (transition now request)

theorem outcome (s : InMemoryLedgerStore) (call : LedgerCall) : Outcome s call := by
  cases call with
  | create now docId summary =>
    rcases s.create_cases now docId summary with ⟨fault, same⟩ | ⟨row, present, same⟩ |
      ⟨absent, correct, stored⟩
    · exact .rejected _ same
    · exact .found now docId summary row present same
    · exact .created now docId summary absent correct stored
  | transition now request =>
    rcases s.transition_cases now request with ⟨fault, same⟩ | ⟨current, present, -, edge, -, correct, stored⟩
    · exact .rejected fault same
    · exact .moved now request current present edge correct stored

end LedgerCall

structure LedgerEvent where
  before : InMemoryLedgerStore
  call : LedgerCall

namespace LedgerEvent

def result (event : LedgerEvent) : Except LedgerFault LedgerRow := (event.call.apply event.before).1

-- A `create` that finds its row returns it without writing.
def written (docId : String) (event : LedgerEvent) : Option LedgerRow :=
  if event.call.docId = docId then
    match event.call, event.result with
    | .create _ _ _, .ok row => if event.before.get docId = none then some row else none
    | .transition _ _, .ok row => some row
    | _, .error _ => none
  else none

def createdFrom (docId : String) (event : LedgerEvent) : Option (EnvelopeSummary × DateTime) :=
  match event.call, event.result with
  | .create now created summary, .ok _ => if created = docId then some (summary, now) else none
  | _, _ => none

end LedgerEvent

def eventsFrom (s : InMemoryLedgerStore) : List LedgerCall → List LedgerEvent
  | [] => []
  | call :: rest => ⟨s, call⟩ :: eventsFrom (call.apply s).2 rest

def runCallsFrom (s : InMemoryLedgerStore) (calls : List LedgerCall) : InMemoryLedgerStore :=
  calls.foldl (fun s call => (call.apply s).2) s

def runCalls (calls : List LedgerCall) : InMemoryLedgerStore := runCallsFrom .empty calls

def events (calls : List LedgerCall) : List LedgerEvent := eventsFrom .empty calls

/-- The rows stored for a document, from the first to the current one. -/
def trail (docId : String) (calls : List LedgerCall) : List LedgerRow :=
  (events calls).filterMap (LedgerEvent.written docId)

/-- What the first successful `create` for a document was given, and when it ran. -/
def firstCreate (docId : String) (calls : List LedgerCall) : Option (EnvelopeSummary × DateTime) :=
  (events calls).findSome? (LedgerEvent.createdFrom docId)

theorem eventsFrom_append (s : InMemoryLedgerStore) (calls more : List LedgerCall) :
    eventsFrom s (calls ++ more) = eventsFrom s calls ++ eventsFrom (runCallsFrom s calls) more := by
  induction calls generalizing s with
  | nil => rfl
  | cons call rest ih => simp [eventsFrom, runCallsFrom, ih]

theorem runCalls_append_singleton (calls : List LedgerCall) (call : LedgerCall) :
    runCalls (calls ++ [call]) = (call.apply (runCalls calls)).2 := by
  simp [runCalls, runCallsFrom]

theorem events_append_singleton (calls : List LedgerCall) (call : LedgerCall) :
    events (calls ++ [call]) = events calls ++ [⟨runCalls calls, call⟩] := by
  simp [events, eventsFrom_append, eventsFrom, runCalls]

theorem trail_append_singleton (docId : String) (calls : List LedgerCall) (call : LedgerCall) :
    trail docId (calls ++ [call]) =
      trail docId calls ++ (LedgerEvent.written docId ⟨runCalls calls, call⟩).toList := by
  rw [trail, events_append_singleton, List.filterMap_append, trail]
  cases written : LedgerEvent.written docId ⟨runCalls calls, call⟩ <;> simp [written]

theorem firstCreate_append_singleton (docId : String) (calls : List LedgerCall) (call : LedgerCall) :
    firstCreate docId (calls ++ [call]) =
      (firstCreate docId calls).or (LedgerEvent.createdFrom docId ⟨runCalls calls, call⟩) := by
  simp only [firstCreate, events_append_singleton, List.findSome?_append]
  cases created : LedgerEvent.createdFrom docId ⟨runCalls calls, call⟩ <;> simp [created]

section Step

variable {s : InMemoryLedgerStore} {call : LedgerCall} {docId : String}

theorem apply_get_other (other : docId ≠ call.docId) : (call.apply s).2.get docId = s.get docId := by
  cases call.outcome s with
  | rejected fault same => rw [same]
  | found now created summary row present same => simp [LedgerCall.apply, same]
  | created now created summary absent correct stored =>
    rw [LedgerCall.apply, stored, InMemoryLedgerStore.get_put]
    exact if_neg other
  | moved now request current present edge correct stored =>
    rw [LedgerCall.apply, stored, InMemoryLedgerStore.get_put]
    exact if_neg other

theorem apply_error {fault : LedgerFault} (rejected : (call.apply s).1 = .error fault) :
    (call.apply s).2 = s := by
  cases call.outcome s with
  | rejected fault same => rw [same]
  | found now created summary row present same => simp [LedgerCall.apply, same]
  | created now created summary absent correct stored => simp [LedgerCall.apply, stored] at rejected
  | moved now request current present edge correct stored => simp [LedgerCall.apply, stored] at rejected

theorem apply_get_isSome {row : LedgerRow} (present : s.get docId = some row) :
    ((call.apply s).2.get docId).isSome := by
  by_cases own : docId = call.docId
  · subst own
    cases call.outcome s with
    | rejected fault same => simp [same, present]
    | found now created summary held presentHeld same => simp [LedgerCall.apply, LedgerCall.docId, same, presentHeld]
    | created now created summary absent correct stored => simp [LedgerCall.apply, LedgerCall.docId, stored]
    | moved now request current presentHeld edge correct stored =>
      simp [LedgerCall.apply, LedgerCall.docId, stored]
  · simp [apply_get_other own, present]

theorem apply_closed {row : LedgerRow} (present : s.get docId = some row)
    (closed : row.status = .indexed ∨ row.status = .archived) :
    (call.apply s).2.get docId = some row := by
  by_cases own : docId = call.docId
  · subst own
    cases call.outcome s with
    | rejected fault same => rw [same]; exact present
    | found now created summary held presentHeld same => rw [LedgerCall.apply, same]; exact present
    | created now created summary absent correct stored => simp [LedgerCall.docId, absent] at present
    | moved now request current presentHeld edge correct stored =>
      -- No edge leaves a closed status.
      have leaves (target : Status) : ¬ Edge .indexed target ∧ ¬ Edge .archived target := by
        cases target <;> decide
      obtain rfl : current = row := by simpa [LedgerCall.docId, presentHeld] using present
      rcases closed with same | same
      · exact ((leaves _).1 (same ▸ edge)).elim
      · exact ((leaves _).2 (same ▸ edge)).elim
  · rw [apply_get_other own]
    exact present

end Step

inductive RowStep (docId : String) (s : InMemoryLedgerStore) : LedgerCall → Prop where
  | idle {call : LedgerCall} (unwritten : LedgerEvent.written docId ⟨s, call⟩ = none)
      (same : (call.apply s).2.get docId = s.get docId)
      (uncreated : s.get docId = none → LedgerEvent.createdFrom docId ⟨s, call⟩ = none) : RowStep docId s call
  | created (now : DateTime) (summary : EnvelopeSummary) (absent : s.get docId = none)
      (written : LedgerEvent.written docId ⟨s, .create now docId summary⟩ = some (freshRow now docId summary))
      (stored : ((LedgerCall.create now docId summary).apply s).2.get docId = some (freshRow now docId summary))
      (made : LedgerEvent.createdFrom docId ⟨s, .create now docId summary⟩ = some (summary, now)) :
      RowStep docId s (.create now docId summary)
  | moved (now : DateTime) (request : TransitionRequest) (own : request.docId = docId) (current : LedgerRow)
      (present : s.get docId = some current) (edge : Edge current.status request.toStatus)
      (written : LedgerEvent.written docId ⟨s, .transition now request⟩ = some (nextRow now current request))
      (stored : ((LedgerCall.transition now request).apply s).2.get docId = some (nextRow now current request)) :
      RowStep docId s (.transition now request)

theorem rowStep_other {docId : String} {s : InMemoryLedgerStore} {call : LedgerCall} (other : call.docId ≠ docId) :
    RowStep docId s call := by
  apply RowStep.idle
  next => simp [LedgerEvent.written, other]
  next => exact apply_get_other (Ne.symm other)
  next =>
    intro _
    cases call with
    | create now created summary =>
      have different : ¬ created = docId := other
      cases result : LedgerEvent.result ⟨s, .create now created summary⟩ with
      | error fault => simp [LedgerEvent.createdFrom, result]
      | ok row => simp [LedgerEvent.createdFrom, result, different]
    | transition now request => rfl

theorem rowStep (docId : String) (s : InMemoryLedgerStore) (call : LedgerCall) : RowStep docId s call := by
  by_cases own : call.docId = docId
  next =>
    subst own
    cases call.outcome s with
    | rejected fault same =>
      have result : LedgerEvent.result ⟨s, call⟩ = .error fault := congrArg Prod.fst same
      apply RowStep.idle
      next =>
        simp only [LedgerEvent.written, result]
        cases call <;> rfl
      next => rw [same]
      next => simp only [LedgerEvent.createdFrom, result, implies_true]
    | found now docId summary row present same =>
      apply RowStep.idle
      next => simp [LedgerEvent.written, LedgerEvent.result, LedgerCall.apply, LedgerCall.docId, same, present]
      next => rw [LedgerCall.apply, same]
      next => simp [LedgerCall.docId, present]
    | created now docId summary absent correct stored =>
      apply RowStep.created now summary absent
      next => simp [LedgerEvent.written, LedgerEvent.result, LedgerCall.apply, LedgerCall.docId, stored, absent]
      next => simp [LedgerCall.apply, stored]
      next => simp [LedgerEvent.createdFrom, LedgerEvent.result, LedgerCall.apply, stored]
    | moved now request current present edge correct stored =>
      apply RowStep.moved now request rfl current present edge
      next => simp [LedgerEvent.written, LedgerEvent.result, LedgerCall.apply, LedgerCall.docId, stored]
      next => simp [LedgerCall.apply, stored]
  next => exact rowStep_other own

def stamp (row : LedgerRow) : String × DateTime := (row.configVersion, row.ingestedAt)

structure RowHistory (docId : String) (calls : List LedgerCall) : Prop where
  current : (trail docId calls).getLast? = (runCalls calls).get docId
  starts : ∀ row, (trail docId calls).head? = some row → row.status = .pending
  follows : (trail docId calls).IsChain fun first second => Edge first.status second.status
  stamped : (firstCreate docId calls).map (fun created => (created.1.configVersion, created.2)) =
    ((runCalls calls).get docId).map stamp

theorem RowHistory.extend {docId : String} {calls : List LedgerCall} (history : RowHistory docId calls)
    {call : LedgerCall} (row : LedgerRow)
    (written : LedgerEvent.written docId ⟨runCalls calls, call⟩ = some row)
    (stored : (call.apply (runCalls calls)).2.get docId = some row)
    (starts : (runCalls calls).get docId = none → row.status = .pending)
    (edge : ∀ current, (runCalls calls).get docId = some current → Edge current.status row.status)
    (stamped : ((firstCreate docId calls).or (LedgerEvent.createdFrom docId ⟨runCalls calls, call⟩)).map
      (fun created => (created.1.configVersion, created.2)) = some (stamp row)) :
    RowHistory docId (calls ++ [call]) := by
  have current := history.current
  constructor
  · rw [trail_append_singleton, written, runCalls_append_singleton, stored]
    simp
  · intro first head
    rw [trail_append_singleton, written] at head
    cases prior : trail docId calls with
    | nil =>
      obtain rfl : row = first := by simpa [prior] using head
      exact starts (by simpa [prior] using current.symm)
    | cons oldest rest =>
      exact history.starts first (by simpa [prior] using head)
  · rw [trail_append_singleton, written, Option.toList_some, List.isChain_append]
    refine ⟨history.follows, .singleton _, ?_⟩
    intro last isLast next isNext
    obtain rfl : row = next := by simpa using isNext
    exact edge last (current ▸ isLast)
  · rw [firstCreate_append_singleton, runCalls_append_singleton, stored]
    exact stamped

theorem RowHistory.unchanged {docId : String} {calls : List LedgerCall} (history : RowHistory docId calls)
    {call : LedgerCall} (written : LedgerEvent.written docId ⟨runCalls calls, call⟩ = none)
    (same : (call.apply (runCalls calls)).2.get docId = (runCalls calls).get docId)
    (created : (runCalls calls).get docId = none → LedgerEvent.createdFrom docId ⟨runCalls calls, call⟩ = none) :
    RowHistory docId (calls ++ [call]) := by
  have trailSame : trail docId (calls ++ [call]) = trail docId calls := by
    rw [trail_append_singleton, written]
    simp
  constructor
  · rw [trailSame, runCalls_append_singleton, same]
    exact history.current
  · rw [trailSame]
    exact history.starts
  · rw [trailSame]
    exact history.follows
  · rw [firstCreate_append_singleton, runCalls_append_singleton, same]
    have stamped := history.stamped
    cases held : (runCalls calls).get docId with
    | none =>
      rw [created held, Option.or_none]
      simpa [held] using stamped
    | some row =>
      rw [held] at stamped
      cases first : firstCreate docId calls with
      | none => simp [first] at stamped
      | some created => simpa [first] using stamped

theorem rowHistory (docId : String) (calls : List LedgerCall) : RowHistory docId calls := by
  induction calls using List.reverseRecOn with
  | nil => exact ⟨rfl, by simp [trail, events, eventsFrom], .nil, rfl⟩
  | append_singleton calls call history =>
    cases rowStep docId (runCalls calls) call with
    | idle unwritten same uncreated => exact history.unchanged unwritten same uncreated
    | created now summary absent written stored made =>
      have unstamped : firstCreate docId calls = none := by simpa [absent] using history.stamped
      apply history.extend (freshRow now docId summary) written stored
      next => exact fun _ => rfl
      next => simp [absent]
      next => simp [made, unstamped, stamp, freshRow]
    | moved now request own current present edge written stored =>
      apply history.extend (nextRow now current request) written stored
      next => simp [present]
      next =>
        intro held same
        obtain rfl : current = held := by simpa [present] using same
        exact edge
      next =>
        have stamped := history.stamped
        rw [present] at stamped
        simpa [LedgerEvent.createdFrom, stamp, nextRow] using stamped

structure RunInvariant (calls : List LedgerCall) : Prop where
  ownKey : ∀ docId row, (runCalls calls).get docId = some row → row.docId = docId
  mirrored : ∀ docId row, (runCalls calls).get docId = some row → row.status = row.stage
  attemptsNonneg : ∀ docId row, (runCalls calls).get docId = some row → 0 ≤ row.attempts
  explained : ∀ docId row, (runCalls calls).get docId = some row → row.status = .failed →
    row.lastErrorCode ≠ none
  stamped : ∀ docId row, (runCalls calls).get docId = some row → ∃ summary now,
    firstCreate docId calls = some (summary, now) ∧ row.configVersion = summary.configVersion ∧
      row.ingestedAt = now
  current : ∀ docId, (trail docId calls).getLast? = (runCalls calls).get docId
  starts : ∀ docId row, (trail docId calls).head? = some row → row.status = .pending
  follows : ∀ docId, (trail docId calls).IsChain fun first second => Edge first.status second.status
  closed : ∀ docId row, (runCalls calls).get docId = some row →
    row.status = .indexed ∨ row.status = .archived →
    ∀ more, (runCalls (calls ++ more)).get docId = some row
  kept : ∀ docId, ((runCalls calls).get docId).isSome → ∀ more, ((runCalls (calls ++ more)).get docId).isSome
  rejectedUnchanged : ∀ (call : LedgerCall) (fault : LedgerFault),
    (call.apply (runCalls calls)).1 = .error fault → (call.apply (runCalls calls)).2 = runCalls calls
  ownRowOnly : ∀ (call : LedgerCall) (docId : String), docId ≠ call.docId →
    (call.apply (runCalls calls)).2.get docId = (runCalls calls).get docId

theorem ledger_run_invariant (calls : List LedgerCall) : RunInvariant calls where
  ownKey docId row present := ((runCalls calls).wellFormed docId row present).ownKey
  mirrored docId row present := ((runCalls calls).wellFormed docId row present).mirrored.symm
  attemptsNonneg _ row _ := row.attemptsNonneg
  explained docId row present := ((runCalls calls).wellFormed docId row present).explained
  stamped docId row present := by
    have stamped := (rowHistory docId calls).stamped
    rw [present] at stamped
    obtain ⟨⟨summary, now⟩, first, equal⟩ := Option.map_eq_some_iff.mp stamped
    obtain ⟨version, ingested⟩ := Prod.mk.inj equal
    exact ⟨summary, now, first, version.symm, ingested.symm⟩
  current docId := (rowHistory docId calls).current
  starts docId := (rowHistory docId calls).starts
  follows docId := (rowHistory docId calls).follows
  closed docId row present closed more := by
    induction more using List.reverseRecOn with
    | nil => simpa using present
    | append_singleton more call ih =>
      rw [← List.append_assoc, runCalls_append_singleton]
      exact apply_closed ih closed
  kept docId present more := by
    induction more using List.reverseRecOn with
    | nil => simpa using present
    | append_singleton more call ih =>
      rw [← List.append_assoc, runCalls_append_singleton]
      obtain ⟨row, held⟩ := Option.isSome_iff_exists.mp ih
      exact apply_get_isSome held
  rejectedUnchanged _ _ := apply_error
  ownRowOnly _ _ := apply_get_other

end Vestibule
