import Vestibule.Ledger.History

set_option autoImplicit false

namespace Vestibule

-- What a row says of its attempts and of its last error can be read off the accepted calls for it.

inductive RowEvent where
  | created
  | moved (source : Status) (request : TransitionRequest)

def LedgerEvent.rowEvent (docId : String) (event : LedgerEvent) : Option RowEvent :=
  if event.call.docId = docId then
    match event.call, event.result with
    | .create _ _ _, .ok _ => if event.before.get docId = none then some .created else none
    | .transition _ request, .ok _ => (event.before.get docId).map fun row => .moved row.status request
    | _, .error _ => none
  else none

/-- The accepted calls that wrote the row, from its `create` on. -/
def rowEvents (docId : String) (calls : List LedgerCall) : List RowEvent :=
  (events calls).filterMap (LedgerEvent.rowEvent docId)

theorem rowEvents_append_singleton (docId : String) (calls : List LedgerCall) (call : LedgerCall) :
    rowEvents docId (calls ++ [call]) =
      rowEvents docId calls ++ (LedgerEvent.rowEvent docId ⟨runCalls calls, call⟩).toList := by
  rw [rowEvents, events_append_singleton, List.filterMap_append, rowEvents]
  cases written : LedgerEvent.rowEvent docId ⟨runCalls calls, call⟩ <;> simp [written]

namespace RowEvent

def Enters (status : Status) : RowEvent → Prop
  | created => status = .pending
  | moved source request => request.toStatus = status ∧ source ≠ status

def Retries (status : Status) : RowEvent → Prop
  | created => False
  | moved source request => source = status ∧ request.toStatus = status

def firstAttempts : RowEvent → Int
  | created => 0
  | moved source request => if source = .failed ∧ request.toStatus = .pending then 0 else 1

/-- The arguments that a row in `status` would show: of a transition into it, or of one with a code. -/
def reports (status : Status) : RowEvent → Option TransitionRequest
  | created => none
  | moved source request =>
      if request.toStatus = status ∧ source ≠ status ∨ request.errorCode ≠ none then some request else none

end RowEvent

def lastReport (status : Status) (history : List RowEvent) : Option TransitionRequest :=
  history.reverse.findSome? (RowEvent.reports status)

def reportedFields : Option TransitionRequest → Option String × Option String
  | some request => (request.errorCode, request.errorMessage)
  | none => (none, none)

structure Accounted (history : List RowEvent) (rows : List LedgerRow) (row : LedgerRow) : Prop where
  counted : ∃ earlier entry retries, history = earlier ++ entry :: retries ∧ entry.Enters row.status ∧
    (∀ event ∈ retries, event.Retries row.status) ∧
    (row.status ≠ .failed → row.attempts = entry.firstAttempts + retries.length)
  frozen : row.status = .failed → ∃ before previous, rows = before ++ [previous, row] ∧ previous.status ≠ .failed ∧
    row.attempts = previous.attempts
  fields : (row.lastErrorCode, row.lastErrorMessage) = reportedFields (lastReport row.status history)

theorem lastReport_append (status : Status) (history : List RowEvent) (event : RowEvent) :
    lastReport status (history ++ [event]) = (event.reports status).or (lastReport status history) := by
  rw [lastReport, List.reverse_append, List.reverse_singleton, List.singleton_append, List.findSome?_cons]
  cases event.reports status <;> rfl

theorem accounted_created (now : DateTime) (docId : String) (summary : EnvelopeSummary) :
    Accounted [.created] [freshRow now docId summary] (freshRow now docId summary) where
  counted := ⟨[], .created, [], rfl, rfl, by simp, by simp [freshRow, RowEvent.firstAttempts]⟩
  frozen := by simp [freshRow]
  fields := rfl

section Step

variable {history : List RowEvent} {before rows : List LedgerRow} {row : LedgerRow} {request : TransitionRequest}

theorem accounted_retry (now : DateTime) (held : Accounted history rows row) (same : request.toStatus = row.status)
    (running : row.status ∉ terminalStatuses) (after : List LedgerRow) :
    Accounted (history ++ [.moved row.status request]) after (nextRow now row request) := by
  have open_ : row.status ≠ .failed := by
    intro failed
    rw [failed] at running
    exact running (by decide)
  have status : (nextRow now row request).status = row.status := same
  constructor
  next =>
    obtain ⟨earlier, entry, retries, rfl, enters, each, count⟩ := held.counted
    refine ⟨earlier, entry, retries ++ [.moved row.status request], by simp, status ▸ enters, ?_, ?_⟩
    next =>
      intro event member
      rw [status]
      rcases List.mem_append.mp member with old | new
      next => exact each event old
      next =>
        rw [List.mem_singleton.mp new]
        exact ⟨rfl, same⟩
    next =>
      intro _
      have written : (nextRow now row request).attempts = row.attempts + 1 := by
        simp [nextRow, nextAttempts, same, open_]
      rw [written, count open_, List.length_append, List.length_singleton]
      omega
  next =>
    intro failed
    exact (open_ (status ▸ failed)).elim
  next =>
    rw [status, lastReport_append]
    by_cases code : request.errorCode = none
    next =>
      have silent : RowEvent.reports row.status (.moved row.status request) = none := by
        simp [RowEvent.reports, code]
      rw [silent, Option.none_or, ← held.fields]
      simp [nextRow, nextErrorFields, same, code]
    next =>
      have loud : RowEvent.reports row.status (.moved row.status request) = some request := by
        simp [RowEvent.reports, code]
      rw [loud, Option.some_or]
      simp [nextRow, nextErrorFields, reportedFields, code]

theorem accounted_entry (now : DateTime) (moved : request.toStatus ≠ row.status) (last : rows = before ++ [row])
    (history : List RowEvent) :
    Accounted (history ++ [.moved row.status request]) (rows ++ [nextRow now row request])
      (nextRow now row request) := by
  have status : (nextRow now row request).status = request.toStatus := rfl
  constructor
  next =>
    refine ⟨history, .moved row.status request, [], rfl, ⟨rfl, Ne.symm moved⟩, by simp, ?_⟩
    intro open_
    rw [status] at open_
    simp [nextRow, nextAttempts, RowEvent.firstAttempts, open_, moved]
  next =>
    intro failed
    rw [status] at failed
    refine ⟨before, row, by rw [last]; simp, ?_, ?_⟩
    next => exact fun same => moved (failed.trans same.symm)
    next => simp [nextRow, nextAttempts, failed]
  next =>
    have loud : RowEvent.reports request.toStatus (.moved row.status request) = some request := by
      simp [RowEvent.reports, Ne.symm moved]
    rw [status, lastReport_append, loud, Option.some_or]
    simp [nextRow, nextErrorFields, reportedFields, moved]

theorem accounted_step (now : DateTime) (held : Accounted history rows row) (last : rows = before ++ [row])
    (edge : Edge row.status request.toStatus) :
    Accounted (history ++ [.moved row.status request]) (rows ++ [nextRow now row request])
      (nextRow now row request) := by
  by_cases same : request.toStatus = row.status
  next =>
    have running : row.status ∉ terminalStatuses := by
      have loop (status : Status) : Edge status status → status ∉ terminalStatuses := by cases status <;> decide
      exact loop row.status (same ▸ edge)
    exact accounted_retry now held same running _
  next => exact accounted_entry now same last history

end Step

structure RunAccounted (docId : String) (calls : List LedgerCall) : Prop where
  absent : (runCalls calls).get docId = none → rowEvents docId calls = []
  present : ∀ row, (runCalls calls).get docId = some row →
    Accounted (rowEvents docId calls) (trail docId calls) row

theorem rowEvent_of_unwritten {docId : String} {event : LedgerEvent} (unwritten : event.written docId = none) :
    event.rowEvent docId = none := by
  obtain ⟨before, call⟩ := event
  by_cases own : call.docId = docId
  next =>
    cases result : LedgerEvent.result ⟨before, call⟩ with
    | error fault => cases call <;> simp [LedgerEvent.rowEvent, result]
    | ok row =>
      cases call with
      | create now created summary => simpa [LedgerEvent.rowEvent, LedgerEvent.written, own, result] using unwritten
      | transition now request => simp [LedgerEvent.written, own, result] at unwritten
  next => simp [LedgerEvent.rowEvent, own]

theorem rowEvent_create {docId : String} {s : InMemoryLedgerStore} {now : DateTime} {summary : EnvelopeSummary}
    {row : LedgerRow} (absent : s.get docId = none)
    (written : LedgerEvent.written docId ⟨s, .create now docId summary⟩ = some row) :
    LedgerEvent.rowEvent docId ⟨s, .create now docId summary⟩ = some .created := by
  cases result : LedgerEvent.result ⟨s, .create now docId summary⟩ with
  | error fault => simp [LedgerEvent.written, result] at written
  | ok row => simp [LedgerEvent.rowEvent, LedgerCall.docId, result, absent]

theorem rowEvent_transition {docId : String} {s : InMemoryLedgerStore} {now : DateTime} {request : TransitionRequest}
    {current row : LedgerRow} (own : request.docId = docId) (present : s.get docId = some current)
    (written : LedgerEvent.written docId ⟨s, .transition now request⟩ = some row) :
    LedgerEvent.rowEvent docId ⟨s, .transition now request⟩ = some (.moved current.status request) := by
  cases result : LedgerEvent.result ⟨s, .transition now request⟩ with
  | error fault => simp [LedgerEvent.written, result] at written
  | ok row => simp [LedgerEvent.rowEvent, LedgerCall.docId, own, result, present]

theorem RunAccounted.unchanged {docId : String} {calls : List LedgerCall} (held : RunAccounted docId calls)
    {call : LedgerCall} (unwritten : LedgerEvent.written docId ⟨runCalls calls, call⟩ = none)
    (same : (call.apply (runCalls calls)).2.get docId = (runCalls calls).get docId) :
    RunAccounted docId (calls ++ [call]) := by
  have history : rowEvents docId (calls ++ [call]) = rowEvents docId calls := by
    rw [rowEvents_append_singleton, rowEvent_of_unwritten unwritten]
    simp
  have rows : trail docId (calls ++ [call]) = trail docId calls := by
    rw [trail_append_singleton, unwritten]
    simp
  rw [← runCalls_append_singleton] at same
  constructor
  next =>
    rw [history, same]
    exact held.absent
  next =>
    rw [history, rows, same]
    exact held.present

theorem RunAccounted.extend {docId : String} {calls : List LedgerCall} {call : LedgerCall} (event : RowEvent)
    (row : LedgerRow) (happened : LedgerEvent.rowEvent docId ⟨runCalls calls, call⟩ = some event)
    (written : LedgerEvent.written docId ⟨runCalls calls, call⟩ = some row)
    (stored : (call.apply (runCalls calls)).2.get docId = some row)
    (accounted : Accounted (rowEvents docId calls ++ [event]) (trail docId calls ++ [row]) row) :
    RunAccounted docId (calls ++ [call]) := by
  rw [← runCalls_append_singleton] at stored
  constructor
  next =>
    intro missing
    rw [stored] at missing
    cases missing
  next =>
    intro other present
    obtain rfl : row = other := Option.some.inj (stored.symm.trans present)
    rw [rowEvents_append_singleton, trail_append_singleton, happened, written]
    exact accounted

theorem trail_last {docId : String} {calls : List LedgerCall} {row : LedgerRow}
    (present : (runCalls calls).get docId = some row) : ∃ before, trail docId calls = before ++ [row] :=
  List.getLast?_eq_some_iff.mp ((rowHistory docId calls).current.trans present)

theorem trail_eq_nil {docId : String} {calls : List LedgerCall} (absent : (runCalls calls).get docId = none) :
    trail docId calls = [] :=
  List.getLast?_eq_none_iff.mp ((rowHistory docId calls).current.trans absent)

theorem runAccounted (docId : String) (calls : List LedgerCall) : RunAccounted docId calls := by
  induction calls using List.reverseRecOn with
  | nil => exact ⟨fun _ => rfl, by simp [runCalls, runCallsFrom, InMemoryLedgerStore.get, InMemoryLedgerStore.empty]⟩
  | append_singleton calls call held =>
    cases rowStep docId (runCalls calls) call with
    | idle unwritten same _ => exact held.unchanged unwritten same
    | created now summary absent written stored made =>
      have happened := rowEvent_create absent written
      apply RunAccounted.extend .created (freshRow now docId summary) happened written stored
      rw [held.absent absent, trail_eq_nil absent]
      exact accounted_created now docId summary
    | moved now request own current present edge written stored =>
      obtain ⟨before, last⟩ := trail_last present
      have happened := rowEvent_transition own present written
      apply RunAccounted.extend (.moved current.status request) (nextRow now current request) happened written stored
      exact accounted_step now (held.present current present) last edge

theorem attempts_and_errors_follow_history (calls : List LedgerCall) (docId : String) (row : LedgerRow)
    (present : (runCalls calls).get docId = some row) :
    Accounted (rowEvents docId calls) (trail docId calls) row := (runAccounted docId calls).present row present

theorem get_create {docId : String} (format : hexRe (PyStr.ofString docId)) (now : DateTime)
    (summary : EnvelopeSummary) :
    (runCalls [.create now docId summary]).get docId = some (freshRow now docId summary) := by
  have checked : validateIdFormat (.ofString docId) "doc_id" = .ok (PyStr.ofString docId) := by
    rw [validateIdFormat_ofString, if_pos format]
  rcases InMemoryLedgerStore.empty.create_cases now docId summary with ⟨fault, rejected⟩ | ⟨row, present, -⟩ |
    ⟨-, correct, stored⟩
  next =>
    simp only [InMemoryLedgerStore.create] at rejected
    split at rejected
    next fault refused => simp [checked] at refused
    next => simp [InMemoryLedgerStore.get, InMemoryLedgerStore.empty] at rejected
  next => simp [InMemoryLedgerStore.get, InMemoryLedgerStore.empty] at present
  next => simp [runCalls, runCallsFrom, LedgerCall.apply, stored]

theorem get_append_transition {calls : List LedgerCall} {docId : String} {current : LedgerRow}
    (present : (runCalls calls).get docId = some current) (now : DateTime) (status : Status)
    (errorCode errorMessage : Option String) (edge : Edge current.status status)
    (explained : status = .failed → errorCode ≠ none) :
    (runCalls (calls ++ [.transition now ⟨docId, status, status, errorCode, errorMessage, none⟩])).get docId =
      some (nextRow now current ⟨docId, status, status, errorCode, errorMessage, none⟩) := by
  obtain ⟨correct, moved⟩ := (runCalls calls).transition_of_edge now
    ⟨docId, status, status, errorCode, errorMessage, none⟩ present rfl edge explained
  rw [runCalls_append_singleton, LedgerCall.apply, moved, InMemoryLedgerStore.get_put, if_pos rfl]

def requeuedAndRetried : List LedgerCall :=
  [.create 0 digestAbc ⟨"v1"⟩,
    .transition 1 ⟨digestAbc, .analyzing, .analyzing, none, none, none⟩,
    .transition 2 ⟨digestAbc, .failed, .failed, some "DOCUMENT_CORRUPT", some "unreadable", none⟩,
    .transition 3 ⟨digestAbc, .pending, .pending, none, none, none⟩,
    .transition 4 ⟨digestAbc, .pending, .pending, some "THROTTLED", some "again", none⟩]

theorem attempts_and_errors_follow_requeue :
    ∃ row, (runCalls requeuedAndRetried).get digestAbc = some row ∧ row.attempts = 1 ∧
      row.lastErrorCode = some "THROTTLED" ∧
      Accounted (rowEvents digestAbc requeuedAndRetried) (trail digestAbc requeuedAndRetried) row := by
  have created := get_create digestAbc_hex 0 ⟨"v1"⟩
  have analyzing := get_append_transition created 1 .analyzing none none (by decide) (by decide)
  have failed := get_append_transition analyzing 2 .failed (some "DOCUMENT_CORRUPT") (some "unreadable") (by decide)
    (by decide)
  have requeued := get_append_transition failed 3 .pending none none (by decide) (by decide)
  have retried := get_append_transition requeued 4 .pending (some "THROTTLED") (some "again") (by decide) (by decide)
  exact ⟨_, retried, rfl, rfl, attempts_and_errors_follow_history requeuedAndRetried digestAbc _ retried⟩

end Vestibule
