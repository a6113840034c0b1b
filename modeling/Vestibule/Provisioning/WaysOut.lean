import Vestibule.Provisioning.Administration
import Vestibule.Provisioning.Claims

set_option autoImplicit false

namespace Vestibule.Provisioning

open Library

-- A worker returns an entry in four ways. Only before `touch_verified` does it compare the index with what
-- its own scenario resolves to.

variable {ι : Type}

def resolvedTerms (worker : Worker) : Option (Int × String) :=
  (worker.provisioner.resolveTemplate worker.scenario).toOption.map Prod.snd

def Suits (worker : Worker) (entry : IndexRegistryEntry) : Prop :=
  resolvedTerms worker = some (entry.dimensions, entry.metric)

instance (worker : Worker) (entry : IndexRegistryEntry) : Decidable (Suits worker entry) :=
  inferInstanceAs (Decidable (_ = _))

theorem suits_iff (worker : Worker) (entry : IndexRegistryEntry) :
    Suits worker entry ↔ ∃ template,
      worker.provisioner.resolveTemplate worker.scenario = .ok (template, entry.dimensions, entry.metric) := by
  cases resolved : worker.provisioner.resolveTemplate worker.scenario with
  | error e => simp [Suits, resolvedTerms, resolved, Except.toOption]
  | ok value =>
    obtain ⟨template, terms⟩ := value
    simp [Suits, resolvedTerms, resolved, Except.toOption]

def toldTime : Deed Effects ι Shared → Option DateTime
  | ⟨_, .clock, now, _, _⟩ => some now
  | _ => none

def madeReady : Deed Effects ι Shared → Option IndexRegistryEntry
  | ⟨_, .registry (.markReady _ _), .ok entry, _, _⟩ => some entry
  | _ => none

def touchedAs : Deed Effects ι Shared → Option IndexRegistryEntry
  | ⟨_, .registry (.touchVerified _), .ok entry, _, _⟩ => some entry
  | _ => none

def toldIndex : Deed Effects ι Shared → Option IndexDescription
  | ⟨_, .describeIndex _, .ok description, _, _⟩ => description
  | _ => none

-- In what follows a record is that of one worker, its last deed first.

-- The first read shows a ready entry, and at the clock that is read next its verification is recent.
def fastPath (worker : Worker) : Record ι → Option IndexRegistryEntry
  | [deed, first] => (toldTime deed).bind fun now => (shownEntry first).filter fun entry =>
      entry.status = .ready && entry.lastVerifiedAt.any fun verifiedAt =>
        !elapsed now verifiedAt worker.provisioner.config.verificationIntervalSeconds
  | _ => none

-- A `register` that loses the claim, or a later read, shows a ready entry.
def shownReady : Record ι → Option IndexRegistryEntry
  | deed :: _ :: _ => if claims deed then none else (shownEntry deed).filter fun entry => entry.status = .ready
  | _ => none

/-- What `ensure` returns in its last step. -/
def handed (worker : Worker) (record : Record ι) : Option IndexRegistryEntry :=
  ((fastPath worker record).or (shownReady record)).or
    ((record.head?.bind madeReady).or (record.head?.bind touchedAs))

-- The worker inserted the entry itself.
def opened (record : Record ι) : Bool := record.any fun deed => (inserted deed).isSome

/-- What is handed to the worker without a look at its scenario. -/
def unchecked (worker : Worker) (record : Record ι) : Option IndexRegistryEntry :=
  ((fastPath worker record).or (shownReady record)).or
    (if opened record then none else record.head?.bind madeReady)

/-- The last step takes no entry that the worker cannot use. -/
structure TakesUsable (worker : Worker) (record : Record ι) : Prop where
  compared : ∀ entry ∈ unchecked worker record, Suits worker entry
  recognized : ∀ entry ∈ record.head?.bind touchedEntry, entry.status ≠ .retired ∧
    ∀ description ∈ record.tail.head?.bind toldIndex, description = ⟨entry.dimensions, entry.metric⟩

instance (worker : Worker) (record : Record ι) : Decidable (TakesUsable worker record) :=
  decidable_of_iff
    ((∀ entry ∈ unchecked worker record, Suits worker entry) ∧
      ∀ entry ∈ record.head?.bind touchedEntry, entry.status ≠ .retired ∧
        ∀ description ∈ record.tail.head?.bind toldIndex, description = ⟨entry.dimensions, entry.metric⟩)
    ⟨fun ⟨compared, recognized⟩ => ⟨compared, recognized⟩, fun takes => ⟨takes.compared, takes.recognized⟩⟩

def Quiet (worker : Worker) (record : Record ι) : Prop :=
  Chronicle.Each (fun earlier deed => handed worker (deed :: earlier) = none) record

-- Each candidate that the worker inserted is one of its own scenario.
def Registers (worker : Worker) (record : Record ι) : Prop :=
  ∀ deed ∈ record, ∀ candidate, inserted deed = some candidate →
    candidate.indexName = worker.scenario.indexName ∧ Suits worker candidate

-- The worker has read, and did not find the entry ready at once.
structure Underway (worker : Worker) (record : Record ι) : Prop where
  quiet : Quiet worker record
  registers : Registers worker record
  started : record ≠ []
  unready : ∀ first entry, record = [first] → shownEntry first = some entry → entry.status ≠ .ready

structure Handed (worker : Worker) (entry : IndexRegistryEntry) (record : Record ι) : Prop where
  taken : handed worker record = some entry
  before : Quiet worker record.tail
  registers : Registers worker record
  compared : ∀ touched, record.head?.bind touchedAs = some touched →
    ∃ description, record.tail.head?.bind toldIndex = some description ∧
      resolvedTerms worker = some (description.dimensions, description.metric)

structure Read (worker : Worker) (entry : IndexRegistryEntry) (record : Record ι) : Prop where
  ready : entry.status = .ready → Handed worker entry record
  unready : entry.status ≠ .ready → Underway worker record

section Step

variable {worker : Worker} {i : ι} {record : Record ι} {s t : Shared}

def Internal : Op → Bool
  | .clock | .registry (.get _) | .registry (.register _) | .registry (.markReady _ _) |
    .registry (.touchVerified _) => false
  | _ => true

theorem handed_internal {o : Op} (internal : Internal o) (answer : o.Res) :
    handed worker (⟨i, o, answer, s, t⟩ :: record) = none := by
  have silent (deed : Deed Effects ι Shared) (told : toldTime deed = none) (claim : shownEntry deed = none)
      (made : madeReady deed = none) (touched : touchedAs deed = none) : handed worker (deed :: record) = none := by
    rcases record with _ | ⟨first, _ | ⟨second, rest⟩⟩ <;>
      simp [handed, fastPath, shownReady, told, claim, made, touched]
  cases o with
  | registry call =>
    cases call with
    | reclaim indexName observed newEntry => exact silent _ rfl rfl rfl rfl
    | markFailed indexName reason expected => exact silent _ rfl rfl rfl rfl
    | markRetired indexName => exact silent _ rfl rfl rfl rfl
    | _ => simp [Internal] at internal
  | clock => simp [Internal] at internal
  | _ => exact silent _ rfl rfl rfl rfl

theorem handed_clock (underway : Underway worker record) (now : DateTime) :
    handed worker (⟨i, .clock, now, s, t⟩ :: record) = none := by
  have told : toldTime (⟨i, .clock, now, s, t⟩ : Deed Effects ι Shared) = some now := rfl
  have shown : shownEntry (⟨i, .clock, now, s, t⟩ : Deed Effects ι Shared) = none := rfl
  have made : madeReady (⟨i, .clock, now, s, t⟩ : Deed Effects ι Shared) = none := rfl
  have touched : touchedAs (⟨i, .clock, now, s, t⟩ : Deed Effects ι Shared) = none := rfl
  rcases record with _ | ⟨first, _ | ⟨second, rest⟩⟩
  next => exact absurd rfl underway.started
  next =>
    have unready := underway.unready first
    cases read : shownEntry first with
    | none => simp [handed, fastPath, shownReady, told, shown, made, touched, read]
    | some entry =>
      simp [handed, fastPath, shownReady, told, shown, made, touched, read, unready entry rfl read]
  next => simp [handed, fastPath, shownReady, shown, made, touched]

-- A read, or a `register`, of a worker that has read before.
theorem handed_shown {deed : Deed Effects ι Shared} (started : record ≠ []) (told : toldTime deed = none)
    (made : madeReady deed = none) (touched : touchedAs deed = none) :
    handed worker (deed :: record) =
      if claims deed then none else (shownEntry deed).filter fun entry => entry.status = .ready := by
  rcases record with _ | ⟨first, rest⟩
  next => exact absurd rfl started
  next => cases rest <;> simp [handed, fastPath, shownReady, told, made, touched]

theorem handed_written {deed : Deed Effects ι Shared} (told : toldTime deed = none) (shown : shownEntry deed = none) :
    handed worker (deed :: record) = (madeReady deed).or (touchedAs deed) := by
  rcases record with _ | ⟨first, _ | ⟨second, rest⟩⟩ <;> simp [handed, fastPath, shownReady, told, shown]

theorem Registers.cons {deed : Deed Effects ι Shared} (registers : Registers worker record)
    (own : ∀ candidate, inserted deed = some candidate →
      candidate.indexName = worker.scenario.indexName ∧ Suits worker candidate) :
    Registers worker (deed :: record) := by
  intro other member candidate noted
  rcases List.mem_cons.mp member with rfl | earlier
  next => exact own candidate noted
  next => exact registers other earlier candidate noted

theorem Underway.next {deed : Deed Effects ι Shared} (underway : Underway worker record)
    (silent : handed worker (deed :: record) = none)
    (own : ∀ candidate, inserted deed = some candidate →
      candidate.indexName = worker.scenario.indexName ∧ Suits worker candidate) :
    Underway worker (deed :: record) where
  quiet := ⟨silent, underway.quiet⟩
  registers := underway.registers.cons own
  started := by simp
  unready first entry same := by
    obtain ⟨rfl, empty⟩ := List.cons.inj same
    exact absurd empty underway.started

theorem Underway.read {deed : Deed Effects ι Shared} {entry : IndexRegistryEntry} (underway : Underway worker record)
    (told : toldTime deed = none) (made : madeReady deed = none) (touched : touchedAs deed = none)
    (foreign : claims deed = false) (shown : shownEntry deed = some entry)
    (own : ∀ candidate, inserted deed = some candidate →
      candidate.indexName = worker.scenario.indexName ∧ Suits worker candidate) :
    Read worker entry (deed :: record) := by
  have taken : handed worker (deed :: record) = _ := handed_shown underway.started told made touched
  rw [foreign, shown] at taken
  constructor
  next =>
    intro ready
    refine ⟨by simp [taken, Option.filter, ready], underway.quiet, underway.registers.cons own, ?_⟩
    simp [touched]
  next =>
    intro unready
    exact underway.next (by simp [taken, Option.filter, unready]) own

theorem inserted_unregistered {o : Op} (other : ∀ entry, o ≠ .registry (.register entry)) (answer : o.Res) :
    inserted (⟨i, o, answer, s, t⟩ : Deed Effects ι Shared) = none := by
  cases o with
  | registry call =>
    cases call with
    | register entry => exact absurd rfl (other entry)
    | _ => rfl
  | _ => rfl

end Step

-- Whatever a worker is answered, its record shows no way out before it takes one.

section Programs

variable {α β : Type} {worker : Worker} {i : ι} {own : Record ι} {ok : α → Record ι → Prop}
  {raised : Raised → Record ι → Prop}

def Goes (worker : Worker) (i : ι) (p : Py α) (ok : α → Record ι → Prop) (raised : Raised → Record ι → Prop)
    (own : Record ι) : Prop :=
  Chronicle.Attended service i (Quiet worker) p.run (Contract.ends ok raised) own

-- A run that is cut off may be so right before it returns.
def Stopped (worker : Worker) (e : Raised) (own : Record ι) : Prop := e ≠ .unfinished → Quiet worker own

abbrev Leaves (worker : Worker) (i : ι) (p : Py IndexRegistryEntry) (own : Record ι) : Prop :=
  Goes worker i p (Handed worker) (Stopped worker) own

theorem goes_stopped {p : Py α} (goes : Goes worker i p ok (fun _ => Underway worker) own) :
    Goes worker i p ok (Stopped worker) own := by
  refine Chronicle.attended_mono (fun result own ended => ?_) goes
  cases result with
  | ok value => exact ended
  | error e => exact fun _ => ended.quiet

theorem goes_bind {p : Py β} {f : β → Py α}
    (goes : Goes worker i p (fun value => Goes worker i (f value) ok raised) raised own) :
    Goes worker i (p >>= f) ok raised own :=
  Chronicle.attended_run_bind goes

theorem goes_seq {p : Py β} {f : β → Py α} (mid : β → Record ι → Prop) (first : Goes worker i p mid raised own)
    (rest : ∀ value own, mid value own → Goes worker i (f value) ok raised own) :
    Goes worker i (p >>= f) ok raised own := by
  apply goes_bind
  refine Chronicle.attended_mono (fun result own ended => ?_) first
  cases result with
  | ok value => exact rest value own ended
  | error e => exact ended

theorem goes_tryCatch {p : Py α} {handle : Raised → Py α}
    (goes : Goes worker i p ok (fun e => Goes worker i (handle e) ok raised) own) :
    Goes worker i (tryCatch p handle) ok raised own :=
  Chronicle.attended_run_tryCatch goes

theorem goes_result {result : Except Raised α} (holds : Contract.ends ok raised result own) :
    Goes worker i (ExceptT.mk (.ret result)) ok raised own := holds

theorem goes_pure {value : α} (holds : ok value own) : Goes worker i (pure value) ok raised own := holds

theorem goes_throw {e : Raised} (holds : raised e own) : Goes worker i (throw e) ok raised own := holds

theorem goes_op {o : Op} {decode : o.Res → Except Raised α} (quiet : Quiet worker own)
    (continued : ∀ (answer : o.Res) s t, Contract.ends ok raised (decode answer) (⟨i, o, answer, s, t⟩ :: own)) :
    Goes worker i (ExceptT.mk (.op o fun answer => .ret (decode answer))) ok raised own :=
  ⟨quiet, fun _ s => continued _ s _⟩

theorem goes_internal {o : Op} {decode : o.Res → Except Raised α} (internal : Internal o) (underway : Underway worker own)
    (continued : ∀ answer record, Underway worker record → Contract.ends ok raised (decode answer) record) :
    Goes worker i (ExceptT.mk (.op o fun answer => .ret (decode answer))) ok raised own := by
  apply goes_op underway.quiet
  intro answer s t
  apply continued answer
  apply underway.next (handed_internal internal answer)
  rw [inserted_unregistered (by rintro entry rfl; simp [Internal] at internal)]
  simp

theorem goes_clock {ok : DateTime → Record ι → Prop} (underway : Underway worker own)
    (continued : ∀ now record, Underway worker record → ok now record) :
    Goes worker i Py.clock ok raised own := by
  apply goes_op (o := .clock) underway.quiet
  intro now s t
  exact continued now _ (underway.next (handed_clock underway now) fun _ noted => by cases noted)

theorem goes_timeTest {time : Option DateTime} {test : DateTime → DateTime → Bool} {ok : Bool → Record ι → Prop}
    (underway : Underway worker own) (continued : ∀ passed record, Underway worker record → ok passed record) :
    Goes worker i (IndexProvisioner.timeTest time test) ok raised own := by
  cases time with
  | none => exact goes_pure (continued _ own underway)
  | some time =>
    apply goes_bind
    exact goes_clock underway fun now record later => goes_pure (continued _ record later)

theorem goes_get {ok : Option IndexRegistryEntry → Record ι → Prop} {indexName : String}
    (underway : Underway worker own) (absent : ∀ record, Underway worker record → ok none record)
    (present : ∀ entry record, Read worker entry record → ok (some entry) record)
    (failed : ∀ e record, Underway worker record → raised e record) :
    Goes worker i (Py.registry (.get indexName)) ok raised own := by
  apply goes_op (o := .registry (.get indexName)) underway.quiet
  intro answer s t
  have none_inserted (answer : RegistryCall.Res (.get indexName)) (candidate : IndexRegistryEntry)
      (noted : inserted (⟨i, .registry (.get indexName), answer, s, t⟩ : Deed Effects ι Shared) = some candidate) :
      candidate.indexName = worker.scenario.indexName ∧ Suits worker candidate := by
    cases noted
  cases answer with
  | error e => exact failed _ _ (underway.next (by rw [handed_written rfl rfl]; rfl) (none_inserted _))
  | ok found =>
    cases found with
    | none => exact absent _ (underway.next (by rw [handed_written rfl rfl]; rfl) (none_inserted _))
    | some entry => exact present entry _ (underway.read rfl rfl rfl rfl rfl (none_inserted _))

theorem goes_register {ok : IndexRegistryEntry → Record ι → Prop} {candidate : IndexRegistryEntry}
    (named : candidate.indexName = worker.scenario.indexName) (suits : Suits worker candidate)
    (underway : Underway worker own)
    (claimed : ∀ won record, won.claimToken = candidate.claimToken → Underway worker record → ok won record)
    (lost : ∀ won record, won.claimToken ≠ candidate.claimToken → Read worker won record → ok won record)
    (failed : ∀ e record, Underway worker record → raised e record) :
    Goes worker i (Py.registry (.register candidate)) ok raised own := by
  apply goes_op (o := .registry (.register candidate)) underway.quiet
  intro answer s t
  have ours (answer : RegistryCall.Res (.register candidate)) (other : IndexRegistryEntry)
      (noted : inserted (⟨i, .registry (.register candidate), answer, s, t⟩ : Deed Effects ι Shared) = some other) :
      other.indexName = worker.scenario.indexName ∧ Suits worker other := by
    simp only [inserted] at noted
    split at noted
    next =>
      obtain rfl := Option.some.inj noted
      exact ⟨named, suits⟩
    next => cases noted
  cases answer with
  | error e => exact failed _ _ (underway.next (by rw [handed_written rfl rfl]; rfl) (ours _))
  | ok won =>
    have claim : claims (⟨i, .registry (.register candidate), .ok won, s, t⟩ : Deed Effects ι Shared) =
        decide (won.claimToken = candidate.claimToken) := rfl
    by_cases mine : won.claimToken = candidate.claimToken
    next =>
      refine claimed won _ mine (underway.next ?_ (ours _))
      rw [handed_shown underway.started rfl rfl rfl, claim]
      simp [mine]
    next => exact lost won _ mine (underway.read rfl rfl rfl (by simp [claim, mine]) rfl (ours _))

theorem goes_markReady {indexName : String} {expected : Option String} (underway : Underway worker own)
    (failed : ∀ e record, Underway worker record → raised (.provisioning e) record) :
    Goes worker i (Py.registry (.markReady indexName expected)) (Handed worker) raised own := by
  apply goes_op (o := .registry (.markReady indexName expected)) underway.quiet
  intro answer s t
  cases answer with
  | error e =>
    exact failed e _ (underway.next (by rw [handed_written rfl rfl]; rfl) fun _ noted => by cases noted)
  | ok entry =>
    exact ⟨handed_written rfl rfl, underway.quiet, underway.registers.cons fun _ noted => (by cases noted),
      fun _ touched => by cases touched⟩

end Programs

theorem of_not_drifted {entry : IndexRegistryEntry} {template : IndexTemplate} {dimensions : Int} {metric : String}
    {description : Option IndexDescription}
    (checked : IndexProvisioner.drifted entry template dimensions metric description = .ok false) :
    description = some ⟨dimensions, metric⟩ := by
  simp only [IndexProvisioner.drifted] at checked
  split at checked
  next => cases checked
  next same => simpa using same

section Flows

variable {worker : Worker} {i : ι} {own : Record ι}

theorem goes_recentlyVerified {first : Deed Effects ι Shared} {entry : IndexRegistryEntry}
    (quiet : Quiet worker [first]) (registers : Registers worker [first]) (shown : shownEntry first = some entry)
    (ready : entry.status = .ready) :
    Goes worker i (worker.provisioner.recentlyVerified entry)
      (fun recent own => if recent then Handed worker entry own else Quiet worker own ∧ Registers worker own)
      (Stopped worker) [first] := by
  simp only [IndexProvisioner.recentlyVerified, IndexProvisioner.timeTest]
  split
  next => exact goes_pure ⟨quiet, registers⟩
  next verifiedAt noted =>
    apply goes_bind
    apply goes_op (o := .clock) quiet
    intro (now : DateTime) s t
    have told : toldTime (⟨i, .clock, now, s, t⟩ : Deed Effects ι Shared) = some now := rfl
    have silent : shownReady [(⟨i, .clock, now, s, t⟩ : Deed Effects ι Shared), first] = none := rfl
    have made : madeReady (⟨i, .clock, now, s, t⟩ : Deed Effects ι Shared) = none := rfl
    have touched : touchedAs (⟨i, .clock, now, s, t⟩ : Deed Effects ι Shared) = none := rfl
    have registers : Registers worker [⟨i, .clock, now, s, t⟩, first] := registers.cons fun _ noted => by cases noted
    apply goes_pure
    cases old : elapsed now verifiedAt worker.provisioner.config.verificationIntervalSeconds with
    | true =>
      simp only [Bool.not_true, Bool.false_eq_true, if_false]
      refine ⟨⟨?_, quiet⟩, registers⟩
      simp [handed, fastPath, silent, made, touched, told, shown, Option.filter, noted, old]
    | false =>
      simp only [Bool.not_false, if_true]
      refine ⟨?_, quiet, registers, by simp [touched]⟩
      simp [handed, fastPath, silent, made, touched, told, shown, Option.filter, noted, old, ready]

theorem leaves_handleReady {first : Deed Effects ι Shared} {entry : IndexRegistryEntry}
    (quiet : Quiet worker [first]) (registers : Registers worker [first]) (shown : shownEntry first = some entry)
    (ready : entry.status = .ready) :
    Leaves worker i (worker.provisioner.handleReady worker.scenario entry) [first] := by
  apply goes_seq _ (goes_recentlyVerified quiet registers shown ready)
  intro recent own ended
  cases recent with
  | true => exact goes_pure ended
  | false =>
    obtain ⟨quiet, registers⟩ := ended
    apply goes_bind
    apply goes_result
    cases resolved : worker.provisioner.resolveTemplate worker.scenario with
    | error e => exact fun _ => quiet
    | ok resolution =>
      obtain ⟨template, dimensions, metric⟩ := resolution
      have terms : resolvedTerms worker = some (dimensions, metric) := by
        simp [resolvedTerms, resolved, Except.toOption]
      apply goes_bind
      apply goes_op (o := .describeIndex entry.indexName) quiet
      intro answer s t
      have described : Quiet worker (⟨i, .describeIndex entry.indexName, answer, s, t⟩ :: own) :=
        ⟨handed_internal rfl answer, quiet⟩
      have registers : Registers worker (⟨i, .describeIndex entry.indexName, answer, s, t⟩ :: own) :=
        registers.cons fun _ noted => by cases noted
      cases answer with
      | error e => cases e <;> exact fun _ => described
      | ok description =>
        apply goes_bind
        apply goes_result
        cases drift : IndexProvisioner.drifted entry template dimensions metric description with
        | error e => exact fun _ => described
        | ok drift' =>
          cases drift' with
          | true => exact goes_throw fun _ => described
          | false =>
            have agrees : description = some ⟨dimensions, metric⟩ := of_not_drifted drift
            apply goes_op (o := .registry (.touchVerified entry.indexName)) described
            intro answer u v
            cases answer with
            | error e => exact fun _ => ⟨handed_written rfl rfl, described⟩
            | ok touched =>
              refine ⟨handed_written rfl rfl, described, registers.cons fun _ noted => (by cases noted), ?_⟩
              intro _ _
              exact ⟨⟨dimensions, metric⟩, agrees, terms⟩

theorem goes_absorbConflict {won : IndexRegistryEntry} {reason : String} (underway : Underway worker own) :
    Goes worker i (absorbConflict (Py.registry (.markFailed won.indexName reason won.claimToken)))
      (fun _ => Underway worker) (fun _ => Underway worker) own := by
  apply goes_tryCatch
  apply goes_bind
  apply goes_internal (o := .registry (.markFailed won.indexName reason won.claimToken)) rfl underway
  intro answer record later
  cases answer with
  | ok entry => exact goes_pure later
  | error e =>
    simp only [Except.mapError, Contract.ends]
    split
    next => exact goes_throw later
    next => exact goes_pure later

theorem goes_createFor {won : IndexRegistryEntry} (underway : Underway worker own) :
    Goes worker i (IndexProvisioner.createFor won) (fun _ => Underway worker) (fun _ => Underway worker) own := by
  simp only [IndexProvisioner.createFor]
  split
  next => exact goes_throw underway
  next template _ =>
    apply goes_tryCatch
    apply goes_internal (o := .createIndex won.indexName template won.dimensions won.metric) rfl underway
    intro answer record later
    cases callAdapter won.indexName answer with
    | ok => exact later
    | error e =>
      cases e with
      | provisioning e => exact goes_seq _ (goes_absorbConflict later) fun _ _ ended => goes_throw ended
      | other text => exact goes_throw later
      | unfinished => exact goes_throw later

theorem goes_tryReclaim {observed : IndexRegistryEntry} (underway : Underway worker own) :
    Goes worker i (IndexProvisioner.tryReclaim observed) (fun _ => Underway worker) (fun _ => Underway worker) own := by
  apply goes_bind
  apply goes_internal (o := .newClaimToken) rfl underway
  intro token record drawn
  apply goes_bind
  apply goes_clock drawn
  intro claimedAt record told
  apply goes_tryCatch
  apply goes_bind
  apply goes_internal (o := .registry (.reclaim observed.indexName observed (observed.claimedBy token claimedAt))) rfl told
  intro answer record later
  cases answer with
  | ok entry => exact goes_pure later
  | error e =>
    simp only [Except.mapError, Contract.ends]
    split
    next => exact goes_pure later
    next => exact goes_throw later

structure Exits (worker : Worker) (i : ι) (fuel : Nat) : Prop where
  claimNew : ∀ {own}, Underway worker own → Leaves worker i (worker.provisioner.claimNew fuel worker.scenario) own
  claimAndCreate : ∀ {own} won, Underway worker own →
    Leaves worker i (worker.provisioner.claimAndCreate fuel worker.scenario won) own
  finalizeReady : ∀ {own} won, Underway worker own →
    Leaves worker i (worker.provisioner.finalizeReady fuel worker.scenario won) own
  afterLosingClaim : ∀ {entry own}, Read worker entry own →
    Leaves worker i (worker.provisioner.afterLosingClaim fuel worker.scenario entry) own
  waitForReady : ∀ {own} entry, Underway worker own →
    Leaves worker i (worker.provisioner.waitForReady fuel worker.scenario entry) own
  waitLoop : ∀ {own} indexName deadline current, Underway worker own →
    Leaves worker i (worker.provisioner.waitLoop fuel worker.scenario indexName deadline current) own

theorem exits_zero : Exits worker i 0 where
  claimNew _ := goes_throw fun known => absurd rfl known
  claimAndCreate _ _ := goes_throw fun known => absurd rfl known
  finalizeReady _ _ := goes_throw fun known => absurd rfl known
  afterLosingClaim _ := goes_throw fun known => absurd rfl known
  waitForReady _ _ := goes_throw fun known => absurd rfl known
  waitLoop _ _ _ _ := goes_throw fun known => absurd rfl known

section Successor

variable {fuel : Nat} (exits : Exits worker i fuel)

include exits

theorem leaves_claimNew (underway : Underway worker own) :
    Leaves worker i (worker.provisioner.claimNew (fuel + 1) worker.scenario) own := by
  simp only [IndexProvisioner.claimNew]
  split
  next =>
    apply goes_bind
    apply goes_result
    cases resolved : worker.provisioner.resolveTemplate worker.scenario with
    | error e => exact fun _ => underway.quiet
    | ok resolution =>
      obtain ⟨template, dimensions, metric⟩ := resolution
      apply goes_bind
      apply goes_clock underway
      intro now record told
      apply goes_bind
      apply goes_internal (o := .newClaimToken) rfl told
      intro (token : String) record drawn
      have suits : Suits worker (IndexProvisioner.candidate worker.scenario template dimensions metric now token) :=
        (suits_iff _ _).mpr ⟨template, resolved⟩
      apply goes_bind
      apply goes_register rfl suits drawn
      next =>
        intro won record mine later
        have mine : won.claimToken = some token := mine
        simp only [mine, if_true]
        exact exits.claimAndCreate won later
      next =>
        intro won record other read
        have other : won.claimToken ≠ some token := other
        simp only [other, if_false]
        exact exits.afterLosingClaim read
      next => exact fun _ _ later _ => later.quiet
  next => exact goes_throw fun _ => underway.quiet

theorem leaves_claimAndCreate (won : IndexRegistryEntry) (underway : Underway worker own) :
    Leaves worker i (worker.provisioner.claimAndCreate (fuel + 1) worker.scenario won) own := by
  simp only [IndexProvisioner.claimAndCreate]
  apply goes_bind
  apply goes_internal (o := .indexExists won.indexName) rfl underway
  intro answer record later
  cases callAdapter won.indexName answer with
  | error e => exact fun _ => later.quiet
  | ok alreadyExists =>
    apply goes_seq fun _ => Underway worker
    next =>
      cases alreadyExists with
      | true => exact goes_pure later
      | false => exact goes_stopped (goes_createFor later)
    next =>
      intro _ own underway
      apply goes_bind
      apply goes_internal (o := .describeIndex won.indexName) rfl underway
      intro answer record later
      cases callAdapter won.indexName answer with
      | error e => exact fun _ => later.quiet
      | ok description =>
        simp only [Contract.ends]
        split
        next =>
          apply goes_seq _ (goes_stopped (goes_absorbConflict later))
          exact fun _ _ ended => goes_throw fun _ => ended.quiet
        next => exact exits.finalizeReady won later

theorem leaves_finalizeReady (won : IndexRegistryEntry) (underway : Underway worker own) :
    Leaves worker i (worker.provisioner.finalizeReady (fuel + 1) worker.scenario won) own := by
  simp only [IndexProvisioner.finalizeReady]
  apply goes_tryCatch
  apply goes_markReady underway
  intro e record later
  dsimp only
  split
  next => exact goes_throw fun _ => later.quiet
  next =>
    apply goes_bind
    apply goes_get later
    next => exact fun _ absent => exits.claimNew absent
    next => exact fun _ _ read => exits.afterLosingClaim read
    next => exact fun _ _ failed _ => failed.quiet

theorem leaves_afterLosingClaim {entry : IndexRegistryEntry} (read : Read worker entry own) :
    Leaves worker i (worker.provisioner.afterLosingClaim (fuel + 1) worker.scenario entry) own := by
  simp only [IndexProvisioner.afterLosingClaim]
  split
  next ready => exact goes_pure (read.ready ready)
  next status => exact exits.waitForReady entry (read.unready (by simp [status]))
  next status => exact goes_throw fun _ => (read.unready (by simp [status])).quiet
  next status => exact goes_throw fun _ => (read.unready (by simp [status])).quiet

theorem leaves_waitForReady (entry : IndexRegistryEntry) (underway : Underway worker own) :
    Leaves worker i (worker.provisioner.waitForReady (fuel + 1) worker.scenario entry) own := by
  apply goes_bind
  exact goes_clock underway fun _ _ told => exits.waitLoop _ _ entry told

theorem leaves_waitLoop (indexName : String) (deadline : DateTime) (current : IndexRegistryEntry)
    (underway : Underway worker own) :
    Leaves worker i (worker.provisioner.waitLoop (fuel + 1) worker.scenario indexName deadline current) own := by
  simp only [IndexProvisioner.waitLoop]
  apply goes_bind
  apply goes_timeTest underway
  intro stale record tested
  apply goes_seq fun _ => Underway worker
  next =>
    cases stale with
    | false => exact goes_pure tested
    | true => exact goes_stopped (goes_tryReclaim tested)
  next =>
    intro reclaimed own underway
    cases reclaimed with
    | some won => exact exits.claimAndCreate won underway
    | none =>
      apply goes_bind
      apply goes_clock underway
      intro now record told
      split
      next => exact goes_throw fun _ => told.quiet
      next =>
        apply goes_bind
        apply goes_internal (o := .sleep worker.provisioner.config.waitPollIntervalSeconds) rfl told
        intro _ record slept
        apply goes_bind
        apply goes_get slept
        next => exact fun _ absent => exits.claimNew absent
        next =>
          intro entry record read
          dsimp only
          split
          next => exact exits.afterLosingClaim read
          next waiting =>
            have unready : entry.status ≠ .ready := by
              have provisioning : entry.status = .provisioning := by simpa using waiting
              simp [provisioning]
            exact exits.waitLoop indexName deadline entry (read.unready unready)
        next => exact fun _ _ failed _ => failed.quiet

end Successor

theorem exits (fuel : Nat) : Exits worker i fuel := by
  induction fuel with
  | zero => exact exits_zero
  | succ fuel ih =>
    constructor
    next => exact leaves_claimNew ih
    next => exact leaves_claimAndCreate ih
    next => exact leaves_finalizeReady ih
    next => exact leaves_afterLosingClaim ih
    next => exact leaves_waitForReady ih
    next => exact leaves_waitLoop ih

theorem leaves_ensure (fuel : Nat) : Leaves worker i (worker.provisioner.ensure fuel worker.scenario) [] := by
  have flows : Exits worker i fuel := exits fuel
  apply goes_bind
  have nothing : Quiet worker ([] : Record ι) := trivial
  apply goes_op (o := .registry (.get worker.scenario.indexName)) nothing
  intro answer s t
  have quiet : Quiet worker [⟨i, .registry (.get worker.scenario.indexName), answer, s, t⟩] := ⟨rfl, trivial⟩
  have registers : Registers worker [⟨i, .registry (.get worker.scenario.indexName), answer, s, t⟩] := by
    intro deed member candidate noted
    rw [List.mem_singleton.mp member] at noted
    cases noted
  cases answer with
  | error e => exact fun _ => quiet
  | ok found =>
    have underway (unready : ∀ entry, found = some entry → entry.status ≠ .ready) :
        Underway worker [⟨i, .registry (.get worker.scenario.indexName), .ok found, s, t⟩] := by
      refine ⟨quiet, registers, by simp, fun first entry same shown => unready entry ?_⟩
      rw [← (List.cons.inj same).1] at shown
      exact shown
    cases found with
    | none => exact flows.claimNew (underway (by simp))
    | some entry =>
      change Leaves worker i (worker.provisioner.dispatchExisting fuel worker.scenario entry) _
      simp only [IndexProvisioner.dispatchExisting]
      split
      next ready => exact leaves_handleReady quiet registers rfl ready
      next status => exact flows.waitForReady entry (underway (by rintro _ ⟨rfl⟩; simp [status]))
      next => exact goes_throw fun _ => quiet
      next => exact goes_throw fun _ => quiet

end Flows

structure Usable (w : Worker) (entry : IndexRegistryEntry) : Prop where
  ready : entry.status = .ready
  compatible : ∃ template, w.provisioner.resolveTemplate w.scenario = .ok (template, entry.dimensions, entry.metric)

section Steps

variable {worker : Worker} {record earlier : Record ι} {deed : Deed Effects ι Shared} {entry current : IndexRegistryEntry}

theorem handed_touched (touched : touchedAs deed = some entry) : handed worker (deed :: record) = some entry := by
  have same := touched
  simp only [touchedAs] at touched
  split at touched
  next => rw [handed_written rfl rfl, same]; rfl
  next => cases touched

theorem handed_of_unchecked (given : unchecked worker record = some entry) : handed worker record = some entry := by
  simp only [unchecked, handed] at given ⊢
  cases early : (fastPath worker record).or (shownReady record) with
  | some found => simpa [early] using given
  | none =>
    rw [early, Option.none_or] at given
    rw [Option.none_or]
    split at given
    next => cases given
    next => rw [given, Option.some_or]

theorem handed_cases (taken : handed worker record = some entry) :
    unchecked worker record = some entry ∨ (opened record = true ∧ record.head?.bind madeReady = some entry) ∨
      record.head?.bind touchedAs = some entry := by
  simp only [unchecked, handed] at taken ⊢
  cases early : (fastPath worker record).or (shownReady record) with
  | some found =>
    rw [early, Option.some_or] at taken
    exact .inl taken
  | none =>
    rw [early, Option.none_or] at taken
    rw [Option.none_or]
    cases made : record.head?.bind madeReady with
    | none =>
      rw [made, Option.none_or] at taken
      exact .inr (.inr taken)
    | some found =>
      rw [made, Option.some_or] at taken
      obtain rfl := Option.some.inj taken
      cases own : opened record with
      | true => exact .inr (.inl ⟨rfl, rfl⟩)
      | false => exact .inl rfl

-- `touch_verified` answers with the entry that it came to, verified.
theorem touchedAs_eq (lawful : (officeTreaty ι).Lawful service earlier deed) :
    touchedEntry deed = none ∧ touchedAs deed = none ∨
      ∃ now, touchedAs deed = (touchedEntry deed).map (·.verified now) := by
  obtain ⟨w, same⟩ := lawful.handled
  obtain ⟨i, o, answer, before, after⟩ := deed
  have same : service w o before = (answer, after) := same
  obtain ⟨rfl, rfl⟩ := Prod.mk.inj same
  clear same lawful
  cases o with
  | registry call =>
    cases call with
    | touchVerified name =>
      obtain ⟨e, _, rejected⟩ | ⟨current, present, _, accepted⟩ :=
        before.registry.amend_cases name none (·.verified w.now)
      next =>
        simp only [Shared.call, InMemoryIndexRegistry.perform, InMemoryIndexRegistry.touchVerified, rejected]
        exact .inl ⟨rfl, rfl⟩
      next =>
        simp only [Shared.call, InMemoryIndexRegistry.perform, InMemoryIndexRegistry.touchVerified, accepted]
        exact .inr ⟨w.now, by simp [touchedAs, touchedEntry, present]⟩
    | _ => exact .inl ⟨rfl, rfl⟩
  | _ => exact .inl ⟨rfl, rfl⟩

theorem madeReady_eq (lawful : (officeTreaty ι).Lawful service earlier deed) (made : madeReady deed = some entry) :
    inserted deed = none ∧ ∃ indexName current now,
      deed.before.registry.get indexName = some current ∧ entry = current.readied now := by
  obtain ⟨w, same⟩ := lawful.handled
  simp only [madeReady] at made
  split at made
  next i name expected answer before after =>
    have accepted : (before.registry.amend name expected (·.readied w.now)).1 = .ok answer := congrArg Prod.fst same
    obtain rfl := Option.some.inj made
    obtain ⟨e, _, same⟩ | ⟨current, present, _, same⟩ :=
      before.registry.amend_cases name expected (·.readied w.now)
    next => simp [same] at accepted
    next =>
      rw [same] at accepted
      exact ⟨rfl, name, current, w.now, present, (Except.ok.inj accepted).symm⟩
  next => cases made

theorem stored_of_inserted (lawful : (officeTreaty ι).Lawful service earlier deed) (noted : inserted deed = some entry) :
    deed.after.registry.get entry.indexName = some entry := by
  obtain ⟨w, same⟩ := lawful.handled
  simp only [inserted] at noted
  split at noted
  next i candidate answer before after =>
    split at noted
    next absent =>
      obtain rfl := Option.some.inj noted
      obtain ⟨existing, present, _⟩ | ⟨_, registered⟩ := before.registry.register_cases candidate
      next => simp [absent] at present
      next =>
        have stored : after = (service w (.registry (.register candidate)) before).2 := (congrArg Prod.snd same).symm
        simp [stored, service, InMemoryIndexRegistry.perform, registered]
    next => cases noted
  next => cases noted

-- What one step of a worker leads to, from the step alone.
theorem takes_of_silent (lawful : (officeTreaty ι).Lawful service earlier deed)
    (silent : handed worker (deed :: record) = none) : TakesUsable worker (deed :: record) := by
  constructor
  next =>
    intro entry given
    simp [handed_of_unchecked given] at silent
  next =>
    intro entry touched
    have touched : touchedEntry deed = some entry := touched
    obtain ⟨none, _⟩ | ⟨now, answered⟩ := touchedAs_eq lawful
    next => simp [none] at touched
    next => simp [handed, answered, touched] at silent

theorem takes_of_usable (lawful : (officeTreaty ι).Lawful service earlier deed)
    (given : Handed worker entry (deed :: record)) (usable : Usable worker entry) :
    TakesUsable worker (deed :: record) := by
  have suits : Suits worker entry := (suits_iff worker entry).mpr usable.compatible
  constructor
  next =>
    intro other taken
    obtain rfl : other = entry := Option.some.inj ((handed_of_unchecked taken).symm.trans given.taken)
    exact suits
  next =>
    intro current touched
    have touched : touchedEntry deed = some current := touched
    obtain ⟨none, _⟩ | ⟨now, answered⟩ := touchedAs_eq lawful
    next => simp [none] at touched
    next =>
      rw [touched] at answered
      have answered : touchedAs deed = some (current.verified now) := answered
      obtain rfl := Option.some.inj (given.taken.symm.trans (handed_touched answered))
      have ready : current.status = .ready := usable.ready
      refine ⟨by simp [ready], fun description told => ?_⟩
      obtain ⟨compared, described, terms⟩ := given.compared _ answered
      obtain rfl : compared = description := Option.some.inj (described.symm.trans told)
      have same : (compared.dimensions, compared.metric) = (current.dimensions, current.metric) :=
        Option.some.inj (terms.symm.trans suits)
      obtain ⟨dimensions, metric⟩ := Prod.mk.inj same
      exact congrArg₂ IndexDescription.mk dimensions metric

-- Of an index that the worker claimed first, the entry keeps the worker's terms.
theorem suits_of_opened {i : ι} [DecidableEq ι] (lawful : (officeTreaty ι).Lawful service earlier deed)
    (before : Chronicle.Each ((officeTreaty ι).Lawful service) earlier)
    (registers : Registers worker (deed :: Chronicle.own i earlier)) (opens : opened (deed :: Chronicle.own i earlier))
    (made : madeReady deed = some entry) (named : entry.indexName = worker.scenario.indexName) :
    Suits worker entry := by
  obtain ⟨fresh, indexName, current, now, present, rfl⟩ := madeReady_eq lawful made
  have regular : Regular (deed.before, earlier) := lawful.sound
  obtain ⟨opening, member, noted⟩ := List.any_eq_true.mp opens
  obtain ⟨candidate, noted⟩ := Option.isSome_iff_exists.mp noted
  obtain ⟨claimed, suits⟩ := registers opening member candidate noted
  rcases List.mem_cons.mp member with rfl | member
  next => simp [fresh] at noted
  next =>
    have member : opening ∈ earlier := (List.mem_filter.mp member).1
    obtain ⟨_, _, _, lawful'⟩ := Chronicle.each_mem before member
    have key : indexName = candidate.indexName := by
      rw [← regular.named indexName current (stored_current present), claimed]
      exact named
    subst key
    obtain ⟨kept, held, dimensions, metric⟩ :=
      regular.lasting opening member _ candidate (stored_of_inserted lawful' noted)
    obtain rfl : kept = current := Option.some.inj (held.symm.trans present)
    rw [Suits, suits, ← dimensions, ← metric]
    rfl

theorem usable_of_takes {i : ι} [DecidableEq ι] (lawful : (officeTreaty ι).Lawful service earlier deed)
    (before : Chronicle.Each ((officeTreaty ι).Lawful service) earlier)
    (given : Handed worker entry (deed :: Chronicle.own i earlier))
    (named : entry.indexName = worker.scenario.indexName) (ready : entry.status = .ready)
    (takes : TakesUsable worker (deed :: Chronicle.own i earlier)) : Usable worker entry := by
  refine ⟨ready, (suits_iff worker entry).mp ?_⟩
  obtain taken | ⟨opens, made⟩ | touched := handed_cases given.taken
  next => exact takes.compared entry taken
  next => exact suits_of_opened lawful before given.registers opens made named
  next =>
    have touched : touchedAs deed = some entry := touched
    obtain ⟨_, none⟩ | ⟨now, answered⟩ := touchedAs_eq lawful
    next => simp [none] at touched
    next =>
      obtain ⟨current, came, rfl⟩ := Option.map_eq_some_iff.mp (answered.symm.trans touched)
      obtain ⟨description, described, terms⟩ := given.compared _ touched
      have same := (takes.recognized current came).2 description described
      rw [Suits, terms, same]
      rfl

end Steps

variable [DecidableEq ι]

abbrev ownRecord (parties : ι → Party) (schedule : List (ι × World)) (i : ι) : Record ι :=
  Chronicle.own i (atWork parties schedule).state.2

def ReturnsUsable (parties : ι → Party) (schedule : List (ι × World)) : Prop :=
  ∀ i w entry, parties i = .worker w → (atWork parties schedule).threads i = .ret (.ok entry) → Usable w entry

def AllTakeUsable (parties : ι → Party) (schedule : List (ι × World)) : Prop :=
  ∀ i w, parties i = .worker w →
    Chronicle.Each (fun earlier deed => TakesUsable w (deed :: earlier)) (ownRecord parties schedule i)

-- The fuel of a worker was too little for the run.
def CutOff (parties : ι → Party) (schedule : List (ι × World)) : Prop :=
  ∃ i, (atWork parties schedule).threads i = .ret (.error .unfinished)

def Party.during : Party → Record ι → Prop
  | .worker w => Quiet w
  | .administrator _ => fun _ => True

def Party.ended : Party → Except Raised IndexRegistryEntry → Record ι → Prop
  | .worker w => Contract.ends (Handed w) (Stopped w)
  | .administrator _ => fun _ _ => True

theorem office_attended (parties : ι → Party) (schedule : List (ι × World)) (i : ι) :
    Chronicle.Attended service i (parties i).during ((atWork parties schedule).threads i) (parties i).ended
      (ownRecord parties schedule i) := by
  have start (j : ι) : Chronicle.Attended service j (parties j).during ((office parties).threads j) (parties j).ended
      (Chronicle.own j (office parties).state.2) := by
    change Chronicle.Attended service j _ (parties j).program _ []
    cases parties j with
    | worker w => exact leaves_ensure w.fuel
    | administrator name => exact ⟨trivial, fun _ _ => trivial⟩
  exact Chronicle.attended_run start schedule i

omit [DecidableEq ι] in
theorem takes_of_quiet {worker : Worker} {record : Record ι}
    (lawful : Chronicle.Each (fun _ deed => ∃ earlier, (officeTreaty ι).Lawful service earlier deed) record)
    (quiet : Quiet worker record) : Chronicle.Each (fun earlier deed => TakesUsable worker (deed :: earlier)) record := by
  induction record with
  | nil => trivial
  | cons deed rest ih =>
    obtain ⟨earlier, lawful'⟩ := lawful.1
    exact ⟨takes_of_silent lawful' quiet.1, ih lawful.2 quiet.2⟩

theorem own_lawful (parties : ι → Party) (schedule : List (ι × World)) (i : ι) :
    Chronicle.Each (fun before deed => ∃ earlier, Chronicle.own i earlier = before ∧
      (officeTreaty ι).Lawful service earlier deed ∧ Chronicle.Each ((officeTreaty ι).Lawful service) earlier)
      (ownRecord parties schedule i) :=
  Chronicle.each_own (Chronicle.each_before (office_lawful parties schedule).1) i

theorem returns_of_takes {parties : ι → Party} {schedule : List (ι × World)} (takes : AllTakeUsable parties schedule) :
    ReturnsUsable parties schedule := by
  intro i w entry party returned
  obtain ⟨_, _, kept⟩ := office_lawful parties schedule
  have attended := office_attended parties schedule i
  have delivered := kept i
  rw [returned, party] at attended delivered
  have given : Handed w entry (ownRecord parties schedule i) := attended
  have delivered : Delivers i w.scenario.indexName entry (atWork parties schedule).state :=
    delivered _ (grown_refl _)
  have steps := takes i w party
  have lawful := own_lawful parties schedule i
  have ready : entry.status = .ready := by
    refine delivered.ready.resolve_right ?_
    rintro ⟨deed, member, mine, current, touched, retired⟩
    have own : deed ∈ ownRecord parties schedule i := List.mem_filter.mpr ⟨member, by simpa using mine⟩
    obtain ⟨_, _, _, took⟩ := Chronicle.each_mem steps own
    exact (took.recognized current touched).1 retired
  cases last : ownRecord parties schedule i with
  | nil =>
    have taken := given.taken
    rw [last] at taken
    cases taken
  | cons deed rest =>
    rw [last] at given steps lawful
    obtain ⟨earlier, rfl, own, before⟩ := lawful.1
    exact usable_of_takes own before given delivered.named ready steps.1

theorem takes_of_returns {parties : ι → Party} {schedule : List (ι × World)} (whole : ¬ CutOff parties schedule)
    (usable : ReturnsUsable parties schedule) : AllTakeUsable parties schedule := by
  intro i w party
  have attended := office_attended parties schedule i
  have lawful : Chronicle.Each (fun _ deed => ∃ earlier, (officeTreaty ι).Lawful service earlier deed)
      (ownRecord parties schedule i) :=
    Chronicle.each_mono (fun _ _ ⟨earlier, _, own, _⟩ => ⟨earlier, own⟩) (own_lawful parties schedule i)
  cases current : (atWork parties schedule).threads i with
  | op o next =>
    rw [current, party] at attended
    exact takes_of_quiet lawful attended.1
  | ret result =>
    rw [current, party] at attended
    cases result with
    | error e => exact takes_of_quiet lawful (attended fun same => whole ⟨i, same ▸ current⟩)
    | ok entry =>
      have given : Handed w entry (ownRecord parties schedule i) := attended
      have returned := usable i w entry party current
      cases last : ownRecord parties schedule i with
      | nil => trivial
      | cons deed rest =>
        rw [last] at given lawful
        obtain ⟨earlier, own⟩ := lawful.1
        exact ⟨takes_of_usable own given returned, takes_of_quiet lawful.2 given.before⟩

-- A worker that is cut off may have been shown its entry and not have returned it yet.
theorem returns_usable (parties : ι → Party) (schedule : List (ι × World)) :
    (AllTakeUsable parties schedule → ReturnsUsable parties schedule) ∧
      (¬ CutOff parties schedule → (ReturnsUsable parties schedule ↔ AllTakeUsable parties schedule)) :=
  ⟨returns_of_takes, fun whole => ⟨takes_of_returns whole, returns_of_takes⟩⟩

def provisioned : List (Nat × World) :=
  [(0, {}), (0, {}), (0, { claimToken := "a" }), (0, {}), (0, {}), (0, {}), (0, sampleDescription), (0, {})]

def verifying : List (Nat × World) :=
  [(1, {}), (1, { now := seconds 300 }), (1, sampleDescription), (1, { now := seconds 300 })]

def colleagues : Nat → Party
  | 0 => .worker sampleWorker
  | 1 => .worker sampleWorker
  | _ => .administrator "policies"

def fourDimensions : Worker :=
  { sampleWorker with scenario := { sampleScenario with indexerDimensions := 4 } }

-- The index of the first worker has three dimensions.
def rivalDimensions : Nat → Party
  | 0 => .worker sampleWorker
  | 1 => .worker fourDimensions
  | _ => .administrator "policies"

def retiredMeanwhile : List (Nat × World) :=
  [(1, {}), (1, { now := seconds 300 }), (1, sampleDescription), (2, {}), (1, { now := seconds 300 })]

def askedAgain : List (Nat × World) := [(1, {}), (1, {})]

theorem takes_of_two {parties : Nat → Party} {schedule : List (Nat × World)} {first second : Worker}
    (zero : parties 0 = .worker first) (one : parties 1 = .worker second)
    (others : ∀ i, parties (i + 2) = .administrator "policies")
    (take : ∀ known ∈ [(0, first), (1, second)], Chronicle.Each
      (fun earlier deed => TakesUsable known.2 (deed :: earlier)) (ownRecord parties schedule known.1)) :
    AllTakeUsable parties schedule := by
  intro i w party
  match i with
  | 0 =>
    obtain rfl := Party.worker.inj (zero.symm.trans party)
    exact take (0, first) (by simp)
  | 1 =>
    obtain rfl := Party.worker.inj (one.symm.trans party)
    exact take (1, second) (by simp)
  | i + 2 => cases (others i).symm.trans party

theorem returns_usable_after_verification :
    ReturnsUsable colleagues (provisioned ++ verifying) ∧ ReturnsUsable rivalDimensions (provisioned ++ verifying) := by
  constructor
  next =>
    apply (returns_usable _ _).1
    exact takes_of_two rfl rfl (fun _ => rfl) (by decide)
  next =>
    apply (returns_usable _ _).1
    exact takes_of_two rfl rfl (fun _ => rfl) (by decide)

theorem unusable_entries_returned :
    ¬ ReturnsUsable rivalDimensions (provisioned ++ askedAgain) ∧
      ¬ ReturnsUsable colleagues (provisioned ++ retiredMeanwhile) := by
  constructor
  next =>
    intro usable
    obtain ⟨_, template, resolved⟩ := usable 1 _ _ rfl rfl
    have terms := (Prod.mk.inj (Except.ok.inj resolved)).2
    exact absurd (congrArg Prod.fst terms) (by decide)
  next =>
    intro usable
    have ready := (usable 1 _ _ rfl rfl).ready
    exact absurd ready (by decide)

end Vestibule.Provisioning
