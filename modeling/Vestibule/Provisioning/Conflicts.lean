import Vestibule.Provisioning.Claims
import Vestibule.Provisioning.Overtaking

set_option autoImplicit false

namespace Vestibule.Provisioning

open Library

-- `ensure` is told of a lost race as a conflict. Every call site but that of `touch_verified` absorbs it.

variable {Data ι : Type} {codec : EntityCodec Data} {etags : Nat → String}

-- What matters to `ensure` of its answers: the names of the entries that it was shown, and whether its
-- `touch_verified` was refused.

structure Standing where
  seen : List String := []
  refused : Bool := false

def Proper (seen : List String) : Op → Prop
  | .registry (.touchVerified indexName) => indexName ∈ seen
  | .registry (.reclaim indexName _ newEntry) => newEntry.indexName = indexName
  | _ => True

def Answered : (o : Op) → Standing → o.Res → Standing → Prop
  | .registry (.get _), s, answer, t =>
      ∃ found, answer = .ok found ∧ t = { s with seen := found.toList.map (·.indexName) ++ s.seen }
  | .registry (.register _), s, answer, t => (∃ won, answer = .ok won) ∧ t = s
  | .registry (.touchVerified _), s, answer, t =>
      (∃ entry, answer = .ok entry) ∧ t = s ∨
        ∃ e, answer = .error e ∧ e.errorCode = indexProvisionConflict ∧ t = { s with refused := true }
  | .indexExists _, s, answer, t => Classified answer ∧ t = s
  | .createIndex _ _ _ _, s, answer, t => Classified answer ∧ t = s
  | .describeIndex _, s, answer, t => Classified answer ∧ t = s
  | _, s, _, t => t = s

def registryInterface : Interface Effects Standing where
  permit o s := s.refused = false ∧ Proper s.seen o
  answers := Answered

section Implementation

variable [DecidableEq ι] {i : ι}

structure Stands (i : ι) (t : BackendState Data ι) (standing : Standing) : Prop where
  seen : ∀ indexName ∈ standing.seen, ∃ vertical row, t.1.row (vertical, indexName) = some row
  refused : standing.refused = true ↔ OvertakenIn i t.2

theorem Stands.seen_later {s t : BackendState Data ι} {standing : Standing} (stands : Stands i s standing)
    (advances : Advances etags s.1 t.1) (indexName : String) (member : indexName ∈ standing.seen) :
    ∃ vertical row, t.1.row (vertical, indexName) = some row := by
  obtain ⟨vertical, row, present⟩ := stands.seen indexName member
  obtain ⟨row, present⟩ := present_later advances present
  exact ⟨vertical, row, present⟩

theorem Stands.unharmed {s t : BackendState Data ι} {standing : Standing} (stands : Stands i s standing)
    (unharmed : Unharmed etags i s t) : Stands i t standing :=
  ⟨stands.seen_later unharmed.advances, stands.refused.trans unharmed.overtaken.symm⟩

theorem Stands.inTime {s : BackendState Data ι} {standing : Standing} (stands : Stands i s standing)
    (accepted : standing.refused = false) : ¬ OvertakenIn i s.2 := by
  intro lost
  simp [stands.refused.mpr lost] at accepted

theorem host_implements {o : Op} {s : BackendState Data ι} {standing : Standing} (stands : Stands i s standing)
    (inTime : ¬ OvertakenIn i s.2)
    (answered : ∀ w : Surroundings Data, Answered o standing (service w.host o {}).1 standing) :
    (raceContract codec etags i).Kept (.op (.host o) .ret : Prog (BackendEffects Data) o.Res)
      (fun answer t => ∃ standing', Answered o standing answer standing' ∧ Stands i t standing') s := by
  intro t apart filed
  have before := unharmed_apart apart
  refine ⟨⟨before.inTime inTime, fun _ => filed⟩, fun w u later => ⟨standing, answered w, ?_⟩⟩
  have own : Unharmed etags i t (Chronicle.recorded (backend etags) i w (.host o) t).2 := unharmed_plain rfl
  exact stands.unharmed (before.trans (own.trans (unharmed_apart later)))

theorem amend_implements (fresh : Function.Injective etags) {call : RegistryCall} {indexName : String}
    {expected : Option String} {revision : TablePy Data (IndexRegistryEntry → IndexRegistryEntry)}
    (revises : ∀ s : BackendState Data ι, ¬ OvertakenIn i s.2 → (callContract codec etags call i).KeptRun revision
      (Revising codec etags i s) (fun _ _ => False) s)
    {s : BackendState Data ι} {standing : Standing} (stands : Stands i s standing) (inTime : ¬ OvertakenIn i s.2)
    (known : call.isTouch = true → expected = none ∧ indexName ∈ standing.seen) :
    (callContract codec etags call i).KeptRun (TableStorageIndexRegistry.amend codec indexName expected revision)
      (fun _ t => Stands i t standing)
      (fun e t => e.errorCode = indexProvisionConflict ∧ Stands i t { standing with refused := call.isTouch }) s := by
  have known' (touch : call.isTouch = true) :
      expected = none ∧ ∃ vertical row, s.1.row (vertical, indexName) = some row :=
    ⟨(known touch).1, stands.seen indexName (known touch).2⟩
  refine Contract.kept_mono (fun result t ended => ?_) (amend_answers fresh revises known' inTime)
  cases result with
  | ok entry => exact stands.unharmed ended
  | error e => exact ⟨ended.conflict, stands.seen_later ended.advances, ended.overtaken.symm⟩

-- The updates other than that of `touch_verified`.
theorem mark_implements (fresh : Function.Injective etags) {call : RegistryCall} (plain : call.isTouch = false)
    {indexName : String} {expected : Option String} {revision : TablePy Data (IndexRegistryEntry → IndexRegistryEntry)}
    (revises : ∀ s : BackendState Data ι, ¬ OvertakenIn i s.2 → (callContract codec etags call i).KeptRun revision
      (Revising codec etags i s) (fun _ _ => False) s)
    {s : BackendState Data ι} {standing : Standing} (stands : Stands i s standing) (accepted : standing.refused = false) :
    (callContract codec etags call i).Kept (TableStorageIndexRegistry.amend codec indexName expected revision).run
      (fun _ t => Stands i t standing) s := by
  have inTime := stands.inTime accepted
  refine Contract.kept_mono (fun result t ended => ?_)
    (amend_implements fresh revises stands inTime fun touch => by simp [plain] at touch)
  cases result with
  | ok entry => exact ended
  | error e => exact ⟨ended.2.seen, by simpa [accepted, plain] using ended.2.refused⟩

theorem onTableStorage_implements (fresh : Function.Injective etags) (o : Op) (s : BackendState Data ι)
    (standing : Standing) (stands : Stands i s standing) (permitted : registryInterface.permit o standing) :
    (raceContract codec etags i).Kept (onTableStorage codec o)
      (fun answer t => ∃ standing', registryInterface.answers o standing answer standing' ∧ Stands i t standing') s := by
  obtain ⟨accepted, proper⟩ := permitted
  have inTime := stands.inTime accepted
  cases o with
  | clock => exact host_implements stands inTime fun _ => rfl
  | newClaimToken => exact host_implements stands inTime fun _ => rfl
  | sleep interval => exact host_implements stands inTime fun _ => rfl
  | indexExists indexName => exact host_implements stands inTime fun w => ⟨w.existing, rfl⟩
  | createIndex indexName template dimensions metric => exact host_implements stands inTime fun w => ⟨w.created, rfl⟩
  | describeIndex indexName => exact host_implements stands inTime fun w => ⟨w.description, rfl⟩
  | registry call =>
    apply kept_madeFor
    cases call with
    | get indexName =>
      refine Contract.kept_mono (fun result t ended => ?_) (get_answers indexName inTime)
      cases result with
      | error e => exact ended.elim
      | ok found =>
        obtain ⟨known, unharmed⟩ := ended
        have later := stands.unharmed unharmed
        refine ⟨_, ⟨found, rfl, rfl⟩, fun name member => ?_, later.refused⟩
        rcases List.mem_append.mp member with new | old
        next =>
          obtain ⟨entry, shown, rfl⟩ := List.mem_map.mp new
          exact known entry (Option.mem_toList.mp shown)
        next => exact later.seen name old
    | register entry =>
      refine Contract.kept_mono (fun result t ended => ?_) (register_answers rfl entry inTime)
      cases result with
      | error e => exact ended.elim
      | ok won => exact ⟨standing, ⟨⟨won, rfl⟩, rfl⟩, stands.unharmed ended⟩
    | reclaim indexName observed newEntry =>
      refine Contract.kept_mono (fun result t ended => ⟨standing, rfl, ?_⟩) (reclaim_answers rfl proper inTime)
      cases result with
      | ok entry => exact stands.unharmed ended
      | error e => exact stands.unharmed ended
    | touchVerified indexName =>
      refine Contract.kept_mono (fun result t ended => ?_)
        (amend_implements fresh (fun s => ?_) stands inTime fun _ => ⟨rfl, proper⟩)
      next =>
        cases result with
        | ok entry => exact ⟨standing, .inl ⟨⟨entry, rfl⟩, rfl⟩, ended⟩
        | error e => exact ⟨_, .inr ⟨e, rfl, ended.1, rfl⟩, ended.2⟩
      next => exact atTime_answers (fun _ _ => rfl) (fun _ _ => rfl)
    | markReady indexName expected =>
      apply Contract.kept_mono (Q := fun _ t => Stands i t standing) fun _ _ still => ⟨standing, rfl, still⟩
      apply mark_implements fresh rfl _ stands accepted
      exact fun s => atTime_answers (fun _ _ => rfl) (fun _ _ => rfl)
    | markFailed indexName reason expected =>
      apply Contract.kept_mono (Q := fun _ t => Stands i t standing) fun _ _ still => ⟨standing, rfl, still⟩
      apply mark_implements fresh rfl _ stands accepted
      exact fun s _ => pure_answers (fun _ => rfl) (fun _ => rfl)
    | markRetired indexName =>
      apply Contract.kept_mono (Q := fun _ t => Stands i t standing) fun _ _ still => ⟨standing, rfl, still⟩
      apply mark_implements fresh rfl _ stands accepted
      exact fun s _ => pure_answers (fun _ => rfl) (fun _ => rfl)

end Implementation

def isConflict {α : Type} : Except Raised α → Bool
  | .error (.provisioning e) => e.errorCode = indexProvisionConflict
  | _ => false

section Flows

variable {α β : Type} {fine : Except Raised α → Prop}

/-- Whatever it is answered, `p` keeps away from `touch_verified` and ends as it should. -/
def Ends (fine : Except Raised α → Prop) (p : Py α) : Prop :=
  ∀ s : Standing, s.refused = false →
    registryInterface.Meets p.run (fun result t => (s.seen ⊆ t.seen ∧ t.refused = false) ∧ fine result) s

def Calm (p : Py α) : Prop := Ends (fun result => isConflict result = false) p

def Steady (p : Py α) : Prop := Ends (fun _ => True) p

theorem ends_result {result : Except Raised α} (holds : fine result) : Ends fine (ExceptT.mk (.ret result)) :=
  fun _ accepted => ⟨⟨List.Subset.refl _, accepted⟩, holds⟩

theorem calm_pure (value : α) : Calm (pure value : Py α) := ends_result rfl

theorem calm_throw {raised : Raised} (other : isConflict (.error raised : Except Raised α) = false) :
    Calm (throw raised : Py α) :=
  ends_result other

theorem ends_op {o : Op} {decode : o.Res → Except Raised α} (proper : ∀ seen, Proper seen o)
    (answered : ∀ s answer t, Answered o s answer t → (s.seen ⊆ t.seen ∧ t.refused = s.refused) ∧ fine (decode answer)) :
    Ends fine (ExceptT.mk (.op o fun answer => .ret (decode answer))) := by
  intro s accepted
  refine ⟨⟨accepted, proper s.seen⟩, fun answer t given => ?_⟩
  obtain ⟨⟨seen, same⟩, holds⟩ := answered s answer t given
  exact ⟨⟨seen, same.trans accepted⟩, holds⟩

theorem ends_bind {good : Except Raised β → Prop} {p : Py β} {f : β → Py α} (first : Ends good p)
    (rest : ∀ value, Ends fine (f value)) (raised : ∀ e, good (.error e) → fine (.error e)) : Ends fine (p >>= f) := by
  intro s accepted
  apply Interface.meets_run_bind
  refine Interface.meets_mono (fun result t ended => ?_) (first s accepted)
  obtain ⟨⟨seen, accepted⟩, holds⟩ := ended
  cases result with
  | error e => exact ⟨⟨seen, accepted⟩, raised e holds⟩
  | ok value =>
    refine Interface.meets_mono (fun result u ended => ?_) (rest value t accepted)
    exact ⟨⟨List.Subset.trans seen ended.1.1, ended.1.2⟩, ended.2⟩

theorem calm_bind {p : Py β} {f : β → Py α} (first : Calm p) (rest : ∀ value, Calm (f value)) : Calm (p >>= f) :=
  ends_bind first rest fun e other => by cases e <;> exact other

theorem steady_map {p : Py β} (f : β → α) (steady : Steady p) : Steady (p >>= fun value => pure (f value)) :=
  ends_bind steady (fun _ => ends_result trivial) fun _ _ => trivial

theorem calm_tryCatch {p : Py α} {handle : Raised → Py α} (first : Ends fine p)
    (rest : ∀ e, fine (.error e) → Calm (handle e)) : Calm (tryCatch p handle) := by
  intro s accepted
  apply Interface.meets_run_tryCatch
  refine Interface.meets_mono (fun result t ended => ?_) (first s accepted)
  obtain ⟨⟨seen, accepted⟩, holds⟩ := ended
  cases result with
  | ok value => exact ⟨⟨seen, accepted⟩, rfl⟩
  | error e =>
    refine Interface.meets_mono (fun result u ended => ?_) (rest e holds t accepted)
    exact ⟨⟨List.Subset.trans seen ended.1.1, ended.1.2⟩, ended.2⟩

theorem ends_idle {o : Op} {decode : o.Res → Except Raised α} (proper : ∀ seen, Proper seen o)
    (idle : ∀ s answer t, Answered o s answer t → t = s ∧ fine (decode answer)) :
    Ends fine (ExceptT.mk (.op o fun answer => .ret (decode answer))) := by
  apply ends_op proper
  intro s answer t given
  obtain ⟨rfl, holds⟩ := idle s answer t given
  exact ⟨⟨List.Subset.refl _, rfl⟩, holds⟩

theorem calm_get (indexName : String) : Calm (Py.registry (.get indexName)) := by
  apply ends_op (o := .registry (.get indexName)) fun _ => trivial
  rintro s answer t ⟨found, rfl, rfl⟩
  exact ⟨⟨List.subset_append_right _ _, rfl⟩, rfl⟩

theorem calm_register (entry : IndexRegistryEntry) : Calm (Py.registry (.register entry)) := by
  apply ends_idle (o := .registry (.register entry)) fun _ => trivial
  rintro s answer t ⟨⟨won, rfl⟩, same⟩
  exact ⟨same, rfl⟩

theorem steady_reclaim (observed : IndexRegistryEntry) (claimToken : String) (claimedAt : DateTime) :
    Steady (Py.registry (.reclaim observed.indexName observed (observed.claimedBy claimToken claimedAt))) :=
  ends_idle (o := .registry (.reclaim _ _ _)) (fun _ => rfl) fun _ _ _ same => ⟨same, trivial⟩

theorem steady_markReady (indexName : String) (expected : Option String) :
    Steady (Py.registry (.markReady indexName expected)) :=
  ends_idle (o := .registry (.markReady _ _)) (fun _ => trivial) fun _ _ _ same => ⟨same, trivial⟩

theorem steady_markFailed (indexName reason : String) (expected : Option String) :
    Steady (Py.registry (.markFailed indexName reason expected)) :=
  ends_idle (o := .registry (.markFailed _ _ _)) (fun _ => trivial) fun _ _ _ same => ⟨same, trivial⟩

theorem calm_clock : Calm Py.clock := ends_idle (o := .clock) (fun _ => trivial) fun _ _ _ same => ⟨same, rfl⟩

theorem calm_newClaimToken : Calm Py.newClaimToken :=
  ends_idle (o := .newClaimToken) (fun _ => trivial) fun _ _ _ same => ⟨same, rfl⟩

theorem calm_sleep (interval : TimeDelta) : Calm (Py.sleep interval) :=
  ends_idle (o := .sleep interval) (fun _ => trivial) fun _ _ _ same => ⟨same, rfl⟩

theorem isConflict_callAdapter {answer : Except AdapterError α} (classified : Classified answer) (indexName : String) :
    isConflict (callAdapter indexName answer) = false := by
  cases answer with
  | ok value => rfl
  | error e =>
    cases e with
    | other text => simp [callAdapter, isConflict, indexProvisionerUnavailable, indexProvisionConflict]
    | provisioning e =>
      rcases classified with code | code <;>
        simp [callAdapter, isConflict, code, indexProvisionerUnavailable, indexSchemaDrift, indexProvisionConflict]

theorem calm_indexExists (indexName : String) : Calm (Py.indexExists indexName) :=
  ends_idle (o := .indexExists indexName) (fun _ => trivial) fun _ _ _ given =>
    ⟨given.2, isConflict_callAdapter given.1 indexName⟩

theorem calm_createIndex (indexName : String) (template : IndexTemplate) (dimensions : Int) (metric : String) :
    Calm (Py.createIndex indexName template dimensions metric) :=
  ends_idle (o := .createIndex indexName template dimensions metric) (fun _ => trivial) fun _ _ _ given =>
    ⟨given.2, isConflict_callAdapter given.1 indexName⟩

theorem calm_describeIndex (indexName : String) : Calm (Py.describeIndex indexName) :=
  ends_idle (o := .describeIndex indexName) (fun _ => trivial) fun _ _ _ given =>
    ⟨given.2, isConflict_callAdapter given.1 indexName⟩

theorem resolveTemplate_error {provisioner : IndexProvisioner} {scenario : IndexScenario} {e : ProvisioningError}
    (failed : provisioner.resolveTemplate scenario = .error e) :
    e.errorCode = indexTemplateNotFound ∨ e.errorCode = indexTemplateInvalid := by
  simp only [IndexProvisioner.resolveTemplate] at failed
  generalize (if scenario.indexTemplateId.getD "" = "" then provisioner.config.defaultTemplateId
    else scenario.indexTemplateId.getD "") = templateId at failed
  cases found : provisioner.templates.get? templateId with
  | none =>
    simp only [getOrRaise, found] at failed
    obtain rfl := Except.error.inj failed
    exact .inl rfl
  | some template =>
    simp only [getOrRaise, found, bind, Except.bind] at failed
    split at failed
    next => simp at failed
    next =>
      split at failed
      next =>
        obtain rfl := Except.error.inj failed
        exact .inr rfl
      next => simp at failed

theorem calm_resolveTemplate (provisioner : IndexProvisioner) (scenario : IndexScenario) :
    Calm (Py.ofExcept (provisioner.resolveTemplate scenario)) := by
  apply ends_result
  cases resolved : provisioner.resolveTemplate scenario with
  | ok resolution => rfl
  | error e =>
    rcases resolveTemplate_error resolved with code | code <;>
      simp [Except.mapError, isConflict, code, indexTemplateNotFound, indexTemplateInvalid, indexProvisionConflict]

theorem calm_absorbConflict {write : Py α} (steady : Steady write) : Calm (absorbConflict write) := by
  apply calm_tryCatch (steady_map (fun _ => ()) steady)
  intro raised _
  cases raised with
  | provisioning e =>
    by_cases conflict : e.errorCode = indexProvisionConflict
    next =>
      simp only [conflict, ne_eq, not_true_eq_false, if_false]
      exact calm_pure ()
    next =>
      simp only [conflict, ne_eq, not_false_eq_true, if_true]
      exact calm_throw (by simp [isConflict, conflict])
  | other text => exact calm_throw rfl
  | unfinished => exact calm_throw rfl

theorem calm_createFor (won : IndexRegistryEntry) : Calm (IndexProvisioner.createFor won) := by
  simp only [IndexProvisioner.createFor]
  split
  next => exact calm_throw rfl
  next template _ =>
    apply calm_tryCatch (calm_createIndex won.indexName template won.dimensions won.metric)
    intro raised other
    cases raised with
    | provisioning e =>
      exact calm_bind (calm_absorbConflict (steady_markFailed _ _ _)) fun _ => calm_throw other
    | other text => exact calm_throw rfl
    | unfinished => exact calm_throw rfl

theorem calm_tryReclaim (observed : IndexRegistryEntry) : Calm (IndexProvisioner.tryReclaim observed) := by
  refine calm_bind calm_newClaimToken fun token => calm_bind calm_clock fun claimedAt => ?_
  apply calm_tryCatch (steady_map some (steady_reclaim observed token claimedAt))
  intro raised _
  cases raised with
  | provisioning e =>
    by_cases conflict : e.errorCode = indexProvisionConflict
    next =>
      simp only [conflict, if_true]
      exact calm_pure none
    next =>
      simp only [conflict, if_false]
      exact calm_throw (by simp [isConflict, conflict])
  | other text => exact calm_throw rfl
  | unfinished => exact calm_throw rfl

variable {provisioner : IndexProvisioner}

theorem calm_timeTest (time : Option DateTime) (test : DateTime → DateTime → Bool) :
    Calm (IndexProvisioner.timeTest time test) := by
  cases time with
  | none => exact calm_pure false
  | some time => exact calm_bind calm_clock fun now => calm_pure _

structure CalmFlows (provisioner : IndexProvisioner) (scenario : IndexScenario) (fuel : Nat) : Prop where
  claimNew : Calm (provisioner.claimNew fuel scenario)
  claimAndCreate : ∀ won, Calm (provisioner.claimAndCreate fuel scenario won)
  finalizeReady : ∀ won, Calm (provisioner.finalizeReady fuel scenario won)
  afterLosingClaim : ∀ entry, Calm (provisioner.afterLosingClaim fuel scenario entry)
  waitForReady : ∀ entry, Calm (provisioner.waitForReady fuel scenario entry)
  waitLoop : ∀ indexName deadline current, Calm (provisioner.waitLoop fuel scenario indexName deadline current)

variable {scenario : IndexScenario}

theorem calmFlows_zero : CalmFlows provisioner scenario 0 where
  claimNew := calm_throw rfl
  claimAndCreate _ := calm_throw rfl
  finalizeReady _ := calm_throw rfl
  afterLosingClaim _ := calm_throw rfl
  waitForReady _ := calm_throw rfl
  waitLoop _ _ _ := calm_throw rfl

theorem calm_failed (entry : IndexRegistryEntry) : Calm (throw (.provisioning (failedError entry)) : Py α) :=
  calm_throw (by simp [isConflict, failedError, indexProvisionFailed, indexProvisionConflict])

theorem calm_retired (entry : IndexRegistryEntry) : Calm (throw (.provisioning (retiredError entry)) : Py α) :=
  calm_throw (by simp [isConflict, retiredError, indexRetired, indexProvisionConflict])

section Successor

variable {fuel : Nat} (flows : CalmFlows provisioner scenario fuel)

include flows

theorem calm_claimNew : Calm (provisioner.claimNew (fuel + 1) scenario) := by
  simp only [IndexProvisioner.claimNew]
  split
  next =>
    refine calm_bind (calm_resolveTemplate provisioner scenario) fun resolved => ?_
    refine calm_bind calm_clock fun now => calm_bind calm_newClaimToken fun token => ?_
    refine calm_bind (calm_register _) fun won => ?_
    split
    next => exact flows.claimAndCreate won
    next => exact flows.afterLosingClaim won
  next => exact calm_throw (by simp [isConflict, indexAutoCreateDisabled, indexProvisionConflict])

theorem calm_claimAndCreate (won : IndexRegistryEntry) :
    Calm (provisioner.claimAndCreate (fuel + 1) scenario won) := by
  simp only [IndexProvisioner.claimAndCreate]
  refine calm_bind (calm_indexExists won.indexName) fun alreadyExists => ?_
  refine calm_bind ?_ fun _ => calm_bind (calm_describeIndex won.indexName) fun description => ?_
  next =>
    split
    next => exact calm_pure ()
    next => exact calm_createFor won
  next =>
    split
    next =>
      refine calm_bind (calm_absorbConflict (steady_markFailed _ _ _)) fun _ => calm_throw ?_
      simp [isConflict, indexSchemaDrift, indexProvisionConflict]
    next => exact flows.finalizeReady won

theorem calm_finalizeReady (won : IndexRegistryEntry) :
    Calm (provisioner.finalizeReady (fuel + 1) scenario won) := by
  simp only [IndexProvisioner.finalizeReady]
  apply calm_tryCatch (steady_markReady won.indexName won.claimToken)
  intro raised _
  cases raised with
  | provisioning e =>
    by_cases conflict : e.errorCode = indexProvisionConflict
    next =>
      simp only [conflict, ne_eq, not_true_eq_false, if_false]
      refine calm_bind (calm_get won.indexName) fun current => ?_
      cases current with
      | none => exact flows.claimNew
      | some entry => exact flows.afterLosingClaim entry
    next =>
      simp only [conflict, ne_eq, not_false_eq_true, if_true]
      exact calm_throw (by simp [isConflict, conflict])
  | other text => exact calm_throw rfl
  | unfinished => exact calm_throw rfl

theorem calm_afterLosingClaim (entry : IndexRegistryEntry) :
    Calm (provisioner.afterLosingClaim (fuel + 1) scenario entry) := by
  simp only [IndexProvisioner.afterLosingClaim]
  split
  next => exact calm_pure entry
  next => exact flows.waitForReady entry
  next => exact calm_failed entry
  next => exact calm_retired entry

theorem calm_waitLoop (indexName : String) (deadline : DateTime) (current : IndexRegistryEntry) :
    Calm (provisioner.waitLoop (fuel + 1) scenario indexName deadline current) := by
  simp only [IndexProvisioner.waitLoop]
  refine calm_bind (calm_timeTest _ _) fun stale => ?_
  refine calm_bind ?_ fun reclaimed => ?_
  next =>
    split
    next => exact calm_tryReclaim current
    next => exact calm_pure none
  next =>
    cases reclaimed with
    | some entry => exact flows.claimAndCreate entry
    | none =>
      refine calm_bind calm_clock fun now => ?_
      split
      next => exact calm_throw (by simp [isConflict, indexProvisionTimeout, indexProvisionConflict])
      next =>
        refine calm_bind (calm_sleep _) fun _ => calm_bind (calm_get indexName) fun refreshed => ?_
        cases refreshed with
        | none => exact flows.claimNew
        | some entry =>
          dsimp only
          split
          next => exact flows.afterLosingClaim entry
          next => exact flows.waitLoop indexName deadline entry

end Successor

theorem calmFlows (provisioner : IndexProvisioner) (scenario : IndexScenario) (fuel : Nat) :
    CalmFlows provisioner scenario fuel := by
  induction fuel with
  | zero => exact calmFlows_zero
  | succ fuel ih =>
    constructor
    next => exact calm_claimNew ih
    next => exact calm_claimAndCreate ih
    next => exact calm_finalizeReady ih
    next => exact calm_afterLosingClaim ih
    next => exact fun entry => calm_bind calm_clock fun now => ih.waitLoop _ _ entry
    next => exact calm_waitLoop ih

/-- A conflict is raised where a touch was refused, and nowhere else. -/
def Settled (result : Except Raised IndexRegistryEntry) (s : Standing) : Prop := s.refused = isConflict result

theorem Calm.settled {p : Py IndexRegistryEntry} (calm : Calm p) {s : Standing} (accepted : s.refused = false) :
    registryInterface.Meets p.run Settled s :=
  Interface.meets_mono (fun _ _ ended => ended.1.2.trans ended.2.symm) (calm s accepted)

theorem settled_bind {p : Py β} {f : β → Py IndexRegistryEntry} {s : Standing} (calm : Calm p)
    (accepted : s.refused = false)
    (rest : ∀ value t, s.seen ⊆ t.seen → t.refused = false → registryInterface.Meets (f value).run Settled t) :
    registryInterface.Meets (p >>= f).run Settled s := by
  apply Interface.meets_run_bind
  refine Interface.meets_mono (fun result t ended => ?_) (calm s accepted)
  obtain ⟨⟨seen, accepted⟩, other⟩ := ended
  cases result with
  | ok value => exact rest value t seen accepted
  | error e => cases e <;> exact accepted.trans other.symm

theorem isConflict_iff {result : Except Raised α} :
    isConflict result = true ↔ ∃ e, result = .error (.provisioning e) ∧ e.errorCode = indexProvisionConflict := by
  cases result with
  | ok value => simp [isConflict]
  | error raised => cases raised <;> simp [isConflict]

theorem touchVerified_settled {indexName : String} {s : Standing} (accepted : s.refused = false)
    (seen : indexName ∈ s.seen) : registryInterface.Meets (Py.registry (.touchVerified indexName)).run Settled s := by
  refine ⟨⟨accepted, seen⟩, fun answer t given => ?_⟩
  obtain ⟨⟨entry, rfl⟩, rfl⟩ | ⟨e, rfl, conflict, rfl⟩ := given
  next => exact accepted
  next => exact (isConflict_iff.mpr ⟨e, rfl, conflict⟩).symm

theorem calm_drifted (entry : IndexRegistryEntry) (template : IndexTemplate) (dimensions : Int) (metric : String)
    (description : Option IndexDescription) :
    Calm (ExceptT.mk (.ret (IndexProvisioner.drifted entry template dimensions metric description))) := by
  apply ends_result
  simp only [IndexProvisioner.drifted]
  split
  next => rfl
  next => split <;> rfl

theorem handleReady_settled {entry : IndexRegistryEntry} {s : Standing} (accepted : s.refused = false)
    (seen : entry.indexName ∈ s.seen) :
    registryInterface.Meets (provisioner.handleReady scenario entry).run Settled s := by
  simp only [IndexProvisioner.handleReady]
  apply settled_bind (calm_timeTest _ _) accepted
  intro recent t more accepted
  have seen := more seen
  cases recent with
  | true => exact (calm_pure entry).settled accepted
  | false =>
    apply settled_bind (calm_resolveTemplate provisioner scenario) accepted
    intro resolved u more accepted
    have seen := more seen
    apply settled_bind (calm_describeIndex entry.indexName) accepted
    intro description v more accepted
    have seen := more seen
    apply settled_bind (calm_drifted entry resolved.1 resolved.2.1 resolved.2.2 description) accepted
    intro drift x more accepted
    cases drift with
    | true =>
      refine Calm.settled (calm_throw ?_) accepted
      simp [isConflict, IndexProvisioner.driftError, indexSchemaDrift, indexProvisionConflict]
    | false => exact touchVerified_settled accepted (more seen)

theorem dispatchExisting_settled (fuel : Nat) {entry : IndexRegistryEntry} {s : Standing}
    (accepted : s.refused = false) (seen : entry.indexName ∈ s.seen) :
    registryInterface.Meets (provisioner.dispatchExisting fuel scenario entry).run Settled s := by
  simp only [IndexProvisioner.dispatchExisting]
  split
  next => exact handleReady_settled accepted seen
  next => exact ((calmFlows provisioner scenario fuel).waitForReady entry).settled accepted
  next => exact (calm_failed entry).settled accepted
  next => exact (calm_retired entry).settled accepted

theorem ensure_settled (fuel : Nat) : registryInterface.Meets (provisioner.ensure fuel scenario).run Settled {} := by
  apply Interface.meets_run_bind
  refine ⟨⟨rfl, trivial⟩, ?_⟩
  rintro answer s ⟨found, rfl, rfl⟩
  cases found with
  | none => exact (calmFlows provisioner scenario fuel).claimNew.settled rfl
  | some entry => exact dispatchExisting_settled fuel rfl (by simp)

end Flows

def Absorbed (c : TableFleet Data ι) : Prop :=
  ∀ i e, c.threads i = .ret (.error (.provisioning e)) → e.errorCode ≠ indexProvisionConflict

def hasRaisedConflict {S : Signature} {α : Type} : Prog S (Except Raised α) → Bool
  | .ret result => isConflict result
  | .op _ _ => false

theorem hasRaisedConflict_iff {S : Signature} {α : Type} (p : Prog S (Except Raised α)) :
    hasRaisedConflict p = true ↔
      ∃ e, p = .ret (.error (.provisioning e)) ∧ e.errorCode = indexProvisionConflict := by
  cases p with
  | ret result => simp [hasRaisedConflict, isConflict_iff]
  | op o next => simp [hasRaisedConflict]

variable [DecidableEq ι]

theorem ensuring_lawful (fresh : Function.Injective etags) (workers : ι → Worker) {table : Table Data}
    (filed : Filed codec etags table) (schedule : List (ι × Surroundings Data)) :
    Filed codec etags (ensuring codec etags workers table schedule).state.1 ∧
      ∀ i, (raceContract codec etags i).Kept ((ensuring codec etags workers table schedule).threads i)
        (fun result t => ∃ standing, Settled result standing ∧ Stands i t standing)
        (ensuring codec etags workers table schedule).state := by
  have start (i : ι) : Stands i (tableFleet codec workers table).state {} := ⟨by simp, by simp [OvertakenIn, tableFleet]⟩
  obtain ⟨_, sound, threads⟩ := Treaty.lawful_run raceTreaty_sustained (c := tableFleet codec workers table) rfl filed
    (fun i => Contract.kept_lower (fun stands apart => stands.unharmed (unharmed_apart apart))
      (onTableStorage_implements fresh) (ensure_settled (workers i).fuel) (start i)) schedule
  exact ⟨sound, threads⟩

theorem overtakenIn_iff (fresh : Function.Injective etags) (workers : ι → Worker) {table : Table Data}
    (filed : Filed codec etags table) (schedule : List (ι × Surroundings Data)) (i : ι) :
    OvertakenIn i (ensuring codec etags workers table schedule).state.2 ↔
      ∃ e, (ensuring codec etags workers table schedule).threads i = .ret (.error (.provisioning e)) ∧
        e.errorCode = indexProvisionConflict := by
  obtain ⟨sound, threads⟩ := ensuring_lawful fresh workers filed schedule
  have own := threads i
  cases current : (ensuring codec etags workers table schedule).threads i with
  | ret result =>
    rw [current] at own
    obtain ⟨standing, settled, stands⟩ := own _ (apart_refl i _)
    rw [← stands.refused, settled, ← hasRaisedConflict_iff]
    rfl
  | op o next =>
    rw [current] at own
    have inTime := (own _ (apart_refl i _) sound).1.1
    simpa using inTime

theorem conflicts_absorbed_iff (fresh : Function.Injective etags) (workers : ι → Worker) {table : Table Data}
    (filed : Filed codec etags table) (schedule : List (ι × Surroundings Data)) :
    Absorbed (ensuring codec etags workers table schedule) ↔
      NoneOvertaken (ensuring codec etags workers table schedule).state.2 := by
  rw [noneOvertaken_iff]
  simp only [overtakenIn_iff fresh workers filed schedule, Absorbed, not_exists, not_and]

-- Two workers verify at once: the first has provisioned the index, and the interval has passed.

theorem listed_as_found (found : List (TableEntityRecord IndexRegistryEntry)) : (id found).Perm found := .rfl

def around (time : Int) : Surroundings IndexRegistryEntry where
  table := { now := seconds time, complete := listed_as_found }
  host := { sampleDescription with now := seconds time, claimToken := "a" }
  existing := trivial
  created := trivial
  description := trivial

def turns (i : Nat) (count : Nat) (time : Int) : List (Nat × Surroundings IndexRegistryEntry) :=
  List.replicate count (i, around time)

def oneAfterTheOther : List (Nat × Surroundings IndexRegistryEntry) :=
  turns 0 10 0 ++ turns 1 6 300 ++ turns 2 6 600

def bothAtOnce : List (Nat × Surroundings IndexRegistryEntry) :=
  turns 0 10 0 ++ turns 1 5 300 ++ turns 2 6 300 ++ turns 1 1 300

theorem conflicts_absorbed_one_after_the_other :
    (Function.Injective countedEtags ∧ Filed plainCodec countedEtags {} ∧
        NoneOvertaken (ensuring plainCodec countedEtags (fun _ => sampleWorker) {} oneAfterTheOther).state.2) ∧
      Absorbed (ensuring plainCodec countedEtags (fun _ => sampleWorker) {} oneAfterTheOther) := by
  have inTime : NoneOvertaken (ensuring plainCodec countedEtags (fun _ => sampleWorker) {} oneAfterTheOther).state.2 := by
    decide +kernel
  have filed : Filed plainCodec countedEtags {} := filed_empty
  refine ⟨⟨countedEtags_injective, filed, inTime⟩, ?_⟩
  exact (conflicts_absorbed_iff countedEtags_injective (fun _ => sampleWorker) filed oneAfterTheOther).mpr inTime

theorem conflict_raised :
    ¬ Absorbed (ensuring plainCodec countedEtags (fun _ => sampleWorker) {} bothAtOnce) := by
  intro absorbed
  have raised : hasRaisedConflict ((ensuring plainCodec countedEtags (fun _ => sampleWorker) {} bothAtOnce).threads 1) =
      true := by
    decide +kernel
  obtain ⟨e, ended, conflict⟩ := (hasRaisedConflict_iff _).mp raised
  exact absorbed 1 e ended conflict

end Vestibule.Provisioning
