import Vestibule.Library.Layers
import Vestibule.Provisioning.Provisioner

set_option autoImplicit false

namespace Vestibule.Provisioning

open Library

-- Whatever a waiting worker is answered, in its own loop or in those that follow, it creates an index for an
-- entry that a `reclaim` gave it, or else after the registry had no entry any more and it claimed anew.

def polled : Event Effects → Option (Except ProvisioningError (Option IndexRegistryEntry))
  | ⟨.registry (.get _), answer⟩ => some answer
  | _ => none

def wonBack : Event Effects → Option IndexRegistryEntry
  | ⟨.registry (.reclaim _ _ _), .ok won⟩ => some won
  | _ => none

def rejected : Event Effects → Option ProvisioningError
  | ⟨.registry _, .error e⟩ => some e
  | _ => none

theorem rejected_of_polled {event : Event Effects} {e : ProvisioningError}
    (answered : polled event = some (.error e)) : rejected event = some e := by
  simp only [polled] at answered
  split at answered
  next indexName answer =>
    obtain rfl := Option.some.inj answered
    rfl
  next => cases answered

def Vanished (past : List (Event Effects)) : Prop := ∃ event ∈ past, polled event = some (.ok none)

def Earned (past : List (Event Effects)) (won : IndexRegistryEntry) : Prop :=
  Vanished past ∨ ∃ event ∈ past, wonBack event = some won

/-- An index is created as an entry says that was earned before. -/
def CreatesOwn (o : Op) (past : List (Event Effects)) : Prop :=
  match o with
  | .createIndex indexName template dimensions metric =>
      ∃ won, Earned past won ∧ won.indexName = indexName ∧ won.resolvedTemplate = some template ∧
        won.dimensions = dimensions ∧ won.metric = metric
  | _ => True

variable {past now : List (Event Effects)}

theorem Vanished.later (vanished : Vanished past) (more : past ⊆ now) : Vanished now := by
  obtain ⟨event, member, answered⟩ := vanished
  exact ⟨event, more member, answered⟩

theorem Earned.later {won : IndexRegistryEntry} (earned : Earned past won) (more : past ⊆ now) : Earned now won := by
  rcases earned with vanished | ⟨event, member, answered⟩
  next => exact .inl (vanished.later more)
  next => exact .inr ⟨event, more member, answered⟩

section Rules

variable {α β : Type}

def Leads (p : Py α) (ok : α → List (Event Effects) → Prop) (past : List (Event Effects)) : Prop :=
  (Interface.history CreatesOwn).Meets p.run
    (fun result now => past ⊆ now ∧ ∀ value, result = .ok value → ok value now) past

def Rightful (p : Py α) (past : List (Event Effects)) : Prop := Leads p (fun _ _ => True) past

variable {ok : α → List (Event Effects) → Prop} {mid : β → List (Event Effects) → Prop}

theorem leads_pure {value : α} (holds : ok value past) : Leads (pure value) ok past := by
  refine ⟨List.Subset.refl _, ?_⟩
  rintro _ ⟨rfl⟩
  exact holds

theorem leads_throw (raised : Raised) : Leads (throw raised) ok past :=
  ⟨List.Subset.refl _, fun _ same => by cases same⟩

theorem leads_result (result : Except Raised α) : Rightful (ExceptT.mk (.ret result)) past :=
  ⟨List.Subset.refl _, fun _ _ => trivial⟩

theorem leads_op {o : Op} {decode : Op.Res o → Except Raised α} (permitted : CreatesOwn o past)
    (answered : ∀ answer value, decode answer = .ok value → ok value (past ++ [⟨o, answer⟩])) :
    Leads (ExceptT.mk (.op o fun answer => .ret (decode answer))) ok past := by
  refine ⟨permitted, ?_⟩
  rintro answer _ rfl
  exact ⟨List.subset_append_left _ _, answered answer⟩

theorem rightful_op {o : Op} {decode : Op.Res o → Except Raised α} (permitted : CreatesOwn o past) :
    Rightful (ExceptT.mk (.op o fun answer => .ret (decode answer))) past :=
  leads_op permitted fun _ _ _ => trivial

theorem Leads.since {p : Py α} (leads : Leads p ok now) (more : past ⊆ now) :
    (Interface.history CreatesOwn).Meets p.run
      (fun result later => past ⊆ later ∧ ∀ value, result = .ok value → ok value later) now :=
  Interface.meets_mono (fun _ _ ended => ⟨List.Subset.trans more ended.1, ended.2⟩) leads

theorem leads_bind {p : Py β} {f : β → Py α} (first : Leads p mid past)
    (rest : ∀ value now, past ⊆ now → mid value now → Leads (f value) ok now) : Leads (p >>= f) ok past := by
  rw [Leads]
  apply Interface.meets_run_bind
  refine Interface.meets_mono (fun result now ended => ?_) first
  obtain ⟨more, holds⟩ := ended
  cases result with
  | ok value => exact (rest value now more (holds value rfl)).since more
  | error e => exact ⟨more, fun _ same => by cases same⟩

theorem leads_tryCatch {p : Py α} {handle : Raised → Py α} (first : Leads p ok past)
    (rest : ∀ e now, past ⊆ now → Leads (handle e) ok now) : Leads (tryCatch p handle) ok past := by
  rw [Leads]
  apply Interface.meets_run_tryCatch
  refine Interface.meets_mono (fun result now ended => ?_) first
  obtain ⟨more, holds⟩ := ended
  cases result with
  | ok value => exact ⟨more, holds⟩
  | error e => exact (rest e now more).since more

end Rules

variable {provisioner : IndexProvisioner} {scenario : IndexScenario}

theorem rightful_clock : Rightful Py.clock past := rightful_op (o := .clock) trivial

theorem rightful_registry (call : RegistryCall) : Rightful (Py.registry call) past :=
  rightful_op (o := .registry call) trivial

theorem leads_get (indexName : String) :
    Leads (Py.registry (.get indexName)) (fun found now => found = none → Vanished now) past := by
  refine leads_op (o := .registry (.get indexName)) trivial fun answer value decoded absent => ?_
  refine ⟨_, List.mem_append_right _ (List.mem_singleton.mpr rfl), ?_⟩
  cases answer with
  | error e => cases decoded
  | ok found =>
    obtain rfl := Except.ok.inj decoded
    subst absent
    rfl

theorem leads_reclaim (indexName : String) (observed newEntry : IndexRegistryEntry) :
    Leads (Py.registry (.reclaim indexName observed newEntry)) (fun won now => Earned now won) past := by
  refine leads_op (o := .registry (.reclaim indexName observed newEntry)) trivial fun answer won decoded => ?_
  refine .inr ⟨_, List.mem_append_right _ (List.mem_singleton.mpr rfl), ?_⟩
  cases answer with
  | error e => cases decoded
  | ok entry =>
    obtain rfl := Except.ok.inj decoded
    rfl

theorem rightful_timeTest (time : Option DateTime) (test : DateTime → DateTime → Bool) :
    Rightful (IndexProvisioner.timeTest time test) past := by
  cases time with
  | none => exact leads_pure trivial
  | some time => exact leads_bind rightful_clock fun _ _ _ _ => leads_pure trivial

theorem rightful_absorbConflict {α : Type} {write : Py α} (rightful : Rightful write past) :
    Rightful (absorbConflict write) past := by
  apply leads_tryCatch (leads_bind rightful fun _ _ _ _ => leads_pure trivial)
  intro e now _
  cases e with
  | provisioning e =>
    dsimp only
    split
    next => exact leads_throw _
    next => exact leads_pure trivial
  | other text => exact leads_throw _
  | unfinished => exact leads_throw _

theorem rightful_createFor {won : IndexRegistryEntry} (earned : Earned past won) :
    Rightful (IndexProvisioner.createFor won) past := by
  simp only [IndexProvisioner.createFor]
  split
  next => exact leads_throw _
  next template carried =>
    have permitted : CreatesOwn (.createIndex won.indexName template won.dimensions won.metric) past :=
      ⟨won, earned, rfl, carried, rfl, rfl⟩
    apply leads_tryCatch (rightful_op permitted)
    intro e now _
    cases e with
    | provisioning e =>
      apply leads_bind (rightful_absorbConflict (rightful_registry _))
      exact fun _ _ _ _ => leads_throw _
    | other text => exact leads_throw _
    | unfinished => exact leads_throw _

theorem leads_tryReclaim (observed : IndexRegistryEntry) :
    Leads (IndexProvisioner.tryReclaim observed)
      (fun reclaimed now => ∀ won, reclaimed = some won → Earned now won) past := by
  apply leads_bind (rightful_op (o := .newClaimToken) trivial)
  intro claimToken past _ _
  apply leads_bind rightful_clock
  intro claimedAt past _ _
  apply leads_tryCatch
  next =>
    apply leads_bind (leads_reclaim observed.indexName observed (observed.claimedBy claimToken claimedAt))
    intro entry now _ earned
    apply leads_pure
    rintro won ⟨rfl⟩
    exact earned
  next =>
    intro e now _
    cases e with
    | provisioning e =>
      dsimp only
      split
      next => exact leads_pure fun _ same => by cases same
      next => exact leads_throw _
    | other text => exact leads_throw _
    | unfinished => exact leads_throw _

structure RightfulFlows (provisioner : IndexProvisioner) (scenario : IndexScenario) (fuel : Nat) : Prop where
  claimNew : ∀ {past}, Vanished past → Rightful (provisioner.claimNew fuel scenario) past
  claimAndCreate : ∀ {won past}, Earned past won → Rightful (provisioner.claimAndCreate fuel scenario won) past
  finalizeReady : ∀ won past, Rightful (provisioner.finalizeReady fuel scenario won) past
  afterLosingClaim : ∀ entry past, Rightful (provisioner.afterLosingClaim fuel scenario entry) past
  waitForReady : ∀ entry past, Rightful (provisioner.waitForReady fuel scenario entry) past
  waitLoop : ∀ indexName deadline current past,
    Rightful (provisioner.waitLoop fuel scenario indexName deadline current) past

theorem rightfulFlows_zero : RightfulFlows provisioner scenario 0 where
  claimNew _ := leads_throw _
  claimAndCreate _ := leads_throw _
  finalizeReady _ _ := leads_throw _
  afterLosingClaim _ _ := leads_throw _
  waitForReady _ _ := leads_throw _
  waitLoop _ _ _ _ := leads_throw _

section Successor

variable {fuel : Nat} (flows : RightfulFlows provisioner scenario fuel)

include flows

theorem rightful_claimNew (vanished : Vanished past) : Rightful (provisioner.claimNew (fuel + 1) scenario) past := by
  simp only [IndexProvisioner.claimNew]
  split
  next =>
    apply leads_bind (leads_result _)
    intro resolved now more _
    have vanished := vanished.later more
    apply leads_bind rightful_clock
    intro time now more _
    have vanished := vanished.later more
    apply leads_bind (rightful_op (o := .newClaimToken) trivial)
    intro token now more _
    have vanished := vanished.later more
    apply leads_bind (rightful_registry _)
    intro won now more _
    have vanished := vanished.later more
    split
    next => exact flows.claimAndCreate (.inl vanished)
    next => exact flows.afterLosingClaim won now
  next => exact leads_throw _

theorem rightful_claimAndCreate {won : IndexRegistryEntry} (earned : Earned past won) :
    Rightful (provisioner.claimAndCreate (fuel + 1) scenario won) past := by
  simp only [IndexProvisioner.claimAndCreate]
  apply leads_bind (rightful_op (o := .indexExists won.indexName) trivial)
  intro alreadyExists now more _
  have created : Rightful (if alreadyExists then pure () else IndexProvisioner.createFor won) now := by
    split
    next => exact leads_pure trivial
    next => exact rightful_createFor (earned.later more)
  apply leads_bind created
  intro _ now _ _
  apply leads_bind (rightful_op (o := .describeIndex won.indexName) trivial)
  intro description now _ _
  split
  next =>
    apply leads_bind (rightful_absorbConflict (rightful_registry _))
    exact fun _ _ _ _ => leads_throw _
  next => exact flows.finalizeReady won now

theorem rightful_finalizeReady (won : IndexRegistryEntry) (past : List (Event Effects)) :
    Rightful (provisioner.finalizeReady (fuel + 1) scenario won) past := by
  simp only [IndexProvisioner.finalizeReady]
  apply leads_tryCatch (rightful_registry _)
  intro e now _
  cases e with
  | provisioning e =>
    dsimp only
    split
    next => exact leads_throw _
    next =>
      apply leads_bind (leads_get won.indexName)
      intro found now _ absent
      cases found with
      | none => exact flows.claimNew (absent rfl)
      | some entry => exact flows.afterLosingClaim entry now
  | other text => exact leads_throw _
  | unfinished => exact leads_throw _

theorem rightful_afterLosingClaim (entry : IndexRegistryEntry) (past : List (Event Effects)) :
    Rightful (provisioner.afterLosingClaim (fuel + 1) scenario entry) past := by
  simp only [IndexProvisioner.afterLosingClaim]
  split
  next => exact leads_pure trivial
  next => exact flows.waitForReady entry past
  next => exact leads_throw _
  next => exact leads_throw _

theorem rightful_waitLoop (indexName : String) (deadline : DateTime) (current : IndexRegistryEntry)
    (past : List (Event Effects)) :
    Rightful (provisioner.waitLoop (fuel + 1) scenario indexName deadline current) past := by
  simp only [IndexProvisioner.waitLoop]
  apply leads_bind (rightful_timeTest _ _)
  intro stale now _ _
  have reclaimed : Leads (if stale then IndexProvisioner.tryReclaim current else pure none)
      (fun reclaimed now => ∀ won, reclaimed = some won → Earned now won) now := by
    split
    next => exact leads_tryReclaim current
    next => exact leads_pure fun _ same => by cases same
  apply leads_bind reclaimed
  intro reclaimed now _ earned
  cases reclaimed with
  | some won => exact flows.claimAndCreate (earned won rfl)
  | none =>
    apply leads_bind rightful_clock
    intro time now _ _
    split
    next => exact leads_throw _
    next =>
      apply leads_bind (rightful_op (o := .sleep provisioner.config.waitPollIntervalSeconds) trivial)
      intro _ now _ _
      apply leads_bind (leads_get indexName)
      intro found now _ absent
      cases found with
      | none => exact flows.claimNew (absent rfl)
      | some entry =>
        dsimp only
        split
        next => exact flows.afterLosingClaim entry now
        next => exact flows.waitLoop indexName deadline entry now

end Successor

theorem rightfulFlows (fuel : Nat) : RightfulFlows provisioner scenario fuel := by
  induction fuel with
  | zero => exact rightfulFlows_zero
  | succ fuel ih =>
    constructor
    next => exact rightful_claimNew ih
    next => exact rightful_claimAndCreate ih
    next => exact rightful_finalizeReady ih
    next => exact rightful_afterLosingClaim ih
    next => exact fun entry _ => leads_bind rightful_clock fun now later _ _ => ih.waitLoop _ _ entry later
    next => exact rightful_waitLoop ih

theorem waitForReady_creates_own {W σ : Type} (h : Handler Effects W σ) (fuel : Nat) (entry : IndexRegistryEntry)
    {oracle : Nat → W} {s : σ} {before later : List (Prog.Visit Effects W σ)} {visit : Prog.Visit Effects W σ}
    (split : Prog.visits h (provisioner.waitForReady fuel scenario entry).run oracle s = before ++ visit :: later) :
    CreatesOwn visit.op (before.map (Prog.Visit.event h)) :=
  Interface.permitted_of_meets ((rightfulFlows fuel).waitForReady entry []) h split

end Vestibule.Provisioning
