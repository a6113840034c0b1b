import Mathlib.Data.Rat.Floor
import Vestibule.Library.Loop
import Vestibule.Provisioning.Claims
import Vestibule.Provisioning.Creation

set_option autoImplicit false

namespace Vestibule.Provisioning

open Library
open Prog (Visit)

-- The loop of `_wait_for_ready` apart from what follows it: in which round it is left, by which of its
-- exits, and what was asked and answered until then.

inductive Departure where
  | reclaimed (won : IndexRegistryEntry)
  | timedOut
  | vanished
  | settled (entry : IndexRegistryEntry)
  deriving DecidableEq

namespace IndexProvisioner

variable (provisioner : IndexProvisioner)

def reclaimStale (current : IndexRegistryEntry) : Py (Option IndexRegistryEntry) := do
  let stale ← provisioner.isStale current
  if stale then tryReclaim current else pure none

def poll (indexName : String) (deadline : DateTime) : Py (IndexRegistryEntry ⊕ Departure) := do
  let now ← Py.clock
  if now ≥ deadline then pure (.inr .timedOut)
  else do
    Py.sleep provisioner.config.waitPollIntervalSeconds
    let refreshed ← Py.registry (.get indexName)
    match refreshed with
    | none => pure (.inr .vanished)
    | some entry => if entry.status ≠ .provisioning then pure (.inr (.settled entry)) else pure (.inl entry)

def waitRound (indexName : String) (deadline : DateTime) (current : IndexRegistryEntry) :
    Py (IndexRegistryEntry ⊕ Departure) := do
  let reclaimed ← provisioner.reclaimStale current
  match reclaimed with
  | some won => pure (.inr (.reclaimed won))
  | none => provisioner.poll indexName deadline

def leave (fuel : Nat) (scenario : IndexScenario) (indexName : String) : Departure → Py IndexRegistryEntry
  | .reclaimed won => provisioner.claimAndCreate fuel scenario won
  | .timedOut => throw (.provisioning ⟨indexName,
      "timed out waiting for another worker's provisioning claim to reach ready", indexProvisionTimeout⟩)
  | .vanished => provisioner.claimNew fuel scenario
  | .settled entry => provisioner.afterLosingClaim fuel scenario entry

def depart (fuel : Nat) (scenario : IndexScenario) (indexName : String) :
    Option (Nat × Except Raised Departure) → Prog Effects (Except Raised IndexRegistryEntry)
  | none => .ret (.error .unfinished)
  | some (_, .error raised) => .ret (.error raised)
  | some (rounds, .ok departure) => (provisioner.leave (fuel - rounds) scenario indexName departure).run

def deadline (now : DateTime) : DateTime := now + provisioner.config.waitForProvisioningTimeoutSeconds

def polling (entry : IndexRegistryEntry) (fuel : Nat) : Prog Effects (Option (Nat × Except Raised Departure)) :=
  .op .clock fun now => Prog.loop (provisioner.waitRound entry.indexName (provisioner.deadline now)) fuel entry

variable {provisioner}

theorem waitLoop_succ (fuel : Nat) (scenario : IndexScenario) (indexName : String) (deadline : DateTime)
    (current : IndexRegistryEntry) :
    provisioner.waitLoop (fuel + 1) scenario indexName deadline current =
      provisioner.waitRound indexName deadline current >>=
        Sum.elim (provisioner.waitLoop fuel scenario indexName deadline)
          (provisioner.leave fuel scenario indexName) := by
  simp only [waitLoop, waitRound, reclaimStale, bind_assoc]
  congr 1
  funext stale
  congr 1
  funext reclaimed
  cases reclaimed with
  | some won => simp [leave]
  | none =>
    simp only [poll, bind_assoc]
    congr 1
    funext now
    split
    next => simp [leave]
    next =>
      simp only [bind_assoc]
      congr 1
      funext _
      congr 1
      funext refreshed
      cases refreshed with
      | none => simp [leave]
      | some entry =>
        dsimp only
        split
        next => simp [leave]
        next => simp

theorem waitLoop_eq (fuel : Nat) (scenario : IndexScenario) (indexName : String) (deadline : DateTime)
    (current : IndexRegistryEntry) :
    (provisioner.waitLoop fuel scenario indexName deadline current).run =
      Prog.loop (provisioner.waitRound indexName deadline) fuel current >>=
        provisioner.depart fuel scenario indexName := by
  induction fuel generalizing current with
  | zero => rfl
  | succ fuel ih =>
    rw [waitLoop_succ, Prog.loop, bind_assoc, ExceptT.run_bind]
    congr 1
    funext result
    cases result with
    | error raised => rfl
    | ok turned =>
      cases turned with
      | inr departure => rfl
      | inl next =>
        dsimp only [Sum.elim]
        rw [ih, bind_assoc]
        congr 1
        funext left
        rcases left with _ | ⟨rounds, raised | departure⟩
        next => rfl
        next => rfl
        next => simp [depart]

-- Waiting is polling, and then what the exit taken leads to.
theorem waitForReady_eq (fuel : Nat) (scenario : IndexScenario) (entry : IndexRegistryEntry) :
    (provisioner.waitForReady (fuel + 1) scenario entry).run =
      provisioner.polling entry fuel >>= provisioner.depart fuel scenario entry.indexName := by
  rw [waitForReady]
  exact congrArg (Prog.op (S := Effects) .clock) (funext fun now => waitLoop_eq fuel scenario entry.indexName _ entry)

end IndexProvisioner

-- Only the clock is bound: the registry may answer anything, at any time.

structure Timed {W σ : Type} (h : Handler Effects W σ) (now : σ → DateTime) : Prop where
  reads : ∀ w s, (h w .clock s).1 = now (h w .clock s).2
  forward : ∀ w o s, now s ≤ now (h w o s).2
  sleeps : ∀ w interval s, now s + interval ≤ now (h w (.sleep interval) s).2

/-- The settings are fractions of seconds. A `timedelta` is one of the whole numbers of microseconds next to
them, and a clock that counts microseconds moves by a setting when it moves by the next whole number. -/
structure Configured (timeout poll : ℚ) (config : ProvisioningConfig) : Prop where
  timeout : config.waitForProvisioningTimeoutSeconds = ⌊1000000 * timeout⌋ ∨
    config.waitForProvisioningTimeoutSeconds = ⌈1000000 * timeout⌉
  poll : config.waitPollIntervalSeconds = ⌈1000000 * poll⌉

-- A round begins only while the time that its predecessors slept is less than the timeout.
theorem Configured.rounds_lt {timeout poll : ℚ} {config : ProvisioningConfig}
    (configured : Configured timeout poll config) (pollPos : 0 < poll) {rounds : Nat}
    (early : rounds * config.waitPollIntervalSeconds < config.waitForProvisioningTimeoutSeconds) :
    rounds < ⌈timeout / poll⌉₊ := by
  have rounded : config.waitForProvisioningTimeoutSeconds ≤ ⌈1000000 * timeout⌉ := by
    rcases configured.timeout with below | above
    next => exact below.trans_le (Int.floor_le_ceil _)
    next => exact above.le
  have slept : (rounds * ⌈1000000 * poll⌉ : ℤ) < ⌈1000000 * timeout⌉ := by
    rw [← configured.poll]
    exact lt_of_lt_of_le early rounded
  rw [Int.lt_ceil] at slept
  push_cast at slept
  have covered : (rounds : ℚ) * (1000000 * poll) ≤ rounds * (⌈1000000 * poll⌉ : ℚ) :=
    mul_le_mul_of_nonneg_left (Int.le_ceil _) (Nat.cast_nonneg rounds)
  rw [Nat.lt_ceil, lt_div_iff₀ pollPos]
  linarith

abbrev Journal (W σ : Type) := σ × List (Visit Effects W σ)

section Loop

variable {W σ : Type} {h : Handler Effects W σ} {now : σ → DateTime} {config : ProvisioningConfig}

/-- The loop reads, sleeps and reclaims, and what it reclaims has outlived its claim. -/
def Conforms (now : σ → DateTime) (config : ProvisioningConfig) (visit : Visit Effects W σ) : Prop :=
  match visit.op with
  | .registry (.reclaim _ observed _) =>
      ∃ claimedAt, observed.claimedAt = some claimedAt ∧
        config.provisioningStaleAfterSeconds ≤ now visit.state - claimedAt
  | .registry (.get _) | .clock | .newClaimToken | .sleep _ => True
  | _ => False

def StillProvisioning (event : Event Effects) : Prop :=
  ∀ answer, polled event = some answer → ∃ entry, answer = .ok (some entry) ∧ entry.status = .provisioning

/-- What lies behind each exit: the answers until then, and the time. -/
def Grounded (h : Handler Effects W σ) (now : σ → DateTime) (deadline : DateTime) (final : σ)
    (visits : List (Visit Effects W σ)) : Except Raised Departure → Prop
  | .ok (.reclaimed won) => ∃ visit ∈ visits, wonBack (visit.event h) = some won
  | .ok .timedOut => deadline ≤ now final ∧ ∀ visit ∈ visits, StillProvisioning (visit.event h)
  | .ok .vanished => ∃ visit ∈ visits, polled (visit.event h) = some (.ok none)
  | .ok (.settled entry) =>
      entry.status ≠ .provisioning ∧ ∃ visit ∈ visits, polled (visit.event h) = some (.ok (some entry))
  | .error (.provisioning e) => ∃ visit ∈ visits, rejected (visit.event h) = some e
  | .error _ => False

structure LeftBy (h : Handler Effects W σ) (now : σ → DateTime) (config : ProvisioningConfig) (deadline : DateTime)
    (outcome : Except Raised Departure) (journal : Journal W σ) : Prop where
  conforms : ∀ visit ∈ journal.2, Conforms now config visit
  grounded : Grounded h now deadline journal.1 journal.2 outcome

structure Watched (h : Handler Effects W σ) (now : σ → DateTime) (config : ProvisioningConfig) (since : DateTime)
    (journal : Journal W σ) : Prop where
  time : since ≤ now journal.1
  conforms : ∀ visit ∈ journal.2, Conforms now config visit
  polled : ∀ visit ∈ journal.2, StillProvisioning (visit.event h)

structure Waited (h : Handler Effects W σ) (now : σ → DateTime) (config : ProvisioningConfig) (start : DateTime)
    (limit done : Nat) (journal : Journal W σ) : Prop where
  watched : Watched h now config (start + done * config.waitPollIntervalSeconds) journal
  few : done ≤ limit

variable {since : DateTime} {journal : Journal W σ}

theorem stillProvisioning_of_quiet {event : Event Effects} (quiet : polled event = none) :
    StillProvisioning event := by
  intro answer asked
  rw [quiet] at asked
  cases asked

theorem forall_visit_journaled {K : Visit Effects W σ → Prop} (before : ∀ visit ∈ journal.2, K visit) {w : W} {o : Op}
    (holds : K ⟨w, o, journal.1⟩) : ∀ visit ∈ (Prog.journaled h w o journal).2.2, K visit := by
  intro visit member
  rcases List.mem_append.mp member with old | new
  next => exact before visit old
  next =>
    rw [List.mem_singleton.mp new]
    exact holds

theorem Watched.visit (watched : Watched h now config since journal) {w : W} {o : Op} {later : DateTime}
    (conforms : Conforms now config ⟨w, o, journal.1⟩)
    (still : StillProvisioning (Visit.event h ⟨w, o, journal.1⟩)) (time : later ≤ now (h w o journal.1).2) :
    Watched h now config later (Prog.journaled h w o journal).2 where
  time := time
  conforms := forall_visit_journaled watched.conforms conforms
  polled := forall_visit_journaled watched.polled still

theorem visit_mem_journaled (w : W) (o : Op) (journal : Journal W σ) :
    ⟨w, o, journal.1⟩ ∈ (Prog.journaled h w o journal).2.2 :=
  List.mem_append_right _ (List.mem_singleton.mpr rfl)

variable (timed : Timed h now)

include timed

theorem wp_clock {Q : Except Raised DateTime → Journal W σ → Prop}
    (watched : Watched h now config since journal)
    (told : ∀ reading after, since ≤ reading → Watched h now config reading after → Q (.ok reading) after) :
    Prog.wp (Prog.journaled h) (fun _ => True) Py.clock.run Q journal := by
  intro w
  have reading := timed.reads w journal.1
  have after := watched.visit (w := w) (o := .clock) trivial (stillProvisioning_of_quiet rfl) (Int.le_of_eq reading)
  have later := watched.time.trans (timed.forward w .clock journal.1)
  exact ⟨trivial, told _ _ (later.trans_eq reading.symm) after⟩

theorem wp_newClaimToken {Q : Except Raised String → Journal W σ → Prop}
    (watched : Watched h now config since journal)
    (told : ∀ token after, Watched h now config since after → Q (.ok token) after) :
    Prog.wp (Prog.journaled h) (fun _ => True) Py.newClaimToken.run Q journal := by
  intro w
  have after := watched.visit (w := w) (o := .newClaimToken) trivial (stillProvisioning_of_quiet rfl)
    (watched.time.trans (timed.forward ..))
  exact ⟨trivial, told _ _ after⟩

theorem wp_sleep {Q : Except Raised Unit → Journal W σ → Prop} {interval : TimeDelta}
    (watched : Watched h now config since journal)
    (slept : ∀ after, Watched h now config (since + interval) after → Q (.ok ()) after) :
    Prog.wp (Prog.journaled h) (fun _ => True) (Py.sleep interval).run Q journal := by
  intro w
  have woken := (Int.add_le_add_right watched.time interval).trans (timed.sleeps w interval journal.1)
  exact ⟨trivial, slept _ (watched.visit trivial (stillProvisioning_of_quiet rfl) woken)⟩

theorem wp_isStale {provisioner : IndexProvisioner} {current : IndexRegistryEntry}
    {Q : Except Raised Bool → Journal W σ → Prop}
    (watched : Watched h now provisioner.config since journal)
    (fresh : ∀ after, Watched h now provisioner.config since after → Q (.ok false) after)
    (stale : ∀ claimedAt reading after, current.claimedAt = some claimedAt →
      provisioner.config.provisioningStaleAfterSeconds ≤ reading - claimedAt → since ≤ reading →
      Watched h now provisioner.config reading after → Q (.ok true) after) :
    Prog.wp (Prog.journaled h) (fun _ => True) (provisioner.isStale current).run Q journal := by
  simp only [IndexProvisioner.isStale, IndexProvisioner.timeTest]
  split
  next => exact fresh journal watched
  next claimedAt claimed =>
    rw [Prog.wp_run_bind]
    apply wp_clock timed watched
    intro reading after later read
    cases old : elapsed reading claimedAt provisioner.config.provisioningStaleAfterSeconds with
    | true =>
      simp only [old, Prog.wp_run_pure]
      exact stale claimedAt reading after claimed (by simpa [elapsed] using old) later read
    | false =>
      simp only [old, Prog.wp_run_pure]
      exact fresh after { read with time := later.trans read.time }

theorem wp_reclaim {indexName : String} {observed newEntry : IndexRegistryEntry}
    {Q : Except Raised IndexRegistryEntry → Journal W σ → Prop}
    (watched : Watched h now config since journal)
    (stale : ∃ claimedAt, observed.claimedAt = some claimedAt ∧
      config.provisioningStaleAfterSeconds ≤ since - claimedAt)
    (won : ∀ entry after, Watched h now config since after →
      (∃ visit ∈ after.2, wonBack (visit.event h) = some entry) → Q (.ok entry) after)
    (failed : ∀ e after, Watched h now config since after →
      (∃ visit ∈ after.2, rejected (visit.event h) = some e) → Q (.error (.provisioning e)) after) :
    Prog.wp (Prog.journaled h) (fun _ => True) (Py.registry (.reclaim indexName observed newEntry)).run Q journal := by
  intro w
  obtain ⟨claimedAt, claimed, old⟩ := stale
  have aged : config.provisioningStaleAfterSeconds ≤ now journal.1 - claimedAt :=
    Int.le_trans old (Int.sub_le_sub_right watched.time claimedAt)
  have after := watched.visit (w := w) (o := .registry (.reclaim indexName observed newEntry))
    ⟨claimedAt, claimed, aged⟩ (stillProvisioning_of_quiet rfl)
    (watched.time.trans (timed.forward ..))
  have noted := visit_mem_journaled (h := h) w (.registry (.reclaim indexName observed newEntry)) journal
  refine ⟨trivial, ?_⟩
  change Q (Except.mapError .provisioning (h w (.registry (.reclaim indexName observed newEntry)) journal.1).1) _
  cases answered : (h w (.registry (.reclaim indexName observed newEntry)) journal.1).1 with
  | ok entry => exact won entry _ after ⟨_, noted, congrArg (fun answer => wonBack ⟨_, answer⟩) answered⟩
  | error e => exact failed e _ after ⟨_, noted, congrArg (fun answer => rejected ⟨_, answer⟩) answered⟩

theorem wp_get {indexName : String}
    {Q : Except Raised (Option IndexRegistryEntry) → Journal W σ → Prop}
    (watched : Watched h now config since journal)
    (waiting : ∀ entry after, entry.status = .provisioning → Watched h now config since after →
      Q (.ok (some entry)) after)
    (otherwise : ∀ answer after, (∀ entry, answer = .ok (some entry) → entry.status ≠ .provisioning) →
      (∀ visit ∈ after.2, Conforms now config visit) → (∃ visit ∈ after.2, polled (visit.event h) = some answer) →
      Q (answer.mapError .provisioning) after) :
    Prog.wp (Prog.journaled h) (fun _ => True) (Py.registry (.get indexName)).run Q journal := by
  intro w
  refine ⟨trivial, ?_⟩
  change Q (Except.mapError .provisioning (h w (.registry (.get indexName)) journal.1).1) _
  by_cases still : StillProvisioning (Visit.event h ⟨w, .registry (.get indexName), journal.1⟩)
  next =>
    obtain ⟨entry, answered, provisioning⟩ := still _ rfl
    have after := watched.visit (w := w) (o := .registry (.get indexName)) trivial still
      (watched.time.trans (timed.forward ..))
    rw [answered]
    exact waiting entry _ provisioning after
  next =>
    have conforms := forall_visit_journaled (h := h) watched.conforms (w := w) (o := .registry (.get indexName)) trivial
    apply otherwise _ _ ?_ conforms ⟨_, visit_mem_journaled .., rfl⟩
    intro entry answered provisioning
    apply still
    rintro _ ⟨rfl⟩
    exact ⟨entry, answered, provisioning⟩

theorem wp_tryReclaim {observed : IndexRegistryEntry} {claimedAt : DateTime}
    {Q : Except Raised (Option IndexRegistryEntry) → Journal W σ → Prop}
    (watched : Watched h now config since journal)
    (claimed : observed.claimedAt = some claimedAt) (old : config.provisioningStaleAfterSeconds ≤ since - claimedAt)
    (won : ∀ entry after, Watched h now config since after →
      (∃ visit ∈ after.2, wonBack (visit.event h) = some entry) → Q (.ok (some entry)) after)
    (lost : ∀ after, Watched h now config since after → Q (.ok none) after)
    (failed : ∀ e after, Watched h now config since after →
      (∃ visit ∈ after.2, rejected (visit.event h) = some e) → Q (.error (.provisioning e)) after) :
    Prog.wp (Prog.journaled h) (fun _ => True) (IndexProvisioner.tryReclaim observed).run Q journal := by
  simp only [IndexProvisioner.tryReclaim]
  rw [Prog.wp_run_bind]
  apply wp_newClaimToken timed watched
  intro token drawn watched
  apply (Prog.wp_run_bind ..).mpr
  apply wp_clock timed watched
  intro reading told later watched
  have watched : Watched h now config since told := { watched with time := later.trans watched.time }
  apply (Prog.wp_run_tryCatch ..).mpr
  apply (Prog.wp_run_bind ..).mpr
  apply wp_reclaim timed watched ⟨claimedAt, claimed, old⟩
  next => exact won
  next =>
    intro e after watched raised
    by_cases conflict : e.errorCode = indexProvisionConflict
    next =>
      simp only [conflict, if_true]
      exact lost after watched
    next =>
      simp only [conflict, if_false]
      exact failed e after watched raised

theorem wp_reclaimStale {provisioner : IndexProvisioner} {current : IndexRegistryEntry}
    {Q : Except Raised (Option IndexRegistryEntry) → Journal W σ → Prop}
    (watched : Watched h now provisioner.config since journal)
    (won : ∀ entry after, Watched h now provisioner.config since after →
      (∃ visit ∈ after.2, wonBack (visit.event h) = some entry) → Q (.ok (some entry)) after)
    (lost : ∀ after, Watched h now provisioner.config since after → Q (.ok none) after)
    (failed : ∀ e after, Watched h now provisioner.config since after →
      (∃ visit ∈ after.2, rejected (visit.event h) = some e) → Q (.error (.provisioning e)) after) :
    Prog.wp (Prog.journaled h) (fun _ => True) (provisioner.reclaimStale current).run Q journal := by
  simp only [IndexProvisioner.reclaimStale]
  rw [Prog.wp_run_bind]
  apply wp_isStale timed watched
  next => exact fun after watched => lost after watched
  next =>
    intro claimedAt reading after claimed old later watched
    have earlier {after : Journal W σ} (watched : Watched h now provisioner.config reading after) :
        Watched h now provisioner.config since after := { watched with time := later.trans watched.time }
    apply wp_tryReclaim timed watched claimed old
    next => exact fun entry after watched => won entry after (earlier watched)
    next => exact fun after watched => lost after (earlier watched)
    next => exact fun e after watched => failed e after (earlier watched)

variable {provisioner : IndexProvisioner} {timeout poll : ℚ} (configured : Configured timeout poll provisioner.config)
  (pollPos : 0 < poll)

include configured pollPos

theorem wp_poll {indexName : String} {start : DateTime} {done : Nat}
    (waited : Waited h now provisioner.config start ⌈timeout / poll⌉₊ done journal) :
    Prog.wp (Prog.journaled h) (fun _ => True)
      (provisioner.poll indexName (provisioner.deadline start)).run
      (Prog.Turned (fun done _ => Waited h now provisioner.config start ⌈timeout / poll⌉₊ done)
        (fun _ => LeftBy h now provisioner.config (provisioner.deadline start))
        done) journal := by
  simp only [IndexProvisioner.poll]
  rw [Prog.wp_run_bind]
  apply wp_clock timed waited.watched
  intro reading told later watched
  by_cases late : reading ≥ provisioner.deadline start
  next =>
    simp only [late, if_true]
    exact ⟨watched.conforms, Int.le_trans late watched.time, watched.polled⟩
  next =>
    simp only [late, if_false]
    have early : done * provisioner.config.waitPollIntervalSeconds <
        provisioner.config.waitForProvisioningTimeoutSeconds := by
      have before := Int.lt_of_le_of_lt later (Int.not_le.mp late)
      exact Int.lt_of_add_lt_add_left before
    have few := configured.rounds_lt pollPos early
    apply (Prog.wp_run_bind ..).mpr
    apply wp_sleep timed watched
    intro slept watched
    apply (Prog.wp_run_bind ..).mpr
    apply wp_get timed watched
    next =>
      intro entry after provisioning watched
      simp only [provisioning, ne_eq, not_true_eq_false, if_false]
      have slept : start + (done + 1 : Nat) * provisioner.config.waitPollIntervalSeconds ≤
          reading + provisioner.config.waitPollIntervalSeconds := by
        rw [Nat.cast_succ, add_mul, one_mul, ← add_assoc]
        exact Int.add_le_add_right later _
      exact ⟨{ watched with time := slept.trans watched.time }, few⟩
    next =>
      intro answer after other conforms asked
      rcases answer with e | _ | entry
      next =>
        obtain ⟨visit, member, answered⟩ := asked
        exact ⟨conforms, visit, member, rejected_of_polled answered⟩
      next => exact ⟨conforms, asked⟩
      next =>
        have settled := other entry rfl
        simp only [Except.mapError, settled, ne_eq, not_false_eq_true, if_true]
        exact ⟨conforms, settled, asked⟩

theorem wp_waitRound (indexName : String) (current : IndexRegistryEntry) {start : DateTime} {done : Nat}
    (waited : Waited h now provisioner.config start ⌈timeout / poll⌉₊ done journal) :
    Prog.wp (Prog.journaled h) (fun _ => True)
      (provisioner.waitRound indexName (provisioner.deadline start) current).run
      (Prog.Turned (fun done _ => Waited h now provisioner.config start ⌈timeout / poll⌉₊ done)
        (fun _ => LeftBy h now provisioner.config (provisioner.deadline start))
        done) journal := by
  simp only [IndexProvisioner.waitRound]
  rw [Prog.wp_run_bind]
  apply wp_reclaimStale timed waited.watched
  next => exact fun won after watched mine => ⟨watched.conforms, mine⟩
  next => exact fun after watched => wp_poll timed configured pollPos ⟨watched, waited.few⟩
  next => exact fun e after watched raised => ⟨watched.conforms, raised⟩

theorem wp_rounds {fuel : Nat} {indexName : String} {start : DateTime} {entry : IndexRegistryEntry}
    (enough : ⌈timeout / poll⌉₊ + 1 ≤ fuel)
    (begun : Watched h now provisioner.config start journal) :
    Prog.wp (Prog.journaled h) (fun _ => True)
      (Prog.loop (provisioner.waitRound indexName (provisioner.deadline start)) fuel entry)
      (fun left journal => ∃ rounds outcome, left = some (rounds, outcome) ∧ rounds ≤ ⌈timeout / poll⌉₊ + 1 ∧
        LeftBy h now provisioner.config (provisioner.deadline start) outcome journal) journal := by
  have initial : Waited h now provisioner.config start ⌈timeout / poll⌉₊ 0 journal :=
    ⟨by simpa using begun, Nat.zero_le _⟩
  have bounded (done : Nat) (_ : IndexRegistryEntry) (journal : Journal W σ)
      (waited : Waited h now provisioner.config start ⌈timeout / poll⌉₊ done journal) :
      done < ⌈timeout / poll⌉₊ + 1 := Nat.lt_succ_of_le waited.few
  have within : ⌈timeout / poll⌉₊ + 1 ≤ 0 + fuel := by omega
  refine Prog.wp_mono (fun left journal ended => ?_) (Prog.wp_loop bounded
    (fun _ current _ => wp_waitRound timed configured pollPos indexName current) within initial)
  obtain ⟨rounds, outcome, same, few, leftBy⟩ := ended
  exact ⟨rounds, outcome, same, by omega, leftBy⟩

-- The loop is left before it is cut off, in the round after the last that the timeout has room for at the
-- latest.
theorem polling_leaves {fuel : Nat} (entry : IndexRegistryEntry) (enough : ⌈timeout / poll⌉₊ + 1 ≤ fuel)
    (oracle : Nat → W) (s : σ) :
    ∃ rounds outcome, (Prog.run h (provisioner.polling entry fuel) oracle s).1 = some (rounds, outcome) ∧
      rounds ≤ ⌈timeout / poll⌉₊ + 1 ∧
      LeftBy h now provisioner.config (provisioner.deadline (h (oracle 0) .clock s).1) outcome
        ((Prog.run h (provisioner.polling entry fuel) oracle s).2,
          Prog.visits h (provisioner.polling entry fuel) oracle s) := by
  have begun : Watched h now provisioner.config (h (oracle 0) .clock s).1
      ((h (oracle 0) .clock s).2, [⟨oracle 0, .clock, s⟩]) := by
    have fresh : Watched h now provisioner.config (now s) (s, []) := ⟨le_rfl, by simp, by simp⟩
    apply fresh.visit (w := oracle 0) (o := .clock) trivial
    next => exact stillProvisioning_of_quiet rfl
    next => exact Int.le_of_eq (timed.reads (oracle 0) s)
  exact Prog.visits_of_wp (wp_rounds timed configured pollPos enough begun) (fun i => oracle (i + 1))

theorem waitForReady_bounded (scenario : IndexScenario) (entry : IndexRegistryEntry) {fuel : Nat}
    (enough : ⌈timeout / poll⌉₊ + 1 ≤ fuel) (oracle : Nat → W) (s : σ) :
    (provisioner.waitForReady (fuel + 1) scenario entry).run =
        provisioner.polling entry fuel >>= provisioner.depart fuel scenario entry.indexName ∧
      (∃ rounds outcome, (Prog.run h (provisioner.polling entry fuel) oracle s).1 = some (rounds, outcome) ∧
        rounds ≤ ⌈timeout / poll⌉₊ + 1 ∧
        LeftBy h now provisioner.config (provisioner.deadline (h (oracle 0) .clock s).1) outcome
          ((Prog.run h (provisioner.polling entry fuel) oracle s).2,
            Prog.visits h (provisioner.polling entry fuel) oracle s)) ∧
      ∀ before visit later,
        Prog.visits h (provisioner.waitForReady (fuel + 1) scenario entry).run oracle s = before ++ visit :: later →
          CreatesOwn visit.op (before.map (Visit.event h)) := by
  refine ⟨IndexProvisioner.waitForReady_eq fuel scenario entry, ?_, ?_⟩
  next => exact polling_leaves timed configured pollPos entry enough oracle s
  next => exact fun before visit later => waitForReady_creates_own h (fuel + 1) entry

end Loop

def onTheClock {W σ : Type} (serve : Handler Effects W σ) : Handler Effects W (DateTime × σ) := fun w o s =>
  match o with
  | .clock => (s.1, s)
  | .sleep interval => ((), (s.1 + max interval 0, s.2))
  | o => ((serve w o s.2).1, (s.1, (serve w o s.2).2))

theorem timed_onTheClock {W σ : Type} (serve : Handler Effects W σ) : Timed (onTheClock serve) Prod.fst where
  reads _ _ := rfl
  forward w o s := by
    cases o with
    | sleep interval => exact Int.le_add_of_nonneg_right (Int.le_max_right interval 0)
    | _ => exact Int.le_refl s.1
  sleeps w interval s := Int.add_le_add_left (Int.le_max_left interval 0) s.1

def waitedFor : IndexRegistryEntry := IndexProvisioner.candidate sampleScenario sampleTemplate 3 "cosine" 0 "b"

def waitedForIn : Shared := { registry := (InMemoryIndexRegistry.perform {} 0 (.register waitedFor)).2 }

theorem configured_default : Configured 60 2 {} := by
  constructor
  next =>
    left
    norm_num [seconds]
  next => norm_num [seconds]

theorem waitForReady_bounded_on_the_clock :
    (Timed (onTheClock service) Prod.fst ∧ Configured 60 2 sampleWorker.provisioner.config ∧ (0 : ℚ) < 2 ∧
        ⌈(60 : ℚ) / 2⌉₊ + 1 ≤ 31) ∧
      ∃ rounds outcome, (Prog.run (onTheClock service) (sampleWorker.provisioner.polling waitedFor 31)
          (fun _ => {}) (0, waitedForIn)).1 = some (rounds, outcome) ∧
        rounds ≤ ⌈(60 : ℚ) / 2⌉₊ + 1 ∧
        LeftBy (onTheClock service) Prod.fst sampleWorker.provisioner.config (sampleWorker.provisioner.deadline 0)
          outcome ((Prog.run (onTheClock service) (sampleWorker.provisioner.polling waitedFor 31) (fun _ => {})
              (0, waitedForIn)).2,
            Prog.visits (onTheClock service) (sampleWorker.provisioner.polling waitedFor 31) (fun _ => {})
              (0, waitedForIn)) := by
  have enough : ⌈(60 : ℚ) / 2⌉₊ + 1 ≤ 31 := by norm_num
  have configured : Configured 60 2 sampleWorker.provisioner.config := configured_default
  refine ⟨⟨timed_onTheClock service, configured, two_pos, enough⟩, ?_⟩
  exact (waitForReady_bounded (timed_onTheClock service) configured two_pos sampleScenario waitedFor enough
    (fun _ => {}) (0, waitedForIn)).2.1

-- The other worker's claim is never finished: the bound is reached.
example : (Prog.run (onTheClock service) (sampleWorker.provisioner.polling waitedFor 31)
    (fun _ => {}) (0, waitedForIn)).1 = some (31, .ok .timedOut) := by
  decide +kernel

end Vestibule.Provisioning
