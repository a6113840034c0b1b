import Vestibule.Library.Program

set_option autoImplicit false

-- Every operation is atomic. A schedule lists which thread takes the next step, and in which world.

namespace Library

structure Pool (S : Signature) {ι : Type} (α : ι → Type) (σ : Type) where
  threads : (i : ι) → Prog S (α i)
  state : σ

namespace Pool

variable {S : Signature} {W σ ι : Type} {α : ι → Type} [DecidableEq ι]

def step (h : Handler S W σ) (i : ι) (w : W) (c : Pool S α σ) : Pool S α σ :=
  { threads := Function.update c.threads i (Prog.advance h w (c.threads i, c.state)).1
    state := (Prog.advance h w (c.threads i, c.state)).2 }

def run (h : Handler S W σ) : List (ι × W) → Pool S α σ → Pool S α σ
  | [], c => c
  | (i, w) :: rest, c => run h rest (step h i w c)

def Conforms (h : Handler S W σ) (ok : Pool S α σ → ι → W → Prop) :
    List (ι × W) → Pool S α σ → Prop
  | [], _ => True
  | (i, w) :: rest, c => ok c i w ∧ Conforms h ok rest (step h i w c)

def decideConforms (h : Handler S W σ) {ok : Pool S α σ → ι → W → Prop} [∀ c i w, Decidable (ok c i w)] :
    (schedule : List (ι × W)) → (c : Pool S α σ) → Decidable (Conforms h ok schedule c)
  | [], _ => isTrue trivial
  | (i, w) :: rest, c => @instDecidableAnd _ _ _ (decideConforms h rest (step h i w c))

instance (h : Handler S W σ) {ok : Pool S α σ → ι → W → Prop} [∀ c i w, Decidable (ok c i w)]
    (schedule : List (ι × W)) (c : Pool S α σ) : Decidable (Conforms h ok schedule c) :=
  decideConforms h schedule c

theorem run_append (h : Handler S W σ) (first rest : List (ι × W)) (c : Pool S α σ) :
    run h (first ++ rest) c = run h rest (run h first c) := by
  induction first generalizing c with
  | nil => rfl
  | cons head tail ih => exact ih _

theorem run_invariant {h : Handler S W σ} {ok : Pool S α σ → ι → W → Prop}
    {Inv : Pool S α σ → Prop}
    (preserved : ∀ c i w, Inv c → ok c i w → Inv (step h i w c))
    {schedule : List (ι × W)} {c : Pool S α σ} (initial : Inv c)
    (conforms : Conforms h ok schedule c) : Inv (run h schedule c) := by
  induction schedule generalizing c with
  | nil => exact initial
  | cons head rest ih => exact ih (preserved c _ _ initial conforms.1) conforms.2

@[simp]
theorem step_threads_self (h : Handler S W σ) (i : ι) (w : W) (c : Pool S α σ) :
    (step h i w c).threads i = (Prog.advance h w (c.threads i, c.state)).1 := by
  simp [step]

@[simp]
theorem step_threads_other (h : Handler S W σ) {i j : ι} (other : j ≠ i) (w : W)
    (c : Pool S α σ) : (step h i w c).threads j = c.threads j := by
  simp [step, other]

theorem step_threads_all (h : Handler S W σ) {R : (j : ι) → Prog S (α j) → Prop} {i : ι} {w : W} {c : Pool S α σ}
    (self : R i (Prog.advance h w (c.threads i, c.state)).1) (others : ∀ j, j ≠ i → R j (c.threads j)) (j : ι) :
    R j ((step h i w c).threads j) := by
  by_cases same : j = i
  next =>
    subst same
    rw [step_threads_self]
    exact self
  next =>
    rw [step_threads_other h same]
    exact others j same

theorem step_of_ended (h : Handler S W σ) {i : ι} {c : Pool S α σ} {value : α i} (ended : c.threads i = .ret value)
    (w : W) : step h i w c = c := by
  have same : Prog.advance h w (c.threads i, c.state) = (c.threads i, c.state) := by
    rw [ended]
    rfl
  simp [step, same]

theorem run_uses {h : Handler S W σ} {allowed : S.Op → Prop} {c : Pool S α σ} {i : ι}
    (uses : (c.threads i).Uses allowed) (schedule : List (ι × W)) :
    ((run h schedule c).threads i).Uses allowed := by
  induction schedule generalizing c with
  | nil => exact uses
  | cons head rest ih =>
    apply ih
    by_cases same : i = head.1
    · subst same
      rw [step_threads_self]
      cases current : c.threads head.1 with
      | ret value => trivial
      | op o next =>
        rw [current] at uses
        exact uses.2 _
    · rw [step_threads_other h same]
      exact uses

theorem run_of_uses {h : Handler S W σ} {allowed : S.Op → Prop} {I : σ → Prop} {c : Pool S α σ}
    (uses : ∀ i, (c.threads i).Uses allowed) (kept : ∀ o, allowed o → ∀ w s, I s → I (h w o s).2)
    (initial : I c.state) (schedule : List (ι × W)) : I (run h schedule c).state := by
  induction schedule generalizing c with
  | nil => exact initial
  | cons head rest ih =>
    apply ih
    next =>
      intro i
      exact run_uses (uses i) [head]
    next =>
      simp only [step]
      cases current : c.threads head.1 with
      | ret value => exact initial
      | op o next =>
        have permitted := uses head.1
        rw [current] at permitted
        exact kept o permitted.1 head.2 c.state initial

-- A thread taken to its end without interruption, each operation in a world chosen for it.
theorem exists_schedule (h : Handler S W σ) (choose : S.Op → W) (i : ι) (c : Pool S α σ) :
    ∃ schedule, ∀ ended, Prog.run (fun (_ : Unit) o s => h (choose o) o s) (c.threads i) (fun _ => ()) c.state = ended →
      run h schedule c = { threads := Function.update c.threads i (.ret ended.1), state := ended.2 } := by
  generalize current : c.threads i = p
  induction p generalizing c with
  | ret value =>
    refine ⟨[], fun ended same => ?_⟩
    subst same
    simp [run, Prog.run, ← current]
  | op o next ih =>
    have advanced : (step h i (choose o) c).threads i = next (h (choose o) o c.state).1 := by
      rw [step_threads_self, current]
      rfl
    obtain ⟨schedule, rest⟩ := ih _ (step h i (choose o) c) advanced
    have state : (step h i (choose o) c).state = (h (choose o) o c.state).2 := by simp [step, current, Prog.advance]
    refine ⟨(i, choose o) :: schedule, fun ended same => ?_⟩
    rw [run, rest ended (by rw [state]; exact same)]
    simp [step]

end Pool

-- A thread makes sure of `P` before it performs a guarded operation. Others may act in between: they keep
-- `I` at any time, and `P` as long as the guarded operation is due.

namespace Prog

variable {S : Signature} {α β ε W σ : Type}

def nextOp : Prog S α → Option S.Op
  | .ret _ => none
  | .op o _ => some o

theorem uses_nextOp {allowed : S.Op → Prop} {p : Prog S α} (uses : Uses allowed p) {o : S.Op}
    (due : p.nextOp = some o) : allowed o := by
  cases p with
  | ret value => simp [nextOp] at due
  | op first next =>
    obtain rfl : first = o := by simpa [nextOp] using due
    exact uses.1

def AboutTo (act : S.Op → Prop) (p : Prog S α) : Prop := ∃ o, p.nextOp = some o ∧ act o

/-- A guarded operation comes next, or the program has ended with a value after which one comes. -/
def Due (act : S.Op → Prop) (Q : α → Prop) : Prog S α → Prop
  | .ret value => Q value
  | .op o _ => act o

def Guarded (h : Handler S W σ) (I P : σ → Prop) (act : S.Op → Prop) (Q : α → Prop) : Prog S α → Prop
  | .ret _ => True
  | .op o next =>
      (∀ w s, I s → (act o → P s) →
        I (h w o s).2 ∧ (Due act Q (next (h w o s).1) → P (h w o s).2)) ∧
      ∀ result, Guarded h I P act Q (next result)

variable {h : Handler S W σ} {I P : σ → Prop} {act : S.Op → Prop} {Q : α → Prop}

@[simp]
theorem aboutTo_op (o : S.Op) (next : S.Res o → Prog S α) : AboutTo act (.op o next) ↔ act o := by
  simp [AboutTo, nextOp]

instance [DecidablePred act] : (p : Prog S α) → Decidable (AboutTo act p)
  | .ret _ => isFalse (by simp [AboutTo, nextOp])
  | .op o next => decidable_of_iff (act o) (aboutTo_op o next).symm

theorem aboutTo_iff_due {p : Prog S α} : AboutTo act p ↔ Due act (fun _ => False) p := by
  cases p with
  | ret value => simp [AboutTo, nextOp, Due]
  | op o next => simp [Due]

theorem due_bind {p : Prog S α} {f : α → Prog S β} {R : β → Prop} :
    Due act R (p >>= f) ↔ Due act (fun value => Due act R (f value)) p := by
  cases p <;> rfl

theorem due_mono {R : α → Prop} (weaker : ∀ value, R value → Q value) {p : Prog S α} (due : Due act R p) :
    Due act Q p := by
  cases p with
  | ret value => exact weaker value due
  | op o next => exact due

theorem not_due_of_uses {p : Prog S α} (uses : Uses (fun o => ¬ act o) p) : ¬ Due act (fun _ => False) p := by
  cases p with
  | ret value => exact id
  | op o next => exact uses.1

theorem guarded_mono {R : α → Prop} (weaker : ∀ value, R value → Q value) {p : Prog S α}
    (guarded : Guarded h I P act Q p) : Guarded h I P act R p := by
  induction p with
  | ret value => trivial
  | op o next ih =>
    refine ⟨fun w s kept checked => ?_, fun result => ih result (guarded.2 result)⟩
    obtain ⟨after, ready⟩ := guarded.1 w s kept checked
    exact ⟨after, fun due => ready (due_mono weaker due)⟩

theorem guarded_bind {R : β → Prop} {p : Prog S α} {f : α → Prog S β}
    (first : Guarded h I P act (fun value => Due act R (f value)) p)
    (rest : ∀ value, Guarded h I P act R (f value)) : Guarded h I P act R (p >>= f) := by
  induction p with
  | ret value => exact rest value
  | op o next ih =>
    refine ⟨fun w s kept checked => ?_, fun result => ih result (first.2 result)⟩
    obtain ⟨after, ready⟩ := first.1 w s kept checked
    exact ⟨after, fun due => ready (due_bind.mp due)⟩

theorem guarded_run_bind {R : Except ε β → Prop} {p : ExceptT ε (Prog S) α} {f : α → ExceptT ε (Prog S) β}
    (first : Guarded h I P act (fun result => match result with
      | .ok value => Due act R (f value).run
      | .error e => R (.error e)) p.run)
    (rest : ∀ value, Guarded h I P act R (f value).run) : Guarded h I P act R (p >>= f).run := by
  refine guarded_bind (guarded_mono (fun result due => ?_) first) fun result => ?_
  next => cases result <;> exact due
  next =>
    cases result with
    | ok value => exact rest value
    | error e => trivial

theorem guarded_of_uses {p : Prog S α} (uses : Uses (fun o => ¬ act o) p)
    (kept : ∀ o, ¬ act o → ∀ w s, I s → I (h w o s).2) : Guarded h I P act (fun _ => False) p := by
  induction p with
  | ret value => trivial
  | op o next ih =>
    refine ⟨fun w s before _ => ⟨kept o uses.1 w s before, fun due => ?_⟩, fun result => ih result (uses.2 result)⟩
    exact (not_due_of_uses (uses.2 _) due).elim

theorem guarded_run_bind_of_uses {p : ExceptT ε (Prog S) α} {f : α → ExceptT ε (Prog S) β}
    (kept : ∀ o, ¬ act o → ∀ w s, I s → I (h w o s).2) (first : Guarded h I P act (fun _ => False) p.run)
    (rest : ∀ value, Uses (fun o => ¬ act o) (f value).run) :
    Guarded h I P act (fun _ => False) (p >>= f).run := by
  refine guarded_run_bind (guarded_mono (fun result due => ?_) first) fun value => guarded_of_uses (rest value) kept
  cases result with
  | ok value => exact not_due_of_uses (rest value) due
  | error e => exact due

theorem guarded_run_tryCatch_of_uses {p : ExceptT ε (Prog S) α} {handle : ε → ExceptT ε (Prog S) α}
    (kept : ∀ o, ¬ act o → ∀ w s, I s → I (h w o s).2) (first : Guarded h I P act (fun _ => False) p.run)
    (rest : ∀ e, Uses (fun o => ¬ act o) (handle e).run) :
    Guarded h I P act (fun _ => False) (tryCatch p handle).run := by
  refine guarded_bind (guarded_mono (fun result due => ?_) first) fun result => ?_
  next =>
    cases result with
    | ok value => exact due
    | error e => exact not_due_of_uses (rest e) due
  next =>
    cases result with
    | ok value => trivial
    | error e => exact guarded_of_uses (rest e) kept

def FirstOnly (act : S.Op → Prop) : Prog S α → Prop
  | .ret _ => True
  | .op _ next => ∀ result, Uses (fun o => ¬ act o) (next result)

theorem firstOnly_of_uses {p : Prog S α} (uses : Uses (fun o => ¬ act o) p) : FirstOnly act p := by
  cases p with
  | ret value => trivial
  | op o next => exact uses.2

theorem firstOnly_perform (o : S.Op) : FirstOnly act (perform o : Prog S _) := fun _ => trivial

theorem firstOnly_bind {p : Prog S α} {f : α → Prog S β} (first : FirstOnly act p)
    (rest : ∀ value, Uses (fun o => ¬ act o) (f value)) : FirstOnly act (p >>= f) := by
  cases p with
  | ret value => exact firstOnly_of_uses (rest value)
  | op o next => exact fun result => uses_bind (first result) rest

theorem firstOnly_run_bind {p : ExceptT ε (Prog S) α} {f : α → ExceptT ε (Prog S) β}
    (first : FirstOnly act p.run) (rest : ∀ value, Uses (fun o => ¬ act o) (f value).run) :
    FirstOnly act (p >>= f).run := by
  refine firstOnly_bind first fun result => ?_
  cases result with
  | ok value => exact rest value
  | error e => trivial

theorem firstOnly_run_tryCatch {p : ExceptT ε (Prog S) α} {handle : ε → ExceptT ε (Prog S) α}
    (first : FirstOnly act p.run) (rest : ∀ e, Uses (fun o => ¬ act o) (handle e).run) :
    FirstOnly act (tryCatch p handle).run := by
  refine firstOnly_bind first fun result => ?_
  cases result with
  | ok value => trivial
  | error e => exact rest e

theorem guarded_of_firstOnly {p : Prog S α} (first : FirstOnly act p) :
    Guarded h (fun _ => True) P act (fun _ => False) p := by
  cases p with
  | ret value => trivial
  | op o next =>
    exact ⟨fun _ _ _ _ => ⟨trivial, fun due => (not_due_of_uses (first _) due).elim⟩,
      fun result => guarded_of_uses (first result) fun _ _ _ _ _ => trivial⟩

-- One operation decides whether the rest, which acts at most once and at once, goes ahead.
theorem guarded_check (o : S.Op) (verdict : S.Res o → Except ε α) {f : α → ExceptT ε (Prog S) β}
    (sound : ∀ w s value, verdict (h w o s).1 = .ok value → P (h w o s).2)
    (rest : ∀ value, FirstOnly act (f value).run) :
    Guarded h (fun _ => True) P act (fun _ => False)
      ((ExceptT.mk (.op o fun result => .ret (verdict result)) : ExceptT ε (Prog S) α) >>= f).run := by
  refine guarded_run_bind ⟨fun w s _ _ => ⟨trivial, fun due => ?_⟩, fun _ => trivial⟩
    fun value => guarded_of_firstOnly (rest value)
  simp only [Due] at due
  cases decided : verdict (h w o s).1 with
  | ok value => exact sound w s value decided
  | error e => simp [decided] at due

end Prog

namespace Pool

variable {S : Signature} {W σ ι : Type} {α : ι → Type} [DecidableEq ι]

theorem step_state {h : Handler S W σ} {c : Pool S α σ} {i : ι} {o : S.Op}
    (due : (c.threads i).nextOp = some o) (w : W) : (step h i w c).state = (h w o c.state).2 := by
  simp only [step]
  cases current : c.threads i with
  | ret value => simp [current, Prog.nextOp] at due
  | op o' next =>
    obtain rfl : o' = o := by simpa [current, Prog.nextOp] using due
    rfl

theorem step_state_of_ended {h : Handler S W σ} {c : Pool S α σ} {i : ι}
    (ended : (c.threads i).nextOp = none) (w : W) : (step h i w c).state = c.state := by
  simp only [step]
  cases current : c.threads i with
  | ret value => rfl
  | op o next => simp [current, Prog.nextOp] at ended

/-- `I` holds, and `P i` wherever a thread `i` of the guarded ones is about to act. -/
def Watched (h : Handler S W σ) (I : σ → Prop) (P : ι → σ → Prop) (act : S.Op → Prop) (guarded : ι → Prop)
    (c : Pool S α σ) : Prop :=
  I c.state ∧ ∀ i, guarded i → (c.threads i).Guarded h I (P i) act (fun _ => False) ∧
    ((c.threads i).AboutTo act → P i c.state)

theorem watched_step {h : Handler S W σ} {I : σ → Prop} {P : ι → σ → Prop} {act : S.Op → Prop}
    {guarded : ι → Prop} {c : Pool S α σ} {i : ι} {w : W} (watched : Watched h I P act guarded c)
    (free : ¬ guarded i → I (step h i w c).state)
    (undisturbed : ∀ j, j ≠ i → guarded j → (c.threads j).AboutTo act → P j c.state → P j (step h i w c).state) :
    Watched h I P act guarded (step h i w c) := by
  have own (member : guarded i) : I (step h i w c).state ∧
      ((step h i w c).threads i).Guarded h I (P i) act (fun _ => False) ∧
      (((step h i w c).threads i).AboutTo act → P i (step h i w c).state) := by
    obtain ⟨follows, ready⟩ := watched.2 i member
    rw [step_threads_self]
    simp only [step]
    cases current : c.threads i with
    | ret value => exact ⟨watched.1, trivial, fun due => (Prog.aboutTo_iff_due.mp due).elim⟩
    | op o next =>
      rw [current] at follows ready
      obtain ⟨after, checked⟩ := follows.1 w c.state watched.1 (fun acts => ready (by simpa using acts))
      exact ⟨after, follows.2 _, fun due => checked (Prog.aboutTo_iff_due.mp due)⟩
  constructor
  next =>
    by_cases member : guarded i
    next => exact (own member).1
    next => exact free member
  next =>
    intro j member
    by_cases same : j = i
    next =>
      subst same
      exact (own member).2
    next =>
      rw [step_threads_other h same]
      exact ⟨(watched.2 j member).1, fun due => undisturbed j same member due ((watched.2 j member).2 due)⟩

def Undisturbed (h : Handler S W σ) (P : σ → Prop) (act : S.Op → Prop) (guarded : ι → Prop)
    (c : Pool S α σ) (i : ι) (w : W) : Prop :=
  P c.state → ¬ P (step h i w c).state → ∀ j, j ≠ i → guarded j → ¬ (c.threads j).AboutTo act

theorem checked_when_acting {h : Handler S W σ} {P : σ → Prop} {act : S.Op → Prop}
    {guarded : ι → Prop} {c : Pool S α σ} {schedule : List (ι × W)}
    (checks : ∀ i, guarded i → (c.threads i).Guarded h (fun _ => True) P act (fun _ => False))
    (idle : ∀ i, guarded i → ¬ (c.threads i).AboutTo act)
    (conforms : Conforms h (Undisturbed h P act guarded) schedule c) :
    ∀ i, guarded i → ((run h schedule c).threads i).AboutTo act → P (run h schedule c).state := by
  have preserved (c : Pool S α σ) (i : ι) (w : W)
      (watched : Watched h (fun _ => True) (fun _ => P) act guarded c)
      (ok : Undisturbed h P act guarded c i w) :
      Watched h (fun _ => True) (fun _ => P) act guarded (step h i w c) := by
    refine watched_step watched (fun _ => trivial) fun j other member due held => ?_
    by_contra lost
    exact ok held lost j other member due
  have final : Watched h (fun _ => True) (fun _ => P) act guarded (run h schedule c) :=
    run_invariant preserved
      ⟨trivial, fun i member => ⟨checks i member, fun due => (idle i member due).elim⟩⟩ conforms
  exact fun i member => (final.2 i member).2

end Pool

end Library
