import Vestibule.Library.Rely

set_option autoImplicit false

-- An attempt that raises is repeated after a pause, as long as the exception allows it and attempts are
-- left. The exception of the last attempt is raised again.

namespace Library

namespace Prog

variable {S : Signature} {α ε W σ : Type}

/-- Another `more` attempts may follow the first one; `done` were made before it. -/
def retrying (again : ε → Bool) (pause : Nat → ε → Prog S Unit) (attempt : ExceptT ε (Prog S) α) :
    (more done : Nat) → ExceptT ε (Prog S) α
  | 0, _ => attempt
  | more + 1, done => tryCatch attempt fun e =>
      if again e then do
        ExceptT.lift (pause (done + 1) e)
        retrying again pause attempt more (done + 1)
      else throw e

variable {again : ε → Bool} {pause : Nat → ε → Prog S Unit} {attempt : ExceptT ε (Prog S) α}

variable {h : Handler S W σ} {I : σ → Prop} {Inv : Nat → σ → Prop} {Failed : Nat → ε → σ → Prop}
  {Q : Except ε α → σ → Prop}

theorem run_lift {β : Type} (p : Prog S β) :
    (ExceptT.lift p : ExceptT ε (Prog S) β).run = p >>= fun value => .ret (Except.ok value) :=
  (bind_pure_comp _ p).symm

@[simp]
theorem wp_run_lift {β : Type} (p : Prog S β) (R : Except ε β → σ → Prop) (s : σ) :
    wp h I (ExceptT.lift p : ExceptT ε (Prog S) β).run R s ↔ wp h I p (fun value => R (.ok value)) s := by
  rw [run_lift, wp_bind]
  rfl

@[simp]
theorem wp_run_adapt {δ : Type} (f : δ → ε) (p : ExceptT δ (Prog S) α) (R : Except ε α → σ → Prop) (s : σ) :
    wp h I (ExceptT.adapt f p).run R s ↔ wp h I p.run (fun result => R (result.mapError f)) s := by
  have mapped : (ExceptT.adapt f p).run = p.run >>= fun result => .ret (result.mapError f) :=
    (bind_pure_comp (Except.mapError f) p.run).symm
  rw [mapped, wp_bind]
  rfl

variable (Inv Failed) in
-- `Inv` holds before an attempt, `Failed` after one that raised.
theorem wp_retrying {last : Nat}
    (tries : ∀ done s, Inv done s → wp h I attempt.run (Contract.ends (fun value => Q (.ok value)) (Failed done)) s)
    (waits : ∀ done e s, done < last → again e = true → Failed done e s →
      wp h I (pause (done + 1) e) (fun _ => Inv (done + 1)) s)
    (ends : ∀ done e s, again e = false ∨ done = last → Failed done e s → Q (.error e) s)
    {more done : Nat} (left : done + more = last) {s : σ} (initial : Inv done s) :
    wp h I (retrying again pause attempt more done).run Q s := by
  induction more generalizing done s with
  | zero =>
    apply wp_mono _ (tries done s initial)
    intro result t ended
    cases result with
    | ok value => exact ended
    | error e => exact ends done e t (.inr (by omega)) ended
  | succ more ih =>
    rw [retrying, wp_run_tryCatch]
    apply wp_mono _ (tries done s initial)
    intro result t ended
    cases result with
    | ok value => exact ended
    | error e =>
      simp only [Contract.ends] at ended ⊢
      split
      next allowed =>
        rw [wp_run_bind, wp_run_lift]
        apply wp_mono _ (waits done e t (by omega) allowed ended)
        intro _ u waited
        exact ih (by omega) waited
      next refused => exact ends done e t (.inl (by simpa using refused)) ended

end Prog

namespace Contract

variable {S : Signature} {α ε W σ : Type} {c : Contract S W σ}

theorem kept_later {p : Prog S α} {Q : α → σ → Prop} {s : σ} (kept : c.Kept p Q s) :
    c.Kept p (fun value t => ∀ u, c.rely t u → Q value u) s := by
  induction p generalizing s with
  | ret value => exact fun t later u more => kept u (c.rely_trans later more)
  | op o next ih =>
    intro t later holds
    obtain ⟨permitted, continued⟩ := kept t later holds
    exact ⟨permitted, fun w => ih _ (continued w)⟩

theorem kept_map {β : Type} {p : Prog S α} {f : α → β} {Q : β → σ → Prop} {s : σ}
    (kept : c.Kept p (fun value => Q (f value)) s) : c.Kept (f <$> p) Q s := by
  rw [← bind_pure_comp]
  exact kept_bind kept fun _ _ settled => settled

variable {ok : α → σ → Prop}

theorem keptRun_adapt {δ : Type} {p : ExceptT δ (Prog S) α} {f : δ → ε} {raised : ε → σ → Prop} {s : σ}
    (kept : c.KeptRun p ok (fun e => raised (f e)) s) : c.KeptRun (ExceptT.adapt f p) ok raised s := by
  apply kept_map (f := Except.mapError f)
  apply kept_mono _ kept
  intro result t ended
  cases result with
  | ok value => exact ended
  | error e => exact ended

variable {again : ε → Bool} {pause : Nat → ε → Prog S Unit} {attempt : ExceptT ε (Prog S) α} {Ready : σ → Prop}
  {raised : ε → σ → Prop}

variable (Ready) in
-- Among other threads: an attempt that raised leaves the next one as ready as it was itself.
theorem keptRun_retrying (tries : ∀ s, Ready s → c.KeptRun attempt ok (fun e t => raised e t ∧ Ready t) s)
    (waits : ∀ done e s, Ready s → c.Kept (pause done e) (fun _ => Ready) s)
    (more done : Nat) {s : σ} (initial : Ready s) :
    c.KeptRun (Prog.retrying again pause attempt more done) ok raised s := by
  have settled (s : σ) (ready : Ready s) : c.Kept attempt.run
      (fun result t => ∀ u, c.rely t u → ends ok (fun e u => raised e u ∧ Ready u) result u) s :=
    kept_later (tries s ready)
  induction more generalizing done s with
  | zero =>
    apply kept_mono _ (settled s initial)
    intro result t ended
    have now := ended t (c.rely_refl t)
    cases result with
    | ok value => exact now
    | error e => exact now.1
  | succ more ih =>
    rw [Prog.retrying]
    apply keptRun_tryCatch
    apply kept_mono _ (settled s initial)
    intro result t ended
    cases result with
    | ok value => exact ended t (c.rely_refl t)
    | error e =>
      simp only [ends] at ended ⊢
      split
      next =>
        apply keptRun_bind
        rw [KeptRun, Prog.run_lift]
        apply kept_bind (waits (done + 1) e t (ended t (c.rely_refl t)).2)
        intro _ u waited v later
        exact ih (done + 1) (waited v later)
      next => exact keptRun_throw fun u later => (ended u later).1

end Contract

end Library
