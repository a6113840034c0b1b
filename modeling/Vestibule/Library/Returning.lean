import Vestibule.Library.MonadRel
import Vestibule.Library.Program

set_option autoImplicit false

-- A program is compared with a plain value: from every state and in every world it returns that value, or
-- raises one of the errors that are allowed. Its loops are compared with the same loops without effects.

namespace Library

namespace Prog

variable {S : Signature} {W σ ε α β : Type}

def Concluded (allowed : ε → Prop) (answer : α) : Except ε α → Prop
  | .ok value => value = answer
  | .error e => allowed e

theorem returned_of_concluded {answer : α} {result : Except ε α} (ended : Concluded (fun _ => False) answer result) :
    result = .ok answer := by
  cases result with
  | ok value => exact congrArg Except.ok ended
  | error e => exact ended.elim

def concludes (h : Handler S W σ) (allowed : ε → Prop) : MonadRel (ExceptT ε (Prog S)) Id where
  rel p answer := ∀ s, wp h (fun _ => True) p.run (fun result _ => Concluded allowed answer.run result) s
  pure value _ := show value = value from rfl
  bind := by
    intro α β p q f g first rest s
    rw [wp_run_bind]
    apply wp_mono _ (first s)
    intro result after ended
    cases result with
    | ok value =>
      obtain rfl : value = q.run := ended
      exact rest _ after
    | error e => exact ended

variable {h : Handler S W σ} {allowed : ε → Prop}

theorem concludes_tryCatch {p : ExceptT ε (Prog S) α} {handle : ε → ExceptT ε (Prog S) α} {answer : Id α}
    {caught : ε → Prop} (first : (concludes h caught).rel p answer)
    (rest : ∀ e, caught e → (concludes h allowed).rel (handle e) answer) :
    (concludes h allowed).rel (tryCatch p handle) answer := by
  intro s
  rw [wp_run_tryCatch]
  apply wp_mono _ (first s)
  intro result after ended
  cases result with
  | ok value => exact ended
  | error e => exact rest e ended after

theorem concludes_of_raises {p : ExceptT ε (Prog S) α} (answer : Id α)
    (raises : ∀ s, wp h (fun _ => True) p.run (fun result _ => ∀ value, result ≠ .ok value) s) :
    (concludes h (fun _ => True)).rel p answer := by
  intro s
  apply wp_mono _ (raises s)
  intro result after never
  cases result with
  | ok value => exact absurd rfl (never value)
  | error e => trivial

/-- The same loops, for the operations that are performed on the way. -/
def performs (permitted : S.Op → Prop) : MonadRel (ExceptT ε (Prog S)) Id where
  rel p _ := Uses permitted p.run
  pure _ := trivial
  bind first rest := uses_run_bind first fun value => rest value

def among (permitted : W → Prop) (h : Handler S W σ) : Handler S {w // permitted w} σ := fun w => h w.1

theorem wp_of_worlds {V : Type} {g : Handler S V σ} {I : σ → Prop} (matched : ∀ w o s, ∃ v, h w o s = g v o s)
    {p : Prog S α} {Q : α → σ → Prop} {s : σ} (holds : wp g I p Q s) : wp h I p Q s := by
  induction p generalizing s with
  | ret value => exact holds
  | op o next ih =>
    intro w
    obtain ⟨v, same⟩ := matched w o s
    rw [same]
    exact ⟨(holds v).1, ih _ (holds v).2⟩

theorem run_among {permitted : W → Prop} (p : Prog S α) (oracle : Nat → {w // permitted w}) (s : σ) :
    run (among permitted h) p oracle s = run h p (fun i => (oracle i).1) s := by
  induction p generalizing oracle s with
  | ret value => rfl
  | op o next ih => exact ih _ _ _

theorem steps_among {permitted : W → Prop} (count : Nat) (oracle : Nat → {w // permitted w}) (config : Prog S α × σ) :
    steps (among permitted h) count oracle config = steps h count (fun i => (oracle i).1) config := by
  induction count generalizing oracle config with
  | zero => rfl
  | succ count ih =>
    obtain ⟨p, s⟩ := config
    cases p with
    | ret value => exact ih _ _
    | op o next => exact ih _ _

end Prog

end Library
