import Mathlib.Data.List.Basic

set_option autoImplicit false

-- The same generic code, run in two monads on related services, gives related results: a relation that
-- `pure` and `bind` respect is respected by every loop written with them.

namespace Library

structure MonadRel (m n : Type → Type) [Monad m] [Monad n] where
  rel : {α : Type} → m α → n α → Prop
  pure : ∀ {α : Type} (value : α), rel (Pure.pure value) (Pure.pure value)
  bind : ∀ {α β : Type} {p : m α} {q : n α} {f : α → m β} {g : α → n β},
    rel p q → (∀ value, rel (f value) (g value)) → rel (p >>= f) (q >>= g)

namespace MonadRel

variable {m n : Type → Type} [Monad m] [Monad n] [LawfulMonad m] [LawfulMonad n] (R : MonadRel m n)
variable {α ι : Type}

theorem mapM {f : ι → m α} {g : ι → n α} (items : List ι) (each : ∀ item ∈ items, R.rel (f item) (g item)) :
    R.rel (items.mapM f) (items.mapM g) := by
  induction items with
  | nil => exact R.pure []
  | cons item rest ih =>
    rw [List.mapM_cons, List.mapM_cons]
    apply R.bind (each item (by simp))
    intro value
    apply R.bind (ih fun other member => each other (by simp [member]))
    intro values
    exact R.pure (value :: values)

omit [LawfulMonad m] [LawfulMonad n] in
theorem foldlM {f : α → ι → m α} {g : α → ι → n α} (items : List ι) (value : α)
    (each : ∀ value, ∀ item ∈ items, R.rel (f value item) (g value item)) :
    R.rel (items.foldlM f value) (items.foldlM g value) := by
  induction items generalizing value with
  | nil => exact R.pure value
  | cons item rest ih =>
    rw [List.foldlM_cons, List.foldlM_cons]
    apply R.bind (each value item (by simp))
    intro next
    exact ih next fun value other member => each value other (by simp [member])

end MonadRel

end Library
