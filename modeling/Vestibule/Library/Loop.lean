import Vestibule.Library.Program

set_option autoImplicit false

-- A round of the loop goes on with a new value, leaves with a result, or raises. The rounds are counted,
-- and the run is cut off after so many of them.

namespace Library

namespace Prog

variable {S : Signature} {α β ε W σ : Type}

/-- The number of the round that left the loop and what it left with, unless the loop was cut off. -/
def loop (body : β → ExceptT ε (Prog S) (β ⊕ α)) : Nat → β → Prog S (Option (Nat × Except ε α))
  | 0, _ => .ret none
  | rounds + 1, value => (body value).run >>= fun
      | .ok (.inl next) => loop body rounds next >>= fun left => .ret (left.map (Prod.map (· + 1) id))
      | .ok (.inr out) => .ret (some (1, .ok out))
      | .error e => .ret (some (1, .error e))

/-- A round after `done` others keeps the invariant, or leaves as `Q` allows. -/
def Turned (Inv : Nat → β → σ → Prop) (Q : Nat → Except ε α → σ → Prop) (done : Nat) :
    Except ε (β ⊕ α) → σ → Prop
  | .ok (.inl next), s => Inv (done + 1) next s
  | .ok (.inr out), s => Q (done + 1) (.ok out) s
  | .error e, s => Q (done + 1) (.error e) s

variable {h : Handler S W σ} {I : σ → Prop} {body : β → ExceptT ε (Prog S) (β ⊕ α)}
  {Inv : Nat → β → σ → Prop} {Q : Nat → Except ε α → σ → Prop}

-- The number of rounds is bounded by the invariant, so that the loop ends for all that it may be cut off.
theorem wp_loop {limit : Nat} (bounded : ∀ done value s, Inv done value s → done < limit)
    (round : ∀ done value s, Inv done value s → wp h I (body value).run (Turned Inv Q done) s)
    {rounds done : Nat} {value : β} {s : σ} (enough : limit ≤ done + rounds) (initial : Inv done value s) :
    wp h I (loop body rounds value)
      (fun left s => ∃ laps out, left = some (laps, out) ∧ done + laps ≤ limit ∧ Q (done + laps) out s) s := by
  induction rounds generalizing done value s with
  | zero =>
    have within := bounded done value s initial
    omega
  | succ rounds ih =>
    have within := bounded done value s initial
    rw [loop, wp_bind]
    refine wp_mono (fun result t turned => ?_) (round done value s initial)
    cases result with
    | error e => exact ⟨1, .error e, rfl, within, turned⟩
    | ok step =>
      cases step with
      | inr out => exact ⟨1, .ok out, rfl, within, turned⟩
      | inl next =>
        simp only [wp_bind]
        refine wp_mono (fun left u ended => ?_) (ih (by omega) turned)
        obtain ⟨laps, out, rfl, few, held⟩ := ended
        have shifted : done + 1 + laps = done + (laps + 1) := by omega
        rw [shifted] at few held
        exact ⟨laps + 1, out, rfl, few, held⟩

end Prog

end Library
