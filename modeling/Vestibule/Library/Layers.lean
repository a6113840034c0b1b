import Vestibule.Library.Rely

set_option autoImplicit false

-- The operations of one layer are carried out by programs of the layer below. The upper layer is reasoned
-- about from what its operations may answer, with the operations themselves left open; the lower one owes
-- an implementation of each that answers so, whatever runs beside it.

namespace Library

structure Interface (S : Signature) (σ : Type) where
  permit : S.Op → σ → Prop
  answers : (o : S.Op) → σ → S.Res o → σ → Prop

namespace Interface

variable {S : Signature} {σ α β ε : Type} (interface : Interface S σ)

/-- Given admissible answers, `p` performs permitted operations only and ends with `Q`. -/
def Meets : Prog S α → (α → σ → Prop) → σ → Prop
  | .ret value, Q, s => Q value s
  | .op o next, Q, s => interface.permit o s ∧ ∀ answer t, interface.answers o s answer t → Meets (next answer) Q t

variable {interface}

theorem meets_mono {p : Prog S α} {Q R : α → σ → Prop} {s : σ} (weaker : ∀ value s, Q value s → R value s)
    (meets : interface.Meets p Q s) : interface.Meets p R s := by
  induction p generalizing s with
  | ret value => exact weaker value s meets
  | op o next ih => exact ⟨meets.1, fun answer t given => ih answer (meets.2 answer t given)⟩

theorem meets_bind {p : Prog S α} {f : α → Prog S β} {R : α → σ → Prop} {Q : β → σ → Prop} {s : σ}
    (meets : interface.Meets p R s) (continued : ∀ value s, R value s → interface.Meets (f value) Q s) :
    interface.Meets (p >>= f) Q s := by
  induction p generalizing s with
  | ret value => exact continued value s meets
  | op o next ih => exact ⟨meets.1, fun answer t given => ih answer (meets.2 answer t given)⟩

theorem meets_run_bind {p : ExceptT ε (Prog S) α} {f : α → ExceptT ε (Prog S) β} {Q : Except ε β → σ → Prop} {s : σ}
    (meets : interface.Meets p.run
      (Contract.ends (fun value => interface.Meets (f value).run Q) (fun e => Q (.error e))) s) :
    interface.Meets (p >>= f).run Q s := by
  apply meets_bind meets
  intro result t ended
  cases result with
  | ok value => exact ended
  | error e => exact ended

theorem meets_run_tryCatch {p : ExceptT ε (Prog S) α} {handle : ε → ExceptT ε (Prog S) α}
    {Q : Except ε α → σ → Prop} {s : σ}
    (meets : interface.Meets p.run
      (Contract.ends (fun value => Q (.ok value)) (fun e => interface.Meets (handle e).run Q)) s) :
    interface.Meets (tryCatch p handle).run Q s := by
  apply meets_bind meets
  intro result t ended
  cases result with
  | ok value => exact ended
  | error e => exact ended

-- Any answer is admissible, and what may be done depends on what was asked and answered before.

def history (permit : S.Op → List (Event S) → Prop) : Interface S (List (Event S)) where
  permit := permit
  answers o past answer now := now = past ++ [⟨o, answer⟩]

theorem permitted_of_meets {W τ : Type} {permit : S.Op → List (Event S) → Prop} {p : Prog S α}
    {Q : α → List (Event S) → Prop} {past : List (Event S)} (meets : (history permit).Meets p Q past)
    (h : Handler S W τ) {oracle : Nat → W} {t : τ} {before later : List (Prog.Visit S W τ)} {visit : Prog.Visit S W τ}
    (split : Prog.visits h p oracle t = before ++ visit :: later) :
    permit visit.op (past ++ before.map (Prog.Visit.event h)) := by
  induction p generalizing past oracle t before with
  | ret value => simp [Prog.visits] at split
  | op o next ih =>
    cases before with
    | nil =>
      obtain ⟨rfl, _⟩ := List.cons_eq_cons.mp split
      have permitted : permit o past := meets.1
      simpa using permitted
    | cons first rest =>
      obtain ⟨rfl, remaining⟩ := List.cons_eq_cons.mp split
      have continued := ih _ (meets.2 _ _ rfl) remaining
      simpa [Prog.Visit.event] using continued

end Interface

namespace Prog

variable {S T : Signature} {α : Type}

def lower (implement : (o : S.Op) → Prog T (S.Res o)) : Prog S α → Prog T α
  | .ret value => .ret value
  | .op o next => implement o >>= fun answer => lower implement (next answer)

end Prog

namespace Contract

variable {S T : Signature} {W σ τ α : Type} {interface : Interface S σ} {contract : Contract T W τ}
  {implement : (o : S.Op) → Prog T (S.Res o)} {related : τ → σ → Prop}

-- An implementation of each operation is one of every program.
theorem kept_lower (stable : ∀ {t t' s}, related t s → contract.rely t t' → related t' s)
    (implements : ∀ o t s, related t s → interface.permit o s → contract.Kept (implement o)
      (fun answer t' => ∃ s', interface.answers o s answer s' ∧ related t' s') t)
    {p : Prog S α} {Q : α → σ → Prop} {t : τ} {s : σ} (meets : interface.Meets p Q s) (start : related t s) :
    contract.Kept (p.lower implement) (fun value t' => ∃ s', Q value s' ∧ related t' s') t := by
  induction p generalizing t s with
  | ret value => exact fun t' later => ⟨s, meets, stable start later⟩
  | op o next ih =>
    apply kept_bind (implements o t s start meets.1)
    intro answer t' answered
    obtain ⟨s', given, still⟩ := answered t' (contract.rely_refl t')
    exact ih answer (meets.2 answer s' given) still

end Contract

end Library
