import Mathlib.Logic.Function.Basic

set_option autoImplicit false

-- A program performs one atomic operation at a time and continues with its result. The meaning of the
-- operations is a handler on a state; a world `w` supplies what the state does not determine (the clock,
-- the answer of a remote service). The same program is run to its end here, and step by step against other
-- programs in `Library.Interleaving`.

namespace Library

structure Signature where
  Op : Type
  Res : Op → Type

inductive Prog (S : Signature) (α : Type) where
  | ret (value : α)
  | op (o : S.Op) (next : S.Res o → Prog S α)

abbrev Handler (S : Signature) (W σ : Type) := W → (o : S.Op) → σ → S.Res o × σ

abbrev Event (S : Signature) := (o : S.Op) × S.Res o

namespace Prog

variable {S : Signature} {α β ε W σ : Type}

protected def bind (p : Prog S α) (f : α → Prog S β) : Prog S β :=
  match p with
  | .ret value => f value
  | .op o next => .op o fun result => (next result).bind f

instance : Monad (Prog S) where
  pure := .ret
  bind := .bind

@[simp]
theorem ret_bind (value : α) (f : α → Prog S β) : (.ret value : Prog S α) >>= f = f value := rfl

@[simp]
theorem op_bind (o : S.Op) (next : S.Res o → Prog S α) (f : α → Prog S β) :
    (.op o next : Prog S α) >>= f = .op o fun result => next result >>= f := rfl

theorem map_id_eq (p : Prog S α) : id <$> p = p := by
  induction p with
  | ret value => rfl
  | op o next ih => exact congrArg (op o) (funext ih)

theorem bind_assoc_eq {γ : Type} (p : Prog S α) (f : α → Prog S β) (g : β → Prog S γ) :
    p >>= f >>= g = p >>= fun value => f value >>= g := by
  induction p with
  | ret value => rfl
  | op o next ih => exact congrArg (op o) (funext ih)

instance : LawfulMonad (Prog S) := LawfulMonad.mk' (Prog S) map_id_eq (fun _ _ => rfl) bind_assoc_eq

def perform (o : S.Op) : Prog S (S.Res o) := .op o .ret

def advance (h : Handler S W σ) (w : W) : Prog S α × σ → Prog S α × σ
  | (.ret value, s) => (.ret value, s)
  | (.op o next, s) => (next (h w o s).1, (h w o s).2)

-- The world of the `i`-th operation is `oracle i`.
def steps (h : Handler S W σ) : Nat → (Nat → W) → Prog S α × σ → Prog S α × σ
  | 0, _, config => config
  | count + 1, oracle, config => steps h count (fun i => oracle (i + 1)) (advance h (oracle 0) config)

def run (h : Handler S W σ) : Prog S α → (Nat → W) → σ → α × σ
  | .ret value, _, s => (value, s)
  | .op o next, oracle, s =>
      run h (next (h (oracle 0) o s).1) (fun i => oracle (i + 1)) (h (oracle 0) o s).2

def logged (h : Handler S W σ) : Handler S W (σ × List (Event S)) :=
  fun w o s => ((h w o s.1).1, ((h w o s.1).2, s.2 ++ [⟨o, (h w o s.1).1⟩]))

-- `wp h I p Q s`: started in `s`, whatever the worlds, `I` holds after every operation of `p` and `Q` of
-- its value and last state.

def wp (h : Handler S W σ) (I : σ → Prop) : Prog S α → (α → σ → Prop) → σ → Prop
  | .ret value, Q, s => Q value s
  | .op o next, Q, s => ∀ w, I (h w o s).2 ∧ wp h I (next (h w o s).1) Q (h w o s).2

variable (h : Handler S W σ) (I : σ → Prop)

theorem wp_op (o : S.Op) (next : S.Res o → Prog S α) (Q : α → σ → Prop) (s : σ) :
    wp h I (.op o next) Q s ↔ ∀ w, I (h w o s).2 ∧ wp h I (next (h w o s).1) Q (h w o s).2 := Iff.rfl

@[simp]
theorem wp_bind (p : Prog S α) (f : α → Prog S β) (Q : β → σ → Prop) (s : σ) :
    wp h I (p >>= f) Q s ↔ wp h I p (fun value s => wp h I (f value) Q s) s := by
  induction p generalizing s with
  | ret value => rfl
  | op o next ih => simp only [op_bind, wp_op, ih]

variable {h I}

theorem wp_consequence {J : σ → Prop} {p : Prog S α} {Q R : α → σ → Prop} {s : σ}
    (kept : ∀ s, I s → J s) (weaker : ∀ value s, Q value s → R value s) (holds : wp h I p Q s) :
    wp h J p R s := by
  induction p generalizing s with
  | ret value => exact weaker value s holds
  | op o next ih => exact fun w => ⟨kept _ (holds w).1, ih _ (holds w).2⟩

theorem wp_mono {p : Prog S α} {Q R : α → σ → Prop} {s : σ}
    (weaker : ∀ value s, Q value s → R value s) (holds : wp h I p Q s) : wp h I p R s :=
  wp_consequence (fun _ kept => kept) weaker holds

theorem wp_and {J : σ → Prop} {p : Prog S α} {Q R : α → σ → Prop} {s : σ}
    (left : wp h I p Q s) (right : wp h J p R s) :
    wp h I p (fun value s => Q value s ∧ R value s) s := by
  induction p generalizing s with
  | ret value => exact ⟨left, right⟩
  | op o next ih => exact fun w => ⟨(left w).1, ih _ (left w).2 (right w).2⟩

theorem wp_trivial (p : Prog S α) (s : σ) : wp h (fun _ => True) p (fun _ _ => True) s := by
  induction p generalizing s with
  | ret value => trivial
  | op o next ih => exact fun w => ⟨trivial, ih _ _⟩

theorem run_of_wp {p : Prog S α} {Q : α → σ → Prop} {s : σ} (holds : wp h I p Q s)
    (oracle : Nat → W) : Q (run h p oracle s).1 (run h p oracle s).2 := by
  induction p generalizing oracle s with
  | ret value => exact holds
  | op o next ih => exact ih _ (holds (oracle 0)).2 _

theorem steps_of_wp {p : Prog S α} {Q : α → σ → Prop} {s : σ} (initial : I s)
    (holds : wp h I p Q s) (count : Nat) (oracle : Nat → W) :
    I (steps h count oracle (p, s)).2 ∧
      wp h I (steps h count oracle (p, s)).1 Q (steps h count oracle (p, s)).2 := by
  induction count generalizing p s oracle with
  | zero => exact ⟨initial, holds⟩
  | succ count ih =>
    cases p with
    | ret value => exact ih initial holds _
    | op o next => exact ih (holds (oracle 0)).1 (holds (oracle 0)).2 _

variable (h I)

@[simp]
theorem wp_run_pure (value : α) (Q : Except ε α → σ → Prop) (s : σ) :
    wp h I (pure value : ExceptT ε (Prog S) α).run Q s ↔ Q (.ok value) s := Iff.rfl

@[simp]
theorem wp_run_throw (e : ε) (Q : Except ε α → σ → Prop) (s : σ) :
    wp h I (throw e : ExceptT ε (Prog S) α).run Q s ↔ Q (.error e) s := Iff.rfl

@[simp]
theorem wp_run_bind (p : ExceptT ε (Prog S) α) (f : α → ExceptT ε (Prog S) β)
    (Q : Except ε β → σ → Prop) (s : σ) :
    wp h I (p >>= f).run Q s ↔
      wp h I p.run (fun result s => match result with
        | .ok value => wp h I (f value).run Q s
        | .error e => Q (.error e) s) s := by
  refine (wp_bind h I p.run _ Q s).trans (iff_of_eq ?_)
  congr 1
  funext result s
  cases result <;> rfl

@[simp]
theorem wp_run_tryCatch (p : ExceptT ε (Prog S) α) (handle : ε → ExceptT ε (Prog S) α)
    (Q : Except ε α → σ → Prop) (s : σ) :
    wp h I (tryCatch p handle).run Q s ↔
      wp h I p.run (fun result s => match result with
        | .ok value => Q (.ok value) s
        | .error e => wp h I (handle e).run Q s) s := by
  refine (wp_bind h I p.run _ Q s).trans (iff_of_eq ?_)
  congr 1
  funext result s
  cases result <;> rfl

theorem wp_run_foldlM {ι : Type} {f : α → ι → ExceptT ε (Prog S) α} {R : α → Prop} (items : List ι) {value : α} (s : σ)
    (kept : ∀ value item s, R value → wp h I (f value item).run (fun result _ => ∀ next, result = .ok next → R next) s)
    (initial : R value) : wp h I (items.foldlM f value).run (fun result _ => ∀ last, result = .ok last → R last) s := by
  induction items generalizing value s with
  | nil =>
    rintro _ ⟨rfl⟩
    exact initial
  | cons item rest ih =>
    rw [List.foldlM_cons, wp_run_bind]
    apply wp_mono _ (kept value item s initial)
    intro result after turned
    cases result with
    | ok next => exact ih after (turned next rfl)
    | error e => simp

def Uses (allowed : S.Op → Prop) : Prog S α → Prop
  | .ret _ => True
  | .op o next => allowed o ∧ ∀ result, Uses allowed (next result)

variable {h I} {allowed : S.Op → Prop}

theorem uses_mono {permitted : S.Op → Prop} {p : Prog S α} (weaker : ∀ o, allowed o → permitted o)
    (uses : Uses allowed p) : Uses permitted p := by
  induction p with
  | ret value => trivial
  | op o next ih => exact ⟨weaker o uses.1, fun result => ih result (uses.2 result)⟩

theorem uses_trivial (p : Prog S α) : Uses (fun _ => True) p := by
  induction p with
  | ret value => trivial
  | op o next ih => exact ⟨trivial, ih⟩

theorem uses_pure (value : α) : Uses allowed (pure value : Prog S α) := trivial

theorem uses_perform {o : S.Op} (permitted : allowed o) : Uses allowed (perform o : Prog S _) :=
  ⟨permitted, fun _ => trivial⟩

theorem uses_bind {p : Prog S α} {f : α → Prog S β} (first : Uses allowed p)
    (rest : ∀ value, Uses allowed (f value)) : Uses allowed (p >>= f) := by
  induction p with
  | ret value => exact rest value
  | op o next ih => exact ⟨first.1, fun result => ih result (first.2 result)⟩

theorem uses_run_bind {p : ExceptT ε (Prog S) α} {f : α → ExceptT ε (Prog S) β}
    (first : Uses allowed p.run) (rest : ∀ value, Uses allowed (f value).run) :
    Uses allowed (p >>= f).run := by
  refine uses_bind first fun result => ?_
  cases result with
  | ok value => exact rest value
  | error e => exact trivial

theorem uses_run_tryCatch {p : ExceptT ε (Prog S) α} {handle : ε → ExceptT ε (Prog S) α}
    (first : Uses allowed p.run) (rest : ∀ e, Uses allowed (handle e).run) :
    Uses allowed (tryCatch p handle).run := by
  refine uses_bind first fun result => ?_
  cases result with
  | ok value => exact trivial
  | error e => exact rest e

theorem uses_run_lift {p : Prog S α} (first : Uses allowed p) :
    Uses allowed (ExceptT.lift p : ExceptT ε (Prog S) α).run :=
  uses_bind first fun _ => trivial

theorem uses_run_foldlM {ι : Type} {f : α → ι → ExceptT ε (Prog S) α} (items : List ι) (value : α)
    (each : ∀ value item, item ∈ items → Uses allowed (f value item).run) :
    Uses allowed (items.foldlM f value).run := by
  induction items generalizing value with
  | nil => trivial
  | cons item rest ih =>
    rw [List.foldlM_cons]
    exact uses_run_bind (each value item (by simp)) fun next =>
      ih next fun value item member => each value item (by simp [member])

theorem wp_of_uses {p : Prog S α} {s : σ} (uses : Uses allowed p)
    (kept : ∀ o, allowed o → ∀ w s, I s → I (h w o s).2) (initial : I s) :
    wp h I p (fun _ s => I s) s := by
  induction p generalizing s with
  | ret value => exact initial
  | op o next ih =>
    intro w
    have after := kept o uses.1 w s initial
    exact ⟨after, ih _ (uses.2 _) after⟩

theorem wp_logged {p : Prog S α} {Q : α → σ → Prop} {s : σ} (trace : List (Event S)) (holds : wp h I p Q s) :
    wp (logged h) (fun logs => I logs.1) p (fun value logs => Q value logs.1) (s, trace) := by
  induction p generalizing s trace with
  | ret value => exact holds
  | op o next ih =>
    intro w
    exact ⟨(holds w).1, ih _ _ (holds w).2⟩

theorem wp_logged_of_uses {p : Prog S α} (uses : Uses allowed p) (s : σ) (trace : List (Event S)) :
    wp (logged h) (fun _ => True) p
      (fun _ logs => ∃ events, logs.2 = trace ++ events ∧ ∀ event ∈ events, allowed event.1) (s, trace) := by
  induction p generalizing s trace with
  | ret value => exact ⟨[], by simp⟩
  | op o next ih =>
    intro w
    refine ⟨trivial, ?_⟩
    have later := ih (h w o s).1 (uses.2 _) (h w o s).2 (trace ++ [⟨o, (h w o s).1⟩])
    refine wp_mono (fun _ logs extended => ?_) later
    obtain ⟨events, same, each⟩ := extended
    refine ⟨⟨o, (h w o s).1⟩ :: events, by simpa using same, fun event member => ?_⟩
    rcases List.mem_cons.mp member with rfl | member
    · exact uses.1
    · exact each event member

-- Where a run performs its operations: in which world each one is performed, and in which state.

structure Visit (S : Signature) (W σ : Type) where
  world : W
  op : S.Op
  state : σ

def Visit.event (h : Handler S W σ) (visit : Visit S W σ) : Event S :=
  ⟨visit.op, (h visit.world visit.op visit.state).1⟩

def visits (h : Handler S W σ) : Prog S α → (Nat → W) → σ → List (Visit S W σ)
  | .ret _, _, _ => []
  | .op o next, oracle, s =>
      ⟨oracle 0, o, s⟩ ::
        visits h (next (h (oracle 0) o s).1) (fun i => oracle (i + 1)) (h (oracle 0) o s).2

def journaled (h : Handler S W σ) : Handler S W (σ × List (Visit S W σ)) :=
  fun w o s => ((h w o s.1).1, ((h w o s.1).2, s.2 ++ [⟨w, o, s.1⟩]))

theorem visits_of_wp {J : σ × List (Visit S W σ) → Prop} {p : Prog S α} {Q : α → σ × List (Visit S W σ) → Prop}
    {s : σ} {seen : List (Visit S W σ)} (holds : wp (journaled h) J p Q (s, seen)) (oracle : Nat → W) :
    Q (run h p oracle s).1 ((run h p oracle s).2, seen ++ visits h p oracle s) := by
  induction p generalizing s seen oracle with
  | ret value =>
    have ended : Q value (s, seen) := holds
    simpa [visits, run] using ended
  | op o next ih =>
    have later := ih _ (holds (oracle 0)).2 (fun i => oracle (i + 1))
    simpa [visits, run, journaled] using later

theorem wp_journaled_of_uses {p : Prog S α} (uses : Uses allowed p) {K : Visit S W σ → Prop}
    (kept : ∀ visit : Visit S W σ, allowed visit.op → K visit) (s : σ) {seen : List (Visit S W σ)}
    (before : ∀ visit ∈ seen, K visit) :
    wp (journaled h) (fun _ => True) p (fun _ journal => ∀ visit ∈ journal.2, K visit) (s, seen) := by
  induction p generalizing s seen with
  | ret value => exact before
  | op o next ih =>
    intro w
    refine ⟨trivial, ih _ (uses.2 _) _ fun visit member => ?_⟩
    rcases List.mem_append.mp member with old | new
    · exact before visit old
    · obtain rfl := List.mem_singleton.mp new
      exact kept _ uses.1

-- Every operation of the concrete handler is answered alike by the abstract one, in some world.

theorem wp_simulate {V τ : Type} {g : Handler S V τ} {J : τ → Prop} {R : σ → τ → Prop}
    (matched : ∀ o, allowed o → ∀ w s t, R s t →
      ∃ v, (g v o t).1 = (h w o s).1 ∧ R (h w o s).2 (g v o t).2)
    {p : Prog S α} {Q : α → τ → Prop} {s : σ} {t : τ} (uses : Uses allowed p) (related : R s t)
    (holds : wp g J p Q t) :
    wp h (fun s => ∃ t, R s t ∧ J t) p (fun value s => ∃ t, R s t ∧ Q value t) s := by
  induction p generalizing s t with
  | ret value => exact ⟨t, related, holds⟩
  | op o next ih =>
    intro w
    obtain ⟨v, answer, after⟩ := matched o uses.1 w s t related
    refine ⟨⟨_, after, (holds v).1⟩, ?_⟩
    have continued := (holds v).2
    rw [answer] at continued
    exact ih _ (uses.2 _) after continued

end Prog

end Library
