import Vestibule.Library.Interleaving

set_option autoImplicit false

-- A thread undertakes to perform an operation only where `permit` allows it. For its own reasoning it
-- counts on two things: the shared invariant holds whenever it is scheduled, and in between the state moved
-- along `rely` only. If what each thread permits itself keeps the invariant and stays within what the
-- others rely on, every interleaving of all of them is safe.

namespace Library

structure Contract (S : Signature) (W σ : Type) where
  handler : Handler S W σ
  inv : σ → Prop
  rely : σ → σ → Prop
  permit : S.Op → σ → Prop
  rely_refl : ∀ s, rely s s
  rely_trans : ∀ {s t u}, rely s t → rely t u → rely s u

namespace Contract

variable {S : Signature} {W σ α β ε : Type} (c : Contract S W σ)

/-- `Kept p Q s`: from `s` on, whatever the others do, `p` performs permitted operations only, and
`Q` holds of its value from its end on. -/
def Kept : Prog S α → (α → σ → Prop) → σ → Prop
  | .ret value, Q, s => ∀ t, c.rely s t → Q value t
  | .op o next, Q, s => ∀ t, c.rely s t → c.inv t →
      c.permit o t ∧ ∀ w, Kept (next (c.handler w o t).1) Q (c.handler w o t).2

variable {c}

theorem kept_of_rely {p : Prog S α} {Q : α → σ → Prop} {s t : σ} (kept : c.Kept p Q s)
    (later : c.rely s t) : c.Kept p Q t := by
  cases p with
  | ret value => exact fun u more => kept u (c.rely_trans later more)
  | op o next => exact fun u more => kept u (c.rely_trans later more)

theorem kept_mono {p : Prog S α} {Q R : α → σ → Prop} {s : σ}
    (weaker : ∀ value s, Q value s → R value s) (kept : c.Kept p Q s) : c.Kept p R s := by
  induction p generalizing s with
  | ret value => exact fun t later => weaker value t (kept t later)
  | op o next ih =>
    intro t later holds
    obtain ⟨permitted, continued⟩ := kept t later holds
    exact ⟨permitted, fun w => ih _ (continued w)⟩

-- At its end `p` leaves what holds from then on, and not just at that moment.
theorem kept_bind {p : Prog S α} {f : α → Prog S β} {R : α → σ → Prop} {Q : β → σ → Prop} {s : σ}
    (kept : c.Kept p R s) (continued : ∀ value s, (∀ t, c.rely s t → R value t) → c.Kept (f value) Q s) :
    c.Kept (p >>= f) Q s := by
  induction p generalizing s with
  | ret value => exact continued value s kept
  | op o next ih =>
    intro t later holds
    obtain ⟨permitted, rest⟩ := kept t later holds
    exact ⟨permitted, fun w => ih _ (rest w)⟩

def ends (ok : α → σ → Prop) (raised : ε → σ → Prop) : Except ε α → σ → Prop
  | .ok value => ok value
  | .error e => raised e

variable (c) in
def KeptRun (p : ExceptT ε (Prog S) α) (ok : α → σ → Prop) (raised : ε → σ → Prop) (s : σ) : Prop :=
  c.Kept p.run (ends ok raised) s

variable {ok : α → σ → Prop} {raised : ε → σ → Prop} {s : σ}

theorem keptRun_bind {p : ExceptT ε (Prog S) β} {f : β → ExceptT ε (Prog S) α}
    (kept : c.KeptRun p (fun value => c.KeptRun (f value) ok raised) raised s) :
    c.KeptRun (p >>= f) ok raised s := by
  apply kept_bind kept
  intro result s continued
  cases result with
  | ok value => exact continued s (c.rely_refl s)
  | error e => exact continued

theorem keptRun_seq {p : ExceptT ε (Prog S) β} {f : β → ExceptT ε (Prog S) α} {mid : β → σ → Prop}
    (first : c.KeptRun p mid raised s) (rest : ∀ value t, mid value t → c.KeptRun (f value) ok raised t) :
    c.KeptRun (p >>= f) ok raised s := by
  apply keptRun_bind
  refine kept_mono (fun result t held => ?_) first
  cases result with
  | ok value => exact rest value t held
  | error e => exact held

theorem keptRun_tryCatch {p : ExceptT ε (Prog S) α} {handle : ε → ExceptT ε (Prog S) α}
    (kept : c.KeptRun p ok (fun e => c.KeptRun (handle e) ok raised) s) :
    c.KeptRun (tryCatch p handle) ok raised s := by
  apply kept_bind kept
  intro result s continued
  cases result with
  | ok value => exact continued
  | error e => exact continued s (c.rely_refl s)

theorem keptRun_pure {value : α} (holds : ∀ t, c.rely s t → ok value t) :
    c.KeptRun (pure value : ExceptT ε (Prog S) α) ok raised s := holds

theorem keptRun_throw {e : ε} (holds : ∀ t, c.rely s t → raised e t) :
    c.KeptRun (throw e : ExceptT ε (Prog S) α) ok raised s := holds

end Contract

namespace Pool

variable {S : Signature} {W σ ι : Type} {α : ι → Type} [DecidableEq ι]

def runAs (h : ι → Handler S W σ) : List (ι × W) → Pool S α σ → Pool S α σ
  | [], c => c
  | (i, w) :: rest, c => runAs h rest (step (h i) i w c)

theorem runAs_shared (h : Handler S W σ) (schedule : List (ι × W)) (c : Pool S α σ) :
    runAs (fun _ => h) schedule c = run h schedule c := by
  induction schedule generalizing c with
  | nil => rfl
  | cons head rest ih => exact ih _

theorem runAs_append (h : ι → Handler S W σ) (first rest : List (ι × W)) (c : Pool S α σ) :
    runAs h (first ++ rest) c = runAs h rest (runAs h first c) := by
  induction first generalizing c with
  | nil => rfl
  | cons head tail ih => exact ih _

def ConformsAs (h : ι → Handler S W σ) (ok : Pool S α σ → ι → W → Prop) : List (ι × W) → Pool S α σ → Prop
  | [], _ => True
  | (i, w) :: rest, c => ok c i w ∧ ConformsAs h ok rest (step (h i) i w c)

theorem runAs_invariant {h : ι → Handler S W σ} {ok : Pool S α σ → ι → W → Prop} {Inv : Pool S α σ → Prop}
    (preserved : ∀ c i w, Inv c → ok c i w → Inv (step (h i) i w c)) {schedule : List (ι × W)} {c : Pool S α σ}
    (initial : Inv c) (conforms : ConformsAs h ok schedule c) : Inv (runAs h schedule c) := by
  induction schedule generalizing c with
  | nil => exact initial
  | cons head rest ih => exact ih (preserved c _ _ initial conforms.1) conforms.2

variable {contract : ι → Contract S W σ} {inv : σ → Prop} {Q : (i : ι) → α i → σ → Prop}

def Honoured (contract : ι → Contract S W σ) (inv : σ → Prop) (Q : (i : ι) → α i → σ → Prop)
    (c : Pool S α σ) : Prop :=
  inv c.state ∧ ∀ i, (contract i).Kept (c.threads i) (Q i) c.state

theorem honoured_step (shared : ∀ i s, inv s → (contract i).inv s)
    (kept : ∀ i o w s, inv s → (contract i).permit o s → inv ((contract i).handler w o s).2)
    (tolerated : ∀ i j, j ≠ i → ∀ o w s, inv s → (contract i).permit o s →
      (contract j).rely s ((contract i).handler w o s).2)
    {c : Pool S α σ} (honoured : Honoured contract inv Q c) (i : ι) (w : W) :
    Honoured contract inv Q (step (contract i).handler i w c) := by
  obtain ⟨holds, threads⟩ := honoured
  have own := threads i
  cases current : c.threads i with
  | ret value =>
    rw [step_of_ended _ current]
    exact ⟨holds, threads⟩
  | op o next =>
    have state : (step (contract i).handler i w c).state = ((contract i).handler w o c.state).2 := by
      simp [step, current, Prog.advance]
    rw [current] at own
    obtain ⟨permitted, continued⟩ := own c.state ((contract i).rely_refl _) (shared i _ holds)
    refine ⟨by rw [state]; exact kept i o w _ holds permitted, fun j => ?_⟩
    rw [state]
    by_cases same : j = i
    next =>
      subst same
      simpa [current, Prog.advance] using continued w
    next =>
      rw [step_threads_other _ same]
      exact Contract.kept_of_rely (threads j) (tolerated i j same o w _ holds permitted)

theorem honoured_run (shared : ∀ i s, inv s → (contract i).inv s)
    (kept : ∀ i o w s, inv s → (contract i).permit o s → inv ((contract i).handler w o s).2)
    (tolerated : ∀ i j, j ≠ i → ∀ o w s, inv s → (contract i).permit o s →
      (contract j).rely s ((contract i).handler w o s).2)
    {c : Pool S α σ} (honoured : Honoured contract inv Q c) (schedule : List (ι × W)) :
    Honoured contract inv Q (runAs (fun i => (contract i).handler) schedule c) := by
  induction schedule generalizing c with
  | nil => exact honoured
  | cons head rest ih => exact ih (honoured_step shared kept tolerated honoured head.1 head.2)

end Pool

-- What was done, newest first: by which thread, with which answer, from which state to which.

structure Deed (S : Signature) (ι σ : Type) where
  thread : ι
  op : S.Op
  answer : S.Res op
  before : σ
  after : σ

def Deed.event {S : Signature} {ι σ : Type} (deed : Deed S ι σ) : Event S := ⟨deed.op, deed.answer⟩

abbrev Chronicle (S : Signature) (ι σ : Type) := List (Deed S ι σ)

namespace Chronicle

variable {S : Signature} {W σ ι : Type}

def recorded (h : Handler S W σ) (i : ι) : Handler S W (σ × Chronicle S ι σ) :=
  fun w o s => ((h w o s.1).1, ((h w o s.1).2, ⟨i, o, (h w o s.1).1, s.1, (h w o s.1).2⟩ :: s.2))

def Each (good : Chronicle S ι σ → Deed S ι σ → Prop) : Chronicle S ι σ → Prop
  | [] => True
  | deed :: earlier => good earlier deed ∧ Each good earlier

instance decideEach {good : Chronicle S ι σ → Deed S ι σ → Prop} [∀ earlier deed, Decidable (good earlier deed)] :
    (chronicle : Chronicle S ι σ) → Decidable (Each good chronicle)
  | [] => isTrue trivial
  | _ :: earlier => @instDecidableAnd _ _ _ (decideEach earlier)

theorem each_mem {good : Chronicle S ι σ → Deed S ι σ → Prop} {chronicle : Chronicle S ι σ}
    (each : Each good chronicle) {deed : Deed S ι σ} (member : deed ∈ chronicle) :
    ∃ later earlier, chronicle = later ++ deed :: earlier ∧ good earlier deed := by
  induction chronicle with
  | nil => simp at member
  | cons first rest ih =>
    rcases List.mem_cons.mp member with rfl | member
    next => exact ⟨[], rest, rfl, each.1⟩
    next =>
      obtain ⟨later, earlier, rfl, good⟩ := ih each.2 member
      exact ⟨first :: later, earlier, rfl, good⟩

theorem each_mono {good fine : Chronicle S ι σ → Deed S ι σ → Prop} {chronicle : Chronicle S ι σ}
    (weaker : ∀ earlier deed, good earlier deed → fine earlier deed) (each : Each good chronicle) :
    Each fine chronicle := by
  induction chronicle with
  | nil => trivial
  | cons deed earlier ih => exact ⟨weaker earlier deed each.1, ih each.2⟩

theorem each_before {good : Chronicle S ι σ → Deed S ι σ → Prop} {chronicle : Chronicle S ι σ}
    (each : Each good chronicle) : Each (fun earlier deed => good earlier deed ∧ Each good earlier) chronicle := by
  induction chronicle with
  | nil => trivial
  | cons deed earlier ih => exact ⟨each, ih each.2⟩

theorem each_within {good : Chronicle S ι σ → Deed S ι σ → Prop} {chronicle : Chronicle S ι σ}
    (each : Each good chronicle) : Each (fun earlier deed => earlier <:+ chronicle ∧ good earlier deed) chronicle := by
  have tails (more rest : Chronicle S ι σ) (same : more ++ rest = chronicle) (each : Each good rest) :
      Each (fun earlier deed => earlier <:+ chronicle ∧ good earlier deed) rest := by
    induction rest generalizing more with
    | nil => trivial
    | cons deed earlier ih =>
      have longer : (more ++ [deed]) ++ earlier = chronicle := by simp [same]
      exact ⟨⟨⟨more ++ [deed], longer⟩, each.1⟩, ih (more ++ [deed]) longer each.2⟩
  exact tails [] chronicle rfl each

theorem each_pairwise {relation : Deed S ι σ → Deed S ι σ → Prop} {chronicle : Chronicle S ι σ}
    (each : Each (fun earlier deed => ∀ old ∈ earlier, relation deed old) chronicle) :
    chronicle.Pairwise relation := by
  induction chronicle with
  | nil => exact .nil
  | cons deed earlier ih => exact .cons each.1 (ih each.2)

structure Meanwhile (advances : σ → σ → Prop) (i : ι) (s t : σ × Chronicle S ι σ) : Prop where
  others : ∃ more, t.2 = more ++ s.2 ∧ ∀ deed ∈ more, deed.thread ≠ i
  advances : advances s.1 t.1

section Meanwhile

variable {advances : σ → σ → Prop} {i : ι}

theorem meanwhile_refl (reflexive : ∀ s, advances s s) (s : σ × Chronicle S ι σ) : Meanwhile advances i s s :=
  ⟨⟨[], by simp⟩, reflexive s.1⟩

theorem meanwhile_trans (transitive : ∀ s t u, advances s t → advances t u → advances s u)
    {s t u : σ × Chronicle S ι σ} (first : Meanwhile advances i s t) (second : Meanwhile advances i t u) :
    Meanwhile advances i s u := by
  obtain ⟨more, same, others⟩ := first.others
  obtain ⟨most, same', others'⟩ := second.others
  refine ⟨⟨most ++ more, by simp [same, same'], fun deed member => ?_⟩, transitive _ _ _ first.advances second.advances⟩
  rcases List.mem_append.mp member with late | early
  next => exact others' deed late
  next => exact others deed early

end Meanwhile

-- What a thread knows from its own deeds: between two of them anything may have happened to the state.

def Attended (h : Handler S W σ) (i : ι) (during : Chronicle S ι σ → Prop) {α : Type} :
    Prog S α → (α → Chronicle S ι σ → Prop) → Chronicle S ι σ → Prop
  | .ret value, Q, own => Q value own
  | .op o next, Q, own => during own ∧
      ∀ w s, Attended h i during (next (h w o s).1) Q (⟨i, o, (h w o s).1, s, (h w o s).2⟩ :: own)

def Accounted (h : Handler S W σ) (i : ι) {α : Type} :
    Prog S α → (α → Chronicle S ι σ → Prop) → Chronicle S ι σ → Prop
  | .ret value, Q, own => Q value own
  | .op o next, Q, own => ∀ w s, Accounted h i (next (h w o s).1) Q (⟨i, o, (h w o s).1, s, (h w o s).2⟩ :: own)

section Rules

variable {h : Handler S W σ} {i : ι} {during : Chronicle S ι σ → Prop} {α β ε : Type} {own : Chronicle S ι σ}
  {Q R : α → Chronicle S ι σ → Prop}

theorem attended_mono (weaker : ∀ value own, Q value own → R value own) {p : Prog S α}
    (attended : Attended h i during p Q own) : Attended h i during p R own := by
  induction p generalizing own with
  | ret value => exact weaker value own attended
  | op o next ih => exact ⟨attended.1, fun w s => ih _ (attended.2 w s)⟩

theorem attended_bind {p : Prog S β} {f : β → Prog S α}
    (attended : Attended h i during p (fun value own => Attended h i during (f value) Q own) own) :
    Attended h i during (p >>= f) Q own := by
  induction p generalizing own with
  | ret value => exact attended
  | op o next ih => exact ⟨attended.1, fun w s => ih _ (attended.2 w s)⟩

theorem attended_run_bind {p : ExceptT ε (Prog S) β} {f : β → ExceptT ε (Prog S) α}
    {Q : Except ε α → Chronicle S ι σ → Prop}
    (attended : Attended h i during p.run (Contract.ends (fun value own => Attended h i during (f value).run Q own)
      (fun e own => Q (.error e) own)) own) :
    Attended h i during (p >>= f).run Q own := by
  apply attended_bind
  refine attended_mono (fun result own continued => ?_) attended
  cases result with
  | ok value => exact continued
  | error e => exact continued

theorem attended_run_tryCatch {p : ExceptT ε (Prog S) α} {handle : ε → ExceptT ε (Prog S) α}
    {Q : Except ε α → Chronicle S ι σ → Prop}
    (attended : Attended h i during p.run (Contract.ends (fun value own => Q (.ok value) own)
      (fun e own => Attended h i during (handle e).run Q own)) own) :
    Attended h i during (tryCatch p handle).run Q own := by
  apply attended_bind
  refine attended_mono (fun result own continued => ?_) attended
  cases result with
  | ok value => exact continued
  | error e => exact continued

theorem accounted_iff {p : Prog S α} : Accounted h i p Q own ↔ Attended h i (fun _ => True) p Q own := by
  induction p generalizing own with
  | ret value => rfl
  | op o next ih => simp only [Accounted, Attended, ih, true_and]

theorem accounted_mono (weaker : ∀ value own, Q value own → R value own) {p : Prog S α}
    (accounted : Accounted h i p Q own) : Accounted h i p R own :=
  accounted_iff.mpr (attended_mono weaker (accounted_iff.mp accounted))

end Rules

theorem accounted_trivial (h : Handler S W σ) (i : ι) {α : Type} {Q : α → Chronicle S ι σ → Prop}
    (always : ∀ value own, Q value own) (p : Prog S α) (own : Chronicle S ι σ) : Accounted h i p Q own := by
  induction p generalizing own with
  | ret value => exact always value own
  | op o next ih => exact fun w s => ih _ _

variable [DecidableEq ι]

def own (i : ι) (chronicle : Chronicle S ι σ) : Chronicle S ι σ := chronicle.filter fun deed => deed.thread = i

theorem attended_step {h : Handler S W σ} {during : ι → Chronicle S ι σ → Prop} {α : ι → Type}
    {Q : (i : ι) → α i → Chronicle S ι σ → Prop} {c : Pool S α (σ × Chronicle S ι σ)}
    (attended : ∀ i, Attended h i (during i) (c.threads i) (Q i) (own i c.state.2)) (i : ι) (w : W) (j : ι) :
    Attended h j (during j) ((Pool.step (recorded h i) i w c).threads j) (Q j)
      (own j (Pool.step (recorded h i) i w c).state.2) := by
  cases current : c.threads i with
  | ret value =>
    rw [Pool.step_of_ended _ current]
    exact attended j
  | op o next =>
    have state : (Pool.step (recorded h i) i w c).state = (recorded h i w o c.state).2 := by
      simp [Pool.step, current, Prog.advance]
    rw [state]
    by_cases same : j = i
    next =>
      subst same
      have continued := attended j
      rw [current] at continued
      simpa [current, Prog.advance, recorded, own] using continued.2 w c.state.1
    next =>
      have others : own j (recorded h i w o c.state).2.2 = own j c.state.2 := by
        simp [recorded, own, Ne.symm same]
      rw [Pool.step_threads_other _ same, others]
      exact attended j

theorem attended_run {h : Handler S W σ} {during : ι → Chronicle S ι σ → Prop} {α : ι → Type}
    {Q : (i : ι) → α i → Chronicle S ι σ → Prop} {c : Pool S α (σ × Chronicle S ι σ)}
    (attended : ∀ i, Attended h i (during i) (c.threads i) (Q i) (own i c.state.2)) (schedule : List (ι × W)) (i : ι) :
    Attended h i (during i) ((Pool.runAs (recorded h) schedule c).threads i) (Q i)
      (own i (Pool.runAs (recorded h) schedule c).state.2) := by
  induction schedule generalizing c with
  | nil => exact attended i
  | cons head rest ih => exact ih fun j => attended_step attended head.1 head.2 j

theorem accounted_run {h : Handler S W σ} {α : ι → Type} {Q : (i : ι) → α i → Chronicle S ι σ → Prop}
    {c : Pool S α (σ × Chronicle S ι σ)} (accounted : ∀ i, Accounted h i (c.threads i) (Q i) (own i c.state.2))
    (schedule : List (ι × W)) (i : ι) :
    Accounted h i ((Pool.runAs (recorded h) schedule c).threads i) (Q i)
      (own i (Pool.runAs (recorded h) schedule c).state.2) :=
  accounted_iff.mpr (attended_run (fun j => accounted_iff.mp (accounted j)) schedule i)

-- A deed among those of its own thread, and all that was done before it.
theorem each_own {good : Chronicle S ι σ → Deed S ι σ → Prop} {chronicle : Chronicle S ι σ}
    (each : Each good chronicle) (i : ι) :
    Each (fun before deed => ∃ earlier, own i earlier = before ∧ good earlier deed) (own i chronicle) := by
  induction chronicle with
  | nil => trivial
  | cons deed earlier ih =>
    by_cases mine : deed.thread = i
    next =>
      simp only [own, List.filter_cons, mine, decide_true, if_true]
      exact ⟨⟨earlier, rfl, each.1⟩, ih each.2⟩
    next => simpa [own, List.filter_cons, mine] using ih each.2

theorem runAs_recorded_suffix (h : Handler S W σ) {α : ι → Type} (schedule : List (ι × W))
    (c : Pool S α (σ × Chronicle S ι σ)) : c.state.2 <:+ (Pool.runAs (recorded h) schedule c).state.2 := by
  induction schedule generalizing c with
  | nil => exact List.suffix_refl _
  | cons head rest ih =>
    refine List.IsSuffix.trans ?_ (ih _)
    simp only [Pool.step]
    cases c.threads head.1 with
    | ret value => exact List.suffix_refl _
    | op o next => exact List.suffix_cons _ _

-- What was done in a run was done in one of its steps.
theorem after_of_mem_runAs {h : Handler S W σ} {α : ι → Type} {schedule : List (ι × W)}
    {c : Pool S α (σ × Chronicle S ι σ)} {deed : Deed S ι σ}
    (member : deed ∈ (Pool.runAs (recorded h) schedule c).state.2) :
    deed ∈ c.state.2 ∨ ∃ first rest, schedule = first ++ rest ∧
      (Pool.runAs (recorded h) first c).state.1 = deed.after := by
  induction schedule generalizing c with
  | nil => exact .inl member
  | cons head rest ih =>
    rcases ih member with new | ⟨first, more, rfl, reached⟩
    next =>
      simp only [Pool.step] at new
      cases current : c.threads head.1 with
      | ret value => exact .inl (by simpa [current, Prog.advance] using new)
      | op o next =>
        rw [current] at new
        rcases List.mem_cons.mp new with rfl | old
        next => exact .inr ⟨[head], rest, rfl, by simp [Pool.runAs, Pool.step, current, Prog.advance, recorded]⟩
        next => exact .inl old
    next => exact .inr ⟨head :: first, more, rfl, reached⟩

end Chronicle

-- What the threads of one recorded run promise each other.

structure Treaty (S : Signature) (ι σ : Type) where
  inv : σ × Chronicle S ι σ → Prop
  rely : ι → σ × Chronicle S ι σ → σ × Chronicle S ι σ → Prop
  permit : ι → S.Op → σ × Chronicle S ι σ → Prop
  rely_refl : ∀ i s, rely i s s
  rely_trans : ∀ i {s t u}, rely i s t → rely i t u → rely i s u

namespace Treaty

variable {S : Signature} {W σ ι : Type} (treaty : Treaty S ι σ) (h : Handler S W σ)

def contract (i : ι) : Contract S W (σ × Chronicle S ι σ) where
  handler := Chronicle.recorded h i
  inv := treaty.inv
  rely := treaty.rely i
  permit := treaty.permit i
  rely_refl := treaty.rely_refl i
  rely_trans := treaty.rely_trans i

/-- What a thread permits itself keeps the invariant, and the others can live with it. -/
structure Sustained : Prop where
  kept : ∀ i o w s, treaty.inv s → treaty.permit i o s → treaty.inv (Chronicle.recorded h i w o s).2
  tolerated : ∀ i j, j ≠ i → ∀ o w s, treaty.inv s → treaty.permit i o s →
    treaty.rely j s (Chronicle.recorded h i w o s).2

structure Lawful (earlier : Chronicle S ι σ) (deed : Deed S ι σ) : Prop where
  sound : treaty.inv (deed.before, earlier)
  permitted : treaty.permit deed.thread deed.op (deed.before, earlier)
  handled : ∃ w, h w deed.op deed.before = (deed.answer, deed.after)

variable {treaty h}

theorem Lawful.eq_handled {earlier : Chronicle S ι σ} {deed : Deed S ι σ} (lawful : treaty.Lawful h earlier deed) :
    ∃ w, deed = ⟨deed.thread, deed.op, (h w deed.op deed.before).1, deed.before, (h w deed.op deed.before).2⟩ := by
  obtain ⟨w, same⟩ := lawful.handled
  exact ⟨w, by rw [same]⟩

variable [DecidableEq ι] {α : ι → Type} {Q : (i : ι) → α i → σ × Chronicle S ι σ → Prop}

-- Every deed of every interleaving of threads that keep their contracts is lawful.
theorem lawful_run (sustained : treaty.Sustained h) {c : Pool S α (σ × Chronicle S ι σ)} (fresh : c.state.2 = [])
    (initial : treaty.inv c.state) (threads : ∀ i, (treaty.contract h i).Kept (c.threads i) (Q i) c.state)
    (schedule : List (ι × W)) :
    Chronicle.Each (treaty.Lawful h) (Pool.runAs (Chronicle.recorded h) schedule c).state.2 ∧
      treaty.inv (Pool.runAs (Chronicle.recorded h) schedule c).state ∧
      ∀ i, (treaty.contract h i).Kept ((Pool.runAs (Chronicle.recorded h) schedule c).threads i) (Q i)
        (Pool.runAs (Chronicle.recorded h) schedule c).state := by
  have honoured : Pool.Honoured (treaty.contract h)
      (fun s => Chronicle.Each (treaty.Lawful h) s.2 ∧ treaty.inv s) Q
      (Pool.runAs (fun i => (treaty.contract h i).handler) schedule c) := by
    apply Pool.honoured_run
    next => exact fun _ _ both => both.2
    next =>
      intro i o w s both permitted
      exact ⟨⟨⟨both.2, permitted, w, rfl⟩, both.1⟩, sustained.kept i o w s both.2 permitted⟩
    next => exact fun i j other o w s both permitted => sustained.tolerated i j other o w s both.2 permitted
    next => exact ⟨⟨by rw [fresh]; trivial, initial⟩, threads⟩
  exact ⟨honoured.1.1, honoured.1.2, honoured.2⟩

end Treaty

end Library
