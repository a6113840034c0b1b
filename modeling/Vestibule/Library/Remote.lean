import Mathlib.Logic.Relation
import Vestibule.Library.Rely

set_option autoImplicit false

-- A program reaches a server by calls over a connection. A call that fails may have reached the server all
-- the same, and one that was given up on may reach it at any later time.

namespace Library

inductive RemoteOp (S : Signature) (Δ : Type) where
  | attempt (o : S.Op)
  | here (o : S.Op)
  | sleep (delay : Δ)

def RemoteOp.Res {S : Signature} {Δ : Type} (Fault : Type) : RemoteOp S Δ → Type
  | attempt o => Except Fault (S.Res o)
  | here o => S.Res o
  | sleep _ => Unit

abbrev Remote (S : Signature) (Fault Δ : Type) : Signature := ⟨RemoteOp S Δ, RemoteOp.Res Fault⟩

structure Cloud (S : Signature) (ι σ : Type) where
  server : σ
  inFlight : List (ι × S.Op) := []
  -- The threads that were not answered once at least.
  unanswered : List ι := []

inductive Fate (Fault : Type) where
  | answered
  | failed (fault : Fault) (reached : Bool)
  | abandoned (fault : Fault)

/-- What the connection does at an operation; the calls that arrive first are told by their places. -/
structure Weather (W Fault : Type) where
  world : W
  fate : Fate Fault := .answered
  arrivals : List (Nat × W) := []

section Connection

variable {S : Signature} {W σ ι Fault Δ : Type} (h : ι → Handler S W σ)

def Cloud.arrive (cloud : Cloud S ι σ) (arrival : Nat × W) : Cloud S ι σ :=
  match cloud.inFlight[arrival.1]? with
  | none => cloud
  | some (i, o) => { cloud with
      server := (h i arrival.2 o cloud.server).2
      inFlight := cloud.inFlight.eraseIdx arrival.1 }

def Cloud.attempt (i : ι) (weather : Weather W Fault) (o : S.Op) (cloud : Cloud S ι σ) :
    Except Fault (S.Res o) × Cloud S ι σ :=
  let served := h i weather.world o cloud.server
  match weather.fate with
  | .answered => (.ok served.1, { cloud with server := served.2 })
  | .failed fault reached => (.error fault, { cloud with
      server := if reached then served.2 else cloud.server
      unanswered := i :: cloud.unanswered })
  | .abandoned fault => (.error fault, { cloud with
      inFlight := (i, o) :: cloud.inFlight
      unanswered := i :: cloud.unanswered })

def connection (i : ι) : Handler (Remote S Fault Δ) (Weather W Fault) (Cloud S ι σ) :=
  fun weather o cloud =>
    let arrived := weather.arrivals.foldl (Cloud.arrive h) cloud
    match o with
    | .attempt o => arrived.attempt h i weather o
    | .here o => ((h i weather.world o arrived.server).1,
        { arrived with server := (h i weather.world o arrived.server).2 })
    | .sleep _ => ((), arrived)

end Connection

-- The calls that the threads make are `good` whenever they may arrive, whatever else has arrived before.

structure Traffic (S : Signature) (ι W σ : Type) where
  handler : ι → Handler S W σ
  inv : σ → Prop
  good : ι → S.Op → σ → Prop
  kept : ∀ {i o s}, inv s → good i o s → ∀ w, inv (handler i w o s).2
  lasting : ∀ {i o s}, inv s → good i o s → ∀ w {j p}, good j p s → good j p (handler i w o s).2

namespace Traffic

variable {S : Signature} {W σ ι Fault Δ : Type} (traffic : Traffic S ι W σ)

def Move (calls : ι → S.Op → Prop) (s t : σ) : Prop :=
  ∃ i o w, calls i o ∧ traffic.inv s ∧ traffic.good i o s ∧ t = (traffic.handler i w o s).2

/-- Some of these calls have been served. -/
abbrev Moved (calls : ι → S.Op → Prop) : σ → σ → Prop := Relation.ReflTransGen (traffic.Move calls)

structure Sound (cloud : Cloud S ι σ) : Prop where
  inv : traffic.inv cloud.server
  good : ∀ call ∈ cloud.inFlight, traffic.good call.1 call.2 cloud.server
  owned : ∀ call ∈ cloud.inFlight, call.1 ∈ cloud.unanswered

/-- Between two operations of `i`, of its own calls only those in flight are served. -/
structure Meanwhile (i : ι) (a b : Cloud S ι σ) : Prop where
  moved : traffic.Moved (fun j o => j = i → (i, o) ∈ a.inFlight) a.server b.server
  inFlight : ∀ o, (i, o) ∈ b.inFlight → (i, o) ∈ a.inFlight
  unanswered : i ∈ b.unanswered ↔ i ∈ a.unanswered

variable {traffic}

theorem moved_mono {calls more : ι → S.Op → Prop} (weaker : ∀ i o, calls i o → more i o) {s t : σ}
    (moved : traffic.Moved calls s t) : traffic.Moved more s t := by
  apply Relation.ReflTransGen.mono _ _ _ moved
  intro a b move
  obtain ⟨i, o, w, called, rest⟩ := move
  exact ⟨i, o, w, weaker i o called, rest⟩

theorem moved_rec {R : σ → σ → Prop} {calls : ι → S.Op → Prop} (refl : ∀ s, R s s)
    (trans : ∀ {s t u}, R s t → R t u → R s u)
    (one : ∀ i o, calls i o → ∀ w s, traffic.inv s → traffic.good i o s → R s (traffic.handler i w o s).2)
    {s t : σ} (moved : traffic.Moved calls s t) : R s t := by
  induction moved with
  | refl => exact refl s
  | tail _ move ih =>
    obtain ⟨i, o, w, called, inv, good, rfl⟩ := move
    exact trans ih (one i o called w _ inv good)

theorem good_moved {calls : ι → S.Op → Prop} {s t : σ} (moved : traffic.Moved calls s t) {j : ι} {p : S.Op}
    (good : traffic.good j p s) : traffic.good j p t := by
  induction moved with
  | refl => exact good
  | tail _ move ih =>
    obtain ⟨i, o, w, _, inv, served, rfl⟩ := move
    exact traffic.lasting inv served w ih

theorem meanwhile_refl (i : ι) (a : Cloud S ι σ) : traffic.Meanwhile i a a := ⟨.refl, fun _ => id, .rfl⟩

theorem meanwhile_trans {i : ι} {a b c : Cloud S ι σ} (first : traffic.Meanwhile i a b)
    (second : traffic.Meanwhile i b c) : traffic.Meanwhile i a c := by
  refine ⟨first.moved.trans (moved_mono (fun j o called same => ?_) second.moved),
    fun o late => first.inFlight o (second.inFlight o late), second.unanswered.trans first.unanswered⟩
  exact first.inFlight o (called same)

variable (traffic) in
def Permitted (i : ι) (cloud : Cloud S ι σ) : RemoteOp S Δ → Prop
  | .attempt o => traffic.good i o cloud.server
  | .here o => traffic.good i o cloud.server
  | .sleep _ => True

variable (traffic) in
def contract (i : ι) : Contract (Remote S Fault Δ) (Weather W Fault) (Cloud S ι σ) where
  handler := connection traffic.handler i
  inv := traffic.Sound
  rely := traffic.Meanwhile i
  permit o cloud := traffic.Permitted i cloud o
  rely_refl := meanwhile_refl i
  rely_trans := meanwhile_trans

theorem arrive_cases (cloud : Cloud S ι σ) (sound : traffic.Sound cloud) (arrival : Nat × W) :
    traffic.Sound (cloud.arrive traffic.handler arrival) ∧
      traffic.Moved (fun i o => (i, o) ∈ cloud.inFlight) cloud.server (cloud.arrive traffic.handler arrival).server ∧
      (cloud.arrive traffic.handler arrival).inFlight ⊆ cloud.inFlight ∧
      (cloud.arrive traffic.handler arrival).unanswered = cloud.unanswered := by
  simp only [Cloud.arrive]
  cases found : cloud.inFlight[arrival.1]? with
  | none => exact ⟨sound, .refl, fun _ => id, rfl⟩
  | some call =>
    have member : call ∈ cloud.inFlight := List.mem_of_getElem? found
    have good := sound.good call member
    have remaining : ∀ other ∈ cloud.inFlight.eraseIdx arrival.1, other ∈ cloud.inFlight :=
      fun other left => List.mem_of_mem_eraseIdx left
    refine ⟨⟨traffic.kept sound.inv good _, fun other left => ?_, fun other left => ?_⟩, ?_, remaining, rfl⟩
    next => exact traffic.lasting sound.inv good _ (sound.good other (remaining other left))
    next => exact sound.owned other (remaining other left)
    next => exact .single ⟨call.1, call.2, arrival.2, member, sound.inv, good, rfl⟩

theorem arrivals_cases (arrivals : List (Nat × W)) {cloud : Cloud S ι σ} (sound : traffic.Sound cloud) :
    traffic.Sound (arrivals.foldl (Cloud.arrive traffic.handler) cloud) ∧
      traffic.Moved (fun i o => (i, o) ∈ cloud.inFlight) cloud.server
        (arrivals.foldl (Cloud.arrive traffic.handler) cloud).server ∧
      (arrivals.foldl (Cloud.arrive traffic.handler) cloud).inFlight ⊆ cloud.inFlight ∧
      (arrivals.foldl (Cloud.arrive traffic.handler) cloud).unanswered = cloud.unanswered := by
  induction arrivals generalizing cloud with
  | nil => exact ⟨sound, .refl, fun _ => id, rfl⟩
  | cons arrival rest ih =>
    obtain ⟨still, moved, fewer, same⟩ := arrive_cases cloud sound arrival
    obtain ⟨last, later, remaining, unchanged⟩ := ih still
    refine ⟨last, moved.trans (moved_mono (fun i o waiting => fewer waiting) later), ?_, unchanged.trans same⟩
    exact List.Subset.trans remaining fewer

theorem meanwhile_arrivals (i : ι) (arrivals : List (Nat × W)) {cloud : Cloud S ι σ} (sound : traffic.Sound cloud) :
    traffic.Meanwhile i cloud (arrivals.foldl (Cloud.arrive traffic.handler) cloud) := by
  obtain ⟨_, moved, fewer, same⟩ := arrivals_cases arrivals sound
  refine ⟨moved_mono (fun j o waiting equal => ?_) moved, fun o left => fewer left, by rw [same]⟩
  exact equal ▸ waiting

theorem sound_here {i : ι} {o : S.Op} {cloud : Cloud S ι σ} (sound : traffic.Sound cloud)
    (good : traffic.good i o cloud.server) (w : W) :
    traffic.Sound { cloud with server := (traffic.handler i w o cloud.server).2 } :=
  ⟨traffic.kept sound.inv good w, fun call member => traffic.lasting sound.inv good w (sound.good call member),
    sound.owned⟩

theorem meanwhile_here {i j : ι} (other : i ≠ j) {o : S.Op} {cloud : Cloud S ι σ} (sound : traffic.Sound cloud)
    (good : traffic.good i o cloud.server) (w : W) :
    traffic.Meanwhile j cloud { cloud with server := (traffic.handler i w o cloud.server).2 } :=
  ⟨.single ⟨i, o, w, fun same => (other same).elim, sound.inv, good, rfl⟩, fun _ => id, .rfl⟩

variable (traffic) in
/-- A call of `i` that failed: it was served, or is in flight, or came to nothing. -/
structure Missed (i : ι) (o : S.Op) (a b : Cloud S ι σ) : Prop where
  moved : traffic.Moved (fun j p => j = i ∧ p = o) a.server b.server
  inFlight : b.inFlight ⊆ (i, o) :: a.inFlight
  unanswered : b.unanswered = i :: a.unanswered

theorem Missed.meanwhile {i j : ι} (other : i ≠ j) {o : S.Op} {a b : Cloud S ι σ} (missed : traffic.Missed i o a b) :
    traffic.Meanwhile j a b := by
  refine ⟨moved_mono (fun k p own same => ?_) missed.moved, fun p waiting => ?_, ?_⟩
  next => exact (other (own.1.symm.trans same)).elim
  next =>
    rcases List.mem_cons.mp (missed.inFlight waiting) with own | old
    next => exact (other (congrArg Prod.fst own).symm).elim
    next => exact old
  next => simp [missed.unanswered, other.symm]

variable {i : ι} {o : S.Op} {cloud : Cloud S ι σ}

theorem attempt_cases (sound : traffic.Sound cloud) (good : traffic.good i o cloud.server)
    (weather : Weather W Fault) :
    (∃ w, cloud.attempt traffic.handler i weather o = (.ok (traffic.handler i w o cloud.server).1,
        { cloud with server := (traffic.handler i w o cloud.server).2 })) ∨
      ∃ fault after, cloud.attempt traffic.handler i weather o = (.error fault, after) ∧
        traffic.Sound after ∧ traffic.Missed i o cloud after := by
  have served : traffic.Move (fun j p => j = i ∧ p = o) cloud.server
      (traffic.handler i weather.world o cloud.server).2 :=
    ⟨i, o, weather.world, ⟨rfl, rfl⟩, sound.inv, good, rfl⟩
  simp only [Cloud.attempt]
  cases weather.fate with
  | answered => exact .inl ⟨weather.world, rfl⟩
  | failed fault reached =>
    have owned (unanswered : List ι) (more : cloud.unanswered ⊆ unanswered) :
        ∀ call ∈ cloud.inFlight, call.1 ∈ unanswered := fun call member => more (sound.owned call member)
    refine .inr ⟨fault, _, rfl, ?_, ?_, List.subset_cons_self _ _, rfl⟩
    next =>
      cases reached with
      | false => exact ⟨sound.inv, sound.good, owned _ (by simp)⟩
      | true =>
        exact ⟨traffic.kept sound.inv good _, (sound_here sound good weather.world).good, owned _ (by simp)⟩
    next =>
      cases reached with
      | false => exact .refl
      | true => exact .single served
  | abandoned fault =>
    refine .inr ⟨fault, _, rfl, ⟨sound.inv, fun call member => ?_, fun call member => ?_⟩, .refl, fun _ => id, rfl⟩
    next =>
      rcases List.mem_cons.mp member with rfl | old
      next => exact good
      next => exact sound.good call old
    next =>
      rcases List.mem_cons.mp member with rfl | old
      next => exact List.mem_cons_self
      next => exact List.mem_cons_of_mem _ (sound.owned call old)

theorem step_cases (sound : traffic.Sound cloud) (o : RemoteOp S Δ)
    (permitted : traffic.Permitted i cloud o) (weather : Weather W Fault) :
    traffic.Sound (connection traffic.handler i weather o cloud).2 ∧
      ∀ j, j ≠ i → traffic.Meanwhile j cloud (connection traffic.handler i weather o cloud).2 := by
  obtain ⟨arrived, _, _, _⟩ := arrivals_cases weather.arrivals sound
  have first (j : ι) := meanwhile_arrivals j weather.arrivals sound
  have good (p : S.Op) (granted : traffic.good i p cloud.server) :
      traffic.good i p (weather.arrivals.foldl (Cloud.arrive traffic.handler) cloud).server :=
    good_moved (first i).moved granted
  have served (j : ι) (other : j ≠ i) (p : S.Op) (granted : traffic.good i p cloud.server) (w : W) :=
    meanwhile_trans (first j) (meanwhile_here other.symm arrived (good p granted) w)
  cases o with
  | sleep delay => exact ⟨arrived, fun j _ => first j⟩
  | here o =>
    exact ⟨sound_here arrived (good o permitted) weather.world, fun j other => served j other o permitted _⟩
  | attempt o =>
    simp only [connection]
    obtain ⟨w, answered⟩ | ⟨fault, after, failed, still, missed⟩ := attempt_cases arrived (good o permitted) weather
    next =>
      rw [answered]
      exact ⟨sound_here arrived (good o permitted) w, fun j other => served j other o permitted w⟩
    next =>
      rw [failed]
      exact ⟨still, fun j other => meanwhile_trans (first j) (missed.meanwhile other.symm)⟩

variable {α ε : Type}

theorem kept_here {next : S.Res o → Prog (Remote S Fault Δ) α} {Q : α → Cloud S ι σ → Prop}
    (served : ∀ t, traffic.Meanwhile i cloud t → traffic.Sound t → traffic.good i o t.server ∧
      ∀ w, (traffic.contract i).Kept (next (traffic.handler i w o t.server).1) Q
        { t with server := (traffic.handler i w o t.server).2 }) :
    (traffic.contract i).Kept (.op (.here o) next) Q cloud := by
  intro t later sound
  refine ⟨(served t later sound).1, fun weather => ?_⟩
  obtain ⟨arrived, _⟩ := arrivals_cases weather.arrivals sound
  exact (served _ (meanwhile_trans later (meanwhile_arrivals i weather.arrivals sound)) arrived).2 weather.world

theorem kept_sleep {delay : Δ} {next : Unit → Prog (Remote S Fault Δ) α} {Q : α → Cloud S ι σ → Prop}
    (continued : ∀ t, traffic.Meanwhile i cloud t → (traffic.contract i).Kept (next ()) Q t) :
    (traffic.contract i).Kept (.op (.sleep delay) next) Q cloud := by
  intro t later sound
  exact ⟨trivial, fun weather => continued _ (meanwhile_trans later (meanwhile_arrivals i weather.arrivals sound))⟩

theorem kept_attempt {next : Except Fault (S.Res o) → Prog (Remote S Fault Δ) α} {Q : α → Cloud S ι σ → Prop}
    (served : ∀ t, traffic.Meanwhile i cloud t → traffic.Sound t → traffic.good i o t.server ∧
      (∀ w, (traffic.contract i).Kept (next (.ok (traffic.handler i w o t.server).1)) Q
        { t with server := (traffic.handler i w o t.server).2 }) ∧
      ∀ fault after, traffic.Missed i o t after → (traffic.contract i).Kept (next (.error fault)) Q after) :
    (traffic.contract i).Kept (.op (.attempt o) next) Q cloud := by
  intro t later sound
  refine ⟨(served t later sound).1, fun weather => ?_⟩
  obtain ⟨arrived, _⟩ := arrivals_cases weather.arrivals sound
  obtain ⟨good, answers, fails⟩ :=
    served _ (meanwhile_trans later (meanwhile_arrivals i weather.arrivals sound)) arrived
  simp only [contract, connection]
  obtain ⟨w, answered⟩ | ⟨fault, after, failed, _, missed⟩ := attempt_cases arrived good weather
  next =>
    rw [answered]
    exact answers w
  next =>
    rw [failed]
    exact fails fault after missed

variable [DecidableEq ι] {α : ι → Type} {Q : (i : ι) → α i → Cloud S ι σ → Prop}

variable (traffic) in
theorem sound_run {c : Pool (Remote S Fault Δ) α (Cloud S ι σ)} (initial : traffic.inv c.state.server)
    (quiet : c.state.inFlight = []) (threads : ∀ i, (traffic.contract i).Kept (c.threads i) (Q i) c.state)
    (schedule : List (ι × Weather W Fault)) :
    traffic.Sound (Pool.runAs (connection traffic.handler) schedule c).state ∧
      ∀ i, (traffic.contract i).Kept ((Pool.runAs (connection traffic.handler) schedule c).threads i) (Q i)
        (Pool.runAs (connection traffic.handler) schedule c).state := by
  let contracts : ι → Contract (Remote S Fault Δ) (Weather W Fault) (Cloud S ι σ) := traffic.contract
  have honoured : Pool.Honoured contracts traffic.Sound Q
      (Pool.runAs (fun i => (contracts i).handler) schedule c) := by
    apply Pool.honoured_run
    next => exact fun _ _ sound => sound
    next => exact fun i o w s sound permitted => (step_cases sound o permitted w).1
    next => exact fun i j other o w s sound permitted => (step_cases sound o permitted w).2 j other
    next => exact ⟨⟨initial, by simp [quiet], by simp [quiet]⟩, threads⟩
  exact honoured

end Traffic

-- Each operation of a program is carried out by a program of the layer below, which may raise instead.

namespace Prog

variable {S T : Signature} {α ε : Type}

def lowerRun (implement : (o : S.Op) → ExceptT ε (Prog T) (S.Res o)) : Prog S (Except ε α) → ExceptT ε (Prog T) α
  | .ret result => ExceptT.mk (.ret result)
  | .op o next => implement o >>= fun answer => lowerRun implement (next answer)

end Prog

namespace Contract

variable {S T : Signature} {W σ α ε : Type} {c : Contract T W σ}
  {implement : (o : S.Op) → ExceptT ε (Prog T) (S.Res o)}

theorem kept_lowerRun_op {o : S.Op} {next : S.Res o → Prog S (Except ε α)} {Q : Except ε α → σ → Prop} {s : σ}
    (kept : c.KeptRun (implement o) (fun answer => c.Kept ((next answer).lowerRun implement).run Q)
      (fun e => Q (.error e)) s) : c.Kept (Prog.lowerRun implement (.op o next)).run Q s := by
  apply kept_bind kept
  intro result t continued
  cases result with
  | ok answer => exact continued t (c.rely_refl t)
  | error e => exact continued

end Contract

end Library
