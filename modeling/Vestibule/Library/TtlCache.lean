import Vestibule.Library.Rely

set_option autoImplicit false

-- A decorator in front of a store. A read looks the key up in the cache; if nothing fresh is there it reads
-- the store and then fills the cache. A write goes to the store, and if it went through the whole cache is
-- dropped. Each of these is one critical section; a call is several of them.

namespace Library.TtlCache

structure Port where
  Key : Type
  Val : Key → Type
  Call : Type
  Res : Call → Type
  Err : Type

structure Store (P : Port) (W σ : Type) where
  read : (key : P.Key) → σ → Except P.Err (P.Val key)
  write : W → (call : P.Call) → σ → Except P.Err (P.Res call) × σ

structure Memo (P : Port) (T C : Type) where
  peek : C → (key : P.Key) → Option (P.Val key × T)
  fill : C → (key : P.Key) → P.Val key × T → C
  clear : C → C
  peek_fill : ∀ cache key stamped other found, peek (fill cache key stamped) other = some found →
    (⟨other, found⟩ : (key : P.Key) × (P.Val key × T)) = ⟨key, stamped⟩ ∨ peek cache other = some found
  peek_clear : ∀ cache key, peek (clear cache) key = none

inductive Op (P : Port) where
  | lookup (key : P.Key)
  | read (key : P.Key)
  | fill (key : P.Key) (value : P.Val key)
  | write (call : P.Call)
  | invalidate

def Op.Res {P : Port} : Op P → Type
  | lookup key => Option (P.Val key)
  | read key => Except P.Err (P.Val key)
  | fill _ _ => Unit
  | write call => Except P.Err (P.Res call)
  | invalidate => Unit

abbrev Effects (P : Port) : Signature := ⟨Op P, Op.Res⟩

variable {P : Port} {W σ T C : Type}

section Meaning

variable [Sub T] [LE T] [DecidableLE T]

def isExpired (ttlSeconds now cachedAt : T) : Bool := ttlSeconds ≤ now - cachedAt

def serve {α : Type} (ttlSeconds now : T) : Option (α × T) → Option α
  | some (value, cachedAt) => if isExpired ttlSeconds now cachedAt then none else some value
  | none => none

theorem serve_eq_some {α : Type} {ttlSeconds now : T} {cached : Option (α × T)} {value : α}
    (served : serve ttlSeconds now cached = some value) : ∃ cachedAt, cached = some (value, cachedAt) := by
  cases cached with
  | none => cases served
  | some stamped =>
    obtain ⟨held, cachedAt⟩ := stamped
    simp only [serve] at served
    split at served
    next => cases served
    next => exact ⟨cachedAt, by rw [Option.some.inj served]⟩

/-- A world gives the write what it draws by itself, and the clock of the cache. -/
def decorated (store : Store P W σ) (memo : Memo P T C) (ttlSeconds : T) : Handler (Effects P) (W × T) (σ × C) :=
  fun w o s => match o with
  | .lookup key => (serve ttlSeconds w.2 (memo.peek s.2 key), s)
  | .read key => (store.read key s.1, s)
  | .fill key value => ((), (s.1, memo.fill s.2 key (value, w.2)))
  | .write call =>
      let (result, stored) := store.write w.1 call s.1
      (result, (stored, s.2))
  | .invalidate => ((), (s.1, memo.clear s.2))

end Meaning

abbrev Py (P : Port) (α : Type) := ExceptT P.Err (Prog (Effects P)) α

def lookup (key : P.Key) : Py P (Option (P.Val key)) := ExceptT.lift (Prog.perform (S := Effects P) (.lookup key))

def read (key : P.Key) : Py P (P.Val key) := ExceptT.mk (Prog.perform (S := Effects P) (.read key))

def fill (key : P.Key) (value : P.Val key) : Py P Unit :=
  ExceptT.lift (Prog.perform (S := Effects P) (.fill key value))

def write (call : P.Call) : Py P (P.Res call) := ExceptT.mk (Prog.perform (S := Effects P) (.write call))

def invalidate : Py P Unit := ExceptT.lift (Prog.perform (S := Effects P) .invalidate)

def cachedRead (key : P.Key) : Py P (P.Val key) := do
  if let some value ← lookup key then
    return value
  let value ← read key
  fill key value
  return value

def writeThrough (call : P.Call) : Py P (P.Res call) := do
  let result ← write call
  invalidate
  return result

def afterRead (key : P.Key) : Except P.Err (P.Val key) → Prog (Effects P) (Except P.Err (P.Val key))
  | .ok value => .op (.fill key value) fun _ => .ret (.ok value)
  | .error e => .ret (.error e)

def afterLookup (key : P.Key) : Option (P.Val key) → Prog (Effects P) (Except P.Err (P.Val key))
  | some value => .ret (.ok value)
  | none => .op (.read key) (afterRead key)

def afterWrite (call : P.Call) : Except P.Err (P.Res call) → Prog (Effects P) (Except P.Err (P.Res call))
  | .ok result => .op .invalidate fun _ => .ret (.ok result)
  | .error e => .ret (.error e)

theorem cachedRead_run (key : P.Key) : (cachedRead key).run = .op (.lookup key) (afterLookup key) := by
  refine congrArg (Prog.op _) (funext fun cached => ?_)
  cases cached with
  | some value => rfl
  | none =>
    refine congrArg (Prog.op _) (funext fun answer => ?_)
    cases answer <;> rfl

theorem writeThrough_run (call : P.Call) : (writeThrough call).run = .op (.write call) (afterWrite call) := by
  refine congrArg (Prog.op _) (funext fun answer => ?_)
  cases answer <;> rfl

inductive Request (P : Port) where
  | read (key : P.Key)
  | write (call : P.Call)

namespace Request

def Value : Request P → Type
  | read key => P.Val key
  | write call => P.Res call

abbrev Answer (request : Request P) : Type := Except P.Err request.Value

def program : (request : Request P) → Prog (Effects P) request.Answer
  | read key => (cachedRead key).run
  | write call => (writeThrough call).run

def direct (store : Store P W σ) (w : W) : (request : Request P) → σ → request.Answer × σ
  | read key, s => (store.read key s, s)
  | write call, s => store.write w call s

end Request

variable (store : Store P W σ) (memo : Memo P T C)

def Coherent (s : σ × C) : Prop := ∀ key value cachedAt, memo.peek s.2 key = some (value, cachedAt) →
  store.read key s.1 = .ok value

def Store.Atomic : Prop := ∀ w call s e, (store.write w call s).1 = .error e → (store.write w call s).2 = s

variable {store memo}

theorem coherent_clear (s : σ) (cache : C) : Coherent store memo (s, memo.clear cache) := by
  intro key value cachedAt cached
  rw [memo.peek_clear] at cached
  cases cached

theorem peek_fill_cases {cache : C} {key other : P.Key} {value : P.Val key} {held : P.Val other} {now cachedAt : T}
    (cached : memo.peek (memo.fill cache key (value, now)) other = some (held, cachedAt)) :
    (⟨other, held⟩ : (key : P.Key) × P.Val key) = ⟨key, value⟩ ∨ memo.peek cache other = some (held, cachedAt) := by
  rcases memo.peek_fill _ _ _ _ _ cached with same | before
  next =>
    obtain ⟨rfl, same⟩ := Sigma.mk.inj same
    obtain ⟨rfl, -⟩ := Prod.mk.inj (eq_of_heq same)
    exact .inl rfl
  next => exact .inr before

theorem coherent_fill {s : σ × C} (coherent : Coherent store memo s) {key : P.Key} {value : P.Val key}
    (current : store.read key s.1 = .ok value) (now : T) :
    Coherent store memo (s.1, memo.fill s.2 key (value, now)) := by
  intro other held cachedAt cached
  rcases peek_fill_cases cached with same | before
  next =>
    cases same
    exact current
  next => exact coherent other held cachedAt before

section Sequential

variable [Sub T] [LE T] [DecidableLE T] (ttlSeconds : T)

theorem transparent_read {s : σ × C} (coherent : Coherent store memo s) (key : P.Key) (oracle : Nat → W × T) :
    ∃ cache, (cachedRead key).run.run (decorated store memo ttlSeconds) oracle s =
      (store.read key s.1, (s.1, cache)) ∧ Coherent store memo (s.1, cache) := by
  rw [cachedRead_run]
  change ∃ cache, Prog.run (decorated store memo ttlSeconds)
    (afterLookup key (serve ttlSeconds (oracle 0).2 (memo.peek s.2 key))) (fun i => oracle (i + 1)) s = _ ∧ _
  cases served : serve ttlSeconds (oracle 0).2 (memo.peek s.2 key) with
  | some value =>
    obtain ⟨cachedAt, cached⟩ := serve_eq_some served
    exact ⟨s.2, by rw [coherent key value cachedAt cached]; rfl, coherent⟩
  | none =>
    change ∃ cache, Prog.run (decorated store memo ttlSeconds) (afterRead key (store.read key s.1))
      (fun i => oracle (i + 2)) s = _ ∧ _
    cases answer : store.read key s.1 with
    | error e => exact ⟨s.2, rfl, coherent⟩
    | ok value => exact ⟨memo.fill s.2 key (value, (oracle 2).2), rfl, coherent_fill coherent answer _⟩

theorem transparent_write (atomic : store.Atomic) {s : σ × C} (coherent : Coherent store memo s) (call : P.Call)
    (oracle : Nat → W × T) :
    ∃ cache, (writeThrough call).run.run (decorated store memo ttlSeconds) oracle s =
      ((store.write (oracle 0).1 call s.1).1, ((store.write (oracle 0).1 call s.1).2, cache)) ∧
      Coherent store memo ((store.write (oracle 0).1 call s.1).2, cache) := by
  rw [writeThrough_run]
  change ∃ cache, Prog.run (decorated store memo ttlSeconds) (afterWrite call (store.write (oracle 0).1 call s.1).1)
    (fun i => oracle (i + 1)) ((store.write (oracle 0).1 call s.1).2, s.2) = _ ∧ _
  cases answer : (store.write (oracle 0).1 call s.1).1 with
  | ok result => exact ⟨memo.clear s.2, rfl, coherent_clear _ _⟩
  | error e =>
    have same := atomic _ _ _ _ answer
    exact ⟨s.2, rfl, by rw [same]; exact coherent⟩

theorem transparent_step (atomic : store.Atomic) {s : σ × C} (coherent : Coherent store memo s) (request : Request P)
    (oracle : Nat → W × T) :
    ∃ cache, request.program.run (decorated store memo ttlSeconds) oracle s =
      ((request.direct store (oracle 0).1 s.1).1, ((request.direct store (oracle 0).1 s.1).2, cache)) ∧
      Coherent store memo ((request.direct store (oracle 0).1 s.1).2, cache) := by
  cases request with
  | read key => exact transparent_read ttlSeconds coherent key oracle
  | write call => exact transparent_write ttlSeconds atomic coherent call oracle

abbrev Turn (P : Port) (W T : Type) := Request P × (Nat → W × T)

abbrev Answers (P : Port) := List ((request : Request P) × request.Answer)

variable (store memo)

def runDecorated : List (Turn P W T) → σ × C → Answers P × (σ × C)
  | [], s => ([], s)
  | (request, oracle) :: rest, s =>
      let (answer, next) := request.program.run (decorated store memo ttlSeconds) oracle s
      let (answers, final) := runDecorated rest next
      (⟨request, answer⟩ :: answers, final)

omit [Sub T] [LE T] [DecidableLE T] in
-- The decorator writes in its first operation, so a write draws from the first world in both runs.
def runDirect : List (Turn P W T) → σ → Answers P × σ
  | [], s => ([], s)
  | (request, oracle) :: rest, s =>
      let (answer, next) := request.direct store (oracle 0).1 s
      let (answers, final) := runDirect rest next
      (⟨request, answer⟩ :: answers, final)

variable {store memo}

theorem transparent_run (atomic : store.Atomic) (turns : List (Turn P W T)) {s : σ × C}
    (coherent : Coherent store memo s) :
    (runDecorated store memo ttlSeconds turns s).1 = (runDirect store turns s.1).1 ∧
      (runDecorated store memo ttlSeconds turns s).2.1 = (runDirect store turns s.1).2 := by
  induction turns generalizing s with
  | nil => exact ⟨rfl, rfl⟩
  | cons turn rest ih =>
    obtain ⟨request, oracle⟩ := turn
    obtain ⟨cache, same, kept⟩ := transparent_step ttlSeconds atomic coherent request oracle
    simp only [runDecorated, runDirect, same]
    obtain ⟨answers, final⟩ := ih kept
    exact ⟨by rw [answers], final⟩

end Sequential

-- A write is settled once its call has dropped the cache. What is cached, or about to be, may be out of
-- date, but only by writes that are not settled yet.

section Concurrent

variable {ι : Type}

abbrev Log (P : Port) (ι σ C : Type) := Chronicle (Effects P) ι (σ × C)

def IsWrite (o : Op P) : Prop := ∃ call, o = .write call

def Settled (log : Log P ι σ C) (i : ι) : Prop := ∃ deed ∈ log, deed.thread = i ∧ deed.op = .invalidate

/-- Now, or before some last writes that are not settled, the store was `good`. -/
def Standing (settled : ι → Prop) (good : σ → Prop) : Log P ι σ C → σ → Prop
  | [], s => good s
  | deed :: earlier, s =>
      good s ∨ (IsWrite deed.op → ¬ settled deed.thread) ∧ Standing settled good earlier deed.before.1

variable {settled : ι → Prop} {good : σ → Prop} {log : Log P ι σ C} {s : σ}

theorem standing_of_good (holds : good s) : Standing settled good log s := by
  cases log with
  | nil => exact holds
  | cons deed earlier => exact .inl holds

theorem standing_congr {others : ι → Prop} (same : ∀ i, settled i ↔ others i) (standing : Standing settled good log s) :
    Standing others good log s := by
  obtain rfl : settled = others := funext fun i => propext (same i)
  exact standing

theorem standing_since {later earlier : Log P ι σ C} {write : Deed (Effects P) ι (σ × C)} (writes : IsWrite write.op)
    (done : settled write.thread) (standing : Standing settled good (later ++ write :: earlier) s) :
    good s ∨ ∃ deed ∈ later, good deed.before.1 := by
  induction later generalizing s with
  | nil =>
    rcases standing with holds | ⟨open_, -⟩
    next => exact .inl holds
    next => exact (open_ writes done).elim
  | cons deed rest ih =>
    rcases standing with holds | ⟨-, older⟩
    next => exact .inl holds
    next =>
      rcases ih older with holds | ⟨old, member, holds⟩
      next => exact .inr ⟨deed, by simp, holds⟩
      next => exact .inr ⟨old, by simp [member], holds⟩

theorem settled_cons {deed : Deed (Effects P) ι (σ × C)} (other : deed.op ≠ .invalidate) (i : ι) :
    Settled log i ↔ Settled (deed :: log) i := by
  simp [Settled, other]

theorem standing_cons {deed : Deed (Effects P) ι (σ × C)} (other : deed.op ≠ .invalidate)
    (open_ : IsWrite deed.op → ¬ Settled log deed.thread) (standing : Standing (Settled log) good log deed.before.1)
    (after : σ) : Standing (Settled (deed :: log)) good (deed :: log) after :=
  standing_congr (settled_cons other) (.inr ⟨open_, standing⟩)

def hit (key : P.Key) (value : P.Val key) : Event (Effects P) := ⟨.lookup key, some value⟩

def readOk (key : P.Key) (value : P.Val key) : Event (Effects P) := ⟨.read key, .ok value⟩

def FillsRead {α : Type} : Prog (Effects P) α → Prop
  | .ret _ => True
  | .op o next => ∀ answer,
      (∀ key value, (next answer).nextOp = some (.fill key value) → ⟨o, answer⟩ = readOk key value) ∧
        FillsRead (next answer)

variable (store : Store P W σ) (memo : Memo P T C) [Sub T] [LE T] [DecidableLE T] (ttlSeconds : T) {α : ι → Type}

def Current (key : P.Key) (value : P.Val key) (s : σ) : Prop := store.read key s = .ok value

-- What a lookup serves stood when it was served.
def ServedStanding (earlier : Log P ι σ C) (deed : Deed (Effects P) ι (σ × C)) : Prop :=
  ∀ key value, deed.event = hit key value →
    Standing (Settled earlier) (Current store key value) earlier deed.before.1

structure Sound (c : Pool (Effects P) α ((σ × C) × Log P ι σ C)) : Prop where
  cached : ∀ key value cachedAt, memo.peek c.state.1.2 key = some (value, cachedAt) →
    Standing (Settled c.state.2) (Current store key value) c.state.2 c.state.1.1
  filling : ∀ i key value, (c.threads i).nextOp = some (.fill key value) →
    Standing (Settled c.state.2) (Current store key value) c.state.2 c.state.1.1
  fillsRead : ∀ i, FillsRead (c.threads i)
  writesFirst : ∀ i, (c.threads i).FirstOnly IsWrite
  unsettled : ∀ i, (c.threads i).Uses (fun o => ¬ IsWrite o) ∨ ¬ Settled c.state.2 i
  served : Chronicle.Each (ServedStanding store) c.state.2

/-- The cache is dropped only when no call is about to fill it with what the store has given up. -/
def NoStaleFill (c : Pool (Effects P) α ((σ × C) × Log P ι σ C)) (i : ι) (_ : W × T) : Prop :=
  (c.threads i).nextOp = some .invalidate → ∀ j key value, (c.threads j).nextOp = some (.fill key value) →
    store.read key c.state.1.1 = .ok value

variable {store memo} [DecidableEq ι]

section Step

variable {c : Pool (Effects P) α ((σ × C) × Log P ι σ C)} (sound : Sound store memo c) {i : ι} {w : W × T} {o : Op P}
  {next : (Effects P).Res o → Prog (Effects P) (α i)} (current : c.threads i = .op o next)

include sound current

omit [DecidableEq ι] in
theorem standing_kept {good : σ → Prop} (alive : o ≠ .invalidate)
    (standing : Standing (Settled c.state.2) good c.state.2 c.state.1.1) :
    Standing (Settled (Chronicle.recorded (decorated store memo ttlSeconds) i w o c.state).2.2) good
      (Chronicle.recorded (decorated store memo ttlSeconds) i w o c.state).2.2
      (Chronicle.recorded (decorated store memo ttlSeconds) i w o c.state).2.1.1 := by
  have open_ := sound.unsettled i
  rw [current] at open_
  refine standing_cons alive (fun writes => ?_) standing _
  rcases open_ with uses | unsettled
  next => exact (uses.1 writes).elim
  next => exact unsettled

omit [DecidableEq ι] in
theorem cached_standing {key : P.Key} {value : P.Val key} {cachedAt : T}
    (cached : memo.peek (Chronicle.recorded (decorated store memo ttlSeconds) i w o c.state).2.1.2 key =
      some (value, cachedAt)) :
    Standing (Settled (Chronicle.recorded (decorated store memo ttlSeconds) i w o c.state).2.2)
      (Current store key value) (Chronicle.recorded (decorated store memo ttlSeconds) i w o c.state).2.2
      (Chronicle.recorded (decorated store memo ttlSeconds) i w o c.state).2.1.1 := by
  have kept (alive : o ≠ .invalidate)
      (standing : Standing (Settled c.state.2) (Current store key value) c.state.2 c.state.1.1) :=
    standing_kept ttlSeconds sound (w := w) current alive standing
  cases o with
  | lookup other => exact kept (by simp) (sound.cached key value cachedAt cached)
  | read other => exact kept (by simp) (sound.cached key value cachedAt cached)
  | write call => exact kept (by simp) (sound.cached key value cachedAt cached)
  | fill other held =>
    rcases peek_fill_cases cached with same | before
    next =>
      cases same
      exact kept (by simp) (sound.filling i key value (by rw [current]; rfl))
    next => exact kept (by simp) (sound.cached key value cachedAt before)
  | invalidate =>
    have dropped := memo.peek_clear c.state.1.2 key
    cases dropped.symm.trans cached

theorem filling_standing (ok : NoStaleFill store c i w) {j : ι} {key : P.Key} {value : P.Val key}
    (due : ((Pool.step (Chronicle.recorded (decorated store memo ttlSeconds) i) i w c).threads j).nextOp =
      some (.fill key value)) :
    Standing (Settled (Chronicle.recorded (decorated store memo ttlSeconds) i w o c.state).2.2)
      (Current store key value) (Chronicle.recorded (decorated store memo ttlSeconds) i w o c.state).2.2
      (Chronicle.recorded (decorated store memo ttlSeconds) i w o c.state).2.1.1 := by
  by_cases same : j = i
  next =>
    subst same
    have reads := sound.fillsRead j
    rw [Pool.step_threads_self, current] at due
    rw [current] at reads
    obtain ⟨rfl, answer⟩ := Sigma.mk.inj ((reads _).1 key value due)
    exact standing_of_good (eq_of_heq answer)
  next =>
    rw [Pool.step_threads_other _ same w c] at due
    by_cases drops : o = .invalidate
    next =>
      subst drops
      exact standing_of_good (ok (by rw [current]; rfl) j key value due)
    next => exact standing_kept ttlSeconds sound current drops (sound.filling j key value due)

end Step

theorem sound_step {c : Pool (Effects P) α ((σ × C) × Log P ι σ C)} (sound : Sound store memo c) {i : ι} {w : W × T}
    (ok : NoStaleFill store c i w) :
    Sound store memo (Pool.step (Chronicle.recorded (decorated store memo ttlSeconds) i) i w c) := by
  cases current : c.threads i with
  | ret value =>
    rw [Pool.step_of_ended _ current]
    exact sound
  | op o next =>
    have state : (Pool.step (Chronicle.recorded (decorated store memo ttlSeconds) i) i w c).state =
        (Chronicle.recorded (decorated store memo ttlSeconds) i w o c.state).2 := by
      simp [Pool.step, current, Prog.advance]
    have reads := sound.fillsRead i
    have first := sound.writesFirst i
    rw [current] at reads first
    constructor
    next =>
      intro key value cachedAt cached
      rw [state] at cached ⊢
      exact cached_standing ttlSeconds sound current cached
    next =>
      intro j key value due
      rw [state]
      exact filling_standing ttlSeconds sound current ok due
    next =>
      apply Pool.step_threads_all _ (R := fun _ p => FillsRead p)
      next =>
        rw [current]
        exact (reads _).2
      next => exact fun j _ => sound.fillsRead j
    next =>
      apply Pool.step_threads_all _ (R := fun j (p : Prog (Effects P) (α j)) => p.FirstOnly IsWrite)
      next =>
        rw [current]
        exact Prog.firstOnly_of_uses (first _)
      next => exact fun j _ => sound.writesFirst j
    next =>
      rw [state]
      apply Pool.step_threads_all _ (R := fun j (p : Prog (Effects P) (α j)) => p.Uses (fun o => ¬ IsWrite o) ∨
        ¬ Settled (Chronicle.recorded (decorated store memo ttlSeconds) i w o c.state).2.2 j)
      next =>
        rw [current]
        exact .inl (first _)
      next =>
        intro j different
        apply (sound.unsettled j).imp_right
        intro unsettled
        simpa [Settled, Chronicle.recorded, Ne.symm different] using unsettled
    next =>
      rw [state]
      refine ⟨fun key value served => ?_, sound.served⟩
      obtain ⟨rfl, answer⟩ := Sigma.mk.inj served
      obtain ⟨cachedAt, cached⟩ := serve_eq_some (eq_of_heq answer)
      exact sound.cached key value cachedAt cached

/-- After the write of thread `i`, the store was `good` at some time. -/
def SeenSince (log : Log P ι σ C) (i : ι) (good : σ → Prop) : Prop :=
  ∃ later write earlier, log = later ++ write :: earlier ∧ write.thread = i ∧ IsWrite write.op ∧
    ∃ deed ∈ later, good deed.before.1

omit [DecidableEq ι] in
theorem seenSince_cons {deed : Deed (Effects P) ι (σ × C)} {i : ι} :
    SeenSince (deed :: log) i good ↔
      SeenSince log i good ∨ good deed.before.1 ∧ ∃ write ∈ log, write.thread = i ∧ IsWrite write.op := by
  constructor
  next =>
    rintro ⟨later, write, earlier, split, writer, writes, seen, member, holds⟩
    cases later with
    | nil => simp at member
    | cons last rest =>
      obtain ⟨rfl, rfl⟩ := List.cons.inj split
      rcases List.mem_cons.mp member with rfl | old
      next => exact .inr ⟨holds, write, by simp, writer, writes⟩
      next => exact .inl ⟨rest, write, earlier, rfl, writer, writes, seen, old, holds⟩
  next =>
    rintro (⟨later, write, earlier, rfl, writer, writes, seen, member, holds⟩ | ⟨holds, write, member, writer, writes⟩)
    next => exact ⟨deed :: later, write, earlier, rfl, writer, writes, seen, List.mem_cons_of_mem _ member, holds⟩
    next =>
      obtain ⟨later, earlier, rfl⟩ := List.append_of_mem member
      exact ⟨deed :: later, write, earlier, rfl, writer, writes, deed, List.mem_cons_self, holds⟩

omit [DecidableEq ι] in
theorem exists_write_of_seenSince {deed : Deed (Effects P) ι (σ × C)} {i : ι} (seen : SeenSince (deed :: log) i good) :
    ∃ write ∈ log, write.thread = i ∧ IsWrite write.op := by
  obtain ⟨later, write, earlier, split, writer, writes, seen, member, _⟩ := seen
  cases later with
  | nil => simp at member
  | cons last rest =>
    obtain ⟨rfl, rfl⟩ := List.cons.inj split
    exact ⟨write, by simp, writer, writes⟩

variable (store) in
def Request.Answered : (request : Request P) → request.Value → σ → Prop
  | read key, value, s => store.read key s = .ok value
  | write _, _, _ => True

variable (store) in
def Request.Told : (request : Request P) → request.Value → Log P ι σ C → Prop
  | read key, value, own => ∃ deed ∈ own, deed.event = hit key value ∨ store.read key deed.before.1 = .ok value
  | write _, _, own => (∃ deed ∈ own, IsWrite deed.op) ∧ ∃ deed ∈ own, deed.op = .invalidate

omit [DecidableEq ι] in
theorem request_accounted (i : ι) (request : Request P) :
    Chronicle.Accounted (decorated store memo ttlSeconds) i request.program
      (fun answer own => ∀ value, answer = .ok value → request.Told store value own) [] := by
  cases request with
  | read key =>
    simp only [Request.program, cachedRead_run]
    intro w s
    cases found : (decorated store memo ttlSeconds w (.lookup key) s).1 with
    | some value =>
      rintro _ ⟨⟩
      exact ⟨_, List.mem_singleton_self _, .inl rfl⟩
    | none =>
      intro w s
      cases answer : (decorated store memo ttlSeconds w (.read key) s).1 with
      | error e => rintro _ ⟨⟩
      | ok value =>
        rintro _ _ _ ⟨⟩
        exact ⟨_, List.mem_cons_of_mem _ List.mem_cons_self, .inr answer⟩
  | write call =>
    simp only [Request.program, writeThrough_run]
    intro w s
    cases (decorated store memo ttlSeconds w (.write call) s).1 with
    | error e => rintro _ ⟨⟩
    | ok result =>
      rintro _ _ _ ⟨⟩
      exact ⟨⟨_, List.mem_cons_of_mem _ List.mem_cons_self, call, rfl⟩, _, List.mem_cons_self, rfl⟩

theorem cachedRead_shaped (key : P.Key) :
    FillsRead (cachedRead key).run ∧ (cachedRead key).run.FirstOnly IsWrite := by
  have reads (o : Op P) (different : ∀ call, o ≠ .write call) : ¬ IsWrite o := fun ⟨call, same⟩ => different call same
  rw [cachedRead_run]
  constructor
  next =>
    intro cached
    cases cached with
    | some value => exact ⟨fun _ _ due => (by cases due), trivial⟩
    | none =>
      refine ⟨fun _ _ due => (by cases due), fun answer => ?_⟩
      cases answer with
      | error e => exact ⟨fun _ _ due => (by cases due), trivial⟩
      | ok value =>
        refine ⟨fun _ _ due => ?_, fun _ => ⟨fun _ _ due => (by cases due), trivial⟩⟩
        cases due
        rfl
  next =>
    intro cached
    cases cached with
    | some value => trivial
    | none =>
      refine ⟨reads _ (by simp), fun answer => ?_⟩
      cases answer with
      | error e => trivial
      | ok value => exact ⟨reads _ (by simp), fun _ => trivial⟩

theorem writeThrough_shaped (call : P.Call) :
    FillsRead (writeThrough call).run ∧ (writeThrough call).run.FirstOnly IsWrite := by
  rw [writeThrough_run]
  constructor
  next =>
    intro answer
    cases answer with
    | error e => exact ⟨fun _ _ due => (by cases due), trivial⟩
    | ok result => exact ⟨fun _ _ due => (by cases due), fun _ => ⟨fun _ _ due => (by cases due), trivial⟩⟩
  next =>
    intro answer
    cases answer with
    | error e => trivial
    | ok result =>
      refine ⟨?_, fun _ => trivial⟩
      rintro ⟨call, same⟩
      cases same

variable (store memo)

abbrev Calls (requests : ι → Request P) (σ C : Type) :=
  Pool (Effects P) (fun i => (requests i).Answer) ((σ × C) × Log P ι σ C)

def calls (requests : ι → Request P) (s : σ × C) : Calls requests σ C := ⟨fun i => (requests i).program, (s, [])⟩

abbrev overlapping (requests : ι → Request P) (s : σ × C) (schedule : List (ι × (W × T))) : Calls requests σ C :=
  Pool.runAs (Chronicle.recorded (decorated store memo ttlSeconds)) schedule (calls requests s)

variable {store memo}

omit [DecidableEq ι] [Sub T] [LE T] [DecidableLE T] in
theorem sound_calls (requests : ι → Request P) {s : σ × C} (nothing : ∀ key, memo.peek s.2 key = none) :
    Sound store memo (calls requests s) := by
  have shaped (i : ι) : FillsRead (requests i).program ∧ (requests i).program.FirstOnly IsWrite := by
    cases requests i with
    | read key => exact cachedRead_shaped key
    | write call => exact writeThrough_shaped call
  constructor
  next =>
    intro key value cachedAt cached
    cases (nothing key).symm.trans cached
  next =>
    intro i key value due
    simp only [calls] at due
    cases request : requests i with
    | read other =>
      rw [request] at due
      cases due
    | write call =>
      rw [request] at due
      cases due
  next => exact fun i => (shaped i).1
  next => exact fun i => (shaped i).2
  next => exact fun i => .inr (by simp [calls, Settled])
  next => trivial

omit [DecidableEq ι] in
-- A deed that is not among the old ones was done when all of them had been.
theorem old_suffix {log old later earlier : Log P ι σ C} {deed : Deed (Effects P) ι (σ × C)}
    (split : log = later ++ deed :: earlier) (grown : old <:+ log) (new : deed ∉ old) : old <:+ earlier := by
  have tail : deed :: earlier <:+ log := ⟨later, split.symm⟩
  rcases List.suffix_or_suffix_of_suffix tail grown with inside | outside
  next => exact (new (inside.subset List.mem_cons_self)).elim
  next =>
    rcases List.suffix_cons_iff.mp outside with rfl | short
    next => exact (new List.mem_cons_self).elim
    next => exact short

omit [DecidableEq ι] in
theorem seenSince_of_standing {i : ι} {log old later earlier : Log P ι σ C} {deed write : Deed (Effects P) ι (σ × C)}
    (split : log = later ++ deed :: earlier) (short : old <:+ earlier) (wrote : write ∈ old) (writer : write.thread = i)
    (writes : IsWrite write.op) (done : Settled old i) {good : σ → Prop}
    (standing : Standing (Settled earlier) good earlier deed.before.1) : SeenSince log i good := by
  have settled : Settled earlier write.thread := by
    obtain ⟨drop, member, mine, drops⟩ := done
    exact ⟨drop, short.subset member, mine.trans writer.symm, drops⟩
  obtain ⟨middle, before, rfl⟩ := List.append_of_mem (short.subset wrote)
  have whole : log = (later ++ deed :: middle) ++ write :: before := by simp [split]
  refine ⟨later ++ deed :: middle, write, before, whole, writer, writes, ?_⟩
  rcases standing_since writes settled standing with holds | ⟨seen, member, holds⟩
  next => exact ⟨deed, by simp, holds⟩
  next => exact ⟨seen, by simp [member], holds⟩

omit [DecidableEq ι] in
theorem told_write {request : Request P} {call : P.Call} (writes : request = .write call) {value : request.Value}
    {own : Log P ι σ C} (told : request.Told store value own) :
    (∃ deed ∈ own, IsWrite deed.op) ∧ ∃ deed ∈ own, deed.op = .invalidate := by
  subst writes
  exact told

theorem seenSince_of_told {i j : ι} {log old : Log P ι σ C} {request : Request P} {value : request.Value}
    (told : request.Told store value (Chronicle.own j log)) (served : Chronicle.Each (ServedStanding store) log)
    (grown : old <:+ log) (begun : Chronicle.own j old = []) {write : Deed (Effects P) ι (σ × C)} (wrote : write ∈ old)
    (writer : write.thread = i) (writes : IsWrite write.op) (done : Settled old i) :
    SeenSince log i (request.Answered store value) := by
  have new {deed : Deed (Effects P) ι (σ × C)} (member : deed ∈ Chronicle.own j log) : deed ∈ log ∧ deed ∉ old := by
    obtain ⟨member, mine⟩ := List.mem_filter.mp member
    refine ⟨member, fun past => ?_⟩
    have among : deed ∈ Chronicle.own j old := List.mem_filter.mpr ⟨past, mine⟩
    simp [begun] at among
  have located {deed : Deed (Effects P) ι (σ × C)} (member : deed ∈ Chronicle.own j log) :=
    Chronicle.each_mem served (new member).1
  cases request with
  | write call =>
    obtain ⟨⟨deed, member, -⟩, -⟩ := told
    obtain ⟨later, earlier, split, -⟩ := located member
    exact seenSince_of_standing split (old_suffix split grown (new member).2) wrote writer writes done
      (standing_of_good trivial)
  | read key =>
    obtain ⟨deed, member, source⟩ := told
    obtain ⟨later, earlier, split, standing⟩ := located member
    refine seenSince_of_standing split (old_suffix split grown (new member).2) wrote writer writes done ?_
    rcases source with served | current
    next => exact standing key value served
    next => exact standing_of_good current

theorem fresh_run (requests : ι → Request P) (s : σ × C) (nothing : ∀ key, memo.peek s.2 key = none)
    (first rest : List (ι × (W × T)))
    (conforms : Pool.ConformsAs (Chronicle.recorded (decorated store memo ttlSeconds)) (NoStaleFill store)
      (first ++ rest) (calls requests s))
    (i : ι) (call : P.Call) (writes : requests i = .write call)
    (returned : ∃ result, (overlapping store memo ttlSeconds requests s first).threads i = .ret (.ok result))
    (j : ι) (begun : Chronicle.own j (overlapping store memo ttlSeconds requests s first).state.2 = [])
    (value : (requests j).Value)
    (yielded : (overlapping store memo ttlSeconds requests s (first ++ rest)).threads j = .ret (.ok value)) :
    SeenSince (overlapping store memo ttlSeconds requests s (first ++ rest)).state.2 i
      ((requests j).Answered store value) := by
  have initial (i : ι) : Chronicle.Accounted (decorated store memo ttlSeconds) i ((calls requests s).threads i)
      (fun answer own => ∀ value, answer = .ok value → (requests i).Told store value own)
      (Chronicle.own i (calls requests s).state.2) :=
    request_accounted ttlSeconds i (requests i)
  have accounted (schedule : List (ι × (W × T))) (k : ι) := Chronicle.accounted_run initial schedule k
  have preserved (c : Calls requests σ C) (i : ι) (w : W × T) (sound : Sound store memo c)
      (ok : NoStaleFill store c i w) :
      Sound store memo (Pool.step (Chronicle.recorded (decorated store memo ttlSeconds) i) i w c) :=
    sound_step ttlSeconds sound ok
  have sound := Pool.runAs_invariant preserved (sound_calls requests nothing) conforms
  have grown : (overlapping store memo ttlSeconds requests s first).state.2 <:+
      (overlapping store memo ttlSeconds requests s (first ++ rest)).state.2 := by
    simp only [overlapping, Pool.runAs_append]
    exact Chronicle.runAs_recorded_suffix _ _ _
  have wrote := accounted first i
  have told := accounted (first ++ rest) j
  obtain ⟨result, returned⟩ := returned
  rw [returned] at wrote
  rw [yielded] at told
  obtain ⟨⟨write, member, wrote⟩, drop, dropped, drops⟩ := told_write writes (wrote result rfl)
  obtain ⟨member, writer⟩ := List.mem_filter.mp member
  obtain ⟨dropped, dropper⟩ := List.mem_filter.mp dropped
  have done : Settled (overlapping store memo ttlSeconds requests s first).state.2 i :=
    ⟨drop, dropped, by simpa using dropper, drops⟩
  exact seenSince_of_told (told value rfl) sound.served grown begun member (by simpa using writer) wrote done

end Concurrent

end Library.TtlCache
