import Mathlib.Algebra.Field.Rat
import Mathlib.Algebra.Order.Ring.Rat
import Vestibule.Library.Remote
import Vestibule.Library.Retry
import Vestibule.Provisioning.TableStorage

set_option autoImplicit false

namespace Vestibule

open Library
open Provisioning (HttpResponseError)

-- Every adapter of a remote service bounds an attempt by a timeout and repeats it through `tenacity`.

/-- What an attempt raises; with a response, the seconds of its `Retry-After`. -/
inductive Fault where
  | timeout (text : String)
  | http (e : HttpResponseError) (retryAfter : Option ℚ)
  | other (text : String)
  deriving DecidableEq

def httpTooManyRequests : Int := 429

def httpServerErrorFloor : Int := 500

def isTransientStatus (statusCode : Option Int) : Bool :=
  statusCode = some httpTooManyRequests || statusCode.any (httpServerErrorFloor ≤ ·)

def isTransientUnless (conflicts : List Int) : Fault → Bool
  | .timeout _ => true
  | .http e _ => !e.statusCode.any (· ∈ conflicts) && isTransientStatus e.statusCode
  | .other _ => false

-- `upTo` is full jitter: any time from none to the bound.
inductive Delay where
  | upTo (seconds : ℚ)
  | exactly (seconds : ℚ)
  deriving DecidableEq

structure RetrySettings where
  maxAttempts : Int := 5
  backoffBaseSeconds : ℚ := 2
  backoffMaxSeconds : ℚ := 60
  deriving DecidableEq

namespace RetrySettings

variable (settings : RetrySettings)

def waitRandomExponential (attemptNumber : Nat) : Delay :=
  .upTo (max 0 (min (settings.backoffBaseSeconds * (Nat.pow 2 (attemptNumber - 1) : Nat)) settings.backoffMaxSeconds))

def retryAfterAwareWait (attemptNumber : Nat) : Fault → Delay
  | .http _ (some seconds) => .exactly seconds
  | _ => settings.waitRandomExponential attemptNumber

-- The first attempt is made whatever the maximum.
def moreAttempts : Nat := (settings.maxAttempts - 1).toNat

end RetrySettings

abbrev Over (S : Signature) : Signature := Remote S Fault Delay

abbrev RemotePy (S : Signature) (ε α : Type) := ExceptT ε (Prog (Over S)) α

variable {S : Signature} {α ε : Type}

/-- One attempt; `refusal` is what the service answers by an exception. -/
def callWithTimeout (o : S.Op) (refusal : S.Res o → Except Fault α) : RemotePy S Fault α :=
  ExceptT.mk (.op (.attempt o) fun answer => .ret (answer.bind refusal))

def retryingCall (settings : RetrySettings) (isRetryable : Fault → Bool) (wait : Nat → Fault → Delay)
    (o : S.Op) (refusal : S.Res o → Except Fault α) : RemotePy S Fault α :=
  Prog.retrying isRetryable (fun attemptNumber fault => .op (.sleep (wait attemptNumber fault)) .ret)
    (callWithTimeout o refusal) settings.moreAttempts 0

section Rules

variable {W σ ι : Type} {traffic : Traffic S ι W σ} {i : ι} {o : S.Op} {refusal : S.Res o → Except Fault α}
  {Ready : Cloud S ι σ → Prop} {ok : α → Cloud S ι σ → Prop} {raised : Fault → Cloud S ι σ → Prop}

variable (Ready) in
-- `Ready` is what every attempt starts from, and what it leaves behind where it raises.
theorem keptRun_retryingCall (stable : ∀ {a b}, traffic.Meanwhile i a b → Ready a → Ready b)
    (lasts : ∀ {a b fault}, traffic.Meanwhile i a b → raised fault a → raised fault b)
    (good : ∀ t, Ready t → traffic.Sound t → traffic.good i o t.server)
    (answered : ∀ t w u, Ready t → traffic.Sound t →
      traffic.Meanwhile i { t with server := (traffic.handler i w o t.server).2 } u →
      Contract.ends ok (fun fault u => raised fault u ∧ Ready u) (refusal (traffic.handler i w o t.server).1) u)
    (missed : ∀ t fault after, Ready t → traffic.Missed i o t after → raised fault after ∧ Ready after)
    (settings : RetrySettings) (isRetryable : Fault → Bool) (wait : Nat → Fault → Delay) {cloud : Cloud S ι σ}
    (initial : Ready cloud) :
    (traffic.contract i).KeptRun (retryingCall settings isRetryable wait o refusal) ok raised cloud := by
  apply Contract.keptRun_retrying Ready _ _ _ _ initial
  next =>
    intro a ready
    apply Traffic.kept_attempt
    intro t later sound
    have ready := stable later ready
    refine ⟨good t ready sound, fun w u after => answered t w u ready sound after, fun fault after lost u later => ?_⟩
    obtain ⟨told, still⟩ := missed t fault after ready lost
    exact ⟨lasts later told, stable later still⟩
  next =>
    intro done fault a ready
    apply Traffic.kept_sleep
    intro t later u more
    exact stable (Traffic.meanwhile_trans later more) ready

-- Without other threads: `Inv` is kept by the pauses, and by every attempt that raises.
theorem wp_retryingCall {h : Handler (Over S) W σ} {I Inv : σ → Prop} {Q : Except Fault α → σ → Prop}
    (sleeps : ∀ w delay s, Inv s → I (h w (.sleep delay) s).2 ∧ Inv (h w (.sleep delay) s).2)
    (attempts : ∀ w s, Inv s → I (h w (.attempt o) s).2 ∧
      Contract.ends (fun value => Q (.ok value)) (fun fault t => Q (.error fault) t ∧ Inv t)
        ((h w (.attempt o) s).1.bind refusal) (h w (.attempt o) s).2)
    (settings : RetrySettings) (isRetryable : Fault → Bool) (wait : Nat → Fault → Delay) {s : σ} (initial : Inv s) :
    Prog.wp h I (retryingCall settings isRetryable wait o refusal).run Q s := by
  apply Prog.wp_retrying (fun _ => Inv) (fun _ fault t => Q (.error fault) t ∧ Inv t) _ _ _ (Nat.zero_add _) initial
  next => exact fun _ s held w => attempts w s held
  next => exact fun done fault s _ _ failed w => sleeps w _ s failed.2
  next => exact fun _ fault s _ failed => failed.1

end Rules

end Vestibule
