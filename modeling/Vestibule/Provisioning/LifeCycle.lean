import Mathlib.Data.List.Induction
import Vestibule.Provisioning.Administration
import Vestibule.Provisioning.Claims

set_option autoImplicit false

namespace Vestibule.Provisioning

open Library

-- A claim is carried while the index is provisioned, and a closed index is not opened again, unless an
-- index is retired under the worker that is provisioning it.

variable {ι : Type} [DecidableEq ι]

structure LifeCycle (parties : ι → Party) (schedule : List (ι × World)) : Prop where
  claimed : ∀ first, first <+: schedule → ∀ name entry,
    (atWork parties first).state.1.registry.get name = some entry →
    entry.claimToken ≠ none ∨ entry.resolvedTemplate ≠ none → entry.status = .provisioning
  closed : ∀ first, first <+: schedule → ∀ second, second <+: schedule → first <+: second → ∀ name,
    Closed name (atWork parties first).state.1.registry → Closed name (atWork parties second).state.1.registry

theorem record_subset (parties : ι → Party) (first rest : List (ι × World)) :
    (atWork parties first).state.2 ⊆ (atWork parties (first ++ rest)).state.2 := by
  simp only [atWork, Pool.runAs_append]
  exact (Chronicle.runAs_recorded_suffix _ _ _).subset

theorem closed_run (parties : ι → Party) (first rest : List (ι × World))
    (finished : RetiresFinished (atWork parties (first ++ rest)).state.2) {name : String}
    (closed : Closed name (atWork parties first).state.1.registry) :
    Closed name (atWork parties (first ++ rest)).state.1.registry := by
  induction rest using List.reverseRecOn with
  | nil => simpa using closed
  | append_singleton rest last ih =>
    rw [← List.append_assoc] at finished ⊢
    have before := finished.subset (record_subset parties (first ++ rest) [last])
    have closed := ih before
    obtain ⟨_, regular, kept⟩ := office_lawful parties (first ++ rest)
    have step : atWork parties (first ++ rest ++ [last]) =
        Pool.step (Chronicle.recorded service last.1) last.1 last.2 (atWork parties (first ++ rest)) := by
      simp only [atWork, Pool.runAs_append]
      rfl
    rw [step]
    cases current : (atWork parties (first ++ rest)).threads last.1 with
    | ret value =>
      rw [Pool.step_of_ended _ current]
      exact closed
    | op o next =>
      have own := kept last.1
      rw [current] at own
      have orderly : Orderly o := (own _ (grown_refl _) regular).1
      simpa [Pool.step, current, Prog.advance, Chronicle.recorded] using
        closed_step regular orderly last.2 before closed

omit [DecidableEq ι] in
theorem retire_stored {s : Shared} {name : String} {old : IndexRegistryEntry} (w : World)
    (present : s.registry.get name = some old) :
    (service w (.registry (.markRetired name)) s).2.registry.get name = some old.retired := by
  simp [service, InMemoryIndexRegistry.perform, InMemoryIndexRegistry.markRetired, InMemoryIndexRegistry.amend,
    InMemoryIndexRegistry.require, present, checkClaimToken]

theorem lifeCycle_iff (parties : ι → Party) (schedule : List (ι × World)) :
    LifeCycle parties schedule ↔ RetiresFinished (atWork parties schedule).state.2 := by
  constructor
  next =>
    intro lifeCycle deed member name write provisioning
    obtain ⟨lawful, _⟩ := office_lawful parties schedule
    obtain ⟨_, earlier, _, lawful⟩ := Chronicle.each_mem lawful member
    obtain ⟨old, present, status⟩ := Option.map_eq_some_iff.mp provisioning
    have held : old.claimToken ≠ none := lawful.sound.waiting name old present status
    -- The claim stays on the entry that was retired.
    have stored : deed.after.registry.get name = some old.retired := by
      obtain ⟨w, handled⟩ := lawful.handled
      have after : (service w deed.op deed.before).2 = deed.after := congrArg Prod.snd handled
      rw [← after, write]
      exact retire_stored w present
    rcases Chronicle.after_of_mem_runAs member with never | ⟨first, rest, rfl, reached⟩
    next => simp [office] at never
    next =>
      have waiting := lifeCycle.claimed first ⟨rest, rfl⟩ name old.retired (by simp [atWork, reached, stored]) (.inl held)
      simp [IndexRegistryEntry.retired] at waiting
  next =>
    intro finished
    constructor
    next =>
      rintro first ⟨rest, rfl⟩ name entry present held
      obtain ⟨_, regular, _⟩ := office_lawful parties first
      exact regular.cleared (finished.subset (record_subset parties first rest)) name entry present held
    next =>
      rintro first _ second ⟨after, rfl⟩ ⟨rest, rfl⟩ name closed
      exact closed_run parties first rest (finished.subset (record_subset parties (first ++ rest) after)) closed

def retiredParties : Bool → Party
  | false => .worker sampleWorker
  | true => .administrator "policies"

def untilRetired : List (Bool × World) :=
  [(false, {}), (false, {}), (false, { claimToken := "a" }), (false, {}), (true, {})]

def untilReady : List (Bool × World) := [(false, {}), (false, {}), (false, sampleDescription), (false, {})]

theorem retired_index_made_ready : ¬ LifeCycle retiredParties (untilRetired ++ untilReady) := by
  intro lifeCycle
  have closed : Closed "policies" (atWork retiredParties (untilRetired ++ untilReady)).state.1.registry :=
    lifeCycle.closed untilRetired (List.prefix_append _ _) _ (List.prefix_refl _) (List.prefix_append _ _) "policies"
      (.inl rfl)
  have ready : statusOf "policies" (atWork retiredParties (untilRetired ++ untilReady)).state.1.registry =
      some .ready := rfl
  simp [Closed, ready] at closed

end Vestibule.Provisioning
