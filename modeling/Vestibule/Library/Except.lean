import Mathlib.Data.List.Forall2

set_option autoImplicit false

namespace Library

variable {α β ε : Type} {f : α → Except ε β} {items : List α} {results : List β}

theorem exists_of_isOk {result : Except ε α} (ok : result.isOk) : ∃ value, result = .ok value := by
  cases result with
  | error e => cases ok
  | ok value => exact ⟨value, rfl⟩

theorem mapM_eq_ok :
    items.mapM f = .ok results ↔ List.Forall₂ (fun item result => f item = .ok result) items results := by
  induction items generalizing results with
  | nil => simp [pure, Except.pure, eq_comm]
  | cons item rest ih =>
    rw [List.mapM_cons, List.forall₂_cons_left_iff]
    cases head : f item with
    | error fault => simp [Bind.bind, Except.bind]
    | ok result =>
      cases tail : rest.mapM f with
      | error fault =>
        have stuck : ∀ others, ¬ List.Forall₂ (fun item result => f item = .ok result) rest others :=
          fun others matched => by simpa [tail] using ih.mpr matched
        simp [Bind.bind, Except.bind, stuck]
      | ok others =>
        have same (found : List β) : List.Forall₂ (fun item result => f item = .ok result) rest found ↔
            found = others := by
          rw [← ih, tail, Except.ok.injEq, eq_comm]
        simp [Bind.bind, Except.bind, pure, Except.pure, same, eq_comm]

theorem exists_mapM_ok (each : ∀ item ∈ items, ∃ result, f item = .ok result) :
    ∃ results, items.mapM f = .ok results := by
  simp only [mapM_eq_ok]
  induction items with
  | nil => exact ⟨[], .nil⟩
  | cons item rest ih =>
    obtain ⟨result, built⟩ := each item (by simp)
    obtain ⟨results, all⟩ := ih fun other member => each other (by simp [member])
    exact ⟨result :: results, .cons built all⟩

theorem result_of_mapM_ok (all : items.mapM f = .ok results) {item : α} (member : item ∈ items) :
    ∃ result ∈ results, f item = .ok result := by
  have matched := mapM_eq_ok.mp all
  induction matched with
  | nil => simp at member
  | cons head tail ih =>
    rcases List.mem_cons.mp member with rfl | member
    next => exact ⟨_, by simp, head⟩
    next =>
      obtain ⟨result, found, same⟩ := ih (mapM_eq_ok.mpr tail) member
      exact ⟨result, by simp [found], same⟩

theorem source_of_mapM_ok (all : items.mapM f = .ok results) {result : β} (member : result ∈ results) :
    ∃ item ∈ items, f item = .ok result := by
  have matched := mapM_eq_ok.mp all
  induction matched with
  | nil => simp at member
  | cons head tail ih =>
    rcases List.mem_cons.mp member with rfl | member
    next => exact ⟨_, by simp, head⟩
    next =>
      obtain ⟨item, found, same⟩ := ih (mapM_eq_ok.mpr tail) member
      exact ⟨item, by simp [found], same⟩

theorem source_of_mapM_error {e : ε} (failed : items.mapM f = .error e) : ∃ item ∈ items, f item = .error e := by
  induction items with
  | nil => simp [pure, Except.pure] at failed
  | cons item rest ih =>
    rw [List.mapM_cons] at failed
    cases head : f item with
    | error fault =>
      obtain rfl : fault = e := by simpa [head, Bind.bind, Except.bind] using failed
      exact ⟨item, by simp, head⟩
    | ok result =>
      have later : rest.mapM f = .error e := by
        cases tail : rest.mapM f with
        | error fault => simpa [head, tail, Bind.bind, Except.bind] using failed
        | ok results => simp [head, tail, Bind.bind, Except.bind, pure, Except.pure] at failed
      obtain ⟨source, member, same⟩ := ih later
      exact ⟨source, by simp [member], same⟩

-- Every turn of a loop that ends without an error has ended without one.
theorem turn_of_foldlM_ok {step : β → α → Except ε β} {first last : β} (all : items.foldlM step first = .ok last)
    {item : α} (member : item ∈ items) : ∃ before after, step before item = .ok after := by
  induction items generalizing first with
  | nil => simp at member
  | cons head rest ih =>
    rw [List.foldlM_cons] at all
    cases turn : step first head with
    | error e => simp [turn, Bind.bind, Except.bind] at all
    | ok next =>
      rcases List.mem_cons.mp member with rfl | later
      next => exact ⟨first, next, turn⟩
      next => exact ih (by simpa [turn, Bind.bind, Except.bind] using all) later

theorem bind_eq_ok {p : Except ε α} {k : α → Except ε β} {result : β} (done : (p >>= k) = .ok result) :
    ∃ value, p = .ok value ∧ k value = .ok result := by
  cases p with
  | error e => simp [Bind.bind, Except.bind] at done
  | ok value => exact ⟨value, rfl, done⟩

theorem map_of_mapM_ok {γ : Type} {g : β → γ} {k : α → γ}
    (agrees : ∀ item result, f item = .ok result → g result = k item) (all : items.mapM f = .ok results) :
    results.map g = items.map k := by
  have matched := mapM_eq_ok.mp all
  induction matched with
  | nil => rfl
  | cons head tail ih => simp [agrees _ _ head, ih (mapM_eq_ok.mpr tail)]

end Library
