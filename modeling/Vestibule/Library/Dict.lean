import Mathlib.Data.List.Nodup
import Mathlib.Data.List.Basic

set_option autoImplicit false

-- Writing a present key replaces its value in place; writing an absent key appends it. Every iteration
-- follows the order in which the keys were first written.

namespace Library

structure Dict (κ ν : Type) where
  entries : List (κ × ν)
  nodup : (entries.map Prod.fst).Nodup

namespace Dict

variable {κ ν : Type}

def empty : Dict κ ν := ⟨[], by simp⟩

def keys (d : Dict κ ν) : List κ := d.entries.map Prod.fst

def values (d : Dict κ ν) : List ν := d.entries.map Prod.snd

theorem entries_injective : Function.Injective (entries : Dict κ ν → List (κ × ν)) := by
  rintro ⟨left, _⟩ ⟨right, _⟩ same
  simpa using same

instance [DecidableEq κ] [DecidableEq ν] : DecidableEq (Dict κ ν) :=
  entries_injective.decidableEq

variable [DecidableEq κ]

def get? (d : Dict κ ν) (key : κ) : Option ν :=
  (d.entries.find? (fun entry => entry.1 = key)).map Prod.snd

def replaceAt (key : κ) (value : ν) (entries : List (κ × ν)) : List (κ × ν) :=
  entries.map fun entry => if entry.1 = key then (key, value) else entry

theorem replaceAt_keys (key : κ) (value : ν) (entries : List (κ × ν)) :
    (replaceAt key value entries).map Prod.fst = entries.map Prod.fst := by
  simp only [replaceAt, List.map_map]
  apply List.map_congr_left
  intro entry _
  by_cases same : entry.1 = key <;> simp [same]

def insert (d : Dict κ ν) (key : κ) (value : ν) : Dict κ ν :=
  if present : key ∈ d.keys then
    ⟨replaceAt key value d.entries, by rw [replaceAt_keys]; exact d.nodup⟩
  else
    ⟨d.entries ++ [(key, value)], by
      have fresh : ∀ entry ∈ d.entries, entry.1 ≠ key :=
        fun entry member same => present (List.mem_map.mpr ⟨entry, member, same⟩)
      simpa [List.nodup_append, d.nodup] using fun other value member => fresh (other, value) member⟩

def erase (d : Dict κ ν) (key : κ) : Dict κ ν :=
  ⟨d.entries.filter (fun entry => entry.1 ≠ key), d.nodup.sublist (List.filter_sublist.map _)⟩

@[simp]
theorem get?_empty (key : κ) : (empty : Dict κ ν).get? key = none := rfl

theorem get?_eq_some (d : Dict κ ν) (key : κ) (value : ν) :
    d.get? key = some value ↔ (key, value) ∈ d.entries := by
  obtain ⟨entries, nodup⟩ := d
  simp only [get?]
  induction entries with
  | nil => simp
  | cons head rest ih =>
    obtain ⟨first, content⟩ := head
    simp only [List.map_cons, List.nodup_cons] at nodup
    by_cases same : first = key
    · subst same
      have absent : (first, value) ∉ rest :=
        fun member => nodup.1 (List.mem_map.mpr ⟨_, member, rfl⟩)
      simp [absent, eq_comm]
    · simp [same, ih nodup.2, Ne.symm same]

theorem mem_replaceAt (entries : List (κ × ν)) (key other : κ) (value content : ν) :
    (other, content) ∈ replaceAt key value entries ↔
      if other = key then key ∈ entries.map Prod.fst ∧ content = value
      else (other, content) ∈ entries := by
  simp only [replaceAt, List.mem_map]
  constructor
  · rintro ⟨entry, member, equal⟩
    by_cases hit : entry.1 = key
    · obtain ⟨rfl, rfl⟩ : key = other ∧ value = content := by simpa [hit] using equal
      simpa using ⟨entry.2, hit ▸ member⟩
    · obtain rfl : entry = (other, content) := by simpa [hit] using equal
      simpa [show ¬ other = key from hit] using member
  · split
    · rintro ⟨⟨entry, member, hit⟩, rfl⟩
      exact ⟨entry, member, by simp [*]⟩
    · intro member
      exact ⟨_, member, by simp [*]⟩

@[simp]
theorem get?_insert (d : Dict κ ν) (key other : κ) (value : ν) :
    (d.insert key value).get? other = if other = key then some value else d.get? other := by
  apply Option.ext
  intro content
  rw [get?_eq_some]
  by_cases present : key ∈ d.keys
  · simp only [insert, dif_pos present, mem_replaceAt]
    have member : key ∈ d.entries.map Prod.fst := present
    split
    · simp [member, eq_comm]
    · rw [get?_eq_some]
  · simp only [insert, dif_neg present, List.mem_append, List.mem_singleton, Prod.mk.injEq]
    by_cases same : other = key
    · have missing : ∀ held, (other, held) ∉ d.entries := fun held member =>
        present (same ▸ List.mem_map.mpr ⟨_, member, rfl⟩)
      simp [same ▸ missing, same, eq_comm]
    · simp [same, get?_eq_some]

theorem get?_insert_cases {d : Dict κ ν} {key other : κ} {value found : ν}
    (present : (d.insert key value).get? other = some found) :
    (other = key ∧ found = value) ∨ d.get? other = some found := by
  rw [get?_insert] at present
  split at present
  next same => exact .inl ⟨same, (Option.some.inj present).symm⟩
  next => exact .inr present

@[simp]
theorem get?_erase (d : Dict κ ν) (key other : κ) :
    (d.erase key).get? other = if other = key then none else d.get? other := by
  apply Option.ext
  intro value
  by_cases same : other = key
  · simp [get?_eq_some, erase, same]
  · simp [get?_eq_some, erase, same]

def update (d : Dict κ ν) (pairs : List (κ × ν)) : Dict κ ν :=
  pairs.foldl (fun d pair => d.insert pair.1 pair.2) d

theorem update_append (d : Dict κ ν) (first second : List (κ × ν)) :
    d.update (first ++ second) = (d.update first).update second := by
  simp [update]

theorem get?_update_of_absent (d : Dict κ ν) {key : κ} {pairs : List (κ × ν)}
    (absent : ∀ pair ∈ pairs, pair.1 ≠ key) : (d.update pairs).get? key = d.get? key := by
  induction pairs generalizing d with
  | nil => rfl
  | cons pair rest ih =>
    have first : key ≠ pair.1 := (absent pair (by simp)).symm
    have later := ih (d.insert pair.1 pair.2) fun other member => absent other (by simp [member])
    rw [get?_insert, if_neg first] at later
    exact later

theorem get?_update (d : Dict κ ν) {pairs : List (κ × ν)} (unique : (pairs.map Prod.fst).Nodup) (key : κ) :
    (d.update pairs).get? key =
      ((pairs.find? (fun entry => entry.1 = key)).map Prod.snd).or (d.get? key) := by
  induction pairs generalizing d with
  | nil => rfl
  | cons pair rest ih =>
    obtain ⟨fresh, unique⟩ := List.nodup_cons.mp unique
    have later := ih (d.insert pair.1 pair.2) unique
    rw [get?_insert] at later
    change ((d.insert pair.1 pair.2).update rest).get? key = _
    rw [later]
    by_cases same : key = pair.1
    next =>
      subst same
      have absent : rest.find? (fun entry => entry.1 = pair.1) = none := by
        simpa using fun other value member same => fresh (List.mem_map.mpr ⟨(other, value), member, same⟩)
      simp [absent]
    next => simp [same, Ne.symm same]

theorem get?_foldl_erase (d : Dict κ ν) (keys : List κ) (other : κ) :
    (keys.foldl erase d).get? other = if other ∈ keys then none else d.get? other := by
  induction keys generalizing d with
  | nil => simp
  | cons key rest ih =>
    rw [List.foldl_cons, ih, get?_erase]
    by_cases listed : other ∈ rest
    next => simp [listed]
    next => simp [listed]

theorem not_mem_keys {d : Dict κ ν} {key : κ} (absent : d.get? key = none) : key ∉ d.keys := by
  intro member
  obtain ⟨⟨other, value⟩, present, rfl⟩ := List.mem_map.mp member
  rw [(get?_eq_some ..).mpr present] at absent
  cases absent

theorem mem_values {d : Dict κ ν} {value : ν} : value ∈ d.values ↔ ∃ key, d.get? key = some value := by
  simp [values, get?_eq_some]

-- Keys listed once each, as many as there are values they are listed for.
theorem length_filter_values (d : Dict κ ν) (p : ν → Bool) {listed : List κ} (distinct : listed.Nodup)
    (exactly : ∀ key, key ∈ listed ↔ ∃ value, d.get? key = some value ∧ p value = true) :
    (d.values.filter p).length = listed.length := by
  have unique : ((d.entries.filter (fun entry => p entry.2)).map Prod.fst).Nodup :=
    d.nodup.sublist (List.filter_sublist.map _)
  have same : ((d.entries.filter (fun entry => p entry.2)).map Prod.fst).Perm listed := by
    rw [List.perm_ext_iff_of_nodup unique distinct]
    intro key
    simp [exactly, get?_eq_some]
  rw [values, List.filter_map, List.length_map, ← same.length_eq, List.length_map]
  rfl

def filterKeys (d : Dict κ ν) (keep : κ → Bool) : Dict κ ν :=
  ⟨d.entries.filter (fun entry => keep entry.1), d.nodup.sublist (List.filter_sublist.map _)⟩

theorem entries_insert_of_absent {d : Dict κ ν} {key : κ} (absent : key ∉ d.keys) (value : ν) :
    (d.insert key value).entries = d.entries ++ [(key, value)] := by
  simp only [insert, dif_neg absent]

theorem entries_update_of_fresh (d : Dict κ ν) {pairs : List (κ × ν)} (unique : (pairs.map Prod.fst).Nodup)
    (fresh : ∀ pair ∈ pairs, pair.1 ∉ d.keys) : (d.update pairs).entries = d.entries ++ pairs := by
  induction pairs generalizing d with
  | nil => simp [update]
  | cons pair rest ih =>
    obtain ⟨single, unique⟩ := List.nodup_cons.mp unique
    have grown := entries_insert_of_absent (fresh pair (by simp)) pair.2
    have later : ∀ other ∈ rest, other.1 ∉ (d.insert pair.1 pair.2).keys := by
      intro other member
      have different : other.1 ≠ pair.1 := fun same => single (same ▸ List.mem_map_of_mem member)
      have absent := fresh other (by simp [member])
      simpa [keys, grown, different] using absent
    calc (d.update (pair :: rest)).entries = ((d.insert pair.1 pair.2).update rest).entries := rfl
      _ = (d.insert pair.1 pair.2).entries ++ rest := ih _ unique later
      _ = d.entries ++ pair :: rest := by rw [grown]; simp

theorem foldlM_insert_ok {ε : Type} (f : κ → Except ε ν) {keys : List κ}
    (each : ∀ key ∈ keys, ∃ value, f key = .ok value) (d : Dict κ ν) :
    ∃ result, keys.foldlM (fun d key => do
        let value ← f key
        return d.insert key value) d = .ok result ∧
      ∀ key, result.get? key = if key ∈ keys then (f key).toOption else d.get? key := by
  induction keys generalizing d with
  | nil => exact ⟨d, rfl, by simp⟩
  | cons key rest ih =>
    obtain ⟨value, computed⟩ := each key (by simp)
    obtain ⟨result, ran, holds⟩ := ih (fun other member => each other (by simp [member])) (d.insert key value)
    refine ⟨result, ?_, ?_⟩
    next =>
      rw [List.foldlM_cons, computed]
      exact ran
    next =>
      intro other
      rw [holds, get?_insert]
      by_cases later : other ∈ rest
      next => simp [later]
      next =>
        by_cases same : other = key
        next => simp [same, computed, Except.toOption]
        next => simp [later, same]

theorem foldlM_insert_error {ε : Type} (f : κ → Except ε ν) {keys : List κ}
    (invalid : ∃ key ∈ keys, ∀ value, f key ≠ .ok value) (d : Dict κ ν) :
    ∃ key ∈ keys, ∃ error, f key = .error error ∧ keys.foldlM (fun d key => do
        let value ← f key
        return d.insert key value) d = .error error := by
  induction keys generalizing d with
  | nil =>
    obtain ⟨key, member, -⟩ := invalid
    cases member
  | cons key rest ih =>
    cases computed : f key with
    | error error => exact ⟨key, by simp, error, computed, by rw [List.foldlM_cons, computed]; rfl⟩
    | ok value =>
      obtain ⟨bad, member, refused⟩ := invalid
      have later : bad ∈ rest := by
        rcases List.mem_cons.mp member with rfl | later
        next => exact (refused value computed).elim
        next => exact later
      obtain ⟨found, listed, error, raised, ran⟩ := ih ⟨bad, later, refused⟩ (d.insert key value)
      refine ⟨found, by simp [listed], error, raised, ?_⟩
      rw [List.foldlM_cons, computed]
      exact ran

end Dict

end Library
