import Vestibule.Library.Dict

set_option autoImplicit false

namespace Library

namespace Dict

variable {κ : Type} [DecidableEq κ]

def countOf (counts : Dict κ Int) (key : κ) : Int := (counts.get? key).getD 0

def bump (counts : Dict κ Int) (key : κ) : Dict κ Int := counts.insert key (counts.countOf key + 1)

def total (counts : Dict κ Int) : Int := counts.values.foldr (fun count sum => count + sum) 0

theorem countOf_bump (counts : Dict κ Int) (key other : κ) :
    (counts.bump key).countOf other = counts.countOf other + if other = key then 1 else 0 := by
  simp only [bump, countOf, get?_insert]
  by_cases same : other = key
  next => simp [same]
  next => simp [same]

theorem countOf_foldl_bump (counts : Dict κ Int) (keys : List κ) (other : κ) :
    (keys.foldl bump counts).countOf other = counts.countOf other + (keys.count other : Int) := by
  induction keys generalizing counts with
  | nil => simp
  | cons key rest ih =>
    rw [List.foldl_cons, ih, countOf_bump]
    by_cases same : other = key
    next =>
      subst same
      simp only [if_true, List.count_cons_self]
      omega
    next =>
      rw [List.count_cons_of_ne (Ne.symm same)]
      simp [same]

theorem foldr_add_append (counts : List Int) (last : Int) :
    (counts ++ [last]).foldr (fun count sum => count + sum) 0 = counts.foldr (fun count sum => count + sum) 0 + last := by
  induction counts with
  | nil => simp
  | cons count rest ih =>
    rw [List.cons_append, List.foldr_cons, List.foldr_cons, ih]
    omega

-- The entry of the key is replaced once, since no other entry has the key.
theorem total_replaceAt {key : κ} {value held : Int} {entries : List (κ × Int)} (nodup : (entries.map Prod.fst).Nodup)
    (member : (key, held) ∈ entries) :
    ((replaceAt key value entries).map Prod.snd).foldr (fun count sum => count + sum) 0 =
      (entries.map Prod.snd).foldr (fun count sum => count + sum) 0 - held + value := by
  induction entries with
  | nil => cases member
  | cons entry rest ih =>
    rw [List.map_cons, List.nodup_cons] at nodup
    rcases List.mem_cons.mp member with rfl | later
    next =>
      have others : replaceAt key value rest = rest := by
        conv => rhs; rw [← List.map_id rest]
        apply List.map_congr_left
        intro other included
        have different : other.1 ≠ key := fun same => nodup.1 (List.mem_map.mpr ⟨other, included, same⟩)
        simp [different]
      have cut : replaceAt key value ((key, held) :: rest) = (key, value) :: replaceAt key value rest := by
        simp [replaceAt]
      rw [cut, others]
      simp only [List.map_cons, List.foldr_cons]
      omega
    next =>
      have different : entry.1 ≠ key := fun same => nodup.1 (List.mem_map.mpr ⟨_, later, same.symm⟩)
      have cut : replaceAt key value (entry :: rest) = entry :: replaceAt key value rest := by
        simp [replaceAt, different]
      rw [cut]
      simp only [List.map_cons, List.foldr_cons, ih nodup.2 later]
      omega

theorem total_bump (counts : Dict κ Int) (key : κ) : (counts.bump key).total = counts.total + 1 := by
  by_cases present : key ∈ counts.keys
  next =>
    obtain ⟨⟨same, held⟩, member, own⟩ := List.mem_map.mp present
    obtain rfl : same = key := own
    have count : counts.countOf same = held := by
      rw [countOf, (counts.get?_eq_some same held).mpr member]
      rfl
    simp only [bump, insert, dif_pos present, total, values, total_replaceAt counts.nodup member, count]
    omega
  next =>
    have absent : counts.countOf key = 0 := by
      rw [countOf]
      cases held : counts.get? key with
      | none => rfl
      | some value =>
        exact (present (List.mem_map.mpr ⟨_, (counts.get?_eq_some key value).mp held, rfl⟩)).elim
    simp only [bump, insert, dif_neg present, total, values, List.map_append, List.map_cons, List.map_nil,
      foldr_add_append, absent]
    omega

theorem total_foldl_bump (counts : Dict κ Int) (keys : List κ) :
    (keys.foldl bump counts).total = counts.total + (keys.length : Int) := by
  induction keys generalizing counts with
  | nil => simp
  | cons key rest ih =>
    rw [List.foldl_cons, ih, total_bump, List.length_cons]
    omega

end Dict

end Library
