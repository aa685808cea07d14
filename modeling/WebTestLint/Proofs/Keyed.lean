import Mathlib.Data.List.Basic

/-!
Entries by key. Setting a key that is there replaces its value in place, and any other key goes to the
end, so the keys stay in the order in which they were first set.
-/

namespace WebTestLint.Keyed

variable {α : Type}

def set (key : String) (value : α) : List (String × α) → List (String × α)
  | [] => [(key, value)]
  | entry :: rest => if entry.1 = key then (key, value) :: rest else entry :: set key value rest

theorem keys_set (entries : List (String × α)) (key : String) (value : α) :
    (set key value entries).map Prod.fst =
      if key ∈ entries.map Prod.fst then entries.map Prod.fst else entries.map Prod.fst ++ [key] := by
  induction entries with
  | nil => rfl
  | cons entry entries ih =>
      rw [set]
      by_cases same : entry.1 = key
      · simp [same]
      · rw [if_neg same, List.map_cons, ih]
        by_cases present : key ∈ entries.map Prod.fst
        · simp [present]
        · simp [present, Ne.symm same]

theorem lookup_cons (entry : String × α) (entries : List (String × α)) (key : String) :
    List.lookup key (entry :: entries) = if key = entry.1 then some entry.2 else entries.lookup key := by
  rw [List.lookup_cons]
  by_cases same : key = entry.1
  · simp [same]
  · simp [same, beq_eq_false_iff_ne.mpr same]

theorem lookup_set (entries : List (String × α)) (key other : String) (value : α) :
    (set key value entries).lookup other = if other = key then some value else entries.lookup other := by
  induction entries with
  | nil => rw [set, lookup_cons]
  | cons entry entries ih =>
      rw [set]
      split
      · rename_i found
        rw [lookup_cons, lookup_cons, found]
        by_cases same : other = key <;> simp [same]
      · rename_i missed
        rw [lookup_cons, lookup_cons, ih]
        by_cases first : other = entry.1
        · have different : entry.1 ≠ key := missed
          simp [first, different]
        · simp [first]

theorem lookup_of_mem {entries : List (String × α)} (distinct : (entries.map Prod.fst).Nodup)
    {entry : String × α} (member : entry ∈ entries) : entries.lookup entry.1 = some entry.2 := by
  induction entries with
  | nil => simp at member
  | cons first entries ih =>
      rw [List.map_cons, List.nodup_cons] at distinct
      rw [lookup_cons]
      rcases List.mem_cons.mp member with rfl | later
      · simp
      · have other : entry.1 ≠ first.1 := by
          intro same
          exact distinct.1 (same ▸ List.mem_map_of_mem later)
        rw [if_neg other, ih distinct.2 later]

end WebTestLint.Keyed
