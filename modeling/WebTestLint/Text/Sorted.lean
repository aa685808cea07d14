/-!
Sorted lists of texts without repeats. Texts are compared by code points.
-/

namespace WebTestLint

def insertDistinct (text : String) : List String → List String
  | [] => [text]
  | first :: rest =>
    if text < first then text :: first :: rest
    else if text = first then first :: rest
    else first :: insertDistinct text rest

def sortDistinct (texts : List String) : List String := texts.foldr insertDistinct []

theorem mem_insertDistinct (text other : String) (sorted : List String) :
    other ∈ insertDistinct text sorted ↔ other = text ∨ other ∈ sorted := by
  induction sorted with
  | nil => simp [insertDistinct]
  | cons first rest ih =>
    simp only [insertDistinct]
    split
    · simp
    · split
      · rename_i same
        subst same
        simp
      · simp only [List.mem_cons, ih]
        constructor
        · rintro (found | found | found) <;> simp [found]
        · rintro (found | found | found) <;> simp [found]

theorem mem_sortDistinct (text : String) (texts : List String) :
    text ∈ sortDistinct texts ↔ text ∈ texts := by
  induction texts with
  | nil => simp [sortDistinct]
  | cons first rest ih =>
    rw [sortDistinct, List.foldr_cons, mem_insertDistinct, ← sortDistinct, ih, List.mem_cons]

theorem pairwise_insertDistinct (text : String) {sorted : List String}
    (ordered : sorted.Pairwise (· < ·)) : (insertDistinct text sorted).Pairwise (· < ·) := by
  induction sorted with
  | nil => simp [insertDistinct]
  | cons first rest ih =>
    obtain ⟨least, below⟩ := List.pairwise_cons.mp ordered
    simp only [insertDistinct]
    split
    · rename_i before
      refine List.pairwise_cons.mpr ⟨?_, ordered⟩
      intro other member
      rcases List.mem_cons.mp member with rfl | member
      · exact before
      · exact String.lt_trans before (least other member)
    · split
      · exact ordered
      · rename_i notBefore different
        have after : first < text := by
          apply String.not_le.mp
          intro reverse
          exact different (String.le_antisymm reverse (String.not_lt.mp notBefore))
        refine List.pairwise_cons.mpr ⟨?_, ih below⟩
        intro other member
        rcases (mem_insertDistinct text other rest).mp member with rfl | member
        · exact after
        · exact least other member

theorem pairwise_sortDistinct (texts : List String) : (sortDistinct texts).Pairwise (· < ·) := by
  induction texts with
  | nil => exact List.Pairwise.nil
  | cons first rest ih => exact pairwise_insertDistinct first ih

end WebTestLint
