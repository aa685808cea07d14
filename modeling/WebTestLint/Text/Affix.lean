/-!
Texts that start or end with a given text.
-/

namespace WebTestLint

def dropStart? : List Char → List Char → Option (List Char)
  | [], text => some text
  | _ :: _, [] => none
  | c :: start, d :: text => if c = d then dropStart? start text else none

def dropEnd? (finish text : List Char) : Option (List Char) :=
  (dropStart? finish.reverse text.reverse).map List.reverse

theorem dropStart?_eq_some_iff (start text rest : List Char) :
    dropStart? start text = some rest ↔ text = start ++ rest := by
  induction start generalizing text with
  | nil => simp [dropStart?]
  | cons c start ih =>
    cases text with
    | nil => simp [dropStart?]
    | cons d text =>
      by_cases same : c = d
      · subst same
        simp [dropStart?, ih]
      · simp [dropStart?, same, Ne.symm same]

theorem dropEnd?_eq_some_iff (finish text rest : List Char) :
    dropEnd? finish text = some rest ↔ text = rest ++ finish := by
  simp only [dropEnd?, Option.map_eq_some_iff, dropStart?_eq_some_iff]
  constructor
  · rintro ⟨turned, same, rfl⟩
    simpa using congrArg List.reverse same
  · rintro rfl
    exact ⟨rest.reverse, by simp, by simp⟩

end WebTestLint
