/-!
Indices into a text count the bytes of its UTF-8 form. An index names a place in the text only if it
is not inside a character and not past the end.
-/

namespace WebTestLint

def byteLength : List Char → Nat
  | [] => 0
  | c :: rest => c.utf8Size + byteLength rest

/-- The text from a byte index on, if the index is a place in the text. -/
def dropBytes? : Nat → List Char → Option (List Char)
  | 0, text => some text
  | _ + 1, [] => none
  | index + 1, c :: rest =>
    if c.utf8Size ≤ index + 1 then dropBytes? (index + 1 - c.utf8Size) rest else none
termination_by structural _ text => text

@[simp] theorem byteLength_nil : byteLength [] = 0 := rfl

@[simp] theorem byteLength_cons (c : Char) (rest : List Char) :
    byteLength (c :: rest) = c.utf8Size + byteLength rest := rfl

@[simp] theorem byteLength_append (first second : List Char) :
    byteLength (first ++ second) = byteLength first + byteLength second := by
  induction first with
  | nil => simp
  | cons c rest ih => simp [ih, Nat.add_assoc]

theorem length_le_byteLength (text : List Char) : text.length ≤ byteLength text := by
  induction text with
  | nil => simp
  | cons c rest ih =>
    have positive := c.utf8Size_pos
    simp only [List.length_cons, byteLength_cons]
    omega

theorem dropBytes?_eq_some_iff (index : Nat) (text rest : List Char) :
    dropBytes? index text = some rest ↔
      ∃ before, text = before ++ rest ∧ byteLength before = index := by
  induction text generalizing index with
  | nil =>
    cases index with
    | zero =>
      simp only [dropBytes?, Option.some.injEq]
      constructor
      · rintro rfl
        exact ⟨[], rfl, rfl⟩
      · rintro ⟨before, same, _⟩
        exact (List.append_eq_nil_iff.mp same.symm).2.symm
    | succ index =>
      simp only [dropBytes?, reduceCtorEq, false_iff, not_exists]
      rintro before ⟨same, size⟩
      simp [(List.append_eq_nil_iff.mp same.symm).1] at size
  | cons c text ih =>
    have positive := c.utf8Size_pos
    cases index with
    | zero =>
      simp only [dropBytes?, Option.some.injEq]
      constructor
      · rintro rfl
        exact ⟨[], rfl, rfl⟩
      · rintro ⟨before, same, size⟩
        cases before with
        | nil => exact same
        | cons head tail =>
          have := head.utf8Size_pos
          simp only [byteLength_cons] at size
          omega
    | succ index =>
      simp only [dropBytes?]
      split
      · rename_i fits
        rw [ih]
        constructor
        · rintro ⟨before, rfl, size⟩
          exact ⟨c :: before, rfl, by simp only [byteLength_cons]; omega⟩
        · rintro ⟨before, same, size⟩
          cases before with
          | nil => simp at size
          | cons head tail =>
            obtain ⟨rfl, rest⟩ := List.cons.inj same
            exact ⟨tail, rest, by simp only [byteLength_cons] at size; omega⟩
      · rename_i wide
        simp only [reduceCtorEq, false_iff, not_exists]
        rintro before ⟨same, size⟩
        cases before with
        | nil => simp at size
        | cons head tail =>
          obtain ⟨rfl, _⟩ := List.cons.inj same
          simp only [byteLength_cons] at size
          omega

end WebTestLint
