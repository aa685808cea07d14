import Mathlib.Algebra.Group.Nat.Even
import WebTestLint.Proofs.Literal
import WebTestLint.Proofs.Offsets

/-!
The parity of the backslashes in front of a literal's last quote. The loop of the check counts the
backslashes that end where it stands, also those that touch the opening quote, and asks for the count at
the last character alone.
-/

namespace WebTestLint

theorem exists_enclosed_iff (text : List Char) (holds : List Char → Prop) :
    (∃ inner, text = '"' :: (inner ++ ['"']) ∧ holds inner) ↔
      2 ≤ text.length ∧ text.head? = some '"' ∧ text.getLast? = some '"' ∧ holds text.tail.dropLast := by
  constructor
  · rintro ⟨inner, rfl, held⟩
    refine ⟨by simp, rfl, ?_, by simpa using held⟩
    rw [← List.cons_append, List.getLast?_concat]
  · rintro ⟨long, first, last, held⟩
    obtain ⟨body, rfl⟩ := List.head?_eq_some_iff.mp first
    rcases List.eq_nil_or_concat body with rfl | ⟨inner, c, rfl⟩
    · simp at long
    · rw [List.concat_eq_append, ← List.cons_append, List.getLast?_concat] at last
      obtain rfl := Option.some.inj last
      exact ⟨inner, by simp, by simpa using held⟩

namespace Value

/-- Where the loop over the characters behind the opening quote stands: its index, and its count of
backslashes. -/
structure Tally where
  index : Nat
  count : Nat

def literalPass (characters : List Char) (tally : Tally) : Pass Tally Bool :=
  match characters[tally.index]? with
  | none => .done false
  | some c =>
    if c = '"' ∧ tally.count % 2 = 0 ∧ tally.index = characters.length - 1 then .done true
    else if c = '\\' then .again ⟨tally.index + 1, tally.count + 1⟩
    else .again ⟨tally.index + 1, 0⟩

def Tally.IsExact (characters : List Char) (tally : Tally) : Prop :=
  tally.count = backslashes (characters.take tally.index)

theorem Tally.IsExact.of_pass {characters : List Char} {tally next : Tally}
    (passed : literalPass characters tally = .again next) (exact : tally.IsExact characters) :
    next.IsExact characters := by
  rw [literalPass] at passed
  cases found : characters[tally.index]? with
  | none => simp [found] at passed
  | some c =>
      have counted := backslashes_concat (characters.take tally.index) c
      have taken : characters.take (tally.index + 1) = characters.take tally.index ++ [c] := by
        rw [List.take_add_one, found]
        rfl
      rw [← taken] at counted
      simp only [found] at passed
      split_ifs at passed with closing backslash
      · obtain rfl := Pass.again.inj passed
        rw [IsExact, counted, if_pos backslash, exact]
      · obtain rfl := Pass.again.inj passed
        rw [IsExact, counted, if_neg backslash]

theorem literalPass_of_append (front : List Char) (c : Char) (rest : List Char) :
    literalPass (front ++ c :: rest) ⟨front.length, backslashes front⟩ =
      if c = '"' ∧ escapes front = false ∧ rest = [] then .done true
      else .again ⟨(front ++ [c]).length, backslashes (front ++ [c])⟩ := by
  have found : (front ++ c :: rest)[front.length]? = some c := by simp
  have last : front.length = (front ++ c :: rest).length - 1 ↔ rest = [] := by
    rw [← List.length_eq_zero_iff]
    simp
  have size : (front ++ [c]).length = front.length + 1 := by simp
  rw [size, backslashes_concat]
  simp only [literalPass, found, last, ← escapes_eq_false_iff]
  split_ifs <;> rfl

theorem closesAtEnd_cons (front : List Char) (c : Char) (rest : List Char) :
    closesAtEnd (escapes front) (c :: rest) =
      if c = '"' ∧ escapes front = false ∧ rest = [] then true
      else closesAtEnd (escapes (front ++ [c])) rest := by
  by_cases last : c = '"' ∧ rest = []
  · obtain ⟨rfl, rfl⟩ := last
    cases escapes front <;> simp [closesAtEnd]
  · rw [closesAtEnd.eq_3 _ _ _ fun quote empty => last ⟨quote, empty⟩, ← escapes_concat,
      if_neg fun closing => last ⟨closing.1, closing.2.2⟩]

theorem endsIn_literalPass (front rest : List Char) :
    EndsIn (literalPass (front ++ rest)) ⟨front.length, backslashes front⟩
      (closesAtEnd (escapes front) rest) := by
  induction rest generalizing front with
  | nil =>
      apply EndsIn.done
      simp [literalPass, closesAtEnd]
  | cons c rest ih =>
      have passed := literalPass_of_append front c rest
      rw [closesAtEnd_cons]
      split_ifs with closing
      · rw [if_pos closing] at passed
        exact EndsIn.done passed
      · rw [if_neg closing] at passed
        exact EndsIn.again passed (by simpa using ih (front ++ [c]))

/-- A text is a literal exactly if, trimmed, it stands between two quotes with an even number of
backslashes in front of the last one. The loop of the check ends with that answer, and its count is exact
wherever it gets. -/
theorem isLiteral_iff_even_backslashes (text : List Char) :
    (isLiteral text = true ↔
      2 ≤ (trim text).length ∧ (trim text).head? = some '"' ∧ (trim text).getLast? = some '"' ∧
        Even (backslashes (trim text).tail.dropLast)) ∧
    ∀ body, trim text = '"' :: body →
      EndsIn (literalPass body) ⟨0, 0⟩ (isLiteral text) ∧
      ∀ tally, Reaches (literalPass body) ⟨0, 0⟩ tally →
        tally.count = backslashes (body.take tally.index) := by
  constructor
  · have enclosed := exists_enclosed_iff (trim text) fun inner => Even (backslashes inner)
    rw [isLiteral_iff, ← enclosed]
    constructor
    · rintro ⟨_, inner, trimmed, rfl, loose⟩
      exact ⟨inner, trimmed, Nat.even_iff.mpr ((escapes_eq_false_iff inner).mp loose)⟩
    · rintro ⟨inner, trimmed, even⟩
      exact ⟨_, inner, trimmed, rfl, (escapes_eq_false_iff inner).mpr (Nat.even_iff.mp even)⟩
  · intro body trimmed
    constructor
    · have literal : isLiteral text = closesAtEnd (escapes []) body := by
        rw [isLiteral, trimmed]
        rfl
      rw [literal]
      exact endsIn_literalPass [] body
    · intro tally run
      have exact : Tally.IsExact body ⟨0, 0⟩ := rfl
      have kept : tally.IsExact body := run.invariant (fun _ _ => Tally.IsExact.of_pass) exact
      exact kept

theorem isLiteral_iff_even_backslashes_touching :
    let text := " \"\\\\\"\u3000".toList
    let body := "\\\\\"".toList
    trim text = '"' :: body ∧ isLiteral text = true ∧ EndsIn (literalPass body) ⟨0, 0⟩ true ∧
      Reaches (literalPass body) ⟨0, 0⟩ ⟨2, 2⟩ ∧ 2 = backslashes (body.take 2) := by
  intro text body
  have trimmed : trim text = '"' :: body := by decide +kernel
  obtain ⟨literal, loop⟩ := isLiteral_iff_even_backslashes text
  have accepted : isLiteral text = true :=
    literal.mpr ⟨by decide +kernel, by decide +kernel, by decide +kernel, by decide +kernel⟩
  obtain ⟨ended, counts⟩ := loop body trimmed
  rw [accepted] at ended
  have run : Reaches (literalPass body) ⟨0, 0⟩ ⟨2, 2⟩ := .again rfl (.again rfl .refl)
  exact ⟨trimmed, accepted, ended, run, counts _ run⟩

end Value

end WebTestLint
