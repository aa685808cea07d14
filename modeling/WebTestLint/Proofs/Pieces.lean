import WebTestLint.Proofs.Remainder

/-!
The pieces that a line is read as. Put back together they are the trimmed line: between them stand
blanks, and nothing of the line is left out or read twice, whether or not it is a statement.
-/

namespace WebTestLint

theorem Scan.exists_gap {text : List Char} (ended : IsEnd text)
    (last : ∀ c ∈ text.getLast?, isBlank c = false) :
    ∃ gap, AllBlank gap ∧ (gap = [] → trim text = []) ∧ text = gap ++ trim text := by
  refine ⟨text.takeWhile isBlank, fun c member => List.mem_takeWhile_imp member, ?_, ?_⟩
  · intro closed
    cases text with
    | nil => rfl
    | cons c rest => simp [ended c rfl] at closed
  · rw [trim_of_last last, trimStart, List.takeWhile_append_dropWhile]

namespace Assertion

/-- A text cut into the identifier and the operator of an assertion and a tail, which is the value if
the assertion has one. -/
structure IsCut (text : List Char) (assertion : Assertion) (before between tail : List Char) : Prop where
  whole : text = assertion.identifier.toList ++
    (before ++ (assertion.operator.toList ++ (between ++ tail)))
  blankBefore : AllBlank before
  blankBetween : AllBlank between
  word : BlankFree assertion.operator.toList
  trimmed : IsTrimmed tail
  named : assertion.identifier = "" → text = []
  apart : before = [] → assertion.operator = ""
  apartTail : between = [] → tail = []
  value : assertion.value? =
    if assertion.operator ∈ existenceOperators ∨ tail = [] ∧ assertion.operator ∉ comparisonOperators
    then none else some (String.ofList tail)

theorem takesValue_eq_false_iff (operator : String) (value : List Char) :
    takesValue operator value = false ↔
      operator ∈ existenceOperators ∨ value = [] ∧ operator ∉ comparisonOperators := by
  rw [takesValue, Bool.and_eq_false_iff, Bool.or_eq_false_iff]
  simp

def tail (line : String) : List Char :=
  trim (Scan.word (trimStart (Scan.identifier (trim line.toList)).2)).2

theorem toList_operator (line : String) : (ofLine line).operator.toList =
    (Scan.word (trimStart (Scan.identifier (trim line.toList)).2)).1 := by
  simp [ofLine]

theorem value?_eq (line : String) : (ofLine line).value? =
    if (ofLine line).operator ∈ existenceOperators ∨
      tail line = [] ∧ (ofLine line).operator ∉ comparisonOperators
    then none else some (String.ofList (tail line)) := by
  have read : (ofLine line).value? = if takesValue (ofLine line).operator (tail line)
      then some (String.ofList (tail line)) else none := rfl
  rw [read]
  split
  · rename_i taken
    rw [if_neg]
    rw [← takesValue_eq_false_iff, taken]
    simp
  · rename_i left
    rw [if_pos]
    exact (takesValue_eq_false_iff _ _).mp (by simpa using left)

theorem exists_isCut (line : String) :
    ∃ before between, (ofLine line).IsCut (trim line.toList) before between (tail line) := by
  have trimmed := isTrimmed_trim line.toList
  have whole := Scan.identifier_append (trim line.toList)
  have last := last_of_suffix ⟨_, whole⟩ trimmed.last
  obtain ⟨before, blankBefore, apart, gap⟩ := Scan.exists_gap (Scan.isEnd_identifier _) last
  -- No blank ends the line, so what the operator is read from starts where the gap ends.
  rw [trim_of_last last] at apart gap
  have behind := Scan.word_append (trimStart (Scan.identifier (trim line.toList)).2)
  have lastBehind :=
    last_of_suffix ⟨_, behind⟩ (last_of_suffix (List.dropWhile_suffix isBlank) last)
  obtain ⟨between, blankBetween, apartTail, gapTail⟩ := Scan.exists_gap (Scan.isEnd_word _) lastBehind
  refine ⟨before, between, ?_, blankBefore, blankBetween, ?_, isTrimmed_trim _, ?_, ?_, apartTail,
    value?_eq line⟩
  · rw [toList_identifier, toList_operator, tail, ← gapTail, behind, ← gap, whole]
  · rw [toList_operator]
    exact Scan.blankFree_word _
  · intro unnamed
    by_contra filled
    apply Scan.identifier_ne_nil filled trimmed.head
    rw [← toList_identifier, unnamed, String.toList_empty]
  · intro closed
    rw [← String.toList_inj, toList_operator, apart closed]
    rfl

end Assertion

namespace Action

/-- The arguments of a `set`. The keyword `to` is left out between the identifier and the value, but
only where it stands as a word. -/
inductive IsInput (arguments identifier value : List Char) : Prop
  | bare {gap} : arguments = identifier ++ (gap ++ value) → AllBlank gap → (gap = [] → value = []) →
      (¬ ∃ tail, Scan.IsEnd tail ∧ value = "to".toList ++ tail) → IsInput arguments identifier value
  | keyword {gap between} :
      arguments = identifier ++ (gap ++ ("to".toList ++ (between ++ value))) →
      AllBlank gap → gap ≠ [] → AllBlank between → (between = [] → value = []) →
      IsInput arguments identifier value

structure IsCut (text : List Char) (action : Action) (gap : List Char) : Prop where
  whole : text = action.command.toList ++ (gap ++ action.arguments.toList)
  blank : AllBlank gap
  word : BlankFree action.command.toList
  trimmed : IsTrimmed action.arguments.toList
  named : action.command = "" → text = []
  apart : gap = [] → action.arguments = ""
  input : action.command = "set" → ∃ identifier value, action.kind = .input identifier value ∧
    IsInput action.arguments.toList identifier.toList value.toList ∧ IsTrimmed value.toList

theorem command_eq_set_of_input {line identifier value : String}
    (kind : (ofLine line).kind = .input identifier value) : (ofLine line).command = "set" := by
  rw [kind_eq_kindOf, kindOf] at kind
  split at kind
  · simp at kind
  · split at kind
    · assumption
    · split at kind
      · simp at kind
      · split at kind <;> simp at kind

theorem inputValue_of_not_keyword {text : List Char}
    (bare : ¬ ∃ tail, Scan.IsEnd tail ∧ trimStart text = "to".toList ++ tail)
    (last : ∀ c ∈ text.getLast?, isBlank c = false) : inputValue text = trim text := by
  have again : trim (trimStart text) = trim text := by
    rw [← trim_of_last last, trim_of_isTrimmed (isTrimmed_trim text)]
  simp only [inputValue]
  split
  · rename_i found
    have starts := (dropStart?_eq_some_iff _ _ _).mp found
    exact absurd ⟨[], Scan.isEnd_nil, starts⟩ bare
  · rename_i c rest found
    have starts := (dropStart?_eq_some_iff _ _ _).mp found
    split
    · rename_i blank
      exact absurd ⟨c :: rest, Scan.isEnd_cons blank rest, starts⟩ bare
    · exact again
  · exact again

theorem isInput_inputValue {arguments identifier rest : List Char}
    (cut : identifier ++ rest = arguments) (ended : Scan.IsEnd rest)
    (last : ∀ c ∈ arguments.getLast?, isBlank c = false) :
    IsInput arguments identifier (inputValue rest) ∧ IsTrimmed (inputValue rest) := by
  have lastRest := last_of_suffix ⟨_, cut⟩ last
  obtain ⟨gap, blank, apart, whole⟩ := Scan.exists_gap ended lastRest
  by_cases keyword : ∃ tail, Scan.IsEnd tail ∧ trimStart rest = "to".toList ++ tail
  · obtain ⟨tail, endedTail, starts⟩ := keyword
    rw [← trim_of_last lastRest] at starts
    have suffix : tail <:+ rest := ⟨gap ++ "to".toList, by rw [List.append_assoc, ← starts, ← whole]⟩
    obtain ⟨between, blankBetween, apartValue, gapValue⟩ :=
      Scan.exists_gap endedTail (last_of_suffix suffix lastRest)
    have value : inputValue rest = trim tail := by
      rw [whole, starts]
      exact inputValue_append blank endedTail rfl
    rw [value]
    refine ⟨.keyword ?_ blank ?_ blankBetween apartValue, isTrimmed_trim tail⟩
    · rw [← gapValue, ← starts, ← whole, cut]
    · intro closed
      simp [apart closed] at starts
  · rw [inputValue_of_not_keyword keyword lastRest]
    rw [← trim_of_last lastRest] at keyword
    exact ⟨.bare (by rw [← whole, cut]) blank apart keyword, isTrimmed_trim rest⟩

theorem exists_isCut (line : String) : ∃ gap, (ofLine line).IsCut (trim line.toList) gap := by
  have trimmed := isTrimmed_trim line.toList
  have last := last_of_suffix ⟨_, (toList_line line).symm⟩ trimmed.last
  obtain ⟨gap, blank, apart, whole⟩ := Scan.exists_gap (Scan.isEnd_word _) last
  rw [← toList_arguments] at apart whole
  have trimmedArguments : IsTrimmed (ofLine line).arguments.toList := by
    rw [toList_arguments]
    exact isTrimmed_trim _
  refine ⟨gap, ?_, blank, blankFree_command line, trimmedArguments, ?_, ?_, ?_⟩
  · rw [← whole, ← toList_line]
  · intro unnamed
    by_contra filled
    apply Scan.word_ne_nil filled trimmed.head
    simpa [ofLine] using unnamed
  · intro closed
    simpa using apart closed
  · intro set
    have cut := Scan.identifier_append (ofLine line).arguments.toList
    obtain ⟨input, value⟩ := isInput_inputValue cut (Scan.isEnd_identifier _) trimmedArguments.last
    have kind := kind_eq_kindOf line
    rw [set, kindOf_set] at kind
    exact ⟨_, _, kind, by simpa using input, by simpa using value⟩

end Action

/-- Every line is read as pieces that make it up, well formed or not. -/
theorem line_isCut (line : String) :
    (∃ before between tail, (Assertion.ofLine line).IsCut (trim line.toList) before between tail) ∧
      ∃ gap, (Action.ofLine line).IsCut (trim line.toList) gap := by
  obtain ⟨before, between, cut⟩ := Assertion.exists_isCut line
  exact ⟨⟨before, between, Assertion.tail line, cut⟩, Action.exists_isCut line⟩

end WebTestLint
