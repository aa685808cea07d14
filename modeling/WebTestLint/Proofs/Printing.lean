import WebTestLint.Statement.Parse
import WebTestLint.Proofs.Scan

/-!
Reading undoes writing. A statement that is written with any blanks between its parts is read back
with the same identifier, operator and value.
-/

namespace WebTestLint

namespace Identifier

/-- Links as they are written: all but the first and the last are elements, the first may also be a
page element and the last an attribute, and none of them is nested. -/
structure Chain.IsWritten (chain : Chain) : Prop where
  plain : ∀ segment ∈ chain.segments, ¬ Scan.startsNested <+: segment
  alone : chain.links = [] → isSingle chain.head = true
  head : chain.links ≠ [] → isElement chain.head = true ∨ isPageElement chain.head = true
  inner : ∀ link ∈ chain.links.dropLast, isElement link = true
  last : ∀ link ∈ chain.links.getLast?, isSingle link = true

inductive IsWritten : List Char → Prop
  | chain {chain : Chain} : chain.IsWritten → IsWritten chain.text
  | quoted {body} : Quotable body → IsWritten ('"' :: (body ++ ['"']))
  | word {text} : text ≠ [] → BlankFree text → ¬ ['"'] <+: text → ¬ ['$', '"'] <+: text →
      IsWritten text

theorem isSingle_of_isElement {text : List Char} (element : isElement text = true) :
    isSingle text = true := by
  simp [isSingle, element]

theorem Chain.IsWritten.isLink_head {chain : Chain} (written : chain.IsWritten) :
    Scan.IsLink chain.head := by
  have plain := written.plain chain.head List.mem_cons_self
  by_cases alone : chain.links = []
  · exact Scan.isLink_of_isSingle (written.alone alone) plain
  · rcases written.head alone with element | page
    · exact Scan.isLink_of_isSingle (isSingle_of_isElement element) plain
    · exact Scan.isLink_of_isPageElement page

theorem Chain.IsWritten.isSingle_of_mem {chain : Chain} (written : chain.IsWritten) {link : List Char}
    (member : link ∈ chain.links) : isSingle link = true := by
  rcases List.eq_nil_or_concat chain.links with empty | ⟨front, last, split⟩
  · simp [empty] at member
  · rw [split, List.concat_eq_append, List.mem_append, List.mem_singleton] at member
    rcases member with inner | rfl
    · exact isSingle_of_isElement (written.inner link (by simpa [split] using inner))
    · exact written.last link (by simp [split])

theorem IsWritten.isIdentifier {text : List Char} (written : IsWritten text) :
    Scan.IsIdentifier text := by
  cases written with
  | @chain chain written =>
      apply Scan.isIdentifier_chain
      intro segment member
      rcases List.mem_cons.mp member with rfl | below
      · exact written.isLink_head
      · exact Scan.isLink_of_isSingle (written.isSingle_of_mem below) (written.plain segment member)
  | quoted quotable => exact Scan.isIdentifier_of_isLink (Scan.isLink_of_quotable quotable)
  | word filled free notQuoted notSelector =>
      exact Scan.isIdentifier_of_isLink (Scan.isLink_of_blankFree filled free notQuoted notSelector)

end Identifier

structure IsGap (gap : String) : Prop where
  filled : gap.toList ≠ []
  allBlank : AllBlank gap.toList

theorem isGap_blank : IsGap " " := ⟨by decide, by decide⟩

theorem IsGap.isEnd_trimEnd {gap : String} (blanks : IsGap gap) {value : List Char}
    (trimmed : IsTrimmed value) :
    Scan.IsEnd (trimEnd (gap.toList ++ value)) ∧ trim (trimEnd (gap.toList ++ value)) = value := by
  cases value with
  | nil =>
      have empty : trimEnd (gap.toList ++ []) = [] := by
        rw [List.append_nil]
        exact (trimEnd_eq_nil_iff _).mpr blanks.allBlank
      rw [empty]
      exact ⟨Scan.isEnd_nil, rfl⟩
  | cons c rest =>
      have kept : trimEnd (c :: rest) = c :: rest := trimEnd_of_last trimmed.last
      rw [trimEnd_append_of_ne_nil _ (by simp [kept]), kept]
      refine ⟨Scan.isEnd_append blanks.filled blanks.allBlank _, ?_⟩
      rw [trim_allBlank_append blanks.allBlank, trim_of_isTrimmed trimmed]

namespace Assertion

/-- An operator is read as a word of its own, so it must not look like part of a joint. -/
structure IsOperator (operator : String) : Prop where
  free : BlankFree operator.toList
  starts : ∃ c rest, operator.toList = c :: rest ∧ c ≠ '>'

theorem isOperator_of_mem {operator : String}
    (member : operator ∈ comparisonOperators ++ existenceOperators) : IsOperator operator := by
  simp only [comparisonOperators, existenceOperators, List.cons_append, List.nil_append,
    List.mem_cons, List.not_mem_nil, or_false] at member
  rcases member with rfl | rfl | rfl | rfl | rfl | rfl | rfl <;>
    exact ⟨by decide, _, _, rfl, by decide⟩

theorem IsOperator.ne_empty {operator : String} (word : IsOperator operator) : operator ≠ "" := by
  rintro rfl
  obtain ⟨c, rest, shaped, _⟩ := word.starts
  simp at shaped

theorem takesValue_of_comparison {operator : String} (member : operator ∈ comparisonOperators)
    (value : List Char) : takesValue operator value = true := by
  have known : operator ∉ existenceOperators := by
    simp only [comparisonOperators, List.mem_cons, List.not_mem_nil, or_false] at member
    rcases member with rfl | rfl | rfl | rfl | rfl <;> decide
  simp [takesValue, known, member]

theorem takesValue_of_existence {operator : String} (known : operator ∈ existenceOperators)
    (value : List Char) : takesValue operator value = false := by
  simp [takesValue, known]

theorem trim_line {identifier before operator : String} (filled : identifier.toList ≠ [])
    (trimmed : IsTrimmed identifier.toList) (word : IsOperator operator) (finish : List Char) :
    trim (identifier.toList ++ before.toList ++ operator.toList ++ finish) =
      identifier.toList ++ (before.toList ++ (operator.toList ++ trimEnd finish)) := by
  obtain ⟨c, rest, shaped, _⟩ := word.starts
  have front := trimmed.append filled before.toList (isTrimmed_of_blankFree word.free)
    (by simp [shaped])
  rw [trim_append (by simp [shaped]) front]
  simp

theorem ofLine_of_trim {line identifier before operator : String} {tail : List Char}
    (source : trim line.toList = identifier.toList ++ (before.toList ++ (operator.toList ++ tail)))
    (scanned : Scan.identifier (identifier.toList ++ (before.toList ++ (operator.toList ++ tail))) =
      (identifier.toList, before.toList ++ (operator.toList ++ tail)))
    (blanks : AllBlank before.toList) (word : IsOperator operator) (ended : Scan.IsEnd tail) :
    (ofLine line).identifier = identifier ∧ (ofLine line).operator = operator ∧
      (ofLine line).value? =
        if takesValue operator (trim tail) then some (String.ofList (trim tail)) else none := by
  obtain ⟨c, rest, shaped, _⟩ := word.starts
  -- Trimming the line has taken the blanks off its end, so only those between the parts are left.
  have started : trimStart (before.toList ++ (operator.toList ++ tail)) = operator.toList ++ tail := by
    rw [trimStart_allBlank_append blanks]
    exact trimStart_of_head (by simpa [shaped] using word.free c (by simp [shaped]))
  simp only [ofLine, source, scanned, started, Scan.word_append_of_isEnd word.free ended,
    String.ofList_toList, and_self]

theorem value?_of_comparison {line : String} (known : (ofLine line).operator ∈ comparisonOperators) :
    (ofLine line).value?.isSome = true := by
  have taken : (ofLine line).value? = some _ := if_pos (takesValue_of_comparison known _)
  rw [taken, Option.isSome_some]

theorem value?_of_existence {line : String} (known : (ofLine line).operator ∈ existenceOperators) :
    (ofLine line).value? = none :=
  if_neg (Bool.eq_false_iff.mp (takesValue_of_existence known _))

theorem ofLine_of_isEnd {identifier before operator finish value : String}
    (read : Scan.IsIdentifier identifier.toList) (gap : IsGap before) (word : IsOperator operator)
    (ended : Scan.IsEnd (trimEnd finish.toList)) (left : trim (trimEnd finish.toList) = value.toList) :
    (ofLine (identifier ++ before ++ operator ++ finish)).identifier = identifier ∧
      (ofLine (identifier ++ before ++ operator ++ finish)).operator = operator ∧
      (ofLine (identifier ++ before ++ operator ++ finish)).value? =
        if takesValue operator value.toList then some value else none := by
  obtain ⟨c, rest, shaped, other⟩ := word.starts
  have source : trim (identifier ++ before ++ operator ++ finish).toList =
      identifier.toList ++ (before.toList ++ (operator.toList ++ trimEnd finish.toList)) := by
    rw [← trim_line read.filled read.trimmed word]
    simp
  have loose : ¬ Identifier.joint <+: before.toList ++ (operator.toList ++ trimEnd finish.toList) := by
    rw [shaped]
    exact Scan.not_joint_prefix gap.filled gap.allBlank other _
  have scanned := read.identifier_append _ (Scan.isEnd_append gap.filled gap.allBlank _) loose
  have parts := ofLine_of_trim source scanned gap.allBlank word ended
  rwa [left, String.ofList_toList] at parts

theorem ofLine_append {identifier before operator between value : String}
    (read : Scan.IsIdentifier identifier.toList) (gap : IsGap before)
    (word : IsOperator operator) (second : IsGap between) (trimmed : IsTrimmed value.toList) :
    (ofLine (identifier ++ before ++ operator ++ between ++ value)).identifier = identifier ∧
      (ofLine (identifier ++ before ++ operator ++ between ++ value)).operator = operator ∧
      (ofLine (identifier ++ before ++ operator ++ between ++ value)).value? =
        if takesValue operator value.toList then some value else none := by
  obtain ⟨ended, left⟩ := second.isEnd_trimEnd trimmed
  rw [String.append_assoc]
  exact ofLine_of_isEnd read gap word (by simpa using ended) (by simpa using left)

end Assertion

namespace Action

theorem toList_line (line : String) :
    trim line.toList = (ofLine line).command.toList ++ (Scan.word (trim line.toList)).2 := by
  simp [ofLine, Scan.word_append]

theorem toList_arguments (line : String) :
    (ofLine line).arguments.toList = trim (Scan.word (trim line.toList)).2 := by
  simp [ofLine]

theorem kind_eq_kindOf (line : String) :
    (ofLine line).kind = kindOf (ofLine line).command (ofLine line).arguments.toList := by
  simp [ofLine]

theorem blankFree_command (line : String) : BlankFree (ofLine line).command.toList := by
  simpa [ofLine] using Scan.blankFree_word (trim line.toList)

theorem ofLine_of_trim {line command gap : String} {arguments : List Char}
    (source : trim line.toList = command.toList ++ (gap.toList ++ arguments))
    (free : BlankFree command.toList) (blanks : IsGap gap) (trimmed : IsTrimmed arguments) :
    (ofLine line).command = command ∧ (ofLine line).arguments = String.ofList arguments ∧
      (ofLine line).kind = kindOf command arguments := by
  have scanned := Scan.word_append_of_isEnd free (Scan.isEnd_append blanks.filled blanks.allBlank arguments)
  have rest : trim (gap.toList ++ arguments) = arguments := by
    rw [trim_allBlank_append blanks.allBlank, trim_of_isTrimmed trimmed]
  simp only [ofLine, source, scanned, rest, String.ofList_toList, and_self]

theorem inputValue_append {gap tail value : List Char} (allBlank : AllBlank gap)
    (ended : Scan.IsEnd tail) (finish : trim tail = value) :
    inputValue (gap ++ ("to".toList ++ tail)) = value := by
  have started : trimStart (gap ++ ("to".toList ++ tail)) = "to".toList ++ tail := by
    rw [trimStart_allBlank_append allBlank]
    exact trimStart_of_head (by simp [isBlank, blankRanges])
  have dropped : dropStart? "to".toList ("to".toList ++ tail) = some tail :=
    (dropStart?_eq_some_iff _ _ _).mpr rfl
  rw [inputValue, started, dropped]
  cases tail with
  | nil => exact finish
  | cons c rest =>
      have blank : isBlank c = true := ended c rfl
      have single : AllBlank [c] := by simpa [AllBlank] using blank
      have skipped : trim (c :: rest) = trim rest := trim_allBlank_append single rest
      simp [blank, ← finish, skipped]

theorem kindOf_set (arguments : List Char) : kindOf "set" arguments =
    .input (String.ofList (Scan.identifier arguments).1)
      (String.ofList (inputValue (Scan.identifier arguments).2)) := by
  rw [kindOf, if_neg (by decide), if_pos rfl]

theorem ofLine_set {before identifier between after value : String} (gap : IsGap before)
    (read : Scan.IsIdentifier identifier.toList) (second : IsGap between) (closing : IsGap after)
    (trimmed : IsTrimmed value.toList) :
    (ofLine ("set" ++ before ++ identifier ++ between ++ "to" ++ after ++ value)).command = "set" ∧
      (ofLine ("set" ++ before ++ identifier ++ between ++ "to" ++ after ++ value)).kind =
        .input identifier value := by
  obtain ⟨ended, finish⟩ := closing.isEnd_trimEnd trimmed
  have keyword : IsTrimmed "to".toList := isTrimmed_of_blankFree (by decide)
  have named : IsTrimmed (identifier.toList ++ between.toList ++ "to".toList) :=
    read.trimmed.append read.filled between.toList keyword (by simp)
  have arguments := named.append_trimEnd (by simp) (after.toList ++ value.toList)
  have source : trim ("set" ++ before ++ identifier ++ between ++ "to" ++ after ++ value).toList =
      "set".toList ++ (before.toList ++ (identifier.toList ++ between.toList ++ "to".toList ++
        trimEnd (after.toList ++ value.toList))) := by
    have front : IsTrimmed ("set".toList ++ before.toList ++
        (identifier.toList ++ between.toList ++ "to".toList)) :=
      IsTrimmed.append (isTrimmed_of_blankFree (by decide)) (by simp) _ named (by simp)
    have whole := trim_append (by simp) front (after.toList ++ value.toList)
    simpa using whole
  generalize trimEnd (after.toList ++ value.toList) = tail at ended finish arguments source
  obtain ⟨command, _, kind⟩ := ofLine_of_trim source (by decide) gap arguments
  refine ⟨command, ?_⟩
  have loose : ¬ Identifier.joint <+: between.toList ++ ("to".toList ++ tail) :=
    Scan.not_joint_prefix second.filled second.allBlank (by decide) _
  have scanned := read.identifier_append _ (Scan.isEnd_append second.filled second.allBlank _) loose
  have shaped : identifier.toList ++ between.toList ++ "to".toList ++ tail =
      identifier.toList ++ (between.toList ++ ("to".toList ++ tail)) := by simp
  rw [kind, shaped, kindOf_set, scanned]
  simp only [inputValue_append second.allBlank ended finish, String.ofList_toList]

theorem ofLine_interaction {command before identifier : String}
    (interaction : command ∈ interactionCommands) (free : BlankFree command.toList)
    (filled : command.toList ≠ []) (gap : IsGap before)
    (read : Scan.IsIdentifier identifier.toList) :
    (ofLine (command ++ before ++ identifier)).command = command ∧
      (ofLine (command ++ before ++ identifier)).kind = .interaction identifier := by
  have whole : IsTrimmed (command.toList ++ before.toList ++ identifier.toList) :=
    (isTrimmed_of_blankFree free).append filled before.toList read.trimmed read.filled
  have source : trim (command ++ before ++ identifier).toList =
      command.toList ++ (before.toList ++ identifier.toList) := by
    simpa using trim_of_isTrimmed whole
  obtain ⟨named, _, kind⟩ := ofLine_of_trim source free gap read.trimmed
  have scanned := read.identifier_append [] Scan.isEnd_nil (by decide)
  rw [List.append_nil] at scanned
  refine ⟨named, ?_⟩
  rw [kind, kindOf, if_pos interaction, scanned, String.ofList_toList]

end Action

/-- Statements are read back from what they are written as: comparisons with their value, checks of
existence without one, inputs, and the interactions with an element. -/
theorem ofLine_written {identifier value before between after : String}
    (written : Identifier.IsWritten identifier.toList) (trimmed : IsTrimmed value.toList)
    (gap : IsGap before) (second : IsGap between) (closing : IsGap after) :
    (∀ operator ∈ ["is", "is-not", "includes", "excludes", "matches"],
      let assertion := Assertion.ofLine (identifier ++ before ++ operator ++ between ++ value)
      assertion.identifier = identifier ∧ assertion.operator = operator ∧
        assertion.value? = some value) ∧
    (∀ operator ∈ ["exists", "not-exists"],
      let assertion := Assertion.ofLine (identifier ++ before ++ operator ++ between ++ value)
      assertion.identifier = identifier ∧ assertion.operator = operator ∧
        assertion.value? = none) ∧
    (let action := Action.ofLine ("set" ++ before ++ identifier ++ between ++ "to" ++ after ++ value)
     action.command = "set" ∧ action.kind = .input identifier value) ∧
    ∀ command ∈ ["click", "submit", "wait-for"],
      let action := Action.ofLine (command ++ before ++ identifier)
      action.command = command ∧ action.kind = .interaction identifier := by
  have read := written.isIdentifier
  refine ⟨?_, ?_, Action.ofLine_set gap read second closing trimmed, ?_⟩
  · intro operator member
    have word := Assertion.isOperator_of_mem (List.mem_append_left _ member)
    have taken := Assertion.takesValue_of_comparison member value.toList
    have parts := Assertion.ofLine_append read gap word second trimmed
    rwa [taken, if_pos rfl] at parts
  · intro operator member
    have word := Assertion.isOperator_of_mem (List.mem_append_right _ member)
    have refused : Assertion.takesValue operator value.toList = false := by
      have known : operator ∈ Assertion.existenceOperators := member
      simp [Assertion.takesValue, known]
    have parts := Assertion.ofLine_append read gap word second trimmed
    rwa [refused, if_neg (by decide)] at parts
  · intro command member
    refine Action.ofLine_interaction member ?_ ?_ gap read
    all_goals
      simp only [List.mem_cons, List.not_mem_nil, or_false] at member
      rcases member with rfl | rfl | rfl <;> decide

def formChain : Identifier.Chain :=
  ⟨"$form".toList, ["$\"li >> a\":2".toList, "$\"b \\\"c\\\"\".href".toList]⟩

theorem ofLine_written_form :
    let form := String.ofList formChain.text
    formChain.IsWritten ∧ IsTrimmed "to \"x y\"".toList ∧ IsGap " \u2003" ∧ IsGap "\t" ∧
      (Assertion.ofLine (form ++ " \u2003" ++ "is" ++ "\t" ++ "to \"x y\"")).value? =
        some "to \"x y\"" ∧
      (Action.ofLine ("set" ++ " \u2003" ++ form ++ "\t" ++ "to" ++ "\t" ++ "to \"x y\"")).kind =
        .input form "to \"x y\"" := by
  intro form
  have written : formChain.IsWritten :=
    ⟨by decide +kernel, by decide +kernel, by decide +kernel, by decide +kernel, by decide +kernel⟩
  have text : Identifier.IsWritten form.toList := by
    simpa [form] using Identifier.IsWritten.chain written
  have trimmed : IsTrimmed "to \"x y\"".toList := by decide +kernel
  have wide : IsGap " \u2003" := ⟨by decide +kernel, by decide +kernel⟩
  have tab : IsGap "\t" := ⟨by decide +kernel, by decide +kernel⟩
  obtain ⟨comparison, _, input, _⟩ := ofLine_written text trimmed wide tab tab
  exact ⟨written, trimmed, wide, tab, (comparison "is" (by decide)).2.2, input.2⟩

end WebTestLint
