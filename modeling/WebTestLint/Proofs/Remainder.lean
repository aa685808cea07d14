import WebTestLint.Proofs.Form
import WebTestLint.Proofs.Rereading

/-!
What a line says behind the statement that is read from it: behind the identifier of an interaction, and
behind an operator that takes no value. No check looks there, so the verdict on a line is that on the
line without its remainder.
-/

namespace WebTestLint

/-- A line of two parts with nothing but blanks around them. -/
def ConsistsOf (line first second : List Char) : Prop :=
  ∃ before between after, AllBlank before ∧ AllBlank between ∧ AllBlank after ∧
    line = before ++ (first ++ (between ++ (second ++ after)))

theorem trim_of_consistsOf {line first second : List Char} (parts : ConsistsOf line first second)
    (filled : first ≠ []) (trimmed : IsTrimmed first) :
    ∃ between, AllBlank between ∧ trim line = first ++ trimEnd (between ++ second) := by
  obtain ⟨before, between, after, blank, inner, closing, rfl⟩ := parts
  refine ⟨between, inner, ?_⟩
  rw [trim_allBlank_append blank, trim_append filled trimmed, ← List.append_assoc,
    trimEnd_append_allBlank _ closing]

theorem consistsOf_append_iff {first between second : List Char} (filled : first ≠ [])
    (trimmed : IsTrimmed first) (blank : AllBlank between) (filledSecond : second ≠ [])
    (trimmedSecond : IsTrimmed second) (aside : List Char) :
    ConsistsOf (first ++ (between ++ (second ++ aside))) first second ↔ AllBlank aside := by
  have kept (finish : List Char) : trimEnd (second ++ finish) = second ++ trimEnd finish :=
    trimEnd_append_of_last trimmedSecond.last finish
  have start (blanks : List Char) (inner : AllBlank blanks) (finish : List Char) :
      trimStart (trimEnd (blanks ++ (second ++ finish))) = second ++ trimEnd finish := by
    have filled : second ++ trimEnd finish ≠ [] := by simp [filledSecond]
    rw [trimEnd_append_of_ne_nil _ (by rwa [kept]), kept, trimStart_allBlank_append inner]
    apply trimStart_of_head
    rw [List.head?_append_of_ne_nil _ filledSecond]
    exact trimmedSecond.head
  constructor
  · intro parts
    obtain ⟨other, inner, whole⟩ := trim_of_consistsOf parts filled trimmed
    rw [trim_append filled trimmed, List.append_cancel_left_eq] at whole
    have same := start between blank aside
    have alone := start other inner []
    rw [List.append_nil, ← whole, same] at alone
    exact (trimEnd_eq_nil_iff aside).mp (List.append_cancel_left alone)
  · intro closing
    exact ⟨[], between, aside, by simp [AllBlank], blank, closing, rfl⟩

/-- What may stand behind a statement without being read as a part of it. -/
structure IsAside (text : List Char) : Prop where
  ended : Scan.IsEnd text
  loose : ¬ Identifier.joint <+: text
  unquoted : '"' ∉ text

theorem IsAside.of_prefix {text front : List Char} (aside : IsAside text) (start : front <+: text) :
    IsAside front := by
  refine ⟨?_, fun joined => aside.loose (joined.trans start),
    fun quote => aside.unquoted (start.subset quote)⟩
  obtain ⟨rest, rfl⟩ := start
  intro c found
  apply aside.ended
  rw [List.head?_append, Option.mem_def.mp found]
  rfl

namespace Scan

open Identifier (joint)

theorem last_of_quoted {text quoted after : List Char}
    (found : (nested? text <|> selector? text) = some (quoted, after)) : quoted.getLast? = some '"' := by
  cases nested : nested? text with
  | some pair =>
      rw [nested] at found
      exact isQuoteScanner_nested?.closed (nested.trans found)
  | none =>
      rw [nested] at found
      exact isQuoteScanner_selector?.closed found

theorem link_ne_nil {text : List Char} (filled : text ≠ [])
    (head : ∀ c ∈ text.head?, isBlank c = false) : (link text).1 ≠ [] := by
  unfold link
  split
  · rename_i quoted after found
    have closed := last_of_quoted found
    intro empty
    simp [(List.append_eq_nil_iff.mp empty).1] at closed
  · exact word_ne_nil filled head

theorem last_link (text : List Char) : ∀ c ∈ (link text).1.getLast?, isBlank c = false := by
  have word_last (text : List Char) : ∀ c ∈ (word text).1.getLast?, isBlank c = false :=
    fun c found => blankFree_word text c (List.mem_of_getLast? found)
  unfold link
  split
  · rename_i quoted after found
    by_cases touching : (word after).1 = []
    · rw [touching, List.append_nil, last_of_quoted found]
      intro c same
      obtain rfl : '"' = c := by simpa using same
      decide
    · rw [List.getLast?_append_of_ne_nil _ touching]
      exact word_last after
  · exact word_last text

theorem last_links (text : List Char) : ∀ c ∈ (links text).1.getLast?, isBlank c = false := by
  fun_induction links text with
  | case1 => simp
  | case2 => simp
  | case3 text below found filled further rest shaped ih =>
      rw [shaped] at ih
      by_cases alone : further = []
      · rw [alone, List.append_nil, List.getLast?_append_of_ne_nil _ (by simpa using filled)]
        exact last_link below
      · rw [List.getLast?_append_of_ne_nil _ alone]
        exact ih

theorem isTrimmed_identifier {text : List Char} (head : ∀ c ∈ text.head?, isBlank c = false) :
    IsTrimmed (identifier text).1 := by
  constructor
  · intro c found
    apply head
    rw [← identifier_append text, List.head?_append, Option.mem_def.mp found]
    rfl
  · change ∀ c ∈ ((link text).1 ++ (links (link text).2).1).getLast?, isBlank c = false
    by_cases alone : (links (link text).2).1 = []
    · rw [alone, List.append_nil]
      exact last_link text
    · rw [List.getLast?_append_of_ne_nil _ alone]
      exact last_links (link text).2

theorem identifier_ne_nil {text : List Char} (filled : text ≠ [])
    (head : ∀ c ∈ text.head?, isBlank c = false) : (identifier text).1 ≠ [] := by
  intro empty
  exact link_ne_nil filled head (List.append_eq_nil_iff.mp empty).1

end Scan

namespace Action

theorem consistsOf_arguments (line : String) :
    ConsistsOf line.toList (ofLine line).command.toList (ofLine line).arguments.toList := by
  obtain ⟨before, after, blank, closing, whole⟩ := exists_trim_append line.toList
  obtain ⟨between, finish, inner, ending, rest⟩ := exists_trim_append (Scan.word (trim line.toList)).2
  refine ⟨before, between, finish ++ after, blank, inner, ?_, ?_⟩
  · exact List.forall_mem_append.mpr ⟨ending, closing⟩
  · rw [toList_line, rest, ← toList_arguments] at whole
    simpa using whole

theorem interaction_of_kindOf {command identifier : String} {arguments : List Char}
    (read : kindOf command arguments = .interaction identifier) :
    command ∈ interactionCommands ∧ identifier.toList = (Scan.identifier arguments).1 := by
  unfold kindOf at read
  split at read
  · rename_i known
    simp only [Kind.interaction.injEq] at read
    exact ⟨known, by simp [← read]⟩
  · split at read
    · simp at read
    · split at read
      · simp at read
      · split at read <;> simp at read

theorem interaction_of_ofLine {line identifier : String}
    (read : (ofLine line).kind = .interaction identifier) :
    (ofLine line).command ∈ interactionCommands ∧
      identifier.toList = (Scan.identifier (ofLine line).arguments.toList).1 := by
  rw [kind_eq_kindOf] at read
  exact interaction_of_kindOf read

theorem ne_nil_of_mem_interactionCommands {command : String} (known : command ∈ interactionCommands) :
    command.toList ≠ [] := by
  simp only [interactionCommands, List.mem_cons, List.not_mem_nil, or_false] at known
  rcases known with rfl | rfl | rfl <;> decide

theorem arguments_of_consistsOf {line second : String} (filled : (ofLine line).command.toList ≠ [])
    (parts : ConsistsOf line.toList (ofLine line).command.toList second.toList) :
    (ofLine line).arguments.toList = trim second.toList := by
  obtain ⟨between, blank, whole⟩ :=
    trim_of_consistsOf parts filled (isTrimmed_of_blankFree (blankFree_command line))
  rw [toList_line] at whole
  rw [toList_arguments, List.append_cancel_left whole, trim_trimEnd, trim_allBlank_append blank]

theorem arguments_eq_iff {line identifier : String}
    (read : (ofLine line).kind = .interaction identifier) :
    (ofLine line).arguments = identifier ↔
      ConsistsOf line.toList (ofLine line).command.toList identifier.toList := by
  obtain ⟨known, scanned⟩ := interaction_of_ofLine read
  constructor
  · rintro rfl
    exact consistsOf_arguments line
  · intro parts
    have trimmed := arguments_of_consistsOf (ne_nil_of_mem_interactionCommands known) parts
    -- The identifier starts the arguments, which are no longer than it.
    have start : identifier.toList <+: (ofLine line).arguments.toList :=
      ⟨_, by rw [scanned, Scan.identifier_append]⟩
    have short : (trim identifier.toList).length ≤ identifier.toList.length :=
      ((trimEnd_isPrefix _).length_le).trans (List.dropWhile_suffix isBlank).length_le
    rw [← String.toList_inj]
    exact (start.eq_of_length_le (by rw [trimmed]; exact short)).symm

theorem check_isValid_congr {first second : Action} (command : first.command = second.command)
    (kind : first.kind = second.kind) : first.check.isValid = second.check.isValid := by
  have target : first.hasTarget = second.hasTarget := by simp [hasTarget, identifier?, kind]
  have value : first.checkedValue? = second.checkedValue? := by simp [checkedValue?, kind]
  have known : first.checkCommand.isValid = second.checkCommand.isValid := by
    unfold checkCommand
    rw [command]
    split <;> rfl
  unfold check
  rw [target, value]
  split
  · rfl
  · split
    · rfl
    · exact known

theorem ofLine_aside {line identifier aside : String}
    (read : (ofLine line).kind = .interaction identifier) (filled : identifier ≠ "")
    (behind : IsAside aside.toList) :
    let longer := ofLine ((ofLine line).command ++ " " ++ identifier ++ aside)
    longer.command = (ofLine line).command ∧ longer.kind = .interaction identifier ∧
      longer.arguments = String.ofList (identifier.toList ++ trimEnd aside.toList) := by
  intro longer
  obtain ⟨known, scanned⟩ := interaction_of_ofLine read
  have filled : identifier.toList ≠ [] := by simpa using filled
  have trimmed : IsTrimmed identifier.toList := by
    rw [scanned, toList_arguments]
    exact Scan.isTrimmed_identifier (isTrimmed_trim _).head
  have free := blankFree_command line
  have kept := behind.of_prefix (trimEnd_isPrefix aside.toList)
  have source : trim ((ofLine line).command ++ " " ++ identifier ++ aside).toList =
      (ofLine line).command.toList ++ (" ".toList ++ (identifier.toList ++ trimEnd aside.toList)) := by
    have front := (isTrimmed_of_blankFree free).append (ne_nil_of_mem_interactionCommands known)
      " ".toList trimmed filled
    simpa using trim_append (by simp) front aside.toList
  obtain ⟨command, arguments, kind⟩ :=
    ofLine_of_trim source free isGap_blank (trimmed.append_trimEnd filled _)
  refine ⟨command, ?_, arguments⟩
  have again := Scan.identifier_again (ofLine line).arguments.toList kept.unquoted kept.ended kept.loose
  rw [← scanned] at again
  rw [kind, kindOf, if_pos known, again, String.ofList_toList]

end Action

namespace Assertion

theorem check_isValid_congr {first second : Assertion} (identifier : first.identifier = second.identifier)
    (operator : first.operator = second.operator) (value : first.value? = second.value?) :
    first.check.isValid = second.check.isValid := by
  unfold check checkValue
  rw [identifier, operator, value]
  split
  · rfl
  · split
    · split <;> rfl
    · rfl

theorem toList_identifier (line : String) :
    (ofLine line).identifier.toList = (Scan.identifier (trim line.toList)).1 := by
  simp [ofLine]

theorem identifier_ne_nil {line : String} (read : (ofLine line).operator ≠ "") :
    (ofLine line).identifier.toList ≠ [] := by
  have filled : trim line.toList ≠ [] := by
    intro empty
    apply read
    have nothing : Scan.identifier [] = ([], []) := by decide +kernel
    simp [ofLine, empty, nothing, trimStart, Scan.word]
  rw [toList_identifier]
  exact Scan.identifier_ne_nil filled (isTrimmed_trim _).head

theorem isTrimmed_identifier (line : String) : IsTrimmed (ofLine line).identifier.toList := by
  rw [toList_identifier]
  exact Scan.isTrimmed_identifier (isTrimmed_trim _).head

theorem ofLine_aside {line aside : String} (known : (ofLine line).operator ∈ existenceOperators)
    (behind : IsAside aside.toList) :
    let cut := (ofLine line).identifier ++ " " ++ (ofLine line).operator
    let longer := ofLine (cut ++ aside)
    longer.identifier = (ofLine line).identifier ∧ longer.operator = (ofLine line).operator ∧
      longer.value? = (ofLine line).value? := by
  intro cut longer
  have word := isOperator_of_mem (List.mem_append_right _ known)
  obtain ⟨c, rest, shaped, other⟩ := word.starts
  have kept := behind.of_prefix (trimEnd_isPrefix aside.toList)
  have unquoted : '"' ∉ " ".toList ++ ((ofLine line).operator.toList ++ trimEnd aside.toList) := by
    have plain : '"' ∉ (ofLine line).operator.toList := by
      simp only [existenceOperators, List.mem_cons, List.not_mem_nil, or_false] at known
      rcases known with same | same <;> rw [same] <;> decide
    simp [plain, kept.unquoted]
  have loose : ¬ Identifier.joint <+:
      " ".toList ++ ((ofLine line).operator.toList ++ trimEnd aside.toList) := by
    rw [shaped]
    exact Scan.not_joint_prefix isGap_blank.filled isGap_blank.allBlank other _
  have scanned := Scan.identifier_again (trim line.toList) unquoted
    (Scan.isEnd_append isGap_blank.filled isGap_blank.allBlank _) loose
  rw [← toList_identifier] at scanned
  have source : trim (cut ++ aside).toList = (ofLine line).identifier.toList ++
      (" ".toList ++ ((ofLine line).operator.toList ++ trimEnd aside.toList)) := by
    rw [← trim_line (identifier_ne_nil word.ne_empty) (isTrimmed_identifier line) word]
    simp [cut]
  obtain ⟨identifier, operator, value⟩ :=
    ofLine_of_trim source scanned isGap_blank.allBlank word kept.ended
  refine ⟨identifier, operator, ?_⟩
  rw [value, value?_of_existence known, takesValue_of_existence known, if_neg (by decide)]

end Assertion

/-- No check looks behind the identifier of an interaction, or behind an operator that takes no value.
What stands there is a fault only if it is not blank, and then it is accepted or rejected as the line
without it. -/
theorem isValid_ofLine_aside (line : String) :
    (∀ identifier, (Action.ofLine line).kind = .interaction identifier → identifier ≠ "" →
      let command := (Action.ofLine line).command
      ((Action.ofLine line).arguments = identifier ↔
        ConsistsOf line.toList command.toList identifier.toList) ∧
      ∀ aside : String, IsAside aside.toList →
        let longer := Action.ofLine (command ++ " " ++ identifier ++ aside)
        longer.kind = .interaction identifier ∧
          longer.check.isValid = (Action.ofLine line).check.isValid ∧
          (longer.arguments = identifier ↔ AllBlank aside.toList)) ∧
    ((Assertion.ofLine line).operator ∈ Assertion.existenceOperators →
      let identifier := (Assertion.ofLine line).identifier
      let operator := (Assertion.ofLine line).operator
      ∀ aside : String, IsAside aside.toList →
        let text := identifier ++ " " ++ operator ++ aside
        (Assertion.ofLine text).identifier = identifier ∧ (Assertion.ofLine text).operator = operator ∧
          (Assertion.ofLine text).check.isValid = (Assertion.ofLine line).check.isValid ∧
          (ConsistsOf text.toList identifier.toList operator.toList ↔ AllBlank aside.toList)) := by
  constructor
  · intro identifier read filled command
    refine ⟨Action.arguments_eq_iff read, ?_⟩
    intro aside behind longer
    obtain ⟨named, kind, arguments⟩ := Action.ofLine_aside read filled behind
    refine ⟨kind, Action.check_isValid_congr named (kind.trans read.symm), ?_⟩
    rw [arguments, ← String.toList_inj, String.toList_ofList, List.append_right_eq_self]
    exact trimEnd_eq_nil_iff aside.toList
  · intro known identifier operator aside behind text
    obtain ⟨named, same, value⟩ := Assertion.ofLine_aside known behind
    refine ⟨named, same, Assertion.check_isValid_congr named same value, ?_⟩
    have word := Assertion.isOperator_of_mem (List.mem_append_right _ known)
    have parts := consistsOf_append_iff (Assertion.identifier_ne_nil word.ne_empty)
      (Assertion.isTrimmed_identifier line) isGap_blank.allBlank (by simpa using word.ne_empty)
      (isTrimmed_of_blankFree word.free) aside.toList
    simpa [text, identifier, operator] using parts

theorem isValid_ofLine_aside_menu :
    (Action.ofLine "click $\".menu\"").kind = .interaction "$\".menu\"" ∧ IsAside " now".toList ∧
      (Action.ofLine "click $\".menu\" now").check.isValid = true ∧
      (Assertion.ofLine "$\".menu\" exists").operator ∈ Assertion.existenceOperators ∧
      (Assertion.ofLine "$\".menu\" exists now").check.isValid = true := by
  have read : (Action.ofLine "click $\".menu\"").kind = .interaction "$\".menu\"" := by decide +kernel
  have behind : IsAside " now".toList := ⟨by decide, by decide, by decide⟩
  have known : (Assertion.ofLine "$\".menu\" exists").operator ∈ Assertion.existenceOperators := by
    decide +kernel
  have named : (Assertion.ofLine "$\".menu\" exists").identifier = "$\".menu\"" := by decide +kernel
  have operator : (Assertion.ofLine "$\".menu\" exists").operator = "exists" := by decide +kernel
  have clicked := ((isValid_ofLine_aside _).1 _ read (by decide)).2 " now" behind
  have shown := (isValid_ofLine_aside _).2 known " now" behind
  have click : (Action.ofLine "click $\".menu\"").check.isValid = true := by decide +kernel
  have present : (Assertion.ofLine "$\".menu\" exists").check.isValid = true := by decide +kernel
  have valid := shown.2.2.1.trans present
  rw [named, operator] at valid
  exact ⟨read, behind, clicked.2.1.trans click, known, valid⟩

theorem aside_accepted :
    (¬ ∀ line identifier : String, (Action.ofLine line).kind = .interaction identifier →
      (Action.ofLine line).check.isValid = true → (Action.ofLine line).arguments = identifier) ∧
    ¬ ∀ line : String, (Assertion.ofLine line).operator ∈ Assertion.existenceOperators →
      (Assertion.ofLine line).check.isValid = true →
      ConsistsOf line.toList (Assertion.ofLine line).identifier.toList
        (Assertion.ofLine line).operator.toList := by
  constructor
  · intro complete
    have whole := complete "click $\".menu\" now" "$\".menu\"" (by decide +kernel) (by decide +kernel)
    exact absurd whole (by decide +kernel)
  · intro complete
    have whole := complete "$\".menu\" exists now" (by decide +kernel) (by decide +kernel)
    have identifier : (Assertion.ofLine "$\".menu\" exists now").identifier = "$\".menu\"" := by
      decide +kernel
    have operator : (Assertion.ofLine "$\".menu\" exists now").operator = "exists" := by
      decide +kernel
    rw [identifier, operator] at whole
    have parts : ConsistsOf ("$\".menu\"".toList ++ ([' '] ++ ("exists".toList ++ " now".toList)))
        "$\".menu\"".toList "exists".toList ↔ AllBlank " now".toList :=
      consistsOf_append_iff (by decide) (by decide) (by decide) (by decide) (by decide) _
    exact absurd (parts.mp whole) (by decide)

end WebTestLint
