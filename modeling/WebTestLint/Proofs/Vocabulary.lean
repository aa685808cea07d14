import WebTestLint.Proofs.Diagnosis

/-!
The words that statements are made of. The reader of a line and its checks have lists of their own,
and no line is read as one thing and checked as another.
-/

namespace WebTestLint

def Verdict.reason? (verdict : Verdict) : Option Reason := verdict.failure?.map (·.link.reason)

theorem Verdict.exists_failure_of_reason? {verdict : Verdict} {reason : Reason}
    (reported : verdict.reason? = some reason) :
    ∃ failure, verdict = .invalid failure ∧ failure.link.reason = reason := by
  obtain ⟨failure, found, same⟩ := Option.map_eq_some_iff.mp reported
  exact ⟨failure, (failure?_eq_some_iff _ _).mp found, same⟩

/-- The word that a line starts with: all of the trimmed line up to its first blank. -/
structure StartsWith (line word : String) : Prop where
  free : BlankFree word.toList
  append : ∃ rest, trim line.toList = word.toList ++ rest ∧ Scan.IsEnd rest

namespace Action

theorem startsWith_iff (line word : String) : StartsWith line word ↔ word = (ofLine line).command := by
  constructor
  · rintro ⟨free, rest, whole, ended⟩
    simp [ofLine, whole, Scan.word_append_of_isEnd free ended]
  · rintro rfl
    exact ⟨blankFree_command line, _, toList_line line, Scan.isEnd_word _⟩

theorem kindOf_eq_unknown_iff (command : String) (arguments : List Char) :
    kindOf command arguments = .unknown ↔ command ∉ commands := by
  constructor
  · intro read known
    simp only [commands, List.mem_cons, List.not_mem_nil, or_false] at known
    rcases known with rfl | rfl | rfl | rfl | rfl | rfl | rfl | rfl <;>
      simp [kindOf, interactionCommands, bareCommands] at read
  · intro unknown
    have parts : command ∉ interactionCommands ∧ command ≠ "set" ∧ command ≠ "wait" ∧
        command ∉ bareCommands := by
      simp only [commands, interactionCommands, bareCommands, List.mem_cons, List.not_mem_nil,
        or_false, not_or] at unknown ⊢
      tauto
    simp [kindOf, parts]

theorem kind_eq_unknown_iff (line : String) :
    (ofLine line).kind = .unknown ↔ (ofLine line).command ∉ commands := by
  rw [kind_eq_kindOf, kindOf_eq_unknown_iff]

theorem check_of_target {action : Action} (target : action.hasTarget = true)
    (sound : ∀ text ∈ action.checkedValue?, (Value.check text).isValid = true) :
    action.check = action.checkCommand := by
  rw [check, target]
  cases read : action.checkedValue? with
  | none => rfl
  | some text =>
      have passed := sound text (by simp [read])
      cases found : Value.check text with
      | valid subject => simp [found]
      | invalid cause => simp [found, Verdict.isValid] at passed

theorem isValid_check_of_mem {action : Action} (target : action.hasTarget = true)
    (sound : ∀ text ∈ action.checkedValue?, (Value.check text).isValid = true)
    (known : action.command ∈ commands) : action.check.isValid = true := by
  rw [check_of_target target sound, checkCommand, if_pos known]
  rfl

theorem reason?_check_iff (line : String) :
    (ofLine line).check.reason? = some .actionInvalidType ↔ (ofLine line).kind = .unknown := by
  constructor
  · intro reported
    obtain ⟨failure, failed, same⟩ := Verdict.exists_failure_of_reason? reported
    cases reports_of_check failed with
    | identifier | value | duration => simp [Failure.link] at same
    | command unknown => exact (kind_eq_unknown_iff line).mpr unknown
  · intro kind
    -- The command is looked at last, but a line with an unknown one carries nothing else to look at.
    have unknown := (kind_eq_unknown_iff line).mp kind
    have target : (ofLine line).hasTarget = true := by simp [hasTarget, identifier?, kind]
    rw [check_of_target target (by simp [checkedValue?, kind]), checkCommand, if_neg unknown]
    rfl

theorem isValid_check_of_bare {line : String} (bare : (ofLine line).command ∈ bareCommands) :
    (ofLine line).check.isValid = true := by
  have kind : (ofLine line).kind = .noArguments := by
    rw [kind_eq_kindOf]
    generalize (ofLine line).command = command at bare
    simp only [bareCommands, List.mem_cons, List.not_mem_nil, or_false] at bare
    rcases bare with rfl | rfl | rfl <;> rfl
  have known : (ofLine line).command ∈ commands := by
    by_contra unknown
    simp [(kind_eq_unknown_iff line).mpr unknown] at kind
  exact isValid_check_of_mem (by simp [hasTarget, identifier?, kind]) (by simp [checkedValue?, kind]) known

theorem isValid_check_of_digits {line : String} (waits : (ofLine line).command = "wait")
    (digits : Identifier.isDigits (ofLine line).arguments.toList = true) :
    (ofLine line).check.isValid = true := by
  have kind : (ofLine line).kind = .wait (ofLine line).arguments := by
    rw [kind_eq_kindOf, waits]
    simp [kindOf, interactionCommands]
  have passed : (Value.check (durationValue (ofLine line).arguments)).isValid = true := by
    rw [Value.check, fault?_durationValue digits]
    rfl
  apply isValid_check_of_mem (by simp [hasTarget, identifier?, kind])
  · simpa [checkedValue?, kind] using passed
  · rw [waits]
    decide

end Action

namespace Assertion

theorem mem_operators_iff (operator : String) :
    operator ∈ operators ↔ operator ∈ comparisonOperators ∨ operator ∈ existenceOperators := by
  simp only [operators, comparisonOperators, existenceOperators, List.mem_cons, List.not_mem_nil, or_false]
  tauto

theorem isSome_value?_iff {line : String} (known : (ofLine line).operator ∈ operators) :
    (ofLine line).value?.isSome = true ↔ (ofLine line).operator ∈ comparisonOperators := by
  constructor
  · intro present
    rcases (mem_operators_iff _).mp known with comparison | existence
    · exact comparison
    · simp [value?_of_existence existence] at present
  · exact value?_of_comparison

theorem value?_eq_none_iff {line : String} (known : (ofLine line).operator ∈ operators) :
    (ofLine line).value? = none ↔ (ofLine line).operator ∈ existenceOperators := by
  constructor
  · intro absent
    rcases (mem_operators_iff _).mp known with comparison | existence
    · have present := value?_of_comparison comparison
      simp [absent] at present
    · exact existence
  · exact value?_of_existence

theorem reason?_checkValue (assertion : Assertion) :
    assertion.checkValue.reason? = none ∨
      assertion.checkValue.reason? = some .assertionInvalidValue := by
  unfold checkValue
  split
  · exact Or.inr rfl
  · exact Or.inl rfl

theorem reason?_check_iff (assertion : Assertion) :
    assertion.check.reason? = some .assertionInvalidOperator ↔
      (Value.checkContent assertion.identifier).isValid = true ∧ assertion.operator ∉ operators := by
  unfold check
  -- The operator is looked at behind the identifier and before the value.
  cases Value.checkContent assertion.identifier with
  | invalid cause => simp [Verdict.reason?, Verdict.failure?, Verdict.isValid, Failure.causedBy,
      Failure.link, failure, Failure.of]
  | valid subject =>
      by_cases known : assertion.operator ∈ operators
      · have other : assertion.checkValue.reason? ≠ some .assertionInvalidOperator := by
          rcases reason?_checkValue assertion with passed | refused
          · simp [passed]
          · simp [refused]
        simp [known, other]
      · simp [known, Verdict.isValid, Verdict.reason?, Verdict.failure?, failure, Failure.of,
          Failure.setContext, Failure.link]

theorem mem_operators_of_isValid {assertion : Assertion} (accepted : assertion.check.isValid = true) :
    assertion.operator ∈ operators := by
  by_contra unknown
  unfold check at accepted
  split at accepted
  · simp [Verdict.isValid] at accepted
  · rw [if_neg unknown] at accepted
    simp [Verdict.isValid] at accepted

end Assertion

/-- The reader and the checks agree on the words of every line. A command that the reader does not know
is the one fault of its line, and an operator that is not known is reported unless the identifier in
front of it is at fault. -/
theorem reasons_and_words (line : String) :
    (let action := Action.ofLine line
     (action.check.reason? = some .actionInvalidType ↔ action.kind = .unknown) ∧
     (action.kind = .unknown ↔ ∀ word ∈ ["click", "set", "submit", "wait", "wait-for", "back",
       "forward", "reload"], ¬ StartsWith line word) ∧
     (∀ word ∈ ["back", "forward", "reload"], StartsWith line word → action.check.isValid = true) ∧
     (StartsWith line "wait" → Identifier.isDigits action.arguments.toList = true →
       action.check.isValid = true)) ∧
    (let assertion := Assertion.ofLine line
     (assertion.check.isValid = true →
       (assertion.value?.isSome = true ↔
         assertion.operator ∈ ["is", "is-not", "includes", "excludes", "matches"]) ∧
       (assertion.value? = none ↔ assertion.operator ∈ ["exists", "not-exists"])) ∧
     (assertion.check.reason? = some .assertionInvalidOperator ↔
       (Value.checkContent assertion.identifier).isValid = true ∧
         assertion.operator ∉
           ["is", "is-not", "exists", "not-exists", "includes", "excludes", "matches"])) := by
  refine ⟨⟨Action.reason?_check_iff line, ?_, ?_, ?_⟩, ?_, Assertion.reason?_check_iff _⟩
  · rw [Action.kind_eq_unknown_iff]
    constructor
    · rintro unknown word member starts
      exact unknown ((Action.startsWith_iff line word).mp starts ▸ member)
    · intro other known
      exact other _ known ((Action.startsWith_iff line _).mpr rfl)
  · intro word member starts
    exact Action.isValid_check_of_bare ((Action.startsWith_iff line word).mp starts ▸ member)
  · intro starts digits
    exact Action.isValid_check_of_digits ((Action.startsWith_iff line "wait").mp starts).symm digits
  · intro accepted
    have known := Assertion.mem_operators_of_isValid accepted
    exact ⟨Assertion.isSome_value?_iff known, Assertion.value?_eq_none_iff known⟩

theorem reasons_and_words_wait :
    StartsWith " reload now" "reload" ∧ (Action.ofLine " reload now").check.isValid = true ∧
      StartsWith "wait\t10" "wait" ∧ (Action.ofLine "wait\t10").check.isValid = true ∧
      (Assertion.ofLine "$\".a\" is \"x\"").check.isValid = true ∧
      (Assertion.ofLine "$\".a\" is \"x\"").value?.isSome = true := by
  have reloads : StartsWith " reload now" "reload" :=
    ⟨by decide, " now".toList, by decide +kernel, by decide⟩
  have waits : StartsWith "wait\t10" "wait" := ⟨by decide, "\t10".toList, by decide +kernel, by decide⟩
  have accepted : (Assertion.ofLine "$\".a\" is \"x\"").check.isValid = true := by decide +kernel
  have bare := (reasons_and_words " reload now").1.2.2.1 "reload" (by decide) reloads
  have patient := (reasons_and_words "wait\t10").1.2.2.2 waits (by decide +kernel)
  have compared := ((reasons_and_words "$\".a\" is \"x\"").2.1 accepted).1
  exact ⟨reloads, bare, waits, patient, accepted, compared.mpr (by decide +kernel)⟩

end WebTestLint
