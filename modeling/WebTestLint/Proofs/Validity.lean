import Mathlib.Data.List.Forall2
import WebTestLint.Proofs.Coverage
import WebTestLint.Statement.Parse

/-!
Which tests are valid, and that the order in which they list things does not matter.
-/

namespace WebTestLint

namespace Configuration

structure Acceptable (configuration : Configuration) : Prop where
  browser : trim configuration.browser.toList ≠ []
  url : trim configuration.url.toList ≠ []
  resolved : Identifier.isPageUrl (trim configuration.url.toList) = false

theorem check_isValid_iff (configuration : Configuration) :
    configuration.check.isValid = true ↔ configuration.Acceptable := by
  have passed : configuration.check.isValid = true ↔ configuration.fault? = none := by
    rw [check]
    cases configuration.fault? <;> simp
  rw [passed, fault?]
  constructor
  · intro faultless
    split at faultless
    · simp at faultless
    · rename_i browser
      split at faultless
      · simp at faultless
      · rename_i url
        split at faultless
        · simp at faultless
        · rename_i resolved
          exact ⟨by simpa using browser, by simpa using url, by simpa using resolved⟩
  · rintro ⟨browser, url, resolved⟩
    simp [browser, url, resolved]

end Configuration

namespace Step

structure Reordered (step other : Step) : Prop where
  actions : step.actions.Perm other.actions
  assertions : step.assertions.Perm other.assertions
  rows : Option.Rel List.Perm step.data? other.data?

theorem Reordered.covers {step other : Step} (reordered : step.Reordered other) (name : String) :
    step.Covers name ↔ other.Covers name := by
  have rows := reordered.rows
  rw [covers_iff, covers_iff]
  generalize step.data? = data, other.data? = moved at rows ⊢
  cases rows with
  | none => rfl
  | some same =>
      simp only [Option.getD_some, Data.Covers, ne_eq, same.mem_iff]
      rw [← List.length_eq_zero_iff, same.length_eq, List.length_eq_zero_iff]

theorem Reordered.parameterNames {step other : Step} (reordered : step.Reordered other)
    (name : String) : name ∈ step.parameterNames ↔ name ∈ other.parameterNames := by
  simp only [mem_parameterNames, reordered.actions.mem_iff, reordered.assertions.mem_iff]

theorem Reordered.symm {step other : Step} (reordered : step.Reordered other) :
    other.Reordered step := by
  refine ⟨reordered.actions.symm, reordered.assertions.symm, ?_⟩
  have rows := reordered.rows
  generalize step.data? = data, other.data? = moved at rows ⊢
  cases rows with
  | none => exact Option.Rel.none
  | some same => exact Option.Rel.some same.symm

theorem Reordered.acceptable_of_acceptable {step other : Step} (reordered : step.Reordered other)
    (accepted : step.Acceptable) : other.Acceptable := by
  refine ⟨?_, ?_, ?_, ?_⟩
  · intro empty
    exact accepted.asserts (List.Perm.eq_nil (empty ▸ reordered.assertions))
  · intro action member
    exact accepted.actions action (reordered.actions.mem_iff.mpr member)
  · intro assertion member
    exact accepted.assertions assertion (reordered.assertions.mem_iff.mpr member)
  · intro name member
    have covered := accepted.covered name ((reordered.parameterNames name).mpr member)
    exact (reordered.covers name).mp covered

theorem Reordered.acceptable {step other : Step} (reordered : step.Reordered other) :
    step.Acceptable ↔ other.Acceptable :=
  ⟨reordered.acceptable_of_acceptable, reordered.symm.acceptable_of_acceptable⟩

end Step

namespace Test

structure Acceptable (test : Test) : Prop where
  configuration : test.configuration.Acceptable
  steps : test.steps ≠ []
  each : ∀ entry ∈ test.steps, entry.2.Acceptable

/-- Two tests with one configuration that list the same named steps, up to the order within a step. -/
structure Reordered (test other : Test) : Prop where
  configuration : test.configuration = other.configuration
  steps : ∃ moved, test.steps.Perm moved ∧
    List.Forall₂ (fun first second => first.1 = second.1 ∧ first.2.Reordered second.2) moved other.steps

theorem stepFailure?_eq_none_iff (test : Test) (entry : String × Step) :
    test.stepFailure? entry = none ↔ entry.2.Acceptable := by
  rw [← Step.check_isValid_iff, Verdict.isValid_iff,
    Option.eq_none_iff_forall_ne_some (o := Verdict.failure? _)]
  simp [stepFailure?]

theorem check_isValid_iff (test : Test) : test.check.isValid = true ↔ test.Acceptable := by
  have each : test.steps.findSome? test.stepFailure? = none ↔
      ∀ entry ∈ test.steps, entry.2.Acceptable := by
    simp only [List.findSome?_eq_none_iff, stepFailure?_eq_none_iff]
  rw [check]
  cases checked : test.configuration.check with
  | invalid cause =>
      have refused : ¬ test.configuration.Acceptable := by
        rw [← Configuration.check_isValid_iff, checked]
        simp
      simpa using fun accepted : test.Acceptable => refused accepted.configuration
  | valid subject =>
      have configured : test.configuration.Acceptable := by
        rw [← Configuration.check_isValid_iff, checked]
        rfl
      by_cases empty : test.steps = []
      · simpa [empty] using fun accepted : test.Acceptable => accepted.steps empty
      · simp only [List.isEmpty_iff, empty, ↓reduceIte]
        cases found : test.steps.findSome? test.stepFailure? with
        | none => simpa using ⟨configured, empty, each.mp found⟩
        | some failure =>
            simp only [Verdict.isValid_invalid, Bool.false_eq_true, false_iff]
            intro accepted
            rw [each.mpr accepted.each] at found
            simp at found

theorem acceptable_of_forall₂ {entries others : List (String × Step)}
    (paired : List.Forall₂ (fun first second => first.1 = second.1 ∧ first.2.Reordered second.2)
      entries others) :
    (∀ entry ∈ entries, entry.2.Acceptable) ↔ ∀ entry ∈ others, entry.2.Acceptable := by
  induction paired with
  | nil => simp
  | cons same _ ih => simp only [List.forall_mem_cons, ih, same.2.acceptable]

theorem Reordered.acceptable {test other : Test} (reordered : test.Reordered other) :
    test.Acceptable ↔ other.Acceptable := by
  obtain ⟨moved, permuted, paired⟩ := reordered.steps
  have each : (∀ entry ∈ test.steps, entry.2.Acceptable) ↔ ∀ entry ∈ other.steps, entry.2.Acceptable := by
    rw [← acceptable_of_forall₂ paired]
    simp only [permuted.mem_iff]
  have count : test.steps.length = other.steps.length := permuted.length_eq.trans paired.length_eq
  have nonempty : test.steps ≠ [] ↔ other.steps ≠ [] := by
    rw [ne_eq, ne_eq, ← List.length_eq_zero_iff, count, List.length_eq_zero_iff]
  constructor
  · rintro ⟨configuration, steps, all⟩
    exact ⟨reordered.configuration ▸ configuration, nonempty.mp steps, each.mp all⟩
  · rintro ⟨configuration, steps, all⟩
    exact ⟨reordered.configuration ▸ configuration, nonempty.mpr steps, each.mpr all⟩

/-- A test is valid exactly when its configuration is complete, it has steps, and each step asserts
something, has valid statements and covers all names that it refers to. So no reordering of steps,
actions, assertions or rows changes the verdict. -/
theorem isValid_iff_acceptable_and_reordering (test : Test) :
    (test.check.isValid = true ↔ test.Acceptable) ∧
      ∀ other, test.Reordered other → other.check.isValid = test.check.isValid := by
  refine ⟨test.check_isValid_iff, ?_⟩
  intro other reordered
  rw [Bool.eq_iff_iff, check_isValid_iff, check_isValid_iff]
  exact reordered.acceptable.symm

def greeting (rows : Data) : Test where
  configuration := ⟨"firefox", "http://localhost"⟩
  steps := [("greet",
    { actions := [Action.ofLine "set $\".name\" to $data.name", Action.ofLine "click $\".send\""]
      assertions := [Assertion.ofLine "$\".form\" >> $\".greeting\" is $data.greeting"]
      data? := some rows })]

def greetingRows : Data :=
  [⟨"ann", [("name", "Ann"), ("greeting", "Hello Ann")]⟩,
    ⟨"bob", [("greeting", "Hello Bob"), ("name", "Bob")]⟩]

theorem isValid_greeting_reversed :
    (greeting greetingRows).Reordered (greeting greetingRows.reverse) ∧
      (greeting greetingRows).Acceptable ∧
      (greeting greetingRows.reverse).check.isValid = true := by
  have reordered : (greeting greetingRows).Reordered (greeting greetingRows.reverse) := by
    refine ⟨rfl, _, List.Perm.refl _, ?_⟩
    refine List.Forall₂.cons ⟨rfl, List.Perm.refl _, List.Perm.refl _, ?_⟩ List.Forall₂.nil
    exact Option.Rel.some greetingRows.reverse_perm.symm
  have checked : (greeting greetingRows).check.isValid = true := by decide +kernel
  refine ⟨reordered, (isValid_iff_acceptable_and_reordering _).1.mp checked, ?_⟩
  rw [(isValid_iff_acceptable_and_reordering _).2 _ reordered, checked]

end Test

end WebTestLint
