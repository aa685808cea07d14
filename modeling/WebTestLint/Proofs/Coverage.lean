import Mathlib.Data.List.Forall2
import WebTestLint.Test.Check

/-!
What a test needs to be valid. The checks stop at the first failure, and the checks of data meet the
references statement by statement; the predicates of this file say the same of all statements at once,
without an order.
-/

namespace WebTestLint

namespace Verdict

theorem isValid_iff (verdict : Verdict) : verdict.isValid = true ↔ verdict.failure? = none := by
  cases verdict <;> simp [isValid, failure?]

@[simp] theorem isValid_valid (subject : Subject) : (valid subject).isValid = true := rfl

@[simp] theorem isValid_invalid (failure : Failure) : (invalid failure).isValid = false := rfl

end Verdict

def DataSet.Has (dataSet : DataSet) (name : String) : Prop :=
  ∃ parameter ∈ dataSet.parameters, parameter.1 = name

/-- Data covers a parameter if it has a row and each of its rows has the parameter. -/
def Data.Covers (data : Data) (name : String) : Prop :=
  data ≠ [] ∧ ∀ row ∈ data, row.Has name

theorem DataSet.check_isValid_iff (name : String) (dataSet : DataSet) :
    (DataSet.check name dataSet).isValid = true ↔ dataSet.Has name := by
  rw [DataSet.Has, ← DataSet.get?_isSome_iff, DataSet.check]
  split
  · rename_i complete
    simpa [DataSet.hasAll] using complete
  · rename_i incomplete
    simpa [DataSet.hasAll] using incomplete

theorem Data.check_isValid_iff (name : String) (data : Data) :
    (Data.check name data).isValid = true ↔ data.Covers name := by
  have rows : (data.findSome? fun row => (row.check name).failure?) = none ↔
      ∀ row ∈ data, row.Has name := by
    rw [List.findSome?_eq_none_iff]
    constructor
    · intro passed row member
      exact (DataSet.check_isValid_iff name row).mp ((Verdict.isValid_iff _).mpr (passed row member))
    · intro complete row member
      exact (Verdict.isValid_iff _).mp ((DataSet.check_isValid_iff name row).mpr (complete row member))
  by_cases empty : data = []
  · subst empty
    simp [Data.check, Data.Covers]
  · rw [Data.Covers, ← rows, Data.check, if_neg (by simpa using empty)]
    split
    · rename_i found
      simp [found]
    · rename_i passed
      simp [passed, empty]

namespace Assertion

def sides (assertion : Assertion) : List String := assertion.identifier :: assertion.value?.toList

end Assertion

namespace Step

def Covers (step : Step) (name : String) : Prop :=
  ∃ data, step.data? = some data ∧ data.Covers name

/-- Whatever parameter a text refers to is covered. -/
def Resolves (step : Step) (text : String) : Prop :=
  ∀ name, Data.parameterName? text = some name → step.Covers name

structure Acceptable (step : Step) : Prop where
  asserts : step.assertions ≠ []
  actions : ∀ action ∈ step.actions, action.check.isValid = true
  assertions : ∀ assertion ∈ step.assertions, assertion.check.isValid = true
  covered : ∀ name ∈ step.parameterNames, step.Covers name

theorem covers_iff (step : Step) (name : String) :
    step.Covers name ↔ (step.data?.getD []).Covers name := by
  cases data : step.data? with
  | none => simp [Covers, data, Data.Covers]
  | some rows => simp [Covers, data]

theorem hasData_of_covers (step : Step) (name : String) (covered : step.Covers name) :
    step.hasData = true := by
  obtain ⟨data, present, rows, _⟩ := covered
  simpa [hasData, present] using rows

theorem mem_parameterNames (step : Step) (name : String) :
    name ∈ step.parameterNames ↔
      (∃ action ∈ step.actions, ∃ text ∈ action.value?, Data.parameterName? text = some name) ∨
        ∃ assertion ∈ step.assertions, ∃ text ∈ assertion.sides,
          Data.parameterName? text = some name := by
  rw [parameterNames, mem_sortDistinct, List.mem_filterMap]
  simp only [List.mem_append, List.mem_filterMap, List.mem_map, Assertion.sides, List.mem_cons,
    Option.mem_toList, Option.mem_def]
  constructor
  · rintro ⟨text, (⟨action, member, value⟩ | ⟨assertion, member, rfl⟩) | ⟨assertion, member, value⟩,
      named⟩
    · exact Or.inl ⟨action, member, text, value, named⟩
    · exact Or.inr ⟨assertion, member, _, Or.inl rfl, named⟩
    · exact Or.inr ⟨assertion, member, text, Or.inr value, named⟩
  · rintro (⟨action, member, text, value, named⟩ | ⟨assertion, member, text, rfl | value, named⟩)
    · exact ⟨text, Or.inl (Or.inl ⟨action, member, value⟩), named⟩
    · exact ⟨_, Or.inl (Or.inr ⟨assertion, member, rfl⟩), named⟩
    · exact ⟨text, Or.inr ⟨assertion, member, value⟩, named⟩

theorem names_covered_iff (step : Step) :
    (∀ name ∈ step.parameterNames, step.Covers name) ↔
      (∀ action ∈ step.actions, ∀ text ∈ action.value?, step.Resolves text) ∧
        ∀ assertion ∈ step.assertions, ∀ text ∈ assertion.sides, step.Resolves text := by
  simp only [mem_parameterNames]
  constructor
  · intro covered
    constructor
    · intro action member text value name named
      exact covered name (Or.inl ⟨action, member, text, value, named⟩)
    · intro assertion member text side name named
      exact covered name (Or.inr ⟨assertion, member, text, side, named⟩)
  · rintro ⟨values, sides⟩ name (⟨action, member, text, value, named⟩ | ⟨assertion, member, text, side, named⟩)
    · exact values action member text value name named
    · exact sides assertion member text side name named

theorem coverageFailure?_eq_none_iff (step : Step) (statement : Statement) (text : String) :
    step.coverageFailure? statement text = none ↔ step.Resolves text := by
  cases named : Data.parameterName? text with
  | none => simp [coverageFailure?, Resolves, named]
  | some name =>
      have covered : ((step.data?.getD []).check name).failure? = none ↔ step.Covers name := by
        rw [covers_iff, ← Data.check_isValid_iff, Verdict.isValid_iff]
      have needed : step.Resolves text ↔ step.Covers name := by simp [Resolves, named]
      rw [needed, ← covered, Option.eq_none_iff_forall_ne_some (o := Verdict.failure? _)]
      simp [coverageFailure?, named]

theorem actionFailure?_eq_none_iff (step : Step) (action : Action) :
    step.actionFailure? action = none ↔
      action.check.isValid = true ∧ ∀ text ∈ action.value?, step.Resolves text := by
  rw [actionFailure?]
  cases checked : action.check with
  | invalid cause => simp
  | valid subject =>
      simp only [Option.bind_eq_none_iff, coverageFailure?_eq_none_iff, Option.mem_def,
        Verdict.isValid_valid, true_and]

theorem assertionFailure?_eq_none_iff (step : Step) (assertion : Assertion) :
    step.assertionFailure? assertion = none ↔
      assertion.check.isValid = true ∧ ∀ text ∈ assertion.sides, step.Resolves text := by
  rw [assertionFailure?]
  cases checked : assertion.check with
  | invalid cause => simp
  | valid subject =>
      simp only [List.findSome?_eq_none_iff, coverageFailure?_eq_none_iff, Verdict.isValid_valid,
        true_and]
      rfl

theorem hasData_of_names_covered (step : Step)
    (covered : ∀ name ∈ step.parameterNames, step.Covers name) :
    (!step.parameterNames.isEmpty && !step.hasData) = false := by
  cases names : step.parameterNames with
  | nil => rfl
  | cons name rest =>
      have first : step.Covers name := covered name (by simp [names])
      simp [step.hasData_of_covers name first]

theorem check_isValid_iff (step : Step) : step.check.isValid = true ↔ step.Acceptable := by
  have failed : step.check.isValid = true ↔ step.failure? = none := by
    rw [check]
    cases step.failure? <;> simp
  rw [failed, failure?]
  constructor
  · intro passed
    split at passed
    · simp at passed
    · rename_i asserts
      split at passed
      · simp at passed
      · simp only [Option.or_eq_none_iff, List.findSome?_eq_none_iff, actionFailure?_eq_none_iff,
          assertionFailure?_eq_none_iff] at passed
        obtain ⟨actions, assertions⟩ := passed
        refine ⟨by simpa using asserts, ?_, ?_, ?_⟩
        · exact fun action member => (actions action member).1
        · exact fun assertion member => (assertions assertion member).1
        · rw [names_covered_iff]
          exact ⟨fun action member => (actions action member).2,
            fun assertion member => (assertions assertion member).2⟩
  · intro accepted
    obtain ⟨values, sides⟩ := step.names_covered_iff.mp accepted.covered
    -- The guard on missing data fails no step that the statements would let pass.
    rw [if_neg (by simpa using accepted.asserts),
      if_neg (by simp [step.hasData_of_names_covered accepted.covered])]
    simp only [Option.or_eq_none_iff, List.findSome?_eq_none_iff, actionFailure?_eq_none_iff,
      assertionFailure?_eq_none_iff]
    exact ⟨fun action member => ⟨accepted.actions action member, values action member⟩,
      fun assertion member => ⟨accepted.assertions assertion member, sides assertion member⟩⟩

end Step

end WebTestLint
