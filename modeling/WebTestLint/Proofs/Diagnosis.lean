import WebTestLint.Proofs.Form
import WebTestLint.Proofs.Literal

/-!
What a failed check reports. For each part of a test, a relation lists the failures that its check can
report: where the failure stands, what it says there, and which check of which part gave its cause.
-/

namespace WebTestLint

namespace Verdict

theorem failure?_eq_some_iff (verdict : Verdict) (failure : Failure) :
    verdict.failure? = some failure ↔ verdict = .invalid failure := by
  cases verdict <;> simp [failure?]

end Verdict

namespace Value

inductive Reports (value : String) : Failure → Prop
  | fault {reason : Reason} : fault? value = some reason →
      Reports value (.root ⟨.value value, .value, reason, []⟩)

theorem reports_of_check {value : String} {failure : Failure} (failed : check value = .invalid failure) :
    Reports value failure := by
  rw [check] at failed
  split at failed
  · simp at failed
  · rename_i reason found
    obtain rfl := Verdict.invalid.inj failed
    exact Reports.fault found

theorem check_of_checkContent {content : String} {failure : Failure}
    (failed : checkContent content = .invalid failure) : check content = .invalid failure := by
  rw [checkContent] at failed
  split at failed
  · simp at failed
  · exact failed

theorem isLiteral_quoted {text : List Char} (plain : '\\' ∉ text) :
    isLiteral ('"' :: (text ++ ['"'])) = true := by
  have trimmed : IsTrimmed (['"'] ++ text ++ ['"']) :=
    (isTrimmed_of_blankFree (by decide)).append (by simp) text (isTrimmed_of_blankFree (by decide))
      (by simp)
  have kept : trim ('"' :: (text ++ ['"'])) = '"' :: (text ++ ['"']) := trim_of_isTrimmed trimmed
  exact (isLiteral_iff _).mpr ⟨text ++ ['"'], text, kept, rfl, escapes_of_plain plain⟩

end Value

namespace Action

theorem fault?_durationValue {duration : String} (digits : Identifier.isDigits duration.toList = true) :
    Value.fault? (durationValue duration) = none := by
  have plain : '\\' ∉ duration.toList := by
    intro member
    have digit := (Bool.and_eq_true_iff.mp digits).2
    simpa using List.all_eq_true.mp digit '\\' member
  have literal : Value.isLiteral (durationValue duration).toList = true := by
    simpa [durationValue, digits, Subject.quoted] using Value.isLiteral_quoted plain
  exact Value.fault?_of_sound (show Value.Form.literal ∈ Value.Form.sound by decide) literal

theorem check_of_durationValue {duration : String} {failure : Failure}
    (failed : Value.check (durationValue duration) = .invalid failure) :
    Value.check duration = .invalid failure := by
  by_cases digits : Identifier.isDigits duration.toList = true
  · simp [Value.check, fault?_durationValue digits] at failed
  · simpa [durationValue, digits] using failed

inductive Reports (action : Action) : Failure → Prop
  | identifier : action.hasTarget = false →
      Reports action (.root ⟨.action action, .action, .actionInvalidIdentifier, []⟩)
  | command : action.command ∉ commands →
      Reports action (.root ⟨.action action, .action, .actionInvalidType, []⟩)
  | value {text : String} {cause : Failure} : action.value? = some text →
      Value.check text = .invalid cause → Value.Reports text cause →
      Reports action (.caused ⟨.action action, .action, .actionInvalidValue, []⟩ cause)
  | duration {text : String} {cause : Failure} : action.duration? = some text →
      Value.check text = .invalid cause → Value.Reports text cause →
      Reports action (.caused ⟨.action action, .action, .actionInvalidValue, []⟩ cause)

theorem reports_of_checkedValue? {action : Action} {text : String} {cause : Failure}
    (read : action.checkedValue? = some text) (failed : Value.check text = .invalid cause) :
    action.Reports (.caused ⟨.action action, .action, .actionInvalidValue, []⟩ cause) := by
  cases kind : action.kind with
  | input identifier value =>
      obtain rfl : value = text := by simpa [checkedValue?, kind] using read
      exact Reports.value (by simp [value?, kind]) failed (Value.reports_of_check failed)
  | wait duration =>
      obtain rfl : durationValue duration = text := by simpa [checkedValue?, kind] using read
      have unquoted := check_of_durationValue failed
      exact Reports.duration (by simp [duration?, kind]) unquoted (Value.reports_of_check unquoted)
  | interaction | noArguments | unknown => simp [checkedValue?, kind] at read

theorem reports_of_check {action : Action} {failure : Failure}
    (failed : action.check = .invalid failure) : action.Reports failure := by
  rw [check] at failed
  split at failed
  · rename_i untargeted
    obtain rfl := Verdict.invalid.inj failed
    exact Reports.identifier (by simpa using untargeted)
  · split at failed
    · rename_i cause refused
      obtain ⟨text, read, valueFailed⟩ := Option.map_eq_some_iff.mp refused
      obtain rfl := Verdict.invalid.inj failed
      exact reports_of_checkedValue? read valueFailed
    · rw [checkCommand] at failed
      split at failed
      · simp at failed
      · rename_i unknown
        obtain rfl := Verdict.invalid.inj failed
        exact Reports.command unknown

end Action

namespace Assertion

inductive Reports (assertion : Assertion) : Failure → Prop
  | operator : assertion.operator ∉ operators →
      Reports assertion (.root ⟨.assertion assertion, .assertion, .assertionInvalidOperator,
        [("operator", .text assertion.operator)]⟩)
  | identifier {cause : Failure} :
      Value.checkContent assertion.identifier = .invalid cause →
      Value.Reports assertion.identifier cause →
      Reports assertion (.caused ⟨.assertion assertion, .assertion, .assertionInvalidIdentifier, []⟩
        cause)
  | value {text : String} {cause : Failure} : assertion.value? = some text →
      Value.checkContent text = .invalid cause → Value.Reports text cause →
      Reports assertion (.caused ⟨.assertion assertion, .assertion, .assertionInvalidValue, []⟩ cause)

theorem reports_of_checkContent {content : String} {failure : Failure}
    (failed : Value.checkContent content = .invalid failure) : Value.Reports content failure :=
  Value.reports_of_check (Value.check_of_checkContent failed)

theorem reports_of_checkValue {assertion : Assertion} {failure : Failure}
    (failed : assertion.checkValue = .invalid failure) : assertion.Reports failure := by
  rw [checkValue] at failed
  split at failed
  · rename_i cause refused
    obtain ⟨text, read, valueFailed⟩ := Option.map_eq_some_iff.mp refused
    obtain rfl := Verdict.invalid.inj failed
    exact Reports.value read valueFailed (reports_of_checkContent valueFailed)
  · simp at failed

theorem reports_of_check {assertion : Assertion} {failure : Failure}
    (failed : assertion.check = .invalid failure) : assertion.Reports failure := by
  rw [check] at failed
  split at failed
  · rename_i cause refused
    obtain rfl := Verdict.invalid.inj failed
    exact Reports.identifier refused (reports_of_checkContent refused)
  · split at failed
    · exact reports_of_checkValue failed
    · rename_i unknown
      obtain rfl := Verdict.invalid.inj failed
      exact Reports.operator unknown

end Assertion

inductive DataSet.Reports (name : String) (row : DataSet) : Failure → Prop
  | incomplete : ¬ row.Has name →
      Reports name row (.root ⟨.dataSet row, .dataSet, .dataSetIncomplete,
        [("data-parameter-name", .text name)]⟩)

theorem DataSet.reports_of_check {name : String} {row : DataSet} {failure : Failure}
    (failed : row.check name = .invalid failure) : row.Reports name failure := by
  have lacks : ¬ row.Has name := by
    rw [← check_isValid_iff, failed]
    simp
  rw [check] at failed
  split at failed
  · simp at failed
  · obtain rfl := Verdict.invalid.inj failed
    exact Reports.incomplete lacks

namespace Data

/-- The rows before the one that is reported have the parameter. -/
inductive Reports (name : String) (data : Data) : Failure → Prop
  | row {before after : Data} {row : DataSet} {cause : Failure} :
      data = before ++ row :: after → (∀ earlier ∈ before, earlier.Has name) →
      row.check name = .invalid cause → row.Reports name cause →
      Reports name data (.caused ⟨.data data, .data, .dataDataSetInvalid, []⟩ cause)

theorem reports_of_check {name : String} {data : Data} {failure : Failure} (filled : data ≠ [])
    (failed : data.check name = .invalid failure) : data.Reports name failure := by
  rw [check, if_neg (by simpa using filled)] at failed
  split at failed
  · rename_i cause found
    obtain rfl := Verdict.invalid.inj failed
    obtain ⟨before, row, after, split, refused, passed⟩ := List.findSome?_eq_some_iff.mp found
    have rowFailed := (Verdict.failure?_eq_some_iff _ _).mp refused
    refine Reports.row split ?_ rowFailed (DataSet.reports_of_check rowFailed)
    intro earlier member
    rw [← DataSet.check_isValid_iff, Verdict.isValid_iff]
    exact passed earlier member
  · simp at failed

end Data

namespace Step

inductive Reports (step : Step) : Failure → Prop
  | noAssertions : step.assertions = [] →
      Reports step (.root ⟨.step step, .step, .stepNoAssertions, []⟩)
  | dataSetEmpty : step.hasData = false →
      Reports step (.root ⟨.step step, .step, .stepDataSetEmpty, []⟩)
  | action {action : Action} {cause : Failure} : action ∈ step.actions →
      action.check = .invalid cause → action.Reports cause →
      Reports step (.caused ⟨.step step, .step, .stepInvalidAction, []⟩ cause)
  | assertion {assertion : Assertion} {cause : Failure} : assertion ∈ step.assertions →
      assertion.check = .invalid cause → assertion.Reports cause →
      Reports step (.caused ⟨.step step, .step, .stepInvalidAssertion, []⟩ cause)
  | data {data : Data} {statement : Statement} {text name : String} {cause : Failure} :
      step.data? = some data → statement ∈ step.statements → text ∈ statement.texts →
      Data.parameterName? text = some name → data.check name = .invalid cause →
      data.Reports name cause →
      Reports step (.caused ⟨.step step, .step, .stepDataInvalid,
        [("statement", .statement statement)]⟩ cause)

def IsGuarded (step : Step) : Prop := step.parameterNames ≠ [] → step.hasData = true

theorem exists_data_of_mem_parameterNames {step : Step} {name : String} (guarded : step.IsGuarded)
    (member : name ∈ step.parameterNames) : ∃ data, step.data? = some data ∧ data ≠ [] := by
  have filled := guarded (List.ne_nil_of_mem member)
  cases present : step.data? with
  | none => simp [hasData, present] at filled
  | some data => exact ⟨data, rfl, by simpa [hasData, present] using filled⟩

theorem reports_of_coverageFailure? {step : Step} {statement : Statement} {text : String}
    {failure : Failure} (guarded : step.IsGuarded) (listed : statement ∈ step.statements)
    (read : text ∈ statement.texts)
    (counted : ∀ name, Data.parameterName? text = some name → name ∈ step.parameterNames)
    (failed : step.coverageFailure? statement text = some failure) : step.Reports failure := by
  simp only [coverageFailure?, Option.bind_eq_bind, Option.bind_eq_some_iff, Option.pure_def,
    Option.some.injEq, Verdict.failure?_eq_some_iff] at failed
  obtain ⟨name, named, cause, refused, rfl⟩ := failed
  -- The guard has counted the name, so there are rows, and the check of data stops at one of them.
  obtain ⟨data, present, filled⟩ := exists_data_of_mem_parameterNames guarded (counted name named)
  rw [present, Option.getD_some] at refused
  exact Reports.data present listed read named refused (Data.reports_of_check filled refused)

theorem reports_of_actionFailure? {step : Step} {action : Action} {failure : Failure}
    (guarded : step.IsGuarded) (member : action ∈ step.actions)
    (failed : step.actionFailure? action = some failure) : step.Reports failure := by
  rw [actionFailure?] at failed
  split at failed
  · rename_i cause refused
    obtain rfl := Option.some.inj failed
    exact Reports.action member refused (Action.reports_of_check refused)
  · obtain ⟨text, value, uncovered⟩ := Option.bind_eq_some_iff.mp failed
    refine reports_of_coverageFailure? guarded ?_ ?_ ?_ uncovered
    · simp [statements, member]
    · simp [Statement.texts, value]
    · intro name named
      exact (step.mem_parameterNames name).mpr (Or.inl ⟨action, member, text, value, named⟩)

theorem reports_of_assertionFailure? {step : Step} {assertion : Assertion} {failure : Failure}
    (guarded : step.IsGuarded) (member : assertion ∈ step.assertions)
    (failed : step.assertionFailure? assertion = some failure) : step.Reports failure := by
  rw [assertionFailure?] at failed
  split at failed
  · rename_i cause refused
    obtain rfl := Option.some.inj failed
    exact Reports.assertion member refused (Assertion.reports_of_check refused)
  · obtain ⟨text, side, uncovered⟩ := List.exists_of_findSome?_eq_some failed
    refine reports_of_coverageFailure? guarded ?_ side ?_ uncovered
    · simp [statements, member]
    · intro name named
      exact (step.mem_parameterNames name).mpr (Or.inr ⟨assertion, member, text, side, named⟩)

theorem reports_of_failure? {step : Step} {failure : Failure}
    (failed : step.failure? = some failure) : step.Reports failure := by
  rw [failure?] at failed
  split at failed
  · rename_i silent
    obtain rfl := Option.some.inj failed
    exact Reports.noAssertions (by simpa using silent)
  · split at failed
    · rename_i missing
      obtain rfl := Option.some.inj failed
      simp only [Bool.and_eq_true, Bool.not_eq_true'] at missing
      exact Reports.dataSetEmpty missing.2
    · rename_i complete
      have guarded : step.IsGuarded := by
        intro named
        simpa [named] using complete
      rcases Option.or_eq_some_iff.mp failed with found | ⟨_, found⟩
      · obtain ⟨action, member, refused⟩ := List.exists_of_findSome?_eq_some found
        exact reports_of_actionFailure? guarded member refused
      · obtain ⟨assertion, member, refused⟩ := List.exists_of_findSome?_eq_some found
        exact reports_of_assertionFailure? guarded member refused

theorem reports_of_check {step : Step} {failure : Failure} (failed : step.check = .invalid failure) :
    step.Reports failure := by
  rw [check] at failed
  split at failed
  · rename_i found refused
    obtain rfl := Verdict.invalid.inj failed
    exact reports_of_failure? refused
  · simp at failed

end Step

namespace Configuration

inductive Reports (configuration : Configuration) : Failure → Prop
  | fault {reason : Reason} : configuration.fault? = some reason →
      Reports configuration (.root ⟨.configuration configuration, .configuration, reason, []⟩)

theorem reports_of_check {configuration : Configuration} {failure : Failure}
    (failed : configuration.check = .invalid failure) : configuration.Reports failure := by
  rw [check] at failed
  split at failed
  · rename_i reason found
    obtain rfl := Verdict.invalid.inj failed
    exact Reports.fault found
  · simp at failed

end Configuration

namespace Test

inductive Reports (test : Test) : Failure → Prop
  | configuration {cause : Failure} : test.configuration.check = .invalid cause →
      test.configuration.Reports cause →
      Reports test (.caused ⟨.test test, .test, .testConfigurationInvalid, []⟩ cause)
  | noSteps : test.steps = [] → Reports test (.root ⟨.test test, .test, .testNoSteps, []⟩)
  | step {name : String} {step : Step} {cause : Failure} : (name, step) ∈ test.steps →
      step.check = .invalid cause → step.Reports cause →
      Reports test (.caused ⟨.test test, .test, .testStepInvalid, [("step-name", .text name)]⟩ cause)

theorem reports_of_stepFailure? {test : Test} {entry : String × Step} {failure : Failure}
    (member : entry ∈ test.steps) (failed : test.stepFailure? entry = some failure) :
    test.Reports failure := by
  simp only [stepFailure?, Option.bind_eq_bind, Option.bind_eq_some_iff, Option.pure_def,
    Option.some.injEq, Verdict.failure?_eq_some_iff] at failed
  obtain ⟨cause, refused, rfl⟩ := failed
  exact Reports.step member refused (Step.reports_of_check refused)

theorem reports_of_check {test : Test} {failure : Failure} (failed : test.check = .invalid failure) :
    test.Reports failure := by
  rw [check] at failed
  split at failed
  · rename_i cause refused
    obtain rfl := Verdict.invalid.inj failed
    exact Reports.configuration refused (Configuration.reports_of_check refused)
  · split at failed
    · rename_i empty
      obtain rfl := Verdict.invalid.inj failed
      exact Reports.noSteps (by simpa using empty)
    · split at failed
      · rename_i found first
        obtain rfl := Verdict.invalid.inj failed
        obtain ⟨entry, member, refused⟩ := List.exists_of_findSome?_eq_some first
        exact reports_of_stepFailure? member refused
      · simp at failed

end Test

end WebTestLint
