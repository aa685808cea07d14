import WebTestLint.Proofs.Coverage
import WebTestLint.Statement.Parse

/-!
References to parameters that nothing provides. The checks follow the references in the values of
inputs and on both sides of assertions. They do not follow those that an action waits for, so that an
accepted step is free of dangling references exactly when its waits are.
-/

namespace WebTestLint

def Statement.texts : Statement → List String
  | .action line => line.value?.toList ++ line.duration?.toList
  | .assertion line => line.sides

namespace Data

theorem toList_of_parameterName? {text name : String} (named : parameterName? text = some name) :
    text.toList = "$data.".toList ++ name.toList := by
  unfold parameterName? at named
  split at named
  · rename_i rest found
    split at named
    · simp at named
    · have same : String.ofList rest = name := by simpa using named
      rw [(dropStart?_eq_some_iff _ _ _).mp found, ← same]
      simp
  · simp at named

end Data

namespace Value

theorem check_isValid_of_parameterName? {text name : String}
    (named : Data.parameterName? text = some name) : (check text).isValid = true := by
  have faultless : fault? text = none := by simp [fault?, named]
  simp [check, faultless]

end Value

namespace Action

theorem durationValue_of_parameterName? {text name : String}
    (named : Data.parameterName? text = some name) : durationValue text = text := by
  have dollar : Identifier.isDigits text.toList = false := by
    rw [Data.toList_of_parameterName? named]
    rfl
  simp [durationValue, dollar]

theorem check_isValid_of_wait {action : Action} {text name : String}
    (command : action.command = "wait") (waits : action.kind = .wait text)
    (named : Data.parameterName? text = some name) : action.check.isValid = true := by
  have value := Value.check_isValid_of_parameterName? named
  have target : action.hasTarget = true := by simp [hasTarget, identifier?, waits]
  have checked : action.checkedValue? = some text := by
    simp [checkedValue?, waits, durationValue_of_parameterName? named]
  rw [check, target, checked]
  cases passed : Value.check text with
  | invalid cause => simp [passed] at value
  | valid subject => simp [passed, checkCommand, command, commands]

end Action

namespace Step

def statements (step : Step) : List Statement :=
  step.actions.map Statement.action ++ step.assertions.map Statement.assertion

def NoDangling (step : Step) : Prop :=
  ∀ statement ∈ step.statements, ∀ text ∈ statement.texts, step.Resolves text

def WaitsResolve (step : Step) : Prop :=
  ∀ action ∈ step.actions, ∀ text ∈ action.duration?, step.Resolves text

theorem noDangling_iff (step : Step) :
    step.NoDangling ↔ (∀ name ∈ step.parameterNames, step.Covers name) ∧ step.WaitsResolve := by
  rw [names_covered_iff]
  constructor
  · intro resolved
    refine ⟨⟨?_, ?_⟩, ?_⟩
    · intro action member text value
      exact resolved (.action action) (by simp [statements, member]) text
        (by simp [Statement.texts, Option.mem_def.mp value])
    · intro assertion member text side
      exact resolved (.assertion assertion) (by simp [statements, member]) text side
    · intro action member text duration
      exact resolved (.action action) (by simp [statements, member]) text
        (by simp [Statement.texts, Option.mem_def.mp duration])
  · rintro ⟨⟨values, sides⟩, waits⟩ statement member text read
    simp only [statements, List.mem_append, List.mem_map] at member
    rcases member with ⟨action, member, rfl⟩ | ⟨assertion, member, rfl⟩
    · simp only [Statement.texts, List.mem_append, Option.mem_toList] at read
      rcases read with value | duration
      · exact values action member text value
      · exact waits action member text duration
    · exact sides assertion member text read

theorem acceptable_cons_wait {step : Step} (accepted : step.Acceptable) {action : Action}
    {text name : String} (command : action.command = "wait") (waits : action.kind = .wait text)
    (named : Data.parameterName? text = some name) :
    ({ step with actions := action :: step.actions } : Step).Acceptable := by
  have names : ({ step with actions := action :: step.actions } : Step).parameterNames =
      step.parameterNames := by
    have silent : action.value? = none := by simp [Action.value?, waits]
    simp [parameterNames, silent]
  refine ⟨accepted.asserts, ?_, accepted.assertions, ?_⟩
  · intro other member
    rcases List.mem_cons.mp member with rfl | member
    · exact Action.check_isValid_of_wait command waits named
    · exact accepted.actions other member
  · rw [names]
    exact accepted.covered

/-- An accepted step has no dangling reference exactly when the references that it waits for are
covered. Nothing checks those: any accepted step stays accepted when it also waits for a parameter,
covered or not. -/
theorem noDangling_iff_waitsResolve (step : Step) (accepted : step.check.isValid = true) :
    (step.NoDangling ↔ step.WaitsResolve) ∧
      ∀ action text name, action.command = "wait" → action.kind = .wait text →
        Data.parameterName? text = some name →
        ({ step with actions := action :: step.actions } : Step).check.isValid = true := by
  have acceptable := step.check_isValid_iff.mp accepted
  constructor
  · rw [noDangling_iff]
    exact ⟨fun resolved => resolved.2, fun waits => ⟨acceptable.covered, waits⟩⟩
  · intro action text name command waits named
    rw [check_isValid_iff]
    exact acceptable_cons_wait acceptable command waits named

def patient (data? : Option Data) : Step where
  actions := [Action.ofLine "wait $data.pause"]
  assertions := [Assertion.ofLine "$\".ready\" exists"]
  data?

theorem noDangling_patient :
    (patient (some [⟨"slow", [("pause", "9")]⟩])).check.isValid = true ∧
      (patient (some [⟨"slow", [("pause", "9")]⟩])).NoDangling := by
  have accepted : (patient (some [⟨"slow", [("pause", "9")]⟩])).check.isValid = true := by
    decide +kernel
  refine ⟨accepted, (noDangling_iff_waitsResolve _ accepted).1.mpr ?_⟩
  intro action member text duration name named
  have pause : text = "$data.pause" := by
    obtain rfl : action = Action.ofLine "wait $data.pause" := by simpa [patient] using member
    have read : (Action.ofLine "wait $data.pause").duration? = some "$data.pause" := by decide +kernel
    simpa [read] using duration.symm
  obtain rfl : name = "pause" := by
    rw [pause, show Data.parameterName? "$data.pause" = some "pause" by decide +kernel] at named
    simpa using named.symm
  refine ⟨_, rfl, by simp, ?_⟩
  simp [DataSet.Has]

theorem patient_dangles : ¬ ∀ step : Step, step.check.isValid = true → step.NoDangling := by
  intro claimed
  have resolved := claimed (patient none) (by decide +kernel) (.action (Action.ofLine "wait $data.pause"))
    (by simp [statements, patient]) "$data.pause" (by decide +kernel) "pause" (by decide +kernel)
  obtain ⟨data, present, _⟩ := resolved
  simp [patient] at present

end Step

end WebTestLint
