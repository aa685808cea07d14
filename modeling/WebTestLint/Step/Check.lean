import WebTestLint.Data.Check
import WebTestLint.Statement.Check

/-!
Checks of steps. A step needs an assertion, and data if it refers to any. Then its actions and after
them its assertions are checked in order, each together with the parameters that it refers to.
-/

namespace WebTestLint.Step

def failure (step : Step) (reason : Reason) : Failure := .of (.step step) .step reason

def coverageFailure? (step : Step) (statement : Statement) (text : String) : Option Failure := do
  let name ← Data.parameterName? text
  let cause ← ((step.data?.getD []).check name).failure?
  pure (((step.failure .stepDataInvalid).causedBy cause).setContext "statement"
    (.statement statement))

def actionFailure? (step : Step) (action : Action) : Option Failure :=
  match action.check with
  | .invalid cause => some ((step.failure .stepInvalidAction).causedBy cause)
  | .valid _ => action.value?.bind (step.coverageFailure? (.action action))

def assertionFailure? (step : Step) (assertion : Assertion) : Option Failure :=
  match assertion.check with
  | .invalid cause => some ((step.failure .stepInvalidAssertion).causedBy cause)
  | .valid _ =>
    (assertion.identifier :: assertion.value?.toList).findSome?
      (step.coverageFailure? (.assertion assertion))

def failure? (step : Step) : Option Failure :=
  if step.assertions.isEmpty then some (step.failure .stepNoAssertions)
  else if !step.parameterNames.isEmpty && !step.hasData then some (step.failure .stepDataSetEmpty)
  else
    (step.actions.findSome? step.actionFailure?).or
      (step.assertions.findSome? step.assertionFailure?)

def check (step : Step) : Verdict :=
  match step.failure? with
  | some failure => .invalid failure
  | none => .valid (.step step)

end WebTestLint.Step
