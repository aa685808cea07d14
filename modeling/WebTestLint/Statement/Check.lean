import WebTestLint.Value

/-!
Checks of statements. Of several faults the first is reported: the identifier, then the value or the
operator, then the command.
-/

namespace WebTestLint

namespace Action

def commands : List String :=
  ["click", "set", "submit", "wait", "wait-for", "back", "forward", "reload"]

/-- A bare number stands for the literal of its digits. -/
def durationValue (duration : String) : String :=
  if Identifier.isDigits duration.toList then Subject.quoted duration else duration

def checkedValue? (action : Action) : Option String :=
  match action.kind with
  | .input _ value => some value
  | .wait duration => some (durationValue duration)
  | _ => none

def hasTarget (action : Action) : Bool :=
  match action.identifier? with
  | some identifier => Identifier.isTarget identifier.toList
  | none => true

def failure (action : Action) (reason : Reason) : Failure := .of (.action action) .action reason

def checkCommand (action : Action) : Verdict :=
  if action.command ∈ commands then .valid (.action action)
  else .invalid (action.failure .actionInvalidType)

def check (action : Action) : Verdict :=
  if !action.hasTarget then .invalid (action.failure .actionInvalidIdentifier)
  else
    match action.checkedValue?.map Value.check with
    | some (.invalid cause) => .invalid ((action.failure .actionInvalidValue).causedBy cause)
    | _ => action.checkCommand

end Action

namespace Assertion

def operators : List String :=
  ["is", "is-not", "exists", "not-exists", "includes", "excludes", "matches"]

def failure (assertion : Assertion) (reason : Reason) : Failure :=
  .of (.assertion assertion) .assertion reason

def checkValue (assertion : Assertion) : Verdict :=
  match assertion.value?.map Value.checkContent with
  | some (.invalid cause) => .invalid ((assertion.failure .assertionInvalidValue).causedBy cause)
  | _ => .valid (.assertion assertion)

def check (assertion : Assertion) : Verdict :=
  match Value.checkContent assertion.identifier with
  | .invalid cause => .invalid ((assertion.failure .assertionInvalidIdentifier).causedBy cause)
  | .valid _ =>
    if assertion.operator ∈ operators then assertion.checkValue
    else
      .invalid ((assertion.failure .assertionInvalidOperator).setContext "operator"
        (.text assertion.operator))

end Assertion

end WebTestLint
