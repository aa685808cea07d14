import WebTestLint.Step.Check

/-!
Checks of tests: the configuration, then that there are steps, then each step in order.
-/

namespace WebTestLint

namespace Configuration

def fault? (configuration : Configuration) : Option Reason :=
  let url := trim configuration.url.toList
  if (trim configuration.browser.toList).isEmpty then some .configurationBrowserEmpty
  else if url.isEmpty then some .configurationUrlEmpty
  else if Identifier.isPageUrl url then some .configurationUrlIsPageUrl
  else none

def check (configuration : Configuration) : Verdict :=
  match configuration.fault? with
  | some reason => .invalid (.of (.configuration configuration) .configuration reason)
  | none => .valid (.configuration configuration)

end Configuration

namespace Test

def failure (test : Test) (reason : Reason) : Failure := .of (.test test) .test reason

def stepFailure? (test : Test) (entry : String × Step) : Option Failure := do
  let cause ← entry.2.check.failure?
  pure (((test.failure .testStepInvalid).causedBy cause).setContext "step-name" (.text entry.1))

def check (test : Test) : Verdict :=
  match test.configuration.check with
  | .invalid cause => .invalid ((test.failure .testConfigurationInvalid).causedBy cause)
  | .valid _ =>
    if test.steps.isEmpty then .invalid (test.failure .testNoSteps)
    else
      match test.steps.findSome? test.stepFailure? with
      | some failure => .invalid failure
      | none => .valid (.test test)

end Test

end WebTestLint
