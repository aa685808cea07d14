import WebTestLint.Text.Sorted
import WebTestLint.Statement.Basic
import WebTestLint.Data.Basic

/-!
Steps: actions to take, assertions to make afterwards, and data to repeat them with.
-/

namespace WebTestLint

structure Step where
  actions : List Action
  assertions : List Assertion
  data? : Option Data
deriving DecidableEq, Repr

namespace Step

def parameterNames (step : Step) : List String :=
  sortDistinct <|
    (step.actions.filterMap (·.value?) ++ step.assertions.map (·.identifier) ++
      step.assertions.filterMap (·.value?)).filterMap Data.parameterName?

def hasData (step : Step) : Bool :=
  match step.data? with
  | some data => !data.isEmpty
  | none => false

end Step

end WebTestLint
