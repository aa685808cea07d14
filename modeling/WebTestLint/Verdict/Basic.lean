import WebTestLint.Page.Basic
import WebTestLint.Test.Basic

/-!
Verdicts. A check calls its subject valid or says what failed: a chain of links from the outermost
failure down to its root. Each link has a reason and names in its context what the reason is about.
-/

namespace WebTestLint

inductive Layer where
  | value
  | action
  | assertion
  | dataSet
  | data
  | step
  | page
  | configuration
  | test
deriving DecidableEq, Repr

namespace Layer

def all : List Layer :=
  [.value, .action, .assertion, .dataSet, .data, .step, .page, .configuration, .test]

def code : Layer → String
  | value => "value"
  | action => "action"
  | assertion => "assertion"
  | dataSet => "dataset"
  | data => "data"
  | step => "step"
  | page => "page"
  | configuration => "test-configuration"
  | test => "test"

def ofCode? (code : String) : Option Layer := all.find? (·.code == code)

theorem ofCode?_code (layer : Layer) : ofCode? layer.code = some layer := by
  cases layer <;> decide

end Layer

inductive Reason where
  | valuePropertyInvalid
  | valueInvalid
  | actionInvalidType
  | actionInvalidIdentifier
  | actionInvalidValue
  | assertionInvalidIdentifier
  | assertionInvalidOperator
  | assertionInvalidValue
  | dataSetIncomplete
  | dataEmpty
  | dataDataSetInvalid
  | stepNoAssertions
  | stepInvalidAction
  | stepInvalidAssertion
  | stepDataSetEmpty
  | stepDataInvalid
  | pageUrlEmpty
  | pageInvalidIdentifier
  | configurationBrowserEmpty
  | configurationUrlEmpty
  | configurationUrlIsPageUrl
  | testConfigurationInvalid
  | testNoSteps
  | testStepInvalid
deriving DecidableEq, Repr

namespace Reason

def all : List Reason :=
  [.valuePropertyInvalid, .valueInvalid, .actionInvalidType, .actionInvalidIdentifier,
    .actionInvalidValue, .assertionInvalidIdentifier, .assertionInvalidOperator,
    .assertionInvalidValue, .dataSetIncomplete, .dataEmpty, .dataDataSetInvalid, .stepNoAssertions,
    .stepInvalidAction, .stepInvalidAssertion, .stepDataSetEmpty, .stepDataInvalid, .pageUrlEmpty,
    .pageInvalidIdentifier, .configurationBrowserEmpty, .configurationUrlEmpty,
    .configurationUrlIsPageUrl, .testConfigurationInvalid, .testNoSteps, .testStepInvalid]

def code : Reason → String
  | valuePropertyInvalid => "value-property-invalid"
  | valueInvalid => "value-invalid"
  | actionInvalidType => "action-invalid-type"
  | actionInvalidIdentifier => "action-invalid-identifier"
  | actionInvalidValue => "action-invalid-value"
  | assertionInvalidIdentifier => "assertion-invalid-identifier"
  | assertionInvalidOperator => "assertion-invalid-operator"
  | assertionInvalidValue => "assertion-invalid-value"
  | dataSetIncomplete => "dataset-incomplete"
  | dataEmpty => "data-empty"
  | dataDataSetInvalid => "data-dataset-invalid"
  | stepNoAssertions => "step-no-assertions"
  | stepInvalidAction => "step-invalid-action"
  | stepInvalidAssertion => "step-invalid-assertion"
  | stepDataSetEmpty => "step-data-set-empty"
  | stepDataInvalid => "step-data-invalid"
  | pageUrlEmpty => "page-url-empty"
  | pageInvalidIdentifier => "page-invalid-identifier"
  | configurationBrowserEmpty => "test-configuration-browser-empty"
  | configurationUrlEmpty => "test-configuration-url-empty"
  | configurationUrlIsPageUrl => "test-configuration-url-is-page-url-reference"
  | testConfigurationInvalid => "test-configuration-invalid"
  | testNoSteps => "test-no-steps"
  | testStepInvalid => "test-step-invalid"

def ofCode? (code : String) : Option Reason := all.find? (·.code == code)

theorem ofCode?_code (reason : Reason) : ofCode? reason.code = some reason := by
  cases reason <;> decide

end Reason

inductive Subject where
  | value (text : String)
  | action (action : Action)
  | assertion (assertion : Assertion)
  | dataSet (dataSet : DataSet)
  | data (data : Data)
  | step (step : Step)
  | page (page : Page)
  | configuration (configuration : Configuration)
  | test (test : Test)
deriving DecidableEq, Repr

namespace Subject

def quoted (text : String) : String := "\"" ++ text ++ "\""

def describe : Subject → String
  | .value text => text
  | .action line => line.source
  | .assertion line => line.source
  | .dataSet row => "data set " ++ quoted row.name
  | .data rows => rows.length.repr ++ " data sets"
  | .step body =>
    "step (" ++ body.actions.length.repr ++ " actions, " ++ body.assertions.length.repr ++
      " assertions)"
  | .page named => "page " ++ quoted named.importName ++ " (" ++ named.url ++ ")"
  | .configuration start =>
    "browser " ++ quoted start.browser ++ ", url " ++ quoted start.url
  | .test whole => "test (" ++ whole.steps.length.repr ++ " steps)"

end Subject

inductive Detail where
  | text (text : String)
  | statement (statement : Statement)
deriving DecidableEq, Repr

def Detail.show : Detail → String
  | .text shown => shown
  | .statement line => line.source

/-- Details by key, in the order in which the keys were first set. -/
abbrev Context := List (String × Detail)

namespace Context

/-- Sets a key. A key that is already there keeps its place. -/
def set (key : String) (detail : Detail) : Context → Context
  | [] => [(key, detail)]
  | entry :: rest => if entry.1 = key then (key, detail) :: rest else entry :: set key detail rest

def get? (context : Context) (key : String) : Option Detail :=
  (context.find? (·.1 == key)).map (·.2)

end Context

structure Link where
  subject : Subject
  layer : Layer
  reason : Reason
  context : Context
deriving DecidableEq, Repr

inductive Failure where
  | root (link : Link)
  | caused (link : Link) (cause : Failure)
deriving DecidableEq, Repr

namespace Failure

def of (subject : Subject) (layer : Layer) (reason : Reason) : Failure :=
  .root ⟨subject, layer, reason, []⟩

def link : Failure → Link
  | .root outer => outer
  | .caused outer _ => outer

def cause? : Failure → Option Failure
  | .root _ => none
  | .caused _ cause => some cause

def causedBy (failure cause : Failure) : Failure := .caused failure.link cause

def setContext (failure : Failure) (key : String) (detail : Detail) : Failure :=
  match failure with
  | .root outer => .root { outer with context := outer.context.set key detail }
  | .caused outer cause => .caused { outer with context := outer.context.set key detail } cause

def chain : Failure → List Link
  | .root outer => [outer]
  | .caused outer cause => outer :: cause.chain

def rootCause : Failure → Failure
  | .root outer => .root outer
  | .caused _ cause => cause.rootCause

end Failure

inductive Verdict where
  | valid (subject : Subject)
  | invalid (failure : Failure)
deriving DecidableEq, Repr

namespace Verdict

def isValid : Verdict → Bool
  | .valid _ => true
  | .invalid _ => false

def subject : Verdict → Subject
  | .valid checked => checked
  | .invalid failure => failure.link.subject

def failure? : Verdict → Option Failure
  | .valid _ => none
  | .invalid failure => some failure

end Verdict

end WebTestLint
