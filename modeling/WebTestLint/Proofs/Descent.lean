import Mathlib.Data.List.Chain
import WebTestLint.Proofs.Diagnosis

/-!
What the links of a failure are about. Each is about a part of what the link before it is about, down
from the test that failed.
-/

namespace WebTestLint

inductive Subject.Contains : Subject → Subject → Prop
  | configuration {test : Test} : Contains (.test test) (.configuration test.configuration)
  | step {test : Test} {name : String} {step : Step} : (name, step) ∈ test.steps →
      Contains (.test test) (.step step)
  | action {step : Step} {action : Action} : action ∈ step.actions →
      Contains (.step step) (.action action)
  | assertion {step : Step} {assertion : Assertion} : assertion ∈ step.assertions →
      Contains (.step step) (.assertion assertion)
  | data {step : Step} {data : Data} : step.data? = some data → Contains (.step step) (.data data)
  | row {data : Data} {row : DataSet} : row ∈ data → Contains (.data data) (.dataSet row)
  | value {action : Action} {text : String} : action.value? = some text →
      Contains (.action action) (.value text)
  | duration {action : Action} {text : String} : action.duration? = some text →
      Contains (.action action) (.value text)
  | side {assertion : Assertion} {text : String} : text ∈ assertion.sides →
      Contains (.assertion assertion) (.value text)

namespace Failure

structure DescendsFrom (failure : Failure) (subject : Subject) : Prop where
  outermost : failure.link.subject = subject
  parts : (failure.chain.map (·.subject)).IsChain Subject.Contains

theorem head?_chain (failure : Failure) : failure.chain.head? = some failure.link := by
  cases failure <;> rfl

theorem descendsFrom_root (link : Link) : (root link).DescendsFrom link.subject :=
  ⟨rfl, List.IsChain.singleton _⟩

theorem DescendsFrom.caused {link : Link} {cause : Failure} {part : Subject}
    (below : cause.DescendsFrom part) (contained : link.subject.Contains part) :
    (caused link cause).DescendsFrom link.subject := by
  refine ⟨rfl, ?_⟩
  rw [chain, List.map_cons, List.isChain_cons]
  refine ⟨?_, below.parts⟩
  intro subject found
  rw [List.head?_map, head?_chain, Option.map_some, below.outermost] at found
  rw [← Option.some.inj found]
  exact contained

end Failure

theorem Value.Reports.descendsFrom {value : String} {failure : Failure}
    (reports : Value.Reports value failure) : failure.DescendsFrom (.value value) := by
  cases reports with
  | fault _ => exact Failure.descendsFrom_root _

theorem Action.Reports.descendsFrom {action : Action} {failure : Failure}
    (reports : action.Reports failure) : failure.DescendsFrom (.action action) := by
  cases reports with
  | identifier _ | command _ => exact Failure.descendsFrom_root _
  | value read _ below => exact below.descendsFrom.caused (.value read)
  | duration read _ below => exact below.descendsFrom.caused (.duration read)

theorem Assertion.Reports.descendsFrom {assertion : Assertion} {failure : Failure}
    (reports : assertion.Reports failure) : failure.DescendsFrom (.assertion assertion) := by
  cases reports with
  | operator _ => exact Failure.descendsFrom_root _
  | identifier _ below => exact below.descendsFrom.caused (.side (by simp [sides]))
  | value read _ below => exact below.descendsFrom.caused (.side (by simp [sides, read]))

theorem DataSet.Reports.descendsFrom {name : String} {row : DataSet} {failure : Failure}
    (reports : row.Reports name failure) : failure.DescendsFrom (.dataSet row) := by
  cases reports with
  | incomplete _ => exact Failure.descendsFrom_root _

theorem Data.Reports.descendsFrom {name : String} {data : Data} {failure : Failure}
    (reports : data.Reports name failure) : failure.DescendsFrom (.data data) := by
  cases reports with
  | row split _ _ below => exact below.descendsFrom.caused (.row (by simp [split]))

theorem Step.Reports.descendsFrom {step : Step} {failure : Failure}
    (reports : step.Reports failure) : failure.DescendsFrom (.step step) := by
  cases reports with
  | noAssertions _ | dataSetEmpty _ => exact Failure.descendsFrom_root _
  | action member _ below => exact below.descendsFrom.caused (.action member)
  | assertion member _ below => exact below.descendsFrom.caused (.assertion member)
  | data present _ _ _ _ below => exact below.descendsFrom.caused (.data present)

theorem Configuration.Reports.descendsFrom {configuration : Configuration} {failure : Failure}
    (reports : configuration.Reports failure) :
    failure.DescendsFrom (.configuration configuration) := by
  cases reports with
  | fault _ => exact Failure.descendsFrom_root _

theorem Test.Reports.descendsFrom {test : Test} {failure : Failure}
    (reports : test.Reports failure) : failure.DescendsFrom (.test test) := by
  cases reports with
  | configuration _ below => exact below.descendsFrom.caused .configuration
  | noSteps _ => exact Failure.descendsFrom_root _
  | step member _ below => exact below.descendsFrom.caused (.step member)

namespace Test

/-- The failure of a test descends from the test part by part, and every cause in it is what the check
of that part alone answers. -/
theorem reports_and_descendsFrom_of_check {test : Test} {failure : Failure}
    (failed : test.check = .invalid failure) :
    test.Reports failure ∧ failure.DescendsFrom (.test test) :=
  ⟨reports_of_check failed, (reports_of_check failed).descendsFrom⟩

def tourRow : DataSet := ⟨"second", [("street", "Main Street")]⟩

def tourData : Data := [⟨"first", [("city", "Ghent")]⟩, tourRow]

def tourAction : Action := Action.ofLine "set $\".city\" to $data.city"

def tourStep : Step where
  actions := [Action.ofLine "wait 2", tourAction]
  assertions := [Assertion.ofLine "$\".map\" exists"]
  data? := some tourData

def tour : Test where
  configuration := ⟨"firefox", "http://localhost"⟩
  steps := [("search", tourStep)]

def tourFailure : Failure :=
  .caused ⟨.test tour, .test, .testStepInvalid, [("step-name", .text "search")]⟩ <|
    .caused ⟨.step tourStep, .step, .stepDataInvalid,
        [("statement", .statement (.action tourAction))]⟩ <|
      .caused ⟨.data tourData, .data, .dataDataSetInvalid, []⟩ <|
        .root ⟨.dataSet tourRow, .dataSet, .dataSetIncomplete,
          [("data-parameter-name", .text "city")]⟩

theorem reports_tourFailure :
    tour.check = .invalid tourFailure ∧ tour.Reports tourFailure ∧
      tourFailure.DescendsFrom (.test tour) := by
  have failed : tour.check = .invalid tourFailure := by decide +kernel
  exact ⟨failed, reports_and_descendsFrom_of_check failed⟩

end Test

end WebTestLint
