import Mathlib.Data.List.Nodup
import WebTestLint.Page.Check
import WebTestLint.Proofs.Diagnosis

/-!
The shapes of failures: which reasons follow one another from a failed test down to the root of its
failure, and what the link of each reason carries.
-/

namespace WebTestLint

namespace Reason

def layer : Reason → Layer
  | valuePropertyInvalid | valueInvalid => .value
  | actionInvalidType | actionInvalidIdentifier | actionInvalidValue => .action
  | assertionInvalidIdentifier | assertionInvalidOperator | assertionInvalidValue => .assertion
  | dataSetIncomplete => .dataSet
  | dataEmpty | dataDataSetInvalid => .data
  | stepNoAssertions | stepInvalidAction | stepInvalidAssertion | stepDataSetEmpty
  | stepDataInvalid => .step
  | pageUrlEmpty | pageInvalidIdentifier => .page
  | configurationBrowserEmpty | configurationUrlEmpty | configurationUrlIsPageUrl => .configuration
  | testConfigurationInvalid | testNoSteps | testStepInvalid => .test

def keys : Reason → List String
  | testStepInvalid => ["step-name"]
  | stepDataInvalid => ["statement"]
  | assertionInvalidOperator => ["operator"]
  | dataSetIncomplete => ["data-parameter-name"]
  | pageInvalidIdentifier => ["name", "identifier"]
  | _ => []

theorem code_of_layer_prefix (reason : Reason) :
    (reason.layer.code ++ "-").toList <+: reason.code.toList := by
  cases reason <;> simp [layer, Layer.code, code]

end Reason

def Link.IsProper (link : Link) : Prop :=
  link.layer = link.reason.layer ∧ link.context.map (·.1) = link.reason.keys

namespace Failure

def reasons (failure : Failure) : List Reason := failure.chain.map (·.reason)

structure HasShape (failure : Failure) (shapes : List (List Reason)) : Prop where
  listed : failure.reasons ∈ shapes
  proper : ∀ link ∈ failure.chain, link.IsProper

variable {subject : Subject} {layer : Layer} {reason : Reason} {context : Context}
  {shapes : List (List Reason)}

theorem hasShape_root (proper : Link.IsProper ⟨subject, layer, reason, context⟩)
    (listed : [reason] ∈ shapes) : (root ⟨subject, layer, reason, context⟩).HasShape shapes :=
  ⟨listed, by simpa [chain] using proper⟩

theorem HasShape.caused {cause : Failure} {causes : List (List Reason)}
    (below : cause.HasShape causes) (proper : Link.IsProper ⟨subject, layer, reason, context⟩)
    (listed : ∀ shape ∈ causes, reason :: shape ∈ shapes) :
    (caused ⟨subject, layer, reason, context⟩ cause).HasShape shapes := by
  refine ⟨listed _ below.listed, ?_⟩
  intro link member
  rcases List.mem_cons.mp member with rfl | member
  · exact proper
  · exact below.proper link member

end Failure

namespace Value

def faults : List Reason := [.valueInvalid, .valuePropertyInvalid]

theorem mem_faults_of_fault? {value : String} {reason : Reason} (found : fault? value = some reason) :
    reason ∈ faults := by
  rcases fault?_cases value with ⟨_, fault⟩ | ⟨_, fault⟩ | ⟨_, fault⟩
  · simp [found] at fault
  · rw [found] at fault
    split at fault
    · simp at fault
    · simp [faults, Option.some.inj fault]
  · rw [found] at fault
    simp [faults, Option.some.inj fault]

def shapes : List (List Reason) := faults.map ([·])

theorem Reports.hasShape {value : String} {failure : Failure} (reports : Reports value failure) :
    failure.HasShape shapes := by
  cases reports with
  | fault found =>
      have listed := mem_faults_of_fault? found
      have proper : ∀ reason ∈ faults, Layer.value = reason.layer ∧ [] = reason.keys := by decide
      exact Failure.hasShape_root (proper _ listed) (List.mem_map_of_mem listed)

end Value

namespace Action

def shapes : List (List Reason) :=
  [[.actionInvalidIdentifier], [.actionInvalidType]] ++
    Value.shapes.map (.actionInvalidValue :: ·)

theorem Reports.hasShape {action : Action} {failure : Failure} (reports : action.Reports failure) :
    failure.HasShape shapes := by
  cases reports with
  | identifier _ | command _ => exact Failure.hasShape_root ⟨rfl, rfl⟩ (by decide)
  | value _ _ below | duration _ _ below =>
      exact below.hasShape.caused ⟨rfl, rfl⟩ (by decide)

end Action

namespace Assertion

def shapes : List (List Reason) :=
  [[.assertionInvalidOperator]] ++ Value.shapes.map (.assertionInvalidIdentifier :: ·) ++
    Value.shapes.map (.assertionInvalidValue :: ·)

theorem Reports.hasShape {assertion : Assertion} {failure : Failure}
    (reports : assertion.Reports failure) : failure.HasShape shapes := by
  cases reports with
  | operator _ => exact Failure.hasShape_root ⟨rfl, rfl⟩ (by decide)
  | identifier _ below | value _ _ below => exact below.hasShape.caused ⟨rfl, rfl⟩ (by decide)

end Assertion

theorem DataSet.Reports.hasShape {name : String} {row : DataSet} {failure : Failure}
    (reports : row.Reports name failure) : failure.HasShape [[.dataSetIncomplete]] := by
  cases reports with
  | incomplete _ => exact Failure.hasShape_root ⟨rfl, rfl⟩ (by decide)

theorem Data.Reports.hasShape {name : String} {data : Data} {failure : Failure}
    (reports : data.Reports name failure) :
    failure.HasShape [[.dataDataSetInvalid, .dataSetIncomplete]] := by
  cases reports with
  | row _ _ _ below => exact below.hasShape.caused ⟨rfl, rfl⟩ (by decide)

namespace Step

def shapes : List (List Reason) :=
  [[.stepNoAssertions], [.stepDataSetEmpty]] ++ Action.shapes.map (.stepInvalidAction :: ·) ++
    Assertion.shapes.map (.stepInvalidAssertion :: ·) ++
      [[.stepDataInvalid, .dataDataSetInvalid, .dataSetIncomplete]]

theorem Reports.hasShape {step : Step} {failure : Failure} (reports : step.Reports failure) :
    failure.HasShape shapes := by
  cases reports with
  | noAssertions _ | dataSetEmpty _ => exact Failure.hasShape_root ⟨rfl, rfl⟩ (by decide)
  | action _ _ below | assertion _ _ below | data _ _ _ _ _ below =>
      exact below.hasShape.caused ⟨rfl, rfl⟩ (by decide)

end Step

namespace Configuration

def faults : List Reason :=
  [.configurationBrowserEmpty, .configurationUrlEmpty, .configurationUrlIsPageUrl]

theorem mem_faults_of_fault? {configuration : Configuration} {reason : Reason}
    (found : configuration.fault? = some reason) : reason ∈ faults := by
  simp only [fault?] at found
  split at found
  · simp_all [faults]
  · split at found
    · simp_all [faults]
    · split at found <;> simp_all [faults]

def shapes : List (List Reason) := faults.map ([·])

theorem Reports.hasShape {configuration : Configuration} {failure : Failure}
    (reports : configuration.Reports failure) : failure.HasShape shapes := by
  cases reports with
  | fault found =>
      have listed := mem_faults_of_fault? found
      have proper : ∀ reason ∈ faults, Layer.configuration = reason.layer ∧ [] = reason.keys := by
        decide
      exact Failure.hasShape_root (proper _ listed) (List.mem_map_of_mem listed)

end Configuration

theorem Page.hasShape_of_check {page : Page} {failure : Failure}
    (failed : page.check = .invalid failure) :
    failure.HasShape [[.pageUrlEmpty], [.pageInvalidIdentifier]] := by
  rw [check] at failed
  split at failed
  · obtain rfl := Verdict.invalid.inj failed
    exact Failure.hasShape_root ⟨rfl, rfl⟩ (by decide)
  · split at failed
    · obtain rfl := Verdict.invalid.inj failed
      exact Failure.hasShape_root ⟨rfl, rfl⟩ (by simp)
    · simp at failed

namespace Test

def shapes : List (List Reason) :=
  Configuration.shapes.map (.testConfigurationInvalid :: ·) ++ [[.testNoSteps]] ++
    Step.shapes.map (.testStepInvalid :: ·)

theorem Reports.hasShape {test : Test} {failure : Failure} (reports : test.Reports failure) :
    failure.HasShape shapes := by
  cases reports with
  | configuration _ below | step _ _ below => exact below.hasShape.caused ⟨rfl, rfl⟩ (by decide)
  | noSteps _ => exact Failure.hasShape_root ⟨rfl, rfl⟩ (by decide)

/-- The reasons of a failed test, from the outermost down, are one of the shapes and only one. Each
link is of the layer that its reason belongs to, and has the details of that reason and no others. -/
theorem count_reasons_of_check {test : Test} {failure : Failure}
    (failed : test.check = .invalid failure) :
    shapes.count failure.reasons = 1 ∧
      ∀ link ∈ failure.chain,
        link.layer = link.reason.layer ∧ link.context.map (·.1) = link.reason.keys := by
  have shaped := (reports_of_check failed).hasShape
  have distinct : shapes.Nodup := by decide
  exact ⟨List.count_eq_one_of_mem distinct shaped.listed, shaped.proper⟩

def hastyAction : Action := Action.ofLine "wait soon"

def hastyStep : Step where
  actions := [hastyAction]
  assertions := [Assertion.ofLine "$\".ready\" exists"]
  data? := none

def hasty : Test where
  configuration := ⟨"firefox", "http://localhost"⟩
  steps := [("hurry", hastyStep)]

def hastyFailure : Failure :=
  .caused ⟨.test hasty, .test, .testStepInvalid, [("step-name", .text "hurry")]⟩ <|
    .caused ⟨.step hastyStep, .step, .stepInvalidAction, []⟩ <|
      .caused ⟨.action hastyAction, .action, .actionInvalidValue, []⟩ <|
        .root ⟨.value "soon", .value, .valueInvalid, []⟩

theorem count_reasons_hastyFailure :
    hasty.check = .invalid hastyFailure ∧ shapes.count hastyFailure.reasons = 1 ∧
      ∀ link ∈ hastyFailure.chain,
        link.layer = link.reason.layer ∧ link.context.map (·.1) = link.reason.keys := by
  have failed : hasty.check = .invalid hastyFailure := by decide +kernel
  exact ⟨failed, count_reasons_of_check failed⟩

def trial (action : String) (assertions : List String) (data? : Option Data) : Test where
  configuration := ⟨"firefox", "http://localhost"⟩
  steps := [("try", ⟨[Action.ofLine action], assertions.map Assertion.ofLine, data?⟩)]

def trials : List Test :=
  [⟨⟨"", ""⟩, []⟩, ⟨⟨"firefox", ""⟩, []⟩, ⟨⟨"firefox", "home.url"⟩, []⟩,
    ⟨⟨"firefox", "http://localhost"⟩, []⟩,
    trial "reload" [] none,
    trial "reload" ["$data.city exists"] none,
    trial "click city" ["$\".map\" exists"] none,
    trial "hover" ["$\".map\" exists"] none,
    trial "wait soon" ["$\".map\" exists"] none,
    trial "set $\".city\" to $page.city" ["$\".map\" exists"] none,
    trial "reload" ["$\".map\" shows"] none,
    trial "reload" ["map exists"] none,
    trial "reload" ["$page.city exists"] none,
    trial "reload" ["$\".map\" is open"] none,
    trial "reload" ["$\".map\" is $browser.city"] none,
    trial "reload" ["$data.city exists"] (some [⟨"first", []⟩])]

theorem exists_check_of_mem_shapes {shape : List Reason} (listed : shape ∈ shapes) :
    ∃ (test : Test) (failure : Failure),
      test.check = .invalid failure ∧ failure.reasons = shape := by
  have tried : trials.map (fun test => test.check.failure?.map Failure.reasons) = shapes.map some := by
    decide +kernel
  have found : some shape ∈ trials.map fun test => test.check.failure?.map Failure.reasons :=
    tried ▸ List.mem_map_of_mem listed
  obtain ⟨test, _, reported⟩ := List.mem_map.mp found
  obtain ⟨failure, failed, same⟩ := Option.map_eq_some_iff.mp reported
  exact ⟨test, failure, (Verdict.failure?_eq_some_iff _ _).mp failed, same⟩

end Test

end WebTestLint
