import WebTestLint.Page.Check
import WebTestLint.Proofs.Diagnosis
import WebTestLint.Proofs.Validity

/-!
Which of several faults is reported. What a check demands is listed in a fixed order, and the check
reports the first demand of the list that is not met, whatever comes after it.
-/

namespace WebTestLint

/-- A search through demands in order. It finds nothing if all are met; else it stops at the first one
that is not, and what it finds is that demand's. -/
structure Finds {Demand : Type} (meets : Demand → Prop) (blames : Demand → Failure → Prop)
    (demands : List Demand) (found? : Option Failure) : Prop where
  passes : (∀ demand ∈ demands, meets demand) → found? = none
  stops : ∀ before demand after, demands = before ++ demand :: after →
    (∀ earlier ∈ before, meets earlier) → ¬ meets demand →
      ∃ failure, found? = some failure ∧ blames demand failure

namespace Finds

variable {Demand Item : Type} {meets : Demand → Prop} {blames : Demand → Failure → Prop}

theorem nil : Finds meets blames [] none := by
  refine ⟨fun _ => rfl, ?_⟩
  intro before demand after split
  simp at split

theorem cons {demand : Demand} {demands : List Demand} {found? : Option Failure}
    (refused : ¬ meets demand → ∃ failure, found? = some failure ∧ blames demand failure)
    (met : meets demand → Finds meets blames demands found?) :
    Finds meets blames (demand :: demands) found? := by
  constructor
  · intro all
    obtain ⟨first, rest⟩ := List.forall_mem_cons.mp all
    exact (met first).passes rest
  · intro before other after split passed unmet
    cases before with
    | nil =>
        obtain ⟨rfl, rfl⟩ := List.cons.inj split
        exact refused unmet
    | cons first before =>
        obtain ⟨rfl, rest⟩ := List.cons.inj split
        obtain ⟨firstMet, passed⟩ := List.forall_mem_cons.mp passed
        exact (met firstMet).stops before other after rest passed unmet

theorem append {first second : List Demand} {found? other? : Option Failure}
    (left : Finds meets blames first found?) (right : Finds meets blames second other?) :
    Finds meets blames (first ++ second) (found?.or other?) := by
  constructor
  · intro all
    obtain ⟨inFirst, inSecond⟩ := List.forall_mem_append.mp all
    simp [left.passes inFirst, right.passes inSecond]
  · intro before demand after split passed unmet
    rcases List.append_eq_append_iff.mp split with ⟨between, rfl, rest⟩ | ⟨between, rfl, rest⟩
    · -- The unmet demand is of the second list, so the first list has been searched in vain.
      obtain ⟨inFirst, inBetween⟩ := List.forall_mem_append.mp passed
      obtain ⟨failure, found, blamed⟩ := right.stops between demand after rest inBetween unmet
      exact ⟨failure, by simp [left.passes inFirst, found], blamed⟩
    · cases between with
      | nil =>
          rw [List.append_nil] at left
          obtain ⟨failure, found, blamed⟩ := right.stops [] demand after rest.symm (by simp) unmet
          exact ⟨failure, by simp [left.passes passed, found], blamed⟩
      | cons other between =>
          obtain ⟨rfl, _⟩ := List.cons.inj rest
          obtain ⟨failure, found, blamed⟩ := left.stops before demand between rfl passed unmet
          exact ⟨failure, by simp [found], blamed⟩

theorem findSome? {demandsOf : Item → List Demand} {search : Item → Option Failure} {items : List Item}
    (each : ∀ item ∈ items, Finds meets blames (demandsOf item) (search item)) :
    Finds meets blames (items.flatMap demandsOf) (items.findSome? search) := by
  induction items with
  | nil => exact nil
  | cons item items ih =>
      obtain ⟨first, rest⟩ := List.forall_mem_cons.mp each
      have whole := first.append (ih rest)
      have shaped : (item :: items).findSome? search = (search item).or (items.findSome? search) := by
        rw [List.findSome?_cons]
        cases search item <;> rfl
      rwa [List.flatMap_cons, shaped]

end Finds

structure Verdict.Follows {Demand : Type} (verdict : Verdict) (subject : Subject)
    (demands : List Demand) (meets : Demand → Prop) (blames : Demand → Failure → Prop) : Prop where
  passes : (∀ demand ∈ demands, meets demand) → verdict = .valid subject
  stops : ∀ before demand after, demands = before ++ demand :: after →
    (∀ earlier ∈ before, meets earlier) → ¬ meets demand →
      ∃ failure, verdict = .invalid failure ∧ blames demand failure

theorem Finds.follows {Demand : Type} {meets : Demand → Prop} {blames : Demand → Failure → Prop}
    {demands : List Demand} {verdict : Verdict} {subject : Subject}
    (finds : Finds meets blames demands verdict.failure?)
    (checked : ∀ other, verdict = .valid other → other = subject) :
    verdict.Follows subject demands meets blames := by
  constructor
  · intro all
    have passed := finds.passes all
    cases verdict with
    | valid other => rw [checked other rfl]
    | invalid failure => simp [Verdict.failure?] at passed
  · intro before demand after split passed unmet
    obtain ⟨failure, found, blamed⟩ := finds.stops before demand after split passed unmet
    exact ⟨failure, (Verdict.failure?_eq_some_iff _ _).mp found, blamed⟩

namespace Statement

def values : Statement → List String
  | .action line => line.value?.toList
  | .assertion line => line.sides

def references (statement : Statement) : List String :=
  statement.values.filterMap Data.parameterName?

def check : Statement → Verdict
  | .action line => line.check
  | .assertion line => line.check

def refusal : Statement → Reason
  | .action _ => .stepInvalidAction
  | .assertion _ => .stepInvalidAssertion

end Statement

namespace Step

inductive Demand where
  | asserts
  | data
  | sound (statement : Statement)
  | covers (statement : Statement) (name : String)

/-- The demands of one statement: it must be valid, and then each of its references must be covered. -/
def statementDemands (statement : Statement) : List Demand :=
  .sound statement :: statement.references.map (.covers statement)

def demands (step : Step) : List Demand :=
  .asserts :: .data :: step.statements.flatMap statementDemands

def Meets (step : Step) : Demand → Prop
  | .asserts => step.assertions ≠ []
  | .data => (∃ statement ∈ step.statements, statement.references ≠ []) →
      ∃ data, step.data? = some data ∧ data ≠ []
  | .sound statement => statement.check.isValid = true
  | .covers _ name => ∀ data, step.data? = some data → ∀ row ∈ data, row.Has name

inductive Blames (step : Step) : Demand → Failure → Prop
  | asserts : Blames step .asserts (.root ⟨.step step, .step, .stepNoAssertions, []⟩)
  | data : Blames step .data (.root ⟨.step step, .step, .stepDataSetEmpty, []⟩)
  | sound {statement : Statement} {cause : Failure} : statement.check = .invalid cause →
      Blames step (.sound statement) (.caused ⟨.step step, .step, statement.refusal, []⟩ cause)
  | covers {statement : Statement} {name : String} {data : Data} {cause : Failure} :
      step.data? = some data → data.check name = .invalid cause → data.Reports name cause →
      Blames step (.covers statement name) (.caused ⟨.step step, .step, .stepDataInvalid,
        [("statement", .statement statement)]⟩ cause)

def statementFailure? (step : Step) : Statement → Option Failure
  | .action line => step.actionFailure? line
  | .assertion line => step.assertionFailure? line

theorem mem_parameterNames_iff (step : Step) (name : String) :
    name ∈ step.parameterNames ↔ ∃ statement ∈ step.statements, name ∈ statement.references := by
  rw [mem_parameterNames]
  constructor
  · rintro (⟨action, member, text, value, named⟩ | ⟨assertion, member, text, side, named⟩)
    · exact ⟨.action action, by simp [statements, member],
        List.mem_filterMap.mpr ⟨text, Option.mem_toList.mpr value, named⟩⟩
    · exact ⟨.assertion assertion, by simp [statements, member],
        List.mem_filterMap.mpr ⟨text, side, named⟩⟩
  · rintro ⟨action | assertion, member, referred⟩
    · obtain ⟨text, value, named⟩ := List.mem_filterMap.mp referred
      exact Or.inl ⟨action, by simpa [statements] using member, text, Option.mem_toList.mp value, named⟩
    · obtain ⟨text, side, named⟩ := List.mem_filterMap.mp referred
      exact Or.inr ⟨assertion, by simpa [statements] using member, text, side, named⟩

theorem hasData_iff (step : Step) :
    step.hasData = true ↔ ∃ data, step.data? = some data ∧ data ≠ [] := by
  cases present : step.data? with
  | none => simp [hasData, present]
  | some data => simp [hasData, present]

theorem parameterNames_ne_nil_iff (step : Step) :
    step.parameterNames ≠ [] ↔ ∃ statement ∈ step.statements, statement.references ≠ [] := by
  constructor
  · intro named
    obtain ⟨name, member⟩ := List.exists_mem_of_ne_nil _ named
    obtain ⟨statement, listed, referred⟩ := (step.mem_parameterNames_iff name).mp member
    exact ⟨statement, listed, List.ne_nil_of_mem referred⟩
  · rintro ⟨statement, listed, referring⟩
    obtain ⟨name, referred⟩ := List.exists_mem_of_ne_nil _ referring
    exact List.ne_nil_of_mem ((step.mem_parameterNames_iff name).mpr ⟨statement, listed, referred⟩)

theorem meets_data_iff (step : Step) : step.Meets .data ↔ step.IsGuarded := by
  rw [IsGuarded, parameterNames_ne_nil_iff, hasData_iff]
  rfl

theorem finds_coverageFailure? {step : Step} {statement : Statement} {text : String}
    (filled : ∀ name, Data.parameterName? text = some name →
      ∃ data, step.data? = some data ∧ data ≠ []) :
    Finds step.Meets step.Blames ((Data.parameterName? text).toList.map (.covers statement))
      (step.coverageFailure? statement text) := by
  cases named : Data.parameterName? text with
  | none =>
      have unfailing : step.coverageFailure? statement text = none := by
        simp [coverageFailure?, named]
      rw [unfailing]
      exact Finds.nil
  | some name =>
      obtain ⟨data, present, rows⟩ := filled name named
      have met : step.Meets (.covers statement name) ↔ step.coverageFailure? statement text = none := by
        rw [coverageFailure?_eq_none_iff]
        simp [Meets, Resolves, Covers, Data.Covers, named, present, rows]
      apply Finds.cons
      · intro uncovered
        obtain ⟨failure, failed⟩ := Option.ne_none_iff_exists'.mp (met.not.mp uncovered)
        refine ⟨failure, failed, ?_⟩
        simp only [coverageFailure?, named, present, Option.getD_some, Option.bind_eq_bind,
          Option.bind_some, Option.bind_eq_some_iff, Option.pure_def, Option.some.injEq,
          Verdict.failure?_eq_some_iff] at failed
        obtain ⟨cause, refused, rfl⟩ := failed
        exact Blames.covers present refused (Data.reports_of_check rows refused)
      · intro covered
        rw [met.mp covered]
        exact Finds.nil

theorem finds_statement {step : Step} {statement : Statement} {found? : Option Failure}
    (filled : statement.references ≠ [] → ∃ data, step.data? = some data ∧ data ≠ [])
    (refused : ∀ cause, statement.check = .invalid cause →
      found? = some (.caused ⟨.step step, .step, statement.refusal, []⟩ cause))
    (passed : statement.check.isValid = true →
      found? = statement.values.findSome? (step.coverageFailure? statement)) :
    Finds step.Meets step.Blames (statementDemands statement) found? := by
  apply Finds.cons
  · intro unsound
    cases checked : statement.check with
    | valid subject => simp [Meets, checked] at unsound
    | invalid cause => exact ⟨_, refused cause checked, Blames.sound checked⟩
  · intro sound
    have each : ∀ text ∈ statement.values, Finds step.Meets step.Blames
        ((Data.parameterName? text).toList.map (.covers statement))
        (step.coverageFailure? statement text) := by
      intro text member
      apply finds_coverageFailure?
      intro name named
      exact filled (List.ne_nil_of_mem (List.mem_filterMap.mpr ⟨text, member, named⟩))
    have shaped : statement.references.map (Demand.covers statement) =
        statement.values.flatMap fun text =>
          (Data.parameterName? text).toList.map (Demand.covers statement) := by
      rw [Statement.references, List.filterMap_eq_flatMap_toList, List.map_flatMap]
    rw [passed sound, shaped]
    exact Finds.findSome? each

theorem finds_statementFailure? {step : Step} {statement : Statement}
    (filled : statement.references ≠ [] → ∃ data, step.data? = some data ∧ data ≠ []) :
    Finds step.Meets step.Blames (statementDemands statement) (step.statementFailure? statement) := by
  apply finds_statement filled
  · intro cause refused
    cases statement with
    | action line | assertion line =>
        have invalid : line.check = .invalid cause := refused
        simp [statementFailure?, actionFailure?, assertionFailure?, invalid, Failure.causedBy,
          failure, Failure.of, Failure.link, Statement.refusal]
  · intro sound
    cases statement with
    | action line =>
        cases checked : line.check with
        | invalid cause => simp [Statement.check, checked] at sound
        | valid subject =>
            cases value : line.value? <;>
              simp [statementFailure?, actionFailure?, checked, Statement.values, value]
    | assertion line =>
        cases checked : line.check with
        | invalid cause => simp [Statement.check, checked] at sound
        | valid subject => simp [statementFailure?, assertionFailure?, checked, Statement.values,
            Assertion.sides]

theorem findSome?_statements (step : Step) :
    step.statements.findSome? step.statementFailure? =
      (step.actions.findSome? step.actionFailure?).or
        (step.assertions.findSome? step.assertionFailure?) := by
  rw [statements, List.findSome?_append, List.findSome?_map, List.findSome?_map]
  rfl

theorem finds_failure? (step : Step) : Finds step.Meets step.Blames step.demands step.failure? := by
  apply Finds.cons
  · intro silent
    have empty : step.assertions = [] := by simpa [Meets] using silent
    refine ⟨_, ?_, Blames.asserts⟩
    rw [failure?, if_pos (by simpa using empty)]
    rfl
  · intro asserts
    have guard : step.failure? =
        if !step.parameterNames.isEmpty && !step.hasData then some (step.failure .stepDataSetEmpty)
        else step.statements.findSome? step.statementFailure? := by
      rw [failure?, if_neg (by simpa [Meets] using asserts), findSome?_statements]
    apply Finds.cons
    · intro missing
      rw [meets_data_iff, IsGuarded, Classical.not_imp] at missing
      refine ⟨_, ?_, Blames.data⟩
      rw [guard, if_pos (by simpa using missing)]
      rfl
    · intro filled
      have guarded : step.IsGuarded := step.meets_data_iff.mp filled
      rw [guard, if_neg (by simpa [IsGuarded] using guarded)]
      apply Finds.findSome?
      intro statement member
      exact finds_statementFailure? fun referred => filled ⟨statement, member, referred⟩

theorem follows_check (step : Step) :
    step.check.Follows (.step step) step.demands step.Meets step.Blames := by
  have finds := step.finds_failure?
  rw [check]
  cases found : step.failure? with
  | none =>
      rw [found] at finds
      exact finds.follows (by simp)
  | some failure =>
      rw [found] at finds
      exact finds.follows (by simp)

end Step

namespace Test

inductive Demand where
  | configuration
  | steps
  | step (name : String) (step : Step)

def demands (test : Test) : List Demand :=
  .configuration :: .steps :: test.steps.map fun entry => .step entry.1 entry.2

def Meets (test : Test) : Demand → Prop
  | .configuration => test.configuration.Acceptable
  | .steps => test.steps ≠ []
  | .step _ step => step.Acceptable

inductive Blames (test : Test) : Demand → Failure → Prop
  | configuration {cause : Failure} : test.configuration.check = .invalid cause →
      Blames test .configuration (.caused ⟨.test test, .test, .testConfigurationInvalid, []⟩ cause)
  | steps : Blames test .steps (.root ⟨.test test, .test, .testNoSteps, []⟩)
  | step {name : String} {step : Step} {cause : Failure} : step.check = .invalid cause →
      Blames test (.step name step)
        (.caused ⟨.test test, .test, .testStepInvalid, [("step-name", .text name)]⟩ cause)

theorem finds_stepFailure? (test : Test) (entry : String × Step) :
    Finds test.Meets test.Blames [.step entry.1 entry.2] (test.stepFailure? entry) := by
  have met : test.Meets (.step entry.1 entry.2) ↔ test.stepFailure? entry = none :=
    (test.stepFailure?_eq_none_iff entry).symm
  apply Finds.cons
  · intro unacceptable
    obtain ⟨failure, failed⟩ := Option.ne_none_iff_exists'.mp (met.not.mp unacceptable)
    refine ⟨failure, failed, ?_⟩
    simp only [stepFailure?, Option.bind_eq_bind, Option.bind_eq_some_iff, Option.pure_def,
      Option.some.injEq, Verdict.failure?_eq_some_iff] at failed
    obtain ⟨cause, refused, rfl⟩ := failed
    exact Blames.step refused
  · intro acceptable
    rw [met.mp acceptable]
    exact Finds.nil

theorem finds_failure? (test : Test) :
    Finds test.Meets test.Blames test.demands test.check.failure? := by
  cases configured : test.configuration.check with
  | invalid cause =>
      have unmet : ¬ test.Meets .configuration := by
        rw [Meets, ← Configuration.check_isValid_iff, configured]
        simp
      refine Finds.cons (fun _ => ⟨_, ?_, Blames.configuration configured⟩) (absurd · unmet)
      rw [check, configured]
      rfl
  | valid subject =>
      have met : test.Meets .configuration := by
        rw [Meets, ← Configuration.check_isValid_iff, configured]
        rfl
      refine Finds.cons (absurd met) fun _ => ?_
      by_cases empty : test.steps = []
      · refine Finds.cons (fun _ => ⟨_, ?_, Blames.steps⟩) (absurd empty)
        simp only [check, configured, empty, List.isEmpty_nil, ↓reduceIte]
        rfl
      · refine Finds.cons (absurd empty) fun _ => ?_
        have found : test.check.failure? = test.steps.findSome? test.stepFailure? := by
          simp only [check, configured, List.isEmpty_iff, empty, ↓reduceIte]
          cases test.steps.findSome? test.stepFailure? <;> rfl
        have each := Finds.findSome? fun entry (_ : entry ∈ test.steps) => test.finds_stepFailure? entry
        rwa [found, ← List.flatMap_singleton' (test.steps.map _), List.flatMap_map]

theorem follows_check (test : Test) :
    test.check.Follows (.test test) test.demands test.Meets test.Blames := by
  apply test.finds_failure?.follows
  intro other checked
  rw [check] at checked
  split at checked
  · simp at checked
  · split at checked
    · simp at checked
    · split at checked
      · simp at checked
      · exact (Verdict.valid.inj checked).symm

end Test

namespace Page

inductive Demand where
  | url
  | element (name identifier : String)

def demands (page : Page) : List Demand :=
  .url :: page.identifiers.map fun entry => .element entry.1 entry.2

def Meets (page : Page) : Demand → Prop
  | .url => trim page.url.toList ≠ []
  | .element _ identifier => Identifier.isElement identifier.toList = true ∨
      Identifier.isDescendantElement identifier.toList = true

inductive Blames (page : Page) : Demand → Failure → Prop
  | url : Blames page .url (.root ⟨.page page, .page, .pageUrlEmpty, []⟩)
  | element {name identifier : String} : Blames page (.element name identifier)
      (.root ⟨.page page, .page, .pageInvalidIdentifier,
        [("name", .text name), ("identifier", .text identifier)]⟩)

def entryFailure? (page : Page) (entry : String × String) : Option Failure :=
  if Identifier.isTarget entry.2.toList then none
  else
    some (.root ⟨.page page, .page, .pageInvalidIdentifier,
      [("name", .text entry.1), ("identifier", .text entry.2)]⟩)

theorem finds_entryFailure? (page : Page) (entry : String × String) :
    Finds page.Meets page.Blames [.element entry.1 entry.2] (page.entryFailure? entry) := by
  have met : page.Meets (.element entry.1 entry.2) ↔ Identifier.isTarget entry.2.toList = true := by
    simp [Meets, Identifier.isTarget]
  apply Finds.cons
  · intro untargeted
    exact ⟨_, if_neg (met.not.mp untargeted), Blames.element⟩
  · intro targeted
    rw [entryFailure?, if_pos (met.mp targeted)]
    exact Finds.nil

theorem findSome?_entryFailure? (page : Page) (entries : List (String × String)) :
    entries.findSome? page.entryFailure? =
      (entries.find? fun entry => !Identifier.isTarget entry.2.toList).map fun entry =>
        .root ⟨.page page, .page, .pageInvalidIdentifier,
          [("name", .text entry.1), ("identifier", .text entry.2)]⟩ := by
  induction entries with
  | nil => rfl
  | cons entry entries ih =>
      by_cases target : Identifier.isTarget entry.2.toList = true
      · simpa [entryFailure?, target] using ih
      · simp [entryFailure?, target]

theorem follows_check (page : Page) :
    page.check.Follows (.page page) page.demands page.Meets page.Blames := by
  rw [check]
  split
  · rename_i blank
    refine Finds.follows (Finds.cons (fun _ => ⟨_, rfl, Blames.url⟩) fun filled => ?_) (by simp)
    exact absurd (by simpa using blank) filled
  · rename_i filled
    have each := Finds.findSome? fun entry (_ : entry ∈ page.identifiers) =>
      page.finds_entryFailure? entry
    have whole : Finds page.Meets page.Blames page.demands
        (page.identifiers.findSome? page.entryFailure?) := by
      have met : page.Meets .url := fun blank => filled (by simp [blank])
      refine Finds.cons (absurd met) fun _ => ?_
      rwa [← List.flatMap_singleton' (page.identifiers.map _), List.flatMap_map]
    rw [findSome?_entryFailure?] at whole
    cases found : page.identifiers.find? fun entry => !Identifier.isTarget entry.2.toList with
    | none =>
        rw [found] at whole
        exact Finds.follows whole (by simp)
    | some entry =>
        rw [found] at whole
        exact Finds.follows whole (by simp)

end Page

/-- Of several faults the first is reported: of a step by its statements in order, each with its
references behind it, of a test by its steps and of a page by its names. -/
theorem checks_follow_demands :
    (∀ step : Step, step.check.Follows (.step step) step.demands step.Meets step.Blames) ∧
    (∀ test : Test, test.check.Follows (.test test) test.demands test.Meets test.Blames) ∧
    ∀ page : Page, page.check.Follows (.page page) page.demands page.Meets page.Blames :=
  ⟨Step.follows_check, Test.follows_check, Page.follows_check⟩

-- A reference that is not covered is reported before the command behind it that is not known.
example :
    let reads := Action.ofLine "set $\".city\" to $data.city"
    let step : Step := ⟨[reads, Action.ofLine "hover"], [Assertion.ofLine "$\".map\" exists"],
      some [⟨"first", []⟩]⟩
    step.check.failure?.map (·.link) =
      some ⟨.step step, .step, .stepDataInvalid, [("statement", .statement (.action reads))]⟩ := by
  decide +kernel

end WebTestLint
