import WebTestLint.Proofs.Faults
import WebTestLint.Proofs.Outcome
import WebTestLint.Proofs.Pieces
import WebTestLint.Proofs.Shape
import WebTestLint.Proofs.Spelled

/-!
Where a report on documents breaks its lines. The report has one line for each fact as long as no text that
it repeats holds a line feed, and all that it repeats of a document are names and statements.
-/

namespace WebTestLint

theorem isLine_of_infix {part whole : String} (inside : part.toList <:+: whole.toList)
    (line : IsLine whole) : IsLine part :=
  fun member => line (inside.subset member)

theorem isLine_of_blankFree {text : String} (word : BlankFree text.toList) : IsLine text := by
  intro member
  have blank : isBlank '\n' = true := by decide
  simp [word '\n' member] at blank

theorem Action.IsInput.suffix {arguments identifier value : List Char}
    (cut : IsInput arguments identifier value) : value <:+ arguments := by
  cases cut with
  | @bare gap whole => exact ⟨identifier ++ gap, by rw [whole, List.append_assoc]⟩
  | @keyword gap between whole =>
      exact ⟨identifier ++ (gap ++ ("to".toList ++ between)), by rw [whole]; simp⟩

namespace Action

theorem arguments_infix_source (line : String) :
    (ofLine line).arguments.toList <:+: (ofLine line).source.toList := by
  obtain ⟨gap, cut⟩ := exists_isCut line
  refine ⟨(ofLine line).command.toList ++ gap, [], ?_⟩
  have source : (ofLine line).source.toList = trim line.toList := by simp [ofLine]
  rw [source, cut.whole]
  simp

theorem value_infix_arguments {line value : String} (read : (ofLine line).value? = some value) :
    value.toList <:+: (ofLine line).arguments.toList := by
  cases kind : (ofLine line).kind with
  | input identifier other =>
      obtain rfl : other = value := by simpa [value?, kind] using read
      obtain ⟨gap, cut⟩ := exists_isCut line
      obtain ⟨_, _, same, input, _⟩ := cut.input (command_eq_set_of_input kind)
      obtain ⟨rfl, rfl⟩ := Kind.input.inj (kind.symm.trans same)
      exact input.suffix.isInfix
  | _ => simp [value?, kind] at read

theorem duration_infix_arguments {line duration : String} (read : (ofLine line).duration? = some duration) :
    duration.toList <:+: (ofLine line).arguments.toList := by
  cases kind : (ofLine line).kind with
  | wait other =>
      obtain rfl : other = duration := by simpa [duration?, kind] using read
      rw [kind_eq_kindOf, kindOf] at kind
      split at kind
      · simp at kind
      · split at kind
        · simp at kind
        · split at kind
          · obtain rfl := Kind.wait.inj kind
            simp
          · split at kind <;> simp at kind
  | _ => simp [duration?, kind] at read

end Action

namespace Assertion

variable (line : String)

theorem parts_infix_source :
    (ofLine line).identifier.toList <:+: (ofLine line).source.toList ∧
      tail line <:+: (ofLine line).source.toList := by
  obtain ⟨before, between, cut⟩ := exists_isCut line
  have source : (ofLine line).source.toList = trim line.toList := by simp [ofLine]
  rw [source, cut.whole]
  constructor
  · exact (List.prefix_append _ _).isInfix
  · exact ⟨(ofLine line).identifier.toList ++ (before ++ ((ofLine line).operator.toList ++ between)), [], by simp⟩

theorem sides_infix_source {text : String} (listed : text ∈ (ofLine line).sides) :
    text.toList <:+: (ofLine line).source.toList := by
  obtain ⟨identifier, behind⟩ := parts_infix_source line
  rcases List.mem_cons.mp listed with rfl | value
  · exact identifier
  · rw [Option.mem_toList, value?_eq] at value
    split at value
    · simp at value
    · obtain rfl := Option.some.inj value
      simpa using behind

theorem isLine_operator : IsLine (ofLine line).operator := by
  obtain ⟨_, _, cut⟩ := exists_isCut line
  exact isLine_of_blankFree cut.word

end Assertion

namespace Step

structure IsRead (step : Step) : Prop where
  actions : ∀ action ∈ step.actions, ∃ line, action = Action.ofLine line
  assertions : ∀ assertion ∈ step.assertions, ∃ line, assertion = Assertion.ofLine line

theorem IsRead.infix_source {step : Step} (read : step.IsRead) {statement : Statement}
    (listed : statement ∈ step.statements) {text : String} (side : text ∈ statement.texts) :
    text.toList <:+: statement.source.toList := by
  rcases List.mem_append.mp listed with first | second
  · obtain ⟨action, taken, rfl⟩ := List.mem_map.mp first
    obtain ⟨line, rfl⟩ := read.actions action taken
    refine List.IsInfix.trans ?_ (Action.arguments_infix_source line)
    rcases List.mem_append.mp side with value | duration
    · exact Action.value_infix_arguments (Option.mem_toList.mp value)
    · exact Action.duration_infix_arguments (Option.mem_toList.mp duration)
  · obtain ⟨assertion, made, rfl⟩ := List.mem_map.mp second
    obtain ⟨line, rfl⟩ := read.assertions assertion made
    exact Assertion.sides_infix_source line side

theorem isRead_of_ofDraft {name : String} {draft : Draft} {step : Step}
    (made : ofDraft name draft = .ok step) : step.IsRead := by
  obtain ⟨data?, _, rfl⟩ := (ofDraft_eq_ok_iff name draft step).mp made
  constructor
  · intro action listed
    obtain ⟨line, _, rfl⟩ := List.mem_map.mp listed
    exact ⟨line, rfl⟩
  · intro assertion listed
    obtain ⟨line, _, rfl⟩ := List.mem_map.mp listed
    exact ⟨line, rfl⟩

theorem isRead_of_ofMember {member : String × Json.Value} {entry : String × Step}
    (made : ofMember member = .ok entry) : entry.2.IsRead := by
  unfold ofMember at made
  split at made
  · split at made
    · obtain ⟨step, drafted, rfl⟩ := map_eq_ok_iff.mp made
      exact isRead_of_ofDraft drafted
    · simp at made
  · simp at made

end Step

theorem Test.isRead_of_load {content : String} {test : Test} (loaded : load content = .ok test) :
    ∀ entry ∈ test.steps, entry.2.IsRead := by
  obtain ⟨draft, _, loaded⟩ := bind_eq_ok_iff.mp loaded
  obtain ⟨steps, made, same⟩ := bind_eq_ok_iff.mp loaded
  obtain rfl := Except.ok.inj same
  intro entry listed
  have each := (mapM_eq_ok_iff _ _ _).mp (mapError_eq_ok_iff.mp made)
  obtain ⟨member, _, read⟩ := exists_of_forall₂ each listed
  exact Step.isRead_of_ofMember read

namespace Failure

def details (failure : Failure) : List String :=
  failure.chain.flatMap fun link => link.context.map fun entry => entry.2.show

@[simp] theorem details_root (link : Link) : (root link).details = link.context.map fun entry => entry.2.show := by
  simp [details, chain]

@[simp] theorem details_caused (link : Link) (cause : Failure) :
    (caused link cause).details = (link.context.map fun entry => entry.2.show) ++ cause.details := by
  simp [details, chain]

end Failure

theorem Value.Reports.details_eq {value : String} {failure : Failure} (reports : Reports value failure) :
    failure.details = [] := by
  cases reports
  simp

theorem Action.Reports.details_eq {action : Action} {failure : Failure} (reports : action.Reports failure) :
    failure.details = [] := by
  cases reports with
  | identifier _ | command _ => simp
  | value _ _ below | duration _ _ below => simp [below.details_eq]

theorem Assertion.Reports.details_eq {assertion : Assertion} {failure : Failure}
    (reports : assertion.Reports failure) :
    failure.details = [] ∨ failure.details = [assertion.operator] := by
  cases reports with
  | operator _ => simp [Detail.show]
  | identifier _ below | value _ _ below => simp [below.details_eq]

theorem Data.Reports.details_eq {name : String} {data : Data} {failure : Failure}
    (reports : data.Reports name failure) : failure.details = [name] := by
  cases reports with
  | row _ _ _ below =>
      cases below
      simp [Detail.show]

theorem Step.Reports.isLine_details {step : Step} {failure : Failure} (reports : step.Reports failure)
    (read : step.IsRead) (lines : ∀ statement ∈ step.statements, IsLine statement.source) :
    ∀ detail ∈ failure.details, IsLine detail := by
  cases reports with
  | noAssertions _ | dataSetEmpty _ => simp
  | action _ _ below => simp [below.details_eq]
  | @assertion assertion cause listed _ below =>
      obtain ⟨line, rfl⟩ := read.assertions assertion listed
      rcases below.details_eq with none | operator
      · simp [none]
      · simpa [operator] using Assertion.isLine_operator line
  | @data data statement text name cause _ listed side named _ below =>
      have whole := lines statement listed
      have behind : name.toList <:+: text.toList := by
        rw [Data.toList_of_parameterName? named]
        exact (List.suffix_append _ _).isInfix
      have inside := behind.trans (read.infix_source listed side)
      simpa [below.details_eq, Detail.show] using ⟨whole, isLine_of_infix inside whole⟩

theorem Test.isLine_details {test : Test} {failure : Failure} (failed : test.check = .invalid failure)
    (read : ∀ entry ∈ test.steps, entry.2.IsRead)
    (lines : ∀ entry ∈ test.steps, IsLine entry.1 ∧
      ∀ statement ∈ entry.2.statements, IsLine statement.source) :
    ∀ detail ∈ failure.details, IsLine detail := by
  cases reports_of_check failed with
  | configuration _ below =>
      cases below
      simp
  | noSteps _ => simp
  | @step name step cause listed _ below =>
      obtain ⟨named, statements⟩ := lines _ listed
      have inner := below.isLine_details (read _ listed) statements
      simpa [Detail.show] using ⟨named, inner⟩

theorem Page.isLine_details {page : Page} {failure : Failure} (failed : page.check = .invalid failure)
    (lines : ∀ entry ∈ page.identifiers, IsLine entry.1 ∧ IsLine entry.2) :
    ∀ detail ∈ failure.details, IsLine detail := by
  rw [check] at failed
  split at failed
  · obtain rfl := Verdict.invalid.inj failed
    simp [Page.failure, Failure.of]
  · split at failed
    · rename_i name identifier found
      obtain rfl := Verdict.invalid.inj failed
      have element := lines _ (List.mem_of_find?_eq_some found)
      simpa [Page.failure, Failure.of, Failure.setContext, Context.set, Detail.show] using element
    · simp at failed

namespace Document

/-- No name in a document, and no statement or identifier, holds a line feed. -/
structure IsUnbroken (content importName : String) : Prop where
  test : ∀ test, Test.load content = .ok test →
    ∀ entry ∈ test.steps, IsLine entry.1 ∧ ∀ statement ∈ entry.2.statements, IsLine statement.source
  page : ∀ page, Page.load content importName = .ok page →
    ∀ entry ∈ page.identifiers, IsLine entry.1 ∧ IsLine entry.2
  fault : ∀ kind fault, lintAs kind content importName = .error (.shape fault) →
    ∀ name ∈ fault.names, IsLine name

variable {kind? : Option Kind} {content importName : String} {kind : Kind} {failure : Failure}

theorem lintAs_invalid_cases (linted : lintAs kind content importName = .ok (.invalid failure)) :
    (∃ test, Test.load content = .ok test ∧ test.check = .invalid failure) ∨
      ∃ page, Page.load content importName = .ok page ∧ page.check = .invalid failure := by
  cases kind with
  | test =>
      obtain ⟨test, loaded, failed⟩ := map_eq_ok_iff.mp linted
      exact .inl ⟨test, loaded, failed⟩
  | page =>
      obtain ⟨page, loaded, failed⟩ := map_eq_ok_iff.mp linted
      exact .inr ⟨page, loaded, failed⟩

theorem isProper_of_lint (linted : lint kind? content importName = .ok (kind, .invalid failure)) :
    ∀ link ∈ failure.chain, link.IsProper := by
  rcases lintAs_invalid_cases ((lint_eq_ok_iff ..).mp linted).2 with ⟨test, _, failed⟩ | ⟨page, _, failed⟩
  · exact (Test.reports_of_check failed).hasShape.proper
  · exact (Page.hasShape_of_check failed).proper

theorem IsUnbroken.isLine_details (unbroken : IsUnbroken content importName)
    (linted : lint kind? content importName = .ok (kind, .invalid failure)) :
    ∀ detail ∈ failure.details, IsLine detail := by
  rcases lintAs_invalid_cases ((lint_eq_ok_iff ..).mp linted).2 with
    ⟨test, loaded, failed⟩ | ⟨page, loaded, failed⟩
  · exact Test.isLine_details failed (Test.isRead_of_load loaded) (unbroken.test test loaded)
  · exact Page.isLine_details failed (unbroken.page page loaded)

theorem IsUnbroken.isLine_names (unbroken : IsUnbroken content importName) {cause : LoadError}
    (failed : lint kind? content importName = .error cause) : ∀ name ∈ cause.names, IsLine name := by
  have kinds : FailsWith (fun cause : LoadError => ∀ name ∈ cause.names, IsLine name) (kindOf content) := by
    refine failsWith_bind ?_ fun value _ => ?_
    · exact (failsWith_mapError_iff _ _).mpr fun fault _ => List.forall_mem_nil _
    · split
      · exact failsWith_ok _
      · exact (failsWith_error_iff _).mpr (List.forall_mem_nil _)
  have names : FailsWith (fun cause : LoadError => ∀ name ∈ cause.names, IsLine name)
      (lint kind? content importName) := by
    refine failsWith_bind ?_ fun kind _ => failsWith_bind ?_ fun _ _ => failsWith_ok _
    · cases kind? with
      | some kind => exact failsWith_ok _
      | none => exact kinds
    · intro cause failed
      cases cause with
      | json _ _ => exact List.forall_mem_nil _
      | shape fault => exact unbroken.fault kind fault failed
  exact names cause failed

end Document

theorem Layer.isLine_code (layer : Layer) : IsLine layer.code := by
  cases layer <;> decide

namespace Reason

theorem isLine_code (reason : Reason) : IsLine reason.code := by
  cases reason <;> decide +kernel

theorem isLine_of_mem_keys (reason : Reason) : ∀ key ∈ reason.keys, IsLine key := by
  cases reason <;> decide

end Reason

theorem LoadError.isLine_trace_iff (cause : LoadError) :
    IsLine (": ".intercalate cause.trace) ↔ IsLine cause.detail := by
  have colon : IsLine ": " := by decide
  have json : IsLine "Invalid JSON: " := by decide
  have shape : IsLine "Invalid document: " := by decide
  cases cause with
  | json fault position =>
      generalize found : (LoadError.json fault position).detail = detail
      have joined : ": ".intercalate (LoadError.json fault position).trace =
          "Invalid JSON: " ++ detail ++ ": " ++ detail := by
        rw [← found]
        rfl
      simp [joined, json, colon]
  | shape fault =>
      have single : ": ".intercalate (LoadError.shape fault).trace =
          "Invalid document: " ++ (LoadError.shape fault).detail := rfl
      simp [single, shape]

theorem File.LintError.isLine_message_unloadable_iff (path : List Char) (cause : LoadError) :
    IsLine (unloadable path cause).message ↔ IsLine (String.ofList path) ∧ IsLine cause.detail := by
  have lead : IsLine "Failed to load " := by decide
  have colon : IsLine ": " := by decide
  change IsLine ("Failed to load " ++ String.ofList path ++ ": " ++ ": ".intercalate cause.trace) ↔ _
  simp [lead, colon, LoadError.isLine_trace_iff]

namespace Report

theorem Entry.isUnbroken_ofLink_iff {link : Link} (proper : link.IsProper) :
    (Entry.ofLink link).IsUnbroken ↔ ∀ entry ∈ link.context, IsLine entry.2.show := by
  constructor
  · intro unbroken entry listed
    exact (unbroken.context _ (List.mem_map_of_mem listed)).2
  · intro lines
    refine ⟨link.layer.isLine_code, link.reason.isLine_code, ?_⟩
    intro detail listed
    obtain ⟨entry, present, rfl⟩ := List.mem_map.mp listed
    refine ⟨link.reason.isLine_of_mem_keys entry.1 ?_, lines entry present⟩
    rw [← proper.2]
    exact List.mem_map_of_mem present

theorem forall_isUnbroken_entries_iff {failure : Failure} (proper : ∀ link ∈ failure.chain, link.IsProper) :
    (∀ entry ∈ entries failure, entry.IsUnbroken) ↔ ∀ detail ∈ failure.details, IsLine detail := by
  rw [entries, List.forall_mem_map, Failure.details, List.forall_mem_flatMap]
  refine forall₂_congr fun link listed => ?_
  rw [Entry.isUnbroken_ofLink_iff (proper link listed), List.forall_mem_map]

structure Source where
  label : String
  path : List Char
  content : String
  importName : String
  kind? : Option Document.Kind

namespace Source

def linted (source : Source) : Except LoadError (Document.Kind × Verdict) :=
  Document.lint source.kind? source.content source.importName

def report (source : Source) : File :=
  match source.linted with
  | .ok (kind, verdict) => .ofVerdict source.label kind verdict
  | .error cause => .ofError source.label source.kind? (File.LintError.unloadable source.path cause).message

/-- What the report on a document repeats of it, and of where it comes from. -/
def repeats (source : Source) : List String :=
  source.label ::
    match source.linted with
    | .ok (_, .valid _) => []
    | .ok (_, .invalid failure) => failure.details
    | .error cause => String.ofList source.path :: cause.names

theorem isUnbroken_report_iff (source : Source) :
    source.report.IsUnbroken ↔ ∀ text ∈ source.repeats, IsLine text := by
  unfold report repeats
  cases result : source.linted with
  | error cause =>
      have names : IsLine cause.detail ↔ ∀ name ∈ cause.names, IsLine name :=
        Document.failsWith_lint _ _ _ cause result
      simp only [List.forall_mem_cons, ← names, ← File.LintError.isLine_message_unloadable_iff]
      constructor
      · rintro ⟨label, _, error⟩
        exact ⟨label, error _ rfl⟩
      · rintro ⟨label, error⟩
        exact ⟨label, List.forall_mem_nil _, by simpa [File.ofError] using error⟩
  | ok made =>
      obtain ⟨kind, subject | failure⟩ := made
      · constructor
        · rintro ⟨label, _, _⟩
          exact List.forall_mem_singleton.mpr label
        · intro label
          exact ⟨List.forall_mem_singleton.mp label, List.forall_mem_nil _, by simp [File.ofVerdict]⟩
      · have chain := forall_isUnbroken_entries_iff (Document.isProper_of_lint result)
        simp only [List.forall_mem_cons, ← chain]
        constructor
        · rintro ⟨label, entries, _⟩
          exact ⟨label, entries⟩
        · rintro ⟨label, entries⟩
          exact ⟨label, entries, by simp [File.ofVerdict]⟩

theorem isLine_of_mem_repeats {source : Source} (label : IsLine source.label)
    (path : IsLine (String.ofList source.path))
    (unbroken : Document.IsUnbroken source.content source.importName) :
    ∀ text ∈ source.repeats, IsLine text := by
  unfold repeats
  rw [List.forall_mem_cons]
  refine ⟨label, ?_⟩
  split
  · exact List.forall_mem_nil _
  · rename_i result
    exact unbroken.isLine_details result
  · rename_i result
    exact List.forall_mem_cons.mpr ⟨path, unbroken.isLine_names result⟩

end Source

/-- The report of a file that holds a text is the report on that text. -/
theorem report_eq_of_readText {root : WebTestLint.File.Directory} {path : List Char} {content : String}
    (read : WebTestLint.File.readText root path = .ok content) (kind? : Option Document.Kind) (label : String) :
    WebTestLint.File.report root kind? label path =
      Source.report ⟨label, path, content, String.ofList (WebTestLint.File.stem path), kind?⟩ := by
  rw [WebTestLint.File.report, WebTestLint.File.lint_eq_of_readText read, Source.report, Source.linted]
  cases Document.lint kind? content (String.ofList (WebTestLint.File.stem path)) <;> rfl

/-- The report on documents has one line for each file, each link of its failure and its error, and after a
blank line the summary, just if nothing that it repeats holds a line feed. -/
theorem text_one_line_per_fact_iff (sources : List Source) :
    (∀ file ∈ sources.map Source.report,
      file.lines.length = 1 + file.chain.length + file.error?.toList.length) ∧
    (rows (text (sources.map Source.report)) =
        (sources.map Source.report).flatMap File.lines ++ (if sources = [] then [] else [""]) ++
          [(Summary.of (sources.map Source.report)).line] ↔
      ∀ source ∈ sources, ∀ text ∈ source.repeats, IsLine text) ∧
    ∀ source ∈ sources, IsLine source.label → IsLine (String.ofList source.path) →
      Document.IsUnbroken source.content source.importName → ∀ text ∈ source.repeats, IsLine text := by
  refine ⟨fun file _ => file.length_lines, ?_, ?_⟩
  · have laid : lines (sources.map Source.report) =
        (sources.map Source.report).flatMap File.lines ++ (if sources = [] then [] else [""]) ++
          [(Summary.of (sources.map Source.report)).line] := by
      cases sources <;> rfl
    rw [← laid, rows_text_eq_lines_iff, List.forall_mem_map]
    exact forall₂_congr fun source _ => source.isUnbroken_report_iff
  · intro source _
    exact Source.isLine_of_mem_repeats

def bareSource : Source :=
  ⟨"open.json", "/open.json".toList,
    "\x7b\"config\":\x7b\"browser\":\"b\",\"url\":\"u\"\x7d,\"open\":\x7b\x7d\x7d", "open", none⟩

theorem isUnbroken_bareSource : Document.IsUnbroken bareSource.content bareSource.importName := by
  have test : Test.load bareSource.content = .ok ⟨⟨"b", "u"⟩, [("open", ⟨[], [], none⟩)]⟩ := by
    decide +kernel
  have page : Page.load bareSource.content bareSource.importName = .ok ⟨"open", "", []⟩ := by
    decide +kernel
  constructor
  · intro loaded read
    obtain rfl := Except.ok.inj (test.symm.trans read)
    decide +kernel
  · intro loaded read
    obtain rfl := Except.ok.inj (page.symm.trans read)
    decide +kernel
  · intro kind fault failed
    cases kind <;> simp [Document.lintAs, test, page, Except.map] at failed

theorem text_one_line_per_fact_bare :
    Document.IsUnbroken bareSource.content bareSource.importName ∧
      (rows (text [bareSource.report])).length = 5 := by
  refine ⟨isUnbroken_bareSource, ?_⟩
  obtain ⟨_, whole, plain⟩ := text_one_line_per_fact_iff [bareSource]
  have repeats := plain bareSource List.mem_cons_self (by decide) (by decide) isUnbroken_bareSource
  have lines := whole.mpr (List.forall_mem_singleton.mpr repeats)
  exact (congrArg List.length lines).trans (by decide +kernel)

def brokenSource : Source :=
  ⟨"open.json", "/open.json".toList,
    "\x7b\"config\":\x7b\"browser\":\"b\",\"url\":\"u\"\x7d,\"a\\nb\":\x7b\x7d\x7d", "open", none⟩

def brokenReport : File :=
  { file := "open.json"
    kind? := some .test
    status := .invalid
    chain := [⟨"test", "test-step-invalid", "test (1 steps)", [("step-name", "a\nb")]⟩,
      ⟨"step", "step-no-assertions", "step (0 actions, 0 assertions)", []⟩]
    error? := none }

theorem text_breaks_step_name :
    brokenSource.report = brokenReport ∧ IsLine brokenReport.file ∧ brokenReport.lines.length = 3 ∧
      (rows (text [brokenReport])).length = 6 ∧
      rows (text [brokenReport]) ≠ brokenReport.lines ++ [""] ++ [(Summary.of [brokenReport]).line] := by
  have reported : brokenSource.report = brokenReport := by decide +kernel
  have made : brokenReport.lines.length = 3 := rfl
  have printed : (rows (text [brokenReport])).length = 6 := by decide +kernel
  refine ⟨reported, by decide, made, printed, ?_⟩
  intro same
  have lengths := congrArg List.length same
  simp [printed, made] at lengths

end Report

end WebTestLint
