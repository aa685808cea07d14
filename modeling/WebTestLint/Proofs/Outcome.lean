import WebTestLint.CommandLine.Run
import WebTestLint.Proofs.Results

/-!
What a run comes to. Each file that the patterns stand for has a report of its own, which tells what came
of reading, loading and checking it, and the run fails if one of the files is not valid.
-/

namespace WebTestLint

theorem Failure.exists_chain_eq (failure : Failure) :
    ∃ below, failure.chain = failure.link :: below := by
  cases failure with
  | root link => exact ⟨[], rfl⟩
  | caused link cause => exact ⟨cause.chain, rfl⟩

namespace Report

theorem count_eq_zero_iff (status : Status) (files : List File) :
    count status files = 0 ↔ ∀ file ∈ files, file.status ≠ status := by
  simp [count, List.countP_eq_zero]

theorem hasFailures_eq_false_iff (files : List File) :
    (Summary.of files).hasFailures = false ↔ ∀ file ∈ files, file.status = .valid := by
  have counts : (Summary.of files).hasFailures =
      (decide (0 < count .invalid files) || decide (0 < count .error files)) := rfl
  simp only [counts, Bool.or_eq_false_iff, decide_eq_false_iff_not, Nat.not_lt, Nat.le_zero,
    count_eq_zero_iff]
  constructor
  · rintro ⟨sound, loaded⟩ file member
    cases status : file.status with
    | valid => rfl
    | invalid => exact absurd status (sound file member)
    | error => exact absurd status (loaded file member)
  · intro valid
    constructor
    · intro file member
      simp [valid file member]
    · intro file member
      simp [valid file member]

end Report

namespace File

open Report (Entry)

theorem readText_eq_ok_iff (root : Directory) (path : List Char) (content : String) :
    readText root path = .ok content ↔ entryAt? root path = some (.file (.text content)) := by
  unfold readText entryAt?
  cases locate root path with
  | error cause => simp [bind, Except.bind, Except.toOption]
  | ok place =>
      simp only [bind, Except.bind, Except.toOption, Option.bind_some]
      split <;> simp_all [pure, Except.pure, throw, throwThe, MonadExceptOf.throw]

theorem resolvePatterns_eq_ok_iff (root : Directory) (folder : List Char) (patterns paths : List String) :
    resolvePatterns root folder patterns = .ok paths ↔
      ∃ found, List.Forall₂ (fun pattern texts => resolvePattern root folder pattern = .ok texts)
        patterns found ∧ paths = sortDistinct found.flatten := by
  unfold resolvePatterns
  constructor
  · intro resolved
    cases all : patterns.mapM (resolvePattern root folder) with
    | error fault => simp [all, Except.map] at resolved
    | ok found =>
        refine ⟨found, (mapM_eq_ok_iff _ _ _).mp all, ?_⟩
        simpa [all, Except.map, eq_comm] using resolved
  · rintro ⟨found, each, rfl⟩
    rw [(mapM_eq_ok_iff _ _ _).mpr each]
    rfl

theorem mem_paths_iff {root : Directory} {folder : List Char} {patterns paths : List String}
    (resolved : resolvePatterns root folder patterns = .ok paths) (path : String) :
    path ∈ paths ↔
      ∃ pattern ∈ patterns, ∃ texts, resolvePattern root folder pattern = .ok texts ∧ path ∈ texts := by
  obtain ⟨found, each, rfl⟩ := (resolvePatterns_eq_ok_iff _ _ _ _).mp resolved
  rw [mem_sortDistinct]
  clear resolved
  induction each with
  | nil => simp
  | cons first _ ih => simp [first, ih]

theorem pairwise_paths {root : Directory} {folder : List Char} {patterns paths : List String}
    (resolved : resolvePatterns root folder patterns = .ok paths) : paths.Pairwise (· < ·) := by
  obtain ⟨found, _, rfl⟩ := (resolvePatterns_eq_ok_iff _ _ _ _).mp resolved
  exact pairwise_sortDistinct found.flatten

section

variable (root : Directory) (folder : List Char) (kind? : Option Document.Kind)

def Passes (path : String) : Prop :=
  ∃ content kind subject, entryAt? root path.toList = some (.file (.text content)) ∧
    Document.lint kind? content (String.ofList (stem path.toList)) = .ok (kind, .valid subject)

/-- What is reported of the file at a path: a failure from its outermost link on, and an error if there
is no text at the path or no document in it. -/
inductive Reports (path : String) : Report.File → Prop
  | valid {content : String} {kind : Document.Kind} {subject : Subject} :
      entryAt? root path.toList = some (.file (.text content)) →
      Document.lint kind? content (String.ofList (stem path.toList)) = .ok (kind, .valid subject) →
      Reports path ⟨String.ofList (display folder path.toList), some kind, .valid, [], none⟩
  | invalid {content : String} {kind : Document.Kind} {failure : Failure} {below : List Link} :
      entryAt? root path.toList = some (.file (.text content)) →
      Document.lint kind? content (String.ofList (stem path.toList)) = .ok (kind, .invalid failure) →
      failure.chain = failure.link :: below →
      Reports path ⟨String.ofList (display folder path.toList), some kind, .invalid,
        Entry.ofLink failure.link :: below.map Entry.ofLink, none⟩
  | unloadable {content : String} {cause : LoadError} :
      entryAt? root path.toList = some (.file (.text content)) →
      Document.lint kind? content (String.ofList (stem path.toList)) = .error cause →
      Reports path ⟨String.ofList (display folder path.toList), kind?, .error, [],
        some (LintError.unloadable path.toList cause).message⟩
  | unreadable {cause : PathError} : readText root path.toList = .error cause →
      Reports path ⟨String.ofList (display folder path.toList), kind?, .error, [],
        some (LintError.unreadable path.toList cause).message⟩

end

variable {root : Directory} {folder : List Char} {kind? : Option Document.Kind}

theorem lint_eq_of_readText {path : List Char} {content : String}
    (read : readText root path = .ok content) :
    lint root kind? path =
      (Document.lint kind? content (String.ofList (stem path))).mapError (.unloadable path) := by
  rw [lint, read]
  rfl

theorem reports_report (path : String) :
    Reports root folder kind? path
      (report root kind? (String.ofList (display folder path.toList)) path.toList) := by
  unfold report
  cases read : readText root path.toList with
  | error cause =>
      have unread : lint root kind? path.toList = .error (.unreadable path.toList cause) := by
        rw [lint, read]
        rfl
      rw [unread]
      exact Reports.unreadable read
  | ok content =>
      rw [lint_eq_of_readText read]
      have entry := (readText_eq_ok_iff _ _ _).mp read
      cases linted : Document.lint kind? content (String.ofList (stem path.toList)) with
      | error cause => exact Reports.unloadable entry linted
      | ok result =>
          obtain ⟨kind, subject | failure⟩ := result
          · exact Reports.valid entry linted
          · obtain ⟨below, chain⟩ := failure.exists_chain_eq
            have entries : Report.entries failure = Entry.ofLink failure.link :: below.map Entry.ofLink := by
              simp [Report.entries, chain]
            change Reports root folder kind? path (Report.File.ofVerdict _ kind (.invalid failure))
            rw [Report.File.ofVerdict, entries]
            exact Reports.invalid entry linted chain

theorem Reports.status_eq_valid_iff {path : String} {file : Report.File}
    (made : Reports root folder kind? path file) : file.status = .valid ↔ Passes root kind? path := by
  have unique {content other : String}
      (entry : entryAt? root path.toList = some (.file (.text content)))
      (same : entryAt? root path.toList = some (.file (.text other))) : content = other := by
    simpa [entry] using same
  constructor
  · intro status
    cases made with
    | valid entry linted => exact ⟨_, _, _, entry, linted⟩
    | invalid | unloadable | unreadable => simp at status
  · rintro ⟨content, kind, subject, entry, linted⟩
    cases made with
    | valid => rfl
    | invalid same other =>
        obtain rfl := unique entry same
        simp [linted] at other
    | unloadable same other =>
        obtain rfl := unique entry same
        simp [linted] at other
    | unreadable unread =>
        rw [(readText_eq_ok_iff _ _ _).mpr entry] at unread
        simp at unread

theorem forall_status_iff {paths : List String} {files : List Report.File}
    (each : List.Forall₂ (Reports root folder kind?) paths files) :
    (∀ file ∈ files, file.status = .valid) ↔ ∀ path ∈ paths, Passes root kind? path := by
  induction each with
  | nil => simp
  | cons first _ ih => simp [first.status_eq_valid_iff, ih]

end File

namespace CommandLine

theorem code_run_eq_zero_iff {root : File.Directory} {folder : List Char} {arguments : List String}
    {parsed : Arguments} {files : List Report.File} (read : parse arguments = .ok parsed)
    (made : File.reports root folder parsed.kind? parsed.targets = .ok files) :
    (run root folder arguments).code = 0 ↔ (Report.Summary.of files).hasFailures = false := by
  rw [run, read]
  simp only [made, Outcome.ofReports]
  cases (Report.Summary.of files).hasFailures <;> simp

end CommandLine

/-- Patterns that can be resolved stand for paths without repeats and in order, and each has a report of
its own. Nothing fails, in the summary or in the code that the command line exits with, just if all the
paths lead to valid documents. -/
theorem File.reports_and_failures {root : Directory} {folder : List Char} {patterns paths : List String}
    (resolved : resolvePatterns root folder patterns = .ok paths) (kind? : Option Document.Kind) :
    (∀ path, path ∈ paths ↔
      ∃ pattern ∈ patterns, ∃ texts, resolvePattern root folder pattern = .ok texts ∧ path ∈ texts) ∧
    paths.Pairwise (· < ·) ∧
    (∃ files, reports root folder kind? patterns = .ok files ∧
      List.Forall₂ (Reports root folder kind?) paths files ∧
      ((Report.Summary.of files).hasFailures = false ↔ ∀ path ∈ paths, Passes root kind? path)) ∧
    ∀ arguments parsed, CommandLine.parse arguments = .ok parsed → parsed.targets = patterns →
      parsed.kind? = kind? →
      ((CommandLine.run root folder arguments).code = 0 ↔ ∀ path ∈ paths, Passes root kind? path) := by
  have made : reports root folder kind? patterns = .ok (paths.map fun path =>
      report root kind? (String.ofList (display folder path.toList)) path.toList) := by
    rw [reports, resolved]
    rfl
  have each : List.Forall₂ (Reports root folder kind?) paths (paths.map fun path =>
      report root kind? (String.ofList (display folder path.toList)) path.toList) := by
    rw [List.forall₂_map_right_iff, List.forall₂_same]
    exact fun path _ => reports_report path
  have passes := (Report.hasFailures_eq_false_iff _).trans (forall_status_iff each)
  refine ⟨mem_paths_iff resolved, pairwise_paths resolved, ⟨_, made, each, passes⟩, ?_⟩
  rintro arguments parsed read rfl rfl
  exact (CommandLine.code_run_eq_zero_iff read made).trans passes

/-- A page, bytes that are no text, a test without a browser, and a list that is not closed. -/
def mixedTree : File.Directory :=
  .file "login.json" (.text "\x7b\"url\": \"/\", \"elements\": \x7b\"form\": \"$\\\".a\\\"\"\x7d\x7d")
    (.file "notes.json" .binary
      (.file "start.json" (.text "\x7b\"config\": \x7b\x7d\x7d") (.file "torn.json" (.text "[") .empty)))

theorem File.reports_and_failures_mixed :
    resolvePatterns mixedTree "/".toList ["torn.json", "*.json"] =
        .ok ["/login.json", "/notes.json", "/start.json", "/torn.json"] ∧
      (∃ login notes start torn,
        reports mixedTree "/".toList none ["torn.json", "*.json"] = .ok [login, notes, start, torn] ∧
        login.status = .valid ∧ notes.status = .error ∧ torn.status = .error ∧
        Reports mixedTree "/".toList none "/start.json" start ∧ start.status = .invalid ∧
        start.chain.map Report.Entry.reason =
          ["test-configuration-invalid", "test-configuration-browser-empty"]) ∧
      (CommandLine.run mixedTree "/".toList ["torn.json", "*.json"]).code ≠ 0 ∧
      (CommandLine.run mixedTree "/".toList ["notes.json", "login.json"]).code ≠ 0 ∧
      (CommandLine.run mixedTree "/".toList ["page", "login.json"]).code = 0 := by
  have all : resolvePatterns mixedTree "/".toList ["torn.json", "*.json"] =
      .ok ["/login.json", "/notes.json", "/start.json", "/torn.json"] := by decide +kernel
  have both : resolvePatterns mixedTree "/".toList ["notes.json", "login.json"] =
      .ok ["/login.json", "/notes.json"] := by rfl
  have one : resolvePatterns mixedTree "/".toList ["login.json"] = .ok ["/login.json"] := by rfl
  have told : (reports mixedTree "/".toList none ["torn.json", "*.json"]).map
      (List.map fun file => (file.status, file.chain.map Report.Entry.reason)) =
        .ok [(.valid, []), (.error, []),
          (.invalid, ["test-configuration-invalid", "test-configuration-browser-empty"]),
          (.error, [])] := by
    decide +kernel
  obtain ⟨files, made, same⟩ := map_eq_ok_iff.mp told
  obtain ⟨_, made', each, _⟩ := (reports_and_failures all none).2.2.1
  obtain rfl := Except.ok.inj (made.symm.trans made')
  simp only [List.forall₂_cons_left_iff, List.forall₂_nil_left_iff] at each
  obtain ⟨login, _, _, ⟨notes, _, _, ⟨start, _, reported, ⟨torn, _, _, rfl, rfl⟩, rfl⟩, rfl⟩, rfl⟩ := each
  simp only [List.map_cons, List.map_nil, List.cons.injEq, Prod.mk.injEq] at same
  obtain ⟨⟨valid, _⟩, ⟨unreadable, _⟩, ⟨invalid, chain⟩, ⟨unloadable, _⟩, _⟩ := same
  refine ⟨all, ⟨login, notes, start, torn, made, valid, unreadable, unloadable, reported, invalid, chain⟩,
    ?_, ?_, ?_⟩
  · rw [Ne, (reports_and_failures all none).2.2.2 _ _ rfl rfl rfl]
    intro passes
    have valid := reported.status_eq_valid_iff.mpr (passes "/start.json" (by simp))
    simp [invalid] at valid
  · rw [Ne, (reports_and_failures both none).2.2.2 _ _ rfl rfl rfl]
    intro passes
    obtain ⟨content, _, _, entry, _⟩ := passes "/notes.json" (by simp)
    have binary : entryAt? mixedTree "/notes.json".toList = some (.file .binary) := by rfl
    rw [binary] at entry
    simp at entry
  · rw [(reports_and_failures one (some .page)).2.2.2 _ _ rfl rfl rfl]
    intro path member
    obtain rfl := List.mem_singleton.mp member
    refine ⟨_, .page, .page ⟨"login", "/", [("form", "$\".a\"")]⟩, rfl, ?_⟩
    decide +kernel

end WebTestLint
