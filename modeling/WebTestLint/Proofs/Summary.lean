import WebTestLint.Proofs.Lines
import WebTestLint.Proofs.Outcome

/-!
How a report ends. The counts, the last line and the code that a run exits with are made apart from one
another, and all of them say the same.
-/

namespace WebTestLint.Report

theorem count_add_count (files : List File) :
    count .valid files + count .invalid files + count .error files = files.length := by
  induction files with
  | nil => rfl
  | cons file files ih =>
      simp only [count, List.countP_cons, List.length_cons] at ih ⊢
      cases status : file.status with
      | valid => simp; omega
      | invalid => simp; omega
      | error => simp; omega

theorem summary_of_perm {files other : List File} (same : files.Perm other) :
    Summary.of other = Summary.of files := by
  simp only [Summary.of, count, same.length_eq, same.countP_eq]

theorem Summary.hasFailures_eq_false_iff (summary : Summary) :
    summary.hasFailures = false ↔ summary.invalid = 0 ∧ summary.loadErrors = 0 := by
  simp [hasFailures]

theorem hasFailures_eq_true_iff (files : List File) :
    (Summary.of files).hasFailures = true ↔ ∃ file ∈ files, file.status ≠ .valid := by
  rw [← Bool.not_eq_false, hasFailures_eq_false_iff]
  simp

theorem valid_eq_files {files : List File} (passed : (Summary.of files).hasFailures = false) :
    (Summary.of files).valid = (Summary.of files).files := by
  have total := count_add_count files
  obtain ⟨sound, loaded⟩ := (Summary.hasFailures_eq_false_iff _).mp passed
  simp only [Summary.of] at sound loaded ⊢
  omega

def noFilesLine : String := yellow "!" ++ " No files to check"

def outOf (part files : Nat) : String :=
  part.repr ++ "/" ++ files.repr ++ " " ++ if files = 1 then "file" else "files"

def passedLine (valid files : Nat) : String := green "✓" ++ " " ++ outOf valid files ++ " valid"

def failedLine (invalid files : Nat) : String := red "✗" ++ " " ++ outOf invalid files ++ " invalid"

def unloadedNote (loadErrors : Nat) : String := ", " ++ loadErrors.repr ++ " failed to load"

theorem Summary.line_eq_noFilesLine {summary : Summary} (empty : summary.files = 0) :
    summary.line = noFilesLine := by
  simp only [line, if_pos empty]
  rfl

theorem Summary.line_eq_passedLine {summary : Summary} (filled : summary.files ≠ 0)
    (passed : summary.hasFailures = false) : summary.line = passedLine summary.valid summary.files := by
  obtain ⟨sound, loaded⟩ := summary.hasFailures_eq_false_iff.mp passed
  simp only [line, if_neg filled, sound, loaded]
  rfl

theorem Summary.line_eq_failedLine {summary : Summary} (filled : summary.files ≠ 0)
    (failed : summary.hasFailures = true) :
    summary.line = failedLine summary.invalid summary.files ++
      if 0 < summary.loadErrors then unloadedNote summary.loadErrors else "" := by
  have unsound : ¬ (summary.invalid = 0 && summary.loadErrors = 0) = true := by
    have faulty := summary.hasFailures_eq_false_iff.not.mp (by simp [failed])
    simpa using faulty
  simp only [line, if_neg filled, if_neg unsound]
  rfl

inductive Ending where
  | noFiles
  | passed
  | failed
deriving DecidableEq

namespace Ending

def mark : Ending → String
  | noFiles => yellow "!"
  | passed => green "✓"
  | failed => red "✗"

def of (summary : Summary) : Ending :=
  if summary.files = 0 then noFiles else if summary.hasFailures then failed else passed

theorem length_mark (ending : Ending) : ending.mark.toList.length = 11 := by
  cases ending <;> decide

theorem mark_injective {ending other : Ending} (same : ending.mark.toList = other.mark.toList) :
    ending = other := by
  have apart : ending.mark = other.mark → ending = other := by
    cases ending <;> cases other <;> decide
  exact apart (String.toList_inj.mp same)

theorem mark_isPrefix_iff (ending other : Ending) (rest : String) :
    ending.mark.toList <+: (other.mark ++ rest).toList ↔ ending = other := by
  rw [String.toList_append]
  constructor
  · intro starts
    have lengths : ending.mark.toList.length = other.mark.toList.length := by
      rw [length_mark, length_mark]
    have within := List.prefix_of_prefix_length_le starts (List.prefix_append _ _) (Nat.le_of_eq lengths)
    exact mark_injective (within.eq_of_length lengths)
  · rintro rfl
    exact List.prefix_append _ _

theorem exists_line_eq (summary : Summary) : ∃ rest, summary.line = (of summary).mark ++ rest := by
  by_cases empty : summary.files = 0
  · rw [Summary.line_eq_noFilesLine empty, of, if_pos empty]
    exact ⟨_, rfl⟩
  · rw [of, if_neg empty]
    cases failures : summary.hasFailures with
    | true =>
        rw [Summary.line_eq_failedLine empty failures, failedLine, String.append_assoc, String.append_assoc,
          String.append_assoc]
        exact ⟨_, rfl⟩
    | false =>
        rw [Summary.line_eq_passedLine empty failures, passedLine, String.append_assoc, String.append_assoc]
        exact ⟨_, rfl⟩

theorem mark_isPrefix_line_iff (ending : Ending) (summary : Summary) :
    ending.mark.toList <+: summary.line.toList ↔ ending = of summary := by
  obtain ⟨rest, line⟩ := exists_line_eq summary
  rw [line, mark_isPrefix_iff]

def Fits (files : List File) : Ending → Prop
  | noFiles => files = []
  | passed => files ≠ [] ∧ (Summary.of files).hasFailures = false
  | failed => (Summary.of files).hasFailures = true

theorem eq_of_iff (ending : Ending) (files : List File) :
    ending = of (Summary.of files) ↔ ending.Fits files := by
  cases files with
  | nil =>
      have empty : of (Summary.of []) = noFiles := rfl
      rw [empty]
      cases ending <;> simp [Fits, Summary.of, Summary.hasFailures, count]
  | cons file files =>
      have filled : (Summary.of (file :: files)).files ≠ 0 := by simp [Summary.of]
      rw [of, if_neg filled]
      cases failures : (Summary.of (file :: files)).hasFailures with
      | true => cases ending <;> simp [Fits, failures]
      | false => cases ending <;> simp [Fits, failures]

end Ending

theorem not_isSuffix_of_isSuffix {text tail other : List Char} (ends : tail <:+ text)
    (shorter : tail.length ≤ other.length) (differs : ¬ tail <:+ other) : ¬ other <:+ text :=
  fun ends' => differs (List.suffix_of_suffix_length_le ends ends' shorter)

theorem isSuffix_unloaded_iff (files : List File) :
    " failed to load".toList <:+ (Summary.of files).line.toList ↔ 0 < (Summary.of files).loadErrors := by
  have total := count_add_count files
  by_cases empty : (Summary.of files).files = 0
  · rw [Summary.line_eq_noFilesLine empty]
    have none : (Summary.of files).loadErrors = 0 := by
      simp only [Summary.of] at empty ⊢
      omega
    rw [none]
    decide
  · cases failures : (Summary.of files).hasFailures with
    | false =>
        obtain ⟨_, loaded⟩ := (Summary.hasFailures_eq_false_iff _).mp failures
        have ends : " valid".toList <:+ (Summary.of files).line.toList := by
          rw [Summary.line_eq_passedLine empty failures, passedLine, String.toList_append]
          exact List.suffix_append _ _
        exact iff_of_false (not_isSuffix_of_isSuffix ends (by decide) (by decide)) (by simp [loaded])
    | true =>
        have line := Summary.line_eq_failedLine empty failures
        split at line
        · rename_i unloaded
          rw [line, unloadedNote, String.toList_append, String.toList_append]
          simp only [unloaded, iff_true]
          exact (List.suffix_append _ _).trans (List.suffix_append _ _)
        · rename_i loaded
          have ends : " invalid".toList <:+ (Summary.of files).line.toList := by
            rw [line, failedLine, String.append_empty, String.toList_append]
            exact List.suffix_append _ _
          exact iff_of_false (not_isSuffix_of_isSuffix ends (by decide) (by decide)) loaded

/-- The summary, the last line and the exit code of a run say the same. The counts add up and do not hang
on the order of the files; a run fails just if some file is not valid; and the last line has the mark, the
counts and the note that go with this. -/
theorem summary_and_last_line_agree (files : List File) :
    (Summary.of files).valid + (Summary.of files).invalid + (Summary.of files).loadErrors =
        (Summary.of files).files ∧
    (Summary.of files).files = files.length ∧
    (∀ other, files.Perm other → Summary.of other = Summary.of files) ∧
    ((Summary.of files).hasFailures = true ↔ ∃ file ∈ files, file.status ≠ .valid) ∧
    (∀ format, (CommandLine.Outcome.ofReports format files).code = 0 ↔
      (Summary.of files).hasFailures = false) ∧
    ∃ last, (rows (text files)).getLast? = some last ∧
      (∀ ending : Ending, ending.mark.toList <+: last.toList ↔ ending.Fits files) ∧
      (files = [] → last = noFilesLine) ∧
      (files ≠ [] → (Summary.of files).hasFailures = false →
        last = passedLine files.length files.length ∧ (Summary.of files).valid = files.length) ∧
      ((Summary.of files).hasFailures = true →
        last = failedLine (Summary.of files).invalid files.length ++
          if 0 < (Summary.of files).loadErrors then unloadedNote (Summary.of files).loadErrors else "") ∧
      (" failed to load".toList <:+ last.toList ↔ 0 < (Summary.of files).loadErrors) := by
  have filled : files ≠ [] → (Summary.of files).files ≠ 0 := by
    simp [Summary.of]
  have code : ∀ format, (CommandLine.Outcome.ofReports format files).code = 0 ↔
      (Summary.of files).hasFailures = false := by
    intro format
    cases failures : (Summary.of files).hasFailures <;> simp [CommandLine.Outcome.ofReports, failures]
  refine ⟨count_add_count files, rfl, fun _ => summary_of_perm, hasFailures_eq_true_iff files, code, _,
    getLast?_rows_text files, ?_, ?_, ?_, ?_, isSuffix_unloaded_iff files⟩
  · intro ending
    rw [Ending.mark_isPrefix_line_iff, Ending.eq_of_iff]
  · rintro rfl
    exact Summary.line_eq_noFilesLine rfl
  · intro some passed
    have valid := valid_eq_files passed
    rw [Summary.line_eq_passedLine (filled some) passed, valid]
    exact ⟨rfl, rfl⟩
  · intro failures
    have some : files ≠ [] := by
      rintro rfl
      simp [Summary.of, Summary.hasFailures, count] at failures
    exact Summary.line_eq_failedLine (filled some) failures

end WebTestLint.Report
