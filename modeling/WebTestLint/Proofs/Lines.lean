import WebTestLint.Report.Text

/-!
The lines of a report. The report for people is made line by line, but texts that it repeats may hold line
feeds of their own. It comes out in the lines it was made of exactly if none of them does.
-/

namespace WebTestLint

def IsLine (text : String) : Prop := '\n' ∉ text.toList

instance (text : String) : Decidable (IsLine text) := inferInstanceAs (Decidable (_ ∉ _))

@[simp] theorem isLine_append (first second : String) :
    IsLine (first ++ second) ↔ IsLine first ∧ IsLine second := by
  simp [IsLine]

@[simp] theorem isLine_join (texts : List String) :
    IsLine (String.join texts) ↔ ∀ text ∈ texts, IsLine text := by
  simp [IsLine]

@[simp] theorem isLine_repr (number : Nat) : IsLine number.repr := by
  rw [IsLine, Nat.toList_repr]
  intro member
  have digit := Nat.isDigit_of_mem_toDigits (by decide) (by decide) member
  simp at digit

namespace Report

theorem isLine_coloured {start finish : String} (plain : IsLine start ∧ IsLine finish) (text : String) :
    IsLine (coloured start finish text) ↔ IsLine text := by
  have open' : IsLine "\x1b[" := by decide
  have close : IsLine "m" := by decide
  simp [coloured, plain, open', close]

@[simp] theorem isLine_green (text : String) : IsLine (green text) ↔ IsLine text :=
  isLine_coloured (by decide) text

@[simp] theorem isLine_red (text : String) : IsLine (red text) ↔ IsLine text :=
  isLine_coloured (by decide) text

@[simp] theorem isLine_yellow (text : String) : IsLine (yellow text) ↔ IsLine text :=
  isLine_coloured (by decide) text

@[simp] theorem isLine_dimmed (text : String) : IsLine (dimmed text) ↔ IsLine text :=
  isLine_coloured (by decide) text

def rows (text : String) : List String := (text.toList.splitOn '\n').map String.ofList

theorem splitOn_intercalate_eq_flatMap {sep : Char} {pieces : List (List Char)} (filled : pieces ≠ []) :
    ([sep].intercalate pieces).splitOn sep = pieces.flatMap (·.splitOn sep) := by
  induction pieces with
  | nil => exact absurd rfl filled
  | cons piece pieces ih =>
      cases pieces with
      | nil => simp [List.intercalate]
      | cons next pieces =>
          have joined : [sep].intercalate (piece :: next :: pieces) =
              piece ++ sep :: [sep].intercalate (next :: pieces) := by
            simp [List.intercalate, List.intersperse]
          rw [joined, List.splitOn_append_cons_self, ih (List.cons_ne_nil _ _)]
          rfl

theorem notMem_of_mem_splitOn {sep : Char} {text piece : List Char} (listed : piece ∈ text.splitOn sep) :
    sep ∉ piece := by
  induction text generalizing piece with
  | nil => simp_all
  | cons c text ih =>
      rw [List.splitOn_cons_eq_if_modifyHead] at listed
      split at listed
      · rcases List.mem_cons.mp listed with rfl | later
        · exact List.not_mem_nil
        · exact ih later
      · rename_i other
        obtain ⟨first, rest, split⟩ := List.exists_cons_of_ne_nil (List.splitOn_ne_nil sep text)
        rw [split, List.modifyHead_cons] at listed
        rw [split] at ih
        rcases List.mem_cons.mp listed with rfl | later
        · have ahead : sep ≠ c := fun same => other (by simp [same])
          simp [ahead, ih List.mem_cons_self]
        · exact ih (List.mem_cons_of_mem _ later)

theorem rows_intercalate {lines : List String} (filled : lines ≠ []) :
    rows ("\n".intercalate lines) = lines.flatMap rows := by
  rw [rows, String.toList_intercalate]
  change List.map _ ((['\n'].intercalate _).splitOn '\n') = _
  rw [splitOn_intercalate_eq_flatMap (by simpa using filled), List.flatMap_map, List.map_flatMap]
  rfl

theorem isLine_of_mem_rows {text row : String} (listed : row ∈ rows text) : IsLine row := by
  obtain ⟨piece, found, rfl⟩ := List.mem_map.mp listed
  simpa [IsLine] using notMem_of_mem_splitOn found

theorem rows_of_isLine {line : String} (unbroken : IsLine line) : rows line = [line] := by
  rw [rows, List.splitOn_eq_singleton unbroken]
  simp

theorem flatMap_rows_eq_iff (lines : List String) :
    lines.flatMap rows = lines ↔ ∀ line ∈ lines, IsLine line := by
  constructor
  · intro same line listed
    rw [← same] at listed
    obtain ⟨_, _, found⟩ := List.mem_flatMap.mp listed
    exact isLine_of_mem_rows found
  · intro unbroken
    induction lines with
    | nil => rfl
    | cons line lines ih =>
        obtain ⟨first, others⟩ := List.forall_mem_cons.mp unbroken
        rw [List.flatMap_cons, rows_of_isLine first, ih others, List.singleton_append]

structure Entry.IsUnbroken (entry : Entry) : Prop where
  layer : IsLine entry.layer
  reason : IsLine entry.reason
  context : ∀ detail ∈ entry.context, IsLine detail.1 ∧ IsLine detail.2

theorem Entry.isLine_line_iff (entry : Entry) (depth : Nat) :
    IsLine (entry.line depth) ↔ entry.IsUnbroken := by
  have indent : IsLine (String.ofList (List.replicate (2 * (depth + 3)) ' ')) := by
    simp [IsLine]
  have space : IsLine " " := by decide
  have colon : IsLine ":" := by decide
  have equals : IsLine "=" := by decide
  simp only [line, isLine_append, isLine_dimmed, isLine_yellow, isLine_join, List.forall_mem_map, indent,
    space, colon, equals, true_and, and_true]
  constructor
  · rintro ⟨⟨layer, reason⟩, context⟩
    exact ⟨layer, reason, context⟩
  · rintro ⟨layer, reason, context⟩
    exact ⟨⟨layer, reason⟩, context⟩

structure File.IsUnbroken (file : File) : Prop where
  label : IsLine file.file
  chain : ∀ entry ∈ file.chain, entry.IsUnbroken
  error : ∀ message ∈ file.error?, IsLine message

theorem Status.isLine_label (status : Status) : IsLine status.label := by
  cases status <;> decide

theorem Entry.forall_isLine_zipIdx_iff (entries : List Entry) :
    (∀ pair ∈ entries.zipIdx, IsLine (pair.1.line pair.2)) ↔ ∀ entry ∈ entries, entry.IsUnbroken := by
  simp only [Entry.isLine_line_iff]
  conv => rhs; rw [← List.zipIdx_map_fst 0 entries, List.forall_mem_map]

theorem File.forall_isLine_lines_iff (file : File) :
    (∀ line ∈ file.lines, IsLine line) ↔ file.IsUnbroken := by
  have space : IsLine " " := by decide
  have indent : IsLine "      " := by decide
  have mark : IsLine "Error:" := by decide
  rw [lines, List.forall_mem_append, List.forall_mem_append, List.forall_mem_map, List.forall_mem_map]
  simp only [List.forall_mem_singleton, Option.mem_toList, isLine_append, isLine_red, file.status.isLine_label,
    space, indent, mark, true_and]
  constructor
  · rintro ⟨⟨label, chain⟩, error⟩
    exact ⟨label, (Entry.forall_isLine_zipIdx_iff _).mp chain, error⟩
  · rintro ⟨label, chain, error⟩
    exact ⟨⟨label, (Entry.forall_isLine_zipIdx_iff _).mpr chain⟩, error⟩

theorem File.length_lines (file : File) :
    file.lines.length = 1 + file.chain.length + file.error?.toList.length := by
  simp only [lines, List.length_append, List.length_singleton, List.length_map, List.length_zipIdx]

theorem Summary.isLine_line (summary : Summary) : IsLine summary.line := by
  have noun : IsLine (if summary.files = 1 then "file" else "files") := by
    split <;> decide
  have failed : IsLine " failed to load" := by decide
  have note : IsLine (if 0 < summary.loadErrors then ", " ++ summary.loadErrors.repr ++ " failed to load"
      else "") := by
    split
    · simp only [isLine_append, isLine_repr, failed]
      decide
    · decide
  simp only [line]
  split
  · decide
  · split
    · simp only [isLine_append, isLine_green, isLine_repr, noun]
      decide
    · simp only [isLine_append, isLine_red, isLine_repr, noun, note]
      decide

theorem lines_ne_nil (files : List File) : lines files ≠ [] := by
  simp [lines]

theorem rows_text (files : List File) : rows (text files) = (lines files).flatMap rows :=
  rows_intercalate (lines_ne_nil files)

theorem rows_text_eq_lines_iff (files : List File) :
    rows (text files) = lines files ↔ ∀ file ∈ files, file.IsUnbroken := by
  have blank : ∀ line ∈ (if files.isEmpty then [] else [""]), IsLine line := by
    split <;> simp [IsLine]
  rw [rows_text, flatMap_rows_eq_iff, lines, List.forall_mem_append, List.forall_mem_append,
    List.forall_mem_singleton, List.forall_mem_flatMap]
  constructor
  · rintro ⟨⟨each, _⟩, _⟩ file listed
    exact file.forall_isLine_lines_iff.mp (each file listed)
  · intro each
    refine ⟨⟨?_, blank⟩, Summary.isLine_line _⟩
    intro file listed
    exact file.forall_isLine_lines_iff.mpr (each file listed)

theorem getLast?_rows_text (files : List File) :
    (rows (text files)).getLast? = some (Summary.of files).line := by
  rw [rows_text, lines, List.flatMap_append, List.flatMap_singleton,
    rows_of_isLine (Summary.isLine_line _), List.getLast?_concat]

end Report

end WebTestLint
