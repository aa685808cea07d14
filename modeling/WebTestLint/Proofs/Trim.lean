import Mathlib.Data.List.Basic
import Mathlib.Data.List.TakeWhile
import WebTestLint.Text.Blank

/-!
Texts without blanks at their ends, and what trimming leaves of a text that is put together from parts.
-/

namespace WebTestLint

def AllBlank (text : List Char) : Prop := ∀ c ∈ text, isBlank c = true

def BlankFree (text : List Char) : Prop := ∀ c ∈ text, isBlank c = false

-- By name, since a search could also decide these by running over all characters there are.
instance (text : List Char) : Decidable (AllBlank text) :=
  List.decidableBAll (isBlank · = true) text

instance (text : List Char) : Decidable (BlankFree text) :=
  List.decidableBAll (isBlank · = false) text

theorem blankFree_cons {c : Char} {rest : List Char} (visible : isBlank c = false)
    (free : BlankFree rest) : BlankFree (c :: rest) := by
  intro d member
  rcases List.mem_cons.mp member with rfl | member
  · exact visible
  · exact free d member

theorem blankFree_append_iff (first second : List Char) :
    BlankFree (first ++ second) ↔ BlankFree first ∧ BlankFree second :=
  List.forall_mem_append

structure IsTrimmed (text : List Char) : Prop where
  head : ∀ c ∈ text.head?, isBlank c = false
  last : ∀ c ∈ text.getLast?, isBlank c = false

theorem trimStart_allBlank_append {blanks : List Char} (allBlank : AllBlank blanks)
    (text : List Char) : trimStart (blanks ++ text) = trimStart text :=
  List.dropWhile_append_of_pos allBlank

theorem trimStart_of_head {text : List Char} (head : ∀ c ∈ text.head?, isBlank c = false) :
    trimStart text = text := by
  cases text with
  | nil => rfl
  | cons c rest => simp [trimStart, head c rfl]

theorem trimEnd_append_allBlank (text : List Char) {blanks : List Char}
    (allBlank : AllBlank blanks) : trimEnd (text ++ blanks) = trimEnd text := by
  induction text with
  | nil => exact (trimEnd_eq_nil_iff blanks).mpr allBlank
  | cons c rest ih => rw [List.cons_append, trimEnd, ih, trimEnd]

theorem trimEnd_append_of_ne_nil (text : List Char) {finish : List Char}
    (kept : trimEnd finish ≠ []) : trimEnd (text ++ finish) = text ++ trimEnd finish := by
  induction text with
  | nil => rfl
  | cons c rest ih =>
      rw [List.cons_append, trimEnd, ih]
      split
      · rename_i empty
        exact absurd (List.append_eq_nil_iff.mp empty).2 kept
      · rfl

theorem trimEnd_of_last {text : List Char} (last : ∀ c ∈ text.getLast?, isBlank c = false) :
    trimEnd text = text := by
  rcases List.eq_nil_or_concat text with rfl | ⟨front, c, rfl⟩
  · rfl
  · have notBlank : isBlank c = false := last c (by simp)
    have single : trimEnd [c] = [c] := by simp [trimEnd, notBlank]
    rw [List.concat_eq_append, trimEnd_append_of_ne_nil front (by simp [single]), single]

theorem trimEnd_append_of_last {front : List Char}
    (last : ∀ c ∈ front.getLast?, isBlank c = false) (finish : List Char) :
    trimEnd (front ++ finish) = front ++ trimEnd finish := by
  by_cases allBlank : AllBlank finish
  · rw [trimEnd_append_allBlank front allBlank, (trimEnd_eq_nil_iff finish).mpr allBlank,
      trimEnd_of_last last, List.append_nil]
  · exact trimEnd_append_of_ne_nil front (fun empty => allBlank ((trimEnd_eq_nil_iff finish).mp empty))

theorem last_trimEnd (text : List Char) : ∀ c ∈ (trimEnd text).getLast?, isBlank c = false := by
  induction text with
  | nil => simp [trimEnd]
  | cons c rest ih =>
      rw [trimEnd]
      split
      · split
        · simp
        · rename_i visible
          simpa using visible
      · rename_i kept filled
        rw [List.getLast?_cons_of_ne_nil filled]
        exact ih

theorem last_of_suffix {text finish : List Char} (suffix : finish <:+ text)
    (last : ∀ c ∈ text.getLast?, isBlank c = false) : ∀ c ∈ finish.getLast?, isBlank c = false := by
  obtain ⟨front, rfl⟩ := suffix
  intro c found
  apply last
  rw [List.getLast?_append, Option.mem_def.mp found]
  rfl

theorem trim_of_last {text : List Char} (last : ∀ c ∈ text.getLast?, isBlank c = false) :
    trim text = trimStart text :=
  trimEnd_of_last (last_of_suffix (List.dropWhile_suffix isBlank) last)

theorem trim_of_isTrimmed {text : List Char} (trimmed : IsTrimmed text) : trim text = text := by
  rw [trim, trimStart_of_head trimmed.head, trimEnd_of_last trimmed.last]

theorem trimEnd_isPrefix (text : List Char) : trimEnd text <+: text := by
  obtain ⟨blanks, _, same⟩ := trimEnd_append text
  exact ⟨blanks, same.symm⟩

theorem isTrimmed_trim (text : List Char) : IsTrimmed (trim text) := by
  refine ⟨?_, last_trimEnd (trimStart text)⟩
  intro c found
  obtain ⟨rest, same⟩ := trimEnd_isPrefix (trimStart text)
  have start : (trimStart text).head? = some c := by
    rw [← same, List.head?_append, ← trim, Option.mem_def.mp found]
    rfl
  have head := List.head?_dropWhile_not isBlank text
  rw [← trimStart, start] at head
  simpa using head

theorem isTrimmed_iff_trim_eq (text : List Char) : IsTrimmed text ↔ trim text = text :=
  ⟨trim_of_isTrimmed, fun kept => kept ▸ isTrimmed_trim text⟩

instance (text : List Char) : Decidable (IsTrimmed text) :=
  decidable_of_iff _ (isTrimmed_iff_trim_eq text).symm

theorem trim_allBlank_append {blanks : List Char} (allBlank : AllBlank blanks)
    (text : List Char) : trim (blanks ++ text) = trim text := by
  rw [trim, trim, trimStart_allBlank_append allBlank]

theorem trim_append_allBlank (text : List Char) {blanks : List Char} (allBlank : AllBlank blanks) :
    trim (text ++ blanks) = trim text := by
  by_cases empty : trimStart text = []
  · have whole : AllBlank text := List.dropWhile_eq_nil_iff.mp empty
    rw [trim_allBlank_append whole, trim, trim, empty]
    exact (trimEnd_eq_nil_iff _).mpr fun c member => allBlank c ((List.dropWhile_suffix isBlank).subset member)
  · have started : trimStart (text ++ blanks) = trimStart text ++ blanks := by
      unfold trimStart at empty ⊢
      rw [List.dropWhile_append, if_neg (by simpa using empty)]
    rw [trim, started, trimEnd_append_allBlank _ allBlank, trim]

theorem trim_trimEnd (text : List Char) : trim (trimEnd text) = trim text := by
  obtain ⟨blanks, allBlank, same⟩ := trimEnd_append text
  have whole := trim_append_allBlank (trimEnd text) allBlank
  rwa [← same, eq_comm] at whole

theorem exists_trim_append (text : List Char) :
    ∃ before after, AllBlank before ∧ AllBlank after ∧ text = before ++ (trim text ++ after) := by
  obtain ⟨after, blank, same⟩ := trimEnd_append (trimStart text)
  refine ⟨text.takeWhile isBlank, after, fun c member => List.mem_takeWhile_imp member, blank, ?_⟩
  rw [trim, ← same, trimStart, List.takeWhile_append_dropWhile]

theorem trim_append {front : List Char} (filled : front ≠ []) (trimmed : IsTrimmed front)
    (finish : List Char) : trim (front ++ finish) = front ++ trimEnd finish := by
  have head : ∀ c ∈ (front ++ finish).head?, isBlank c = false := by
    rw [List.head?_append_of_ne_nil front filled]
    exact trimmed.head
  rw [trim, trimStart_of_head head, trimEnd_append_of_last trimmed.last]

theorem isTrimmed_of_blankFree {text : List Char} (free : BlankFree text) : IsTrimmed text :=
  ⟨fun c found => free c (List.mem_of_mem_head? found),
    fun c found => free c (List.mem_of_mem_getLast? found)⟩

theorem IsTrimmed.append_trimEnd {front : List Char} (trimmed : IsTrimmed front)
    (filled : front ≠ []) (finish : List Char) : IsTrimmed (front ++ trimEnd finish) := by
  by_cases empty : trimEnd finish = []
  · rw [empty, List.append_nil]
    exact trimmed
  · constructor
    · rw [List.head?_append_of_ne_nil _ filled]
      exact trimmed.head
    · rw [List.getLast?_append_of_ne_nil _ empty]
      exact last_trimEnd finish

theorem IsTrimmed.append {first last : List Char} (trimmedFirst : IsTrimmed first)
    (filledFirst : first ≠ []) (between : List Char) (trimmedLast : IsTrimmed last)
    (filledLast : last ≠ []) : IsTrimmed (first ++ between ++ last) := by
  constructor
  · rw [List.append_assoc, List.head?_append_of_ne_nil first filledFirst]
    exact trimmedFirst.head
  · rw [List.getLast?_append_of_ne_nil _ filledLast]
    exact trimmedLast.last

end WebTestLint
