import Mathlib.Data.List.TakeWhile
import WebTestLint.Proofs.Printing

/-!
The nested form as the scanner reads it. The braces around the parent are matched, but then the first
quote ends the selector, also one that a backslash escapes. What follows that quote is read as words.
-/

namespace WebTestLint.Scan

open Identifier (joint Chain)

def BraceFree (text : List Char) : Prop := ¬ ['{', '{'] <:+: text ∧ ¬ ['}', '}'] <:+: text

instance (text : List Char) : Decidable (BraceFree text) :=
  inferInstanceAs (Decidable (¬ ['{', '{'] <:+: text ∧ ¬ ['}', '}'] <:+: text))

theorem BraceFree.of_infix {text inner : List Char} (free : BraceFree text) (inside : inner <:+: text) :
    BraceFree inner :=
  ⟨fun found => free.1 (found.trans inside), fun found => free.2 (found.trans inside)⟩

theorem BraceFree.cons_blank {text : List Char} (free : BraceFree text) : BraceFree (' ' :: text) := by
  constructor
  · simpa [List.infix_cons_iff] using free.1
  · simpa [List.infix_cons_iff] using free.2

def opening (parent : List Char) : List Char := startsNested ++ ' ' :: (parent ++ [' ', '}', '}', ' '])

def nestedText (parent selector : List Char) : List Char := opening parent ++ (selector ++ ['"'])

theorem not_pair_isPrefix {first second c : Char} {rest : List Char}
    (other : ∀ more, c = first → rest = second :: more → False) : ¬ [first, second] <+: c :: rest := by
  rintro ⟨more, same⟩
  obtain ⟨rfl, rfl⟩ := List.cons.inj same
  exact other more rfl rfl

theorem throughClose?_cons_other (depth : Nat) {c : Char} {rest : List Char}
    (notOpen : ¬ ['{', '{'] <+: c :: rest) (notClose : ¬ ['}', '}'] <+: c :: rest) :
    throughClose? depth (c :: rest) =
      (throughClose? depth rest).map fun (inner, after) => (c :: inner, after) := by
  rw [throughClose?.eq_def]
  split
  · rename_i empty
    simp at empty
  · rename_i same
    exact absurd ⟨_, same.symm⟩ notOpen
  · rename_i same
    exact absurd ⟨_, same.symm⟩ notClose
  · rename_i same
    obtain ⟨rfl, rfl⟩ := List.cons.inj same
    rfl

theorem throughClose?_braceFree {text : List Char} (free : BraceFree text) (after : List Char) :
    throughClose? 1 (text ++ ' ' :: '}' :: '}' :: after) = some (text ++ [' ', '}', '}'], after) := by
  have blankEnd : IsEnd (' ' :: '}' :: '}' :: after) := isEnd_cons (by decide) _
  -- The blank before the closing braces keeps the last character of the text from joining them.
  induction text with
  | nil =>
      rw [List.nil_append, throughClose?_cons_other 1 (by simp) (by simp)]
      simp [throughClose?]
  | cons c text ih =>
      have tail : BraceFree text := free.of_infix (List.infix_cons List.infix_rfl)
      have notOpen : ¬ ['{', '{'] <+: c :: text ++ ' ' :: '}' :: '}' :: after := fun started =>
        free.1 (prefix_of_prefix_append (by decide) blankEnd started).isInfix
      have notClose : ¬ ['}', '}'] <+: c :: text ++ ' ' :: '}' :: '}' :: after := fun started =>
        free.2 (prefix_of_prefix_append (by decide) blankEnd started).isInfix
      rw [List.cons_append] at notOpen notClose ⊢
      rw [throughClose?_cons_other 1 notOpen notClose, ih tail]
      rfl

theorem nested?_of_throughClose? {body braces before behind : List Char}
    (closed : throughClose? 1 body = some (braces, before ++ '"' :: behind))
    (unquoted : '"' ∉ before) :
    nested? (startsNested ++ body) = some (startsNested ++ (braces ++ (before ++ ['"'])), behind) := by
  have plain : ∀ c ∈ before, (c != '"') = true := by
    intro c member
    simpa using fun same : c = '"' => unquoted (same ▸ member)
  have dropped : (before ++ '"' :: behind).dropWhile (· != '"') = '"' :: behind := by
    rw [List.dropWhile_append_of_pos plain]
    rfl
  have taken : (before ++ '"' :: behind).takeWhile (· != '"') = before := by
    rw [List.takeWhile_append_of_pos plain, List.takeWhile_cons_of_neg (by decide), List.append_nil]
  simp [startsNested, nested?, closed, dropped, taken]

theorem nested?_opening {parent before : List Char} (free : BraceFree parent)
    (unquoted : '"' ∉ before) (behind : List Char) :
    nested? (opening parent ++ (before ++ '"' :: behind)) =
      some (opening parent ++ before ++ ['"'], behind) := by
  have closed := throughClose?_braceFree free.cons_blank (' ' :: before ++ '"' :: behind)
  simpa [opening, startsNested] using nested?_of_throughClose? closed (by simpa using unquoted)

def words (text : List Char) : List Char × List Char :=
  ((word text).1 ++ (links (word text).2).1, (links (word text).2).2)

theorem identifier_opening {parent before : List Char} (free : BraceFree parent)
    (unquoted : '"' ∉ before) (behind : List Char) :
    identifier (opening parent ++ (before ++ '"' :: behind)) =
      (opening parent ++ (before ++ '"' :: (words behind).1), (words behind).2) := by
  have read : link (opening parent ++ (before ++ '"' :: behind)) =
      (opening parent ++ before ++ ['"'] ++ (word behind).1, (word behind).2) := by
    simp [link, nested?_opening free unquoted behind]
  simp [identifier, read, words]

theorem words_of_isEnd {text : List Char} (ended : IsEnd text) (loose : ¬ joint <+: text) :
    words text = ([], text) := by
  simp [words, word_of_isEnd ended, links_of_not_joint loose]

theorem words_chain {chain : Chain} (head : BlankFree chain.head)
    (below : ∀ text ∈ chain.links, IsLink text) {rest : List Char} (ended : IsEnd rest) :
    words (chain.text ++ rest) = (chain.text ++ (links rest).1, (links rest).2) := by
  have first := word_append_of_isEnd head (isEnd_flatMap_joint chain.links ended)
  rw [Chain.text, List.append_assoc, words, first, links_flatMap_append below ended]
  simp

structure IsWords (chain : Chain) : Prop where
  free : ∀ text ∈ chain.segments, BlankFree text
  filled : ∀ text ∈ chain.links, text ≠ []

theorem exists_links_eq (text : List Char)
    (plain : ∀ front below, text = front ++ (joint ++ below) → link below = word below) :
    ∃ below : List (List Char), (links text).1 = below.flatMap (joint ++ ·) ∧
      ∀ read ∈ below, read ≠ [] ∧ BlankFree read := by
  fun_induction links text with
  | case1 => exact ⟨[], rfl, by simp⟩
  | case2 => exact ⟨[], rfl, by simp⟩
  | case3 text below found filled further rest shaped ih =>
      have whole := (dropStart?_eq_some_iff _ _ _).mp found
      have asWord : link below = word below := plain [] below whole
      have parts := link_append below
      obtain ⟨more, same, each⟩ := ih (by
        intro front inner split
        apply plain (joint ++ (link below).1 ++ front) inner
        have rebuilt : text = joint ++ ((link below).1 ++ (link below).2) := by rw [parts, whole]
        rw [split] at rebuilt
        simpa using rebuilt)
      rw [shaped] at same
      refine ⟨(link below).1 :: more, by simp [← same], ?_⟩
      intro read member
      rcases List.mem_cons.mp member with rfl | member
      · refine ⟨by simpa using filled, ?_⟩
        rw [asWord]
        exact blankFree_word below
      · exact each read member

theorem exists_words_eq (text : List Char)
    (plain : ∀ front below, text = front ++ (joint ++ below) → link below = word below) :
    ∃ chain : Chain, chain.text = (words text).1 ∧ IsWords chain := by
  have parts := (word_append text).symm
  obtain ⟨below, same, each⟩ := exists_links_eq (word text).2 (by
    intro front inner split
    apply plain ((word text).1 ++ front) inner
    rw [split] at parts
    simpa using parts)
  refine ⟨⟨(word text).1, below⟩, by simp [Chain.text, words, same], ?_, ?_⟩
  · intro segment member
    rcases List.mem_cons.mp member with rfl | member
    · exact blankFree_word text
    · exact (each segment member).2
  · exact fun segment member => (each segment member).1

end WebTestLint.Scan
