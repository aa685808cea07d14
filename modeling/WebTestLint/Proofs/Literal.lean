import WebTestLint.Value
import WebTestLint.Proofs.Rereading

/-!
Where quoted texts end. A quote counts unless a backslash escapes it, which it does if the backslashes in
front of it are odd in number. The scanner stops at the first quote that counts. The check of a literal
asks only that the last character is such a quote.
-/

namespace WebTestLint

def backslashes (text : List Char) : Nat := (text.reverse.takeWhile (· == '\\')).length

/-- Whether a text escapes the character behind it. -/
def escapes (text : List Char) : Bool := backslashes text % 2 == 1

theorem backslashes_concat (text : List Char) (c : Char) :
    backslashes (text ++ [c]) = if c = '\\' then backslashes text + 1 else 0 := by
  by_cases backslash : c = '\\'
  · simp [backslashes, backslash]
  · simp [backslashes, backslash]

theorem escapes_eq_false_iff (text : List Char) : escapes text = false ↔ backslashes text % 2 = 0 := by
  simp [escapes]

theorem escapes_concat (text : List Char) (c : Char) :
    escapes (text ++ [c]) = (c == '\\' && !escapes text) := by
  rw [escapes, escapes, backslashes_concat, Bool.eq_iff_iff]
  by_cases backslash : c = '\\'
  · simp only [backslash, if_true, beq_self_eq_true, Bool.true_and, beq_iff_eq, Bool.not_eq_true',
      beq_eq_false_iff_ne]
    omega
  · simp [backslash]

theorem escapes_of_plain {text : List Char} (plain : '\\' ∉ text) : escapes text = false := by
  rcases List.eq_nil_or_concat text with rfl | ⟨front, c, rfl⟩
  · rfl
  · have other : c ≠ '\\' := by
      rintro rfl
      simp at plain
    simp [List.concat_eq_append, escapes_concat, other]

/-- A quote in a text that no backslash escapes, between what stands in front of it and behind it. -/
structure IsLooseQuote (text before behind : List Char) : Prop where
  split : text = before ++ '"' :: behind
  loose : escapes before = false

def ClosesOnce (text : List Char) : Prop :=
  (∃ before, IsLooseQuote text before []) ∧
    ∀ before behind, IsLooseQuote text before behind → behind = []

theorem closesAtEnd_iff (front text : List Char) :
    Value.closesAtEnd (escapes front) text = true ↔
      ∃ inner, text = inner ++ ['"'] ∧ escapes (front ++ inner) = false := by
  induction text generalizing front with
  | nil => simp [Value.closesAtEnd]
  | cons c rest ih =>
      by_cases last : c = '"' ∧ rest = []
      · obtain ⟨rfl, rfl⟩ := last
        rw [Value.closesAtEnd]
        constructor
        · intro loose
          exact ⟨[], rfl, by simpa using loose⟩
        · rintro ⟨inner, same, loose⟩
          obtain rfl : inner = [] := (List.append_cancel_right same).symm
          simpa using loose
      · rw [Value.closesAtEnd.eq_3 _ _ _ fun quote empty => last ⟨quote, empty⟩, ← escapes_concat, ih]
        constructor
        · rintro ⟨inner, rfl, loose⟩
          exact ⟨c :: inner, rfl, by simpa using loose⟩
        · rintro ⟨inner, same, loose⟩
          cases inner with
          | nil => exact absurd (List.cons.inj same) last
          | cons d inner =>
              obtain ⟨rfl, rfl⟩ := List.cons.inj same
              exact ⟨inner, rfl, by simpa using loose⟩

theorem isLiteral_iff (text : List Char) :
    Value.isLiteral text = true ↔
      ∃ body before, trim text = '"' :: body ∧ IsLooseQuote body before [] := by
  have ends (body : List Char) :
      Value.closesAtEnd false body = true ↔ ∃ before, IsLooseQuote body before [] := by
    rw [← show escapes [] = false from rfl, closesAtEnd_iff]
    constructor
    · rintro ⟨before, split, loose⟩
      exact ⟨before, split, loose⟩
    · rintro ⟨before, split, loose⟩
      exact ⟨before, split, loose⟩
  unfold Value.isLiteral
  split
  · rename_i body trimmed
    simp [trimmed, ends]
  · rename_i other
    simp only [Bool.false_eq_true, false_iff, not_exists, not_and]
    exact fun body _ trimmed => absurd trimmed (other body)

structure IsFirstQuote (front text inner after : List Char) : Prop where
  split : text = inner ++ '"' :: after
  loose : escapes (front ++ inner) = false
  first : ∀ earlier behind, text = earlier ++ '"' :: behind → escapes (front ++ earlier) = false →
    inner.length ≤ earlier.length

theorem isFirstQuote_quote {front : List Char} (loose : escapes front = false)
    (rest inner after : List Char) :
    IsFirstQuote front ('"' :: rest) inner after ↔ inner = [] ∧ rest = after := by
  constructor
  · intro found
    have short := found.first [] rest rfl (by simpa using loose)
    obtain rfl : inner = [] := List.length_eq_zero_iff.mp (Nat.le_zero.mp short)
    exact ⟨rfl, by simpa using found.split⟩
  · rintro ⟨rfl, rfl⟩
    exact ⟨rfl, by simpa using loose, fun _ _ _ _ => Nat.zero_le _⟩

theorem isFirstQuote_cons {front : List Char} {c : Char} (other : ¬ (c = '"' ∧ escapes front = false))
    (rest inner after : List Char) :
    IsFirstQuote front (c :: rest) inner after ↔
      ∃ tail, inner = c :: tail ∧ IsFirstQuote (front ++ [c]) rest tail after := by
  have tail_of {before behind : List Char} (split : c :: rest = before ++ '"' :: behind)
      (loose : escapes (front ++ before) = false) :
      ∃ tail, before = c :: tail ∧ rest = tail ++ '"' :: behind := by
    cases before with
    | nil => exact absurd ⟨(List.cons.inj split).1, by simpa using loose⟩ other
    | cons d tail =>
        obtain ⟨rfl, behindSame⟩ := List.cons.inj split
        exact ⟨tail, rfl, behindSame⟩
  constructor
  · intro found
    obtain ⟨tail, rfl, split⟩ := tail_of found.split found.loose
    refine ⟨tail, rfl, split, by simpa using found.loose, ?_⟩
    rintro earlier behind rfl loose
    simpa using found.first (c :: earlier) behind rfl (by simpa using loose)
  · rintro ⟨tail, rfl, found⟩
    refine ⟨by rw [found.split]; rfl, by simpa using found.loose, ?_⟩
    intro earlier behind split loose
    obtain ⟨shorter, rfl, cut⟩ := tail_of split loose
    simpa using found.first shorter behind cut (by simpa using loose)

theorem throughQuote_eq_some_iff (front text quoted after : List Char) :
    throughQuote (escapes front) text = some (quoted, after) ↔
      ∃ inner, quoted = inner ++ ['"'] ∧ IsFirstQuote front text inner after := by
  induction text generalizing front quoted after with
  | nil =>
      simp only [throughQuote, reduceCtorEq, false_iff, not_exists, not_and]
      intro inner _ found
      simpa using found.split
  | cons c rest ih =>
      rw [throughQuote]
      by_cases closing : c = '"' ∧ escapes front = false
      · obtain ⟨rfl, loose⟩ := closing
        simp only [loose, isFirstQuote_quote loose]
        simp [eq_comm]
      · have passes : (decide (c = '"') && !escapes front) = false := by simpa using closing
        have flag : (decide (c = '\\') && !escapes front) = escapes (front ++ [c]) := by
          rw [escapes_concat, beq_eq_decide]
        simp only [passes, Bool.false_eq_true, if_false, flag, isFirstQuote_cons closing,
          Option.map_eq_some_iff, Prod.exists, Prod.mk.injEq, ih]
        constructor
        · rintro ⟨_, _, ⟨inner, rfl, found⟩, rfl, rfl⟩
          exact ⟨c :: inner, rfl, inner, rfl, found⟩
        · rintro ⟨_, rfl, inner, rfl, found⟩
          exact ⟨_, after, ⟨inner, rfl, found⟩, rfl, rfl⟩

theorem throughQuote_eq_whole_iff (text : List Char) :
    throughQuote false text = some (text, []) ↔ ClosesOnce text := by
  rw [← show escapes [] = false from rfl, throughQuote_eq_some_iff]
  constructor
  · rintro ⟨inner, same, found⟩
    refine ⟨⟨inner, same, found.loose⟩, ?_⟩
    rintro before behind ⟨split, loose⟩
    -- No quote stands behind the first one, which ends the text.
    have early := found.first before behind split loose
    have lengths := congrArg List.length (same.symm.trans split)
    simp only [List.length_append, List.length_cons, List.length_nil] at lengths
    exact List.length_eq_zero_iff.mp (by omega)
  · rintro ⟨⟨inner, ended⟩, only⟩
    refine ⟨inner, ended.split, ended.split, ended.loose, ?_⟩
    intro before behind split loose
    obtain rfl := only before behind ⟨split, loose⟩
    exact (congrArg List.length (List.append_cancel_right (ended.split.symm.trans split))).le

theorem stopQuoted?_eq_byteLength_iff (text : List Char) :
    Scan.stopQuoted? (String.ofList text) 0 = some (byteLength text) ↔
      ∃ body, text = '"' :: body ∧ ClosesOnce body := by
  have stops : Scan.stopQuoted? (String.ofList text) 0 = some (byteLength text) ↔
      ∃ quoted after, scanQuoted? text = some (quoted, after) ∧ byteLength quoted = byteLength text := by
    simp [Scan.stopQuoted?, dropBytes?, Option.bind_eq_some_iff]
  rw [stops]
  constructor
  · rintro ⟨quoted, after, found, size⟩
    have whole := scanQuoted?_append _ _ _ found
    obtain rfl : quoted = text :=
      Scan.eq_of_byteLength_eq ⟨after, whole.symm⟩ List.prefix_rfl size
    obtain rfl : after = [] := by simpa using whole
    obtain ⟨body, inner, rfl, closed, same⟩ := Scan.exists_of_scanQuoted? found
    obtain rfl : body = inner := (List.cons.inj same).2
    exact ⟨body, rfl, (throughQuote_eq_whole_iff body).mp closed⟩
  · rintro ⟨body, rfl, closes⟩
    refine ⟨'"' :: body, [], ?_, rfl⟩
    simp [scanQuoted?, (throughQuote_eq_whole_iff body).mpr closes]

/-- A literal is a text between quotes, the last of which no backslash escapes. The scanner of quotes
reads to the end of it unless another such quote stands in between. -/
theorem isLiteral_agrees_with_scan_iff (text : List Char) :
    (Value.isLiteral text = true ↔
      ∃ body before, trim text = '"' :: body ∧ IsLooseQuote body before []) ∧
    (Scan.stopQuoted? (String.ofList (trim text)) 0 = some (byteLength (trim text)) ↔
      ∃ body, trim text = '"' :: body ∧ ClosesOnce body) ∧
    ((Value.isLiteral text = true ↔
        Scan.stopQuoted? (String.ofList (trim text)) 0 = some (byteLength (trim text))) ↔
      ¬ ∃ body before behind last, trim text = '"' :: body ∧ IsLooseQuote body before behind ∧
        behind ≠ [] ∧ IsLooseQuote body last []) := by
  refine ⟨isLiteral_iff text, stopQuoted?_eq_byteLength_iff (trim text), ?_⟩
  rw [isLiteral_iff, stopQuoted?_eq_byteLength_iff]
  constructor
  · rintro agree ⟨body, before, behind, last, same, loose, inner, ended⟩
    obtain ⟨other, sameOther, _, only⟩ := agree.mp ⟨body, last, same, ended⟩
    obtain rfl : body = other := (List.cons.inj (same.symm.trans sameOther)).2
    exact inner (only before behind loose)
  · intro single
    constructor
    · rintro ⟨body, last, same, ended⟩
      refine ⟨body, same, ⟨last, ended⟩, ?_⟩
      intro before behind loose
      by_contra inner
      exact single ⟨body, before, behind, last, same, loose, inner, ended⟩
    · rintro ⟨body, same, ⟨last, ended⟩, _⟩
      exact ⟨body, last, same, ended⟩

theorem isLiteral_quotes_between :
    ¬ ∀ text, Value.isLiteral text = true ↔
      Scan.stopQuoted? (String.ofList (trim text)) 0 = some (byteLength (trim text)) := by
  intro agree
  have whole := (agree "\"a\"b\"".toList).mp (by decide +kernel)
  exact absurd whole (by decide +kernel)

end WebTestLint
