import WebTestLint.Text.Quoted
import WebTestLint.Identifier.Descendant
import WebTestLint.Proofs.Trim

/-!
What may stand between quotes, and the parts of a single identifier: its quoted selector and the
position and name that touch it. The scanner of quotes stops at the end of the same selectors.
-/

namespace WebTestLint

/-- A text without an unescaped quote, in which each backslash escapes a character. -/
inductive Quotable : List Char → Prop
  | nil : Quotable []
  | plain {c rest} : c ≠ '"' → c ≠ '\\' → Quotable rest → Quotable (c :: rest)
  | escaped {c rest} : Quotable rest → Quotable ('\\' :: c :: rest)

theorem quotable_cons_iff {c : Char} (notEscape : c ≠ '\\') (rest : List Char) :
    Quotable (c :: rest) ↔ c ≠ '"' ∧ Quotable rest := by
  constructor
  · intro quotable
    cases quotable with
    | plain notQuote _ quotable => exact ⟨notQuote, quotable⟩
    | escaped => exact absurd rfl notEscape
  · rintro ⟨notQuote, quotable⟩
    exact Quotable.plain notQuote notEscape quotable

theorem quotable_escaped_iff (c : Char) (rest : List Char) :
    Quotable ('\\' :: c :: rest) ↔ Quotable rest := by
  constructor
  · intro quotable
    cases quotable with
    | plain _ notEscape _ => exact absurd rfl notEscape
    | escaped quotable => exact quotable
  · exact Quotable.escaped

theorem not_quotable_backslash : ¬ Quotable ['\\'] := by
  intro quotable
  cases quotable with
  | plain _ notEscape _ => exact absurd rfl notEscape

instance decidableQuotable : (text : List Char) → Decidable (Quotable text)
  | [] => isTrue Quotable.nil
  | c :: rest =>
    if escape : c = '\\' then
      match rest with
      | [] => isFalse (escape ▸ not_quotable_backslash)
      | d :: rest =>
        have := decidableQuotable rest
        decidable_of_iff (Quotable rest) (escape ▸ (quotable_escaped_iff d rest).symm)
    else
      have := decidableQuotable rest
      decidable_of_iff (c ≠ '"' ∧ Quotable rest) (quotable_cons_iff escape rest).symm

theorem throughQuote_quotable {body : List Char} (quotable : Quotable body) (after : List Char) :
    throughQuote false (body ++ '"' :: after) = some (body ++ ['"'], after) := by
  induction quotable with
  | nil => simp [throughQuote]
  | plain notQuote notEscape _ ih => simp [throughQuote, notQuote, notEscape, ih]
  | escaped _ ih => simp [throughQuote, ih]

theorem Quotable.append_quote_inj {first second past other : List Char} (left : Quotable first)
    (right : Quotable second) (same : first ++ '"' :: past = second ++ '"' :: other) :
    first = second ∧ past = other := by
  have whole := throughQuote_quotable left past
  rw [same, throughQuote_quotable right other] at whole
  obtain ⟨quoted, rfl⟩ := Prod.mk.inj (Option.some.inj whole)
  exact ⟨(List.append_cancel_right quoted).symm, rfl⟩

theorem quotable_of_plain {text : List Char} (plain : ∀ c ∈ text, c ≠ '"' ∧ c ≠ '\\') :
    Quotable text := by
  induction text with
  | nil => exact Quotable.nil
  | cons c rest ih =>
      obtain ⟨notQuote, notEscape⟩ := plain c List.mem_cons_self
      exact Quotable.plain notQuote notEscape (ih fun d member => plain d (List.mem_cons_of_mem c member))

theorem scanQuoted?_quotable {body : List Char} (quotable : Quotable body) (after : List Char) :
    scanQuoted? ('"' :: (body ++ '"' :: after)) = some ('"' :: (body ++ ['"']), after) := by
  simp [scanQuoted?, throughQuote_quotable quotable after]

namespace Identifier

theorem quotable_of_afterSelector? {text suffix : List Char}
    (found : afterSelector? text = some suffix) :
    ∃ body, Quotable body ∧ text = body ++ '"' :: suffix := by
  fun_induction afterSelector? text with
  | case1 => simp at found
  | case2 rest =>
      obtain rfl : rest = suffix := by simpa using found
      exact ⟨[], Quotable.nil, rfl⟩
  | case3 => simp at found
  | case4 => simp at found
  | case5 c rest _ ih =>
      obtain ⟨body, quotable, rfl⟩ := ih found
      exact ⟨'\\' :: c :: body, Quotable.escaped quotable, rfl⟩
  | case6 c rest notQuote notLast notEscape ih =>
      obtain ⟨body, quotable, rfl⟩ := ih found
      refine ⟨c :: body, Quotable.plain notQuote ?_ quotable, rfl⟩
      intro backslash
      cases body with
      | nil => exact notEscape '"' suffix backslash rfl
      | cons next body => exact notEscape next (body ++ '"' :: suffix) backslash rfl

theorem quotable_of_suffix? {text suffix : List Char} (found : suffix? text = some suffix) :
    ∃ body, Quotable body ∧ text = '$' :: '"' :: (body ++ '"' :: suffix) := by
  unfold suffix? at found
  split at found
  · simp at found
  · obtain ⟨body, quotable, rfl⟩ := quotable_of_afterSelector? found
    exact ⟨body, quotable, rfl⟩
  · simp at found

theorem isBlank_eq_false_of_visible {c : Char} (lower : 0x21 ≤ c.toNat) (upper : c.toNat ≤ 0x7E) :
    isBlank c = false := by
  simp [isBlank, blankRanges]
  omega

theorem isBlank_of_isDigit {c : Char} (digit : c.isDigit = true) : isBlank c = false := by
  simp only [Char.isDigit, Bool.and_eq_true, decide_eq_true_eq, ge_iff_le,
    UInt32.le_iff_toNat_le] at digit
  have lower : 48 ≤ c.toNat := digit.1
  have upper : c.toNat ≤ 57 := digit.2
  exact isBlank_eq_false_of_visible (by omega) (by omega)

theorem isBlank_of_isUpper {c : Char} (upper : c.isUpper = true) : isBlank c = false := by
  have bounds : c.val ≥ 65 ∧ c.val ≤ 90 := of_decide_eq_true upper
  simp only [ge_iff_le, UInt32.le_iff_toNat_le] at bounds
  have lowest : 65 ≤ c.toNat := bounds.1
  have highest : c.toNat ≤ 90 := bounds.2
  exact isBlank_eq_false_of_visible (by omega) (by omega)

theorem isBlank_of_isLower {c : Char} (lower : c.isLower = true) : isBlank c = false := by
  have bounds : (decide (c.val ≥ 97) && decide (c.val ≤ 122)) = true := lower
  simp only [Bool.and_eq_true, decide_eq_true_eq, ge_iff_le, UInt32.le_iff_toNat_le] at bounds
  have lowest : 97 ≤ c.toNat := bounds.1
  have highest : c.toNat ≤ 122 := bounds.2
  exact isBlank_eq_false_of_visible (by omega) (by omega)

theorem isBlank_of_isNameChar {c : Char} (name : isNameChar c = true) : isBlank c = false := by
  have parts : (((c.isUpper || c.isLower) || c.isDigit) || c == '_' || c == '-') = true := name
  simp only [Bool.or_eq_true, beq_iff_eq] at parts
  rcases parts with (((upper | lower) | digit) | rfl) | rfl
  · exact isBlank_of_isUpper upper
  · exact isBlank_of_isLower lower
  · exact isBlank_of_isDigit digit
  · decide
  · decide

def IsSuffixChar (c : Char) : Prop := isNameChar c = true ∨ c = ':' ∨ c = '.'

theorem not_isSuffixChar_quote : ¬ IsSuffixChar '"' := by simp [IsSuffixChar, isNameChar]

theorem isBlank_of_isSuffixChar {c : Char} (touching : IsSuffixChar c) : isBlank c = false := by
  rcases touching with name | rfl | rfl
  · exact isBlank_of_isNameChar name
  · decide
  · decide

theorem isNameChar_of_isDigits {text : List Char} (digits : isDigits text = true) :
    ∀ c ∈ text, isNameChar c = true := by
  simp only [isDigits, Bool.and_eq_true, List.all_eq_true] at digits
  intro c member
  simp [isNameChar, Char.isAlphanum, digits.2 c member]

theorem isNameChar_of_isName {text : List Char} (name : isName text = true) :
    ∀ c ∈ text, isNameChar c = true := by
  simp only [isName, Bool.and_eq_true, List.all_eq_true] at name
  exact name.2

theorem isNameChar_of_isIndex {text : List Char} (index : isIndex text = true) :
    ∀ c ∈ text, isNameChar c = true := by
  simp only [isIndex, Bool.or_eq_true, beq_iff_eq] at index
  rcases index with (rfl | rfl) | numeric
  · exact List.all_eq_true.mp (by decide)
  · exact List.all_eq_true.mp (by decide)
  · split at numeric
    · intro c member
      rcases List.mem_cons.mp member with rfl | member
      · decide
      · exact isNameChar_of_isDigits numeric c member
    · exact isNameChar_of_isDigits numeric

theorem isNameChar_or_colon_of_isPosition {text : List Char} (position : isPosition text = true) :
    ∀ c ∈ text, isNameChar c = true ∨ c = ':' := by
  unfold isPosition at position
  split at position
  · simp
  · intro c member
    rcases List.mem_cons.mp member with rfl | member
    · exact Or.inr rfl
    · exact Or.inl (isNameChar_of_isIndex position c member)
  · simp at position

theorem exists_name_of_isProperty {text : List Char} (property : isProperty text = true) :
    ∃ name, isName name = true ∧ text = '.' :: name := by
  unfold isProperty at property
  split at property
  · exact ⟨_, property, rfl⟩
  · simp at property

theorem exists_name_of_isPageElement {text : List Char} (page : isPageElement text = true) :
    ∃ name, isName name = true ∧ text = '$' :: name := by
  unfold isPageElement at page
  split at page
  · exact ⟨_, page, rfl⟩
  · simp at page

theorem blankFree_of_isPageElement {text : List Char} (page : isPageElement text = true) :
    BlankFree text := by
  obtain ⟨name, named, rfl⟩ := exists_name_of_isPageElement page
  exact blankFree_cons (by decide)
    (fun c member => isBlank_of_isNameChar (isNameChar_of_isName named c member))

theorem shape_of_isElement {text : List Char} (element : isElement text = true) :
    ∃ body suffix, Quotable body ∧ isPosition suffix = true ∧
      text = '$' :: '"' :: (body ++ '"' :: suffix) := by
  unfold isElement at element
  split at element
  · rename_i suffix found
    obtain ⟨body, quotable, same⟩ := quotable_of_suffix? found
    exact ⟨body, suffix, quotable, element, same⟩
  · simp at element

theorem shape_of_isAttribute {text : List Char} (named : isAttribute text = true) :
    ∃ body position property, Quotable body ∧ isPosition position = true ∧
      isProperty property = true ∧ text = '$' :: '"' :: (body ++ '"' :: (position ++ property)) := by
  unfold isAttribute at named
  split at named
  · rename_i suffix found
    obtain ⟨body, quotable, same⟩ := quotable_of_suffix? found
    simp only [Bool.and_eq_true] at named
    refine ⟨body, _, _, quotable, named.1, named.2, ?_⟩
    rw [List.takeWhile_append_dropWhile, same]
  · simp at named

theorem shape_of_isSingle {text : List Char} (single : isSingle text = true) :
    ∃ body suffix, Quotable body ∧ (∀ c ∈ suffix, IsSuffixChar c) ∧
      text = '$' :: '"' :: (body ++ '"' :: suffix) := by
  simp only [isSingle, Bool.or_eq_true] at single
  rcases single with element | named
  · obtain ⟨body, position, quotable, placed, same⟩ := shape_of_isElement element
    refine ⟨body, position, quotable, ?_, same⟩
    intro c member
    exact (isNameChar_or_colon_of_isPosition placed c member).imp_right Or.inl
  · obtain ⟨body, position, property, quotable, placed, proper, same⟩ := shape_of_isAttribute named
    refine ⟨body, position ++ property, quotable, ?_, same⟩
    intro c member
    rcases List.mem_append.mp member with before | behind
    · exact (isNameChar_or_colon_of_isPosition placed c before).imp_right Or.inl
    · obtain ⟨name, letters, rfl⟩ := exists_name_of_isProperty proper
      rcases List.mem_cons.mp behind with rfl | behind
      · exact Or.inr (Or.inr rfl)
      · exact Or.inl (isNameChar_of_isName letters c behind)

end Identifier

end WebTestLint
