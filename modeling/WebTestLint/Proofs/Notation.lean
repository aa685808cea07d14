import Mathlib.Data.List.Induction
import WebTestLint.Proofs.Form
import WebTestLint.Proofs.Grammar

/-!
The two notations for an element below another one: behind a joint, and in front of a selector in
braces. Without double braces in its parts either is read as it was put together, so it can be told
from the parts whether it is a descendant.
-/

namespace WebTestLint.Identifier

open Scan (BraceFree nestedText opening startsNested)
open Chain (Crosses IsSealed)

def quotedText (selector : List Char) : List Char := '$' :: '"' :: (selector ++ ['"'])

/-- Whether a backslash escapes a line feed, which the shape of an element does not allow. -/
def escapesLineFeed : List Char → Bool
  | '\\' :: c :: rest => c == '\n' || escapesLineFeed rest
  | _ :: rest => escapesLineFeed rest
  | [] => false

theorem escapesLineFeed_of_unescaped {text : List Char} (unescaped : '\\' ∉ text) :
    escapesLineFeed text = false := by
  fun_induction escapesLineFeed text with
  | case1 => simp at unescaped
  | case2 c rest _ ih => exact ih fun member => unescaped (List.mem_cons_of_mem c member)
  | case3 => rfl

theorem afterSelector?_quotable {body : List Char} (quotable : Quotable body) (suffix : List Char) :
    afterSelector? (body ++ '"' :: suffix) = if escapesLineFeed body then none else some suffix := by
  induction quotable with
  | nil => simp [afterSelector?, escapesLineFeed]
  | @plain c rest _ notEscape _ ih => simp [afterSelector?, escapesLineFeed, notEscape, ih]
  | @escaped c rest _ ih =>
      by_cases feed : c = '\n'
      · simp [afterSelector?, escapesLineFeed, feed]
      · simp [afterSelector?, escapesLineFeed, feed, ih]

theorem isElement_of_quotable {body : List Char} (quotable : Quotable body) (filled : body ≠ [])
    (suffix : List Char) :
    isElement ('$' :: '"' :: (body ++ '"' :: suffix)) = (!escapesLineFeed body && isPosition suffix) := by
  obtain ⟨c, rest, rfl⟩ := List.exists_cons_of_ne_nil filled
  have unquoted : c ≠ '"' := by
    rintro rfl
    exact ((quotable_cons_iff (by decide) rest).mp quotable).1 rfl
  have read : suffix? ('$' :: '"' :: (c :: rest ++ '"' :: suffix)) =
      afterSelector? (c :: rest ++ '"' :: suffix) := by
    simp [suffix?, unquoted]
  rw [isElement, read, afterSelector?_quotable quotable]
  cases escapesLineFeed (c :: rest) <;> rfl

theorem isElement_quotedText {selector : List Char} (below : IsSelector selector) :
    isElement (quotedText selector) = !escapesLineFeed selector := by
  have filled : selector ≠ [] := by
    rintro rfl
    exact below.visible (by simp [AllBlank])
  rw [quotedText, isElement_of_quotable below.quotable filled, isPosition, Bool.and_true]

theorem getLast?_append_quotedText (front selector : List Char) :
    (front ++ quotedText selector).getLast? = some '"' := by
  have shaped : front ++ quotedText selector = front ++ '$' :: '"' :: selector ++ ['"'] := by
    simp [quotedText]
  rw [shaped, List.getLast?_concat]

theorem exists_quotedText_of_isElement {text : List Char} (element : isElement text = true)
    (closed : text.getLast? = some '"') : ∃ body, Quotable body ∧ text = quotedText body := by
  obtain ⟨body, suffix, quotable, touching, rfl⟩ := shape_of_isSingle (isSingle_of_isElement element)
  refine ⟨body, quotable, ?_⟩
  have shaped : '$' :: '"' :: (body ++ '"' :: suffix) = '$' :: '"' :: (body ++ ['"']) ++ suffix := by simp
  rw [shaped] at closed ⊢
  by_cases bare : suffix = []
  · rw [bare, List.append_nil, quotedText]
  · rw [List.getLast?_append_of_ne_nil _ bare] at closed
    exact absurd (touching '"' (List.mem_of_getLast? closed)) not_isSuffixChar_quote

theorem not_suffix_of_quotable {body : List Char} (quotable : Quotable body) (other : List Char) :
    ¬ quotedText other <:+ body ++ ['"'] := by
  rintro ⟨front, same⟩
  have split : front ++ ('$' :: '"' :: other) ++ ['"'] = body ++ ['"'] := by
    simpa [quotedText] using same
  apply not_infix_of_quotable quotable
  exact ⟨front, other, by simpa using List.append_cancel_right split⟩

theorem eq_nil_of_quotedText_eq_append {body other front : List Char} (quotable : Quotable body)
    (same : quotedText body = front ++ quotedText other) : front = [] := by
  rcases front with _ | ⟨first, _ | ⟨second, front⟩⟩
  · rfl
  · simp [quotedText] at same
  · exfalso
    apply not_suffix_of_quotable quotable other
    exact ⟨front, (List.cons.inj (List.cons.inj same).2).2.symm⟩

theorem eq_of_append_quotedText {first second body other : List Char} (quotable : Quotable body)
    (quotableOther : Quotable other) (same : first ++ quotedText body = second ++ quotedText other) :
    first = second ∧ quotedText body = quotedText other := by
  rcases List.append_eq_append_iff.mp same with ⟨front, rfl, longer⟩ | ⟨front, rfl, longer⟩
  · obtain rfl := eq_nil_of_quotedText_eq_append quotable longer
    exact ⟨by simp, by simpa using longer⟩
  · obtain rfl := eq_nil_of_quotedText_eq_append quotableOther longer
    exact ⟨by simp, by simpa using longer.symm⟩

theorem Chain.exists_quotedText_last {chain : Chain} (filled : chain.links ≠ [])
    (elements : ∀ link ∈ chain.links, isElement link = true)
    (closed : chain.text.getLast? = some '"') :
    ∃ front body, Quotable body ∧ chain.links = front ++ [quotedText body] ∧
      chain.text = (Chain.mk chain.head front).text ++ (joint ++ quotedText body) := by
  obtain ⟨head, links⟩ := chain
  obtain ⟨front, last, rfl⟩ := (List.eq_nil_or_concat links).resolve_left filled
  rw [List.concat_eq_append] at elements closed ⊢
  have element : isElement last = true := elements last (by simp)
  have started : last ≠ [] := by
    rintro rfl
    simp [isElement, suffix?] at element
  rw [text_concat, ← List.append_assoc, List.getLast?_append_of_ne_nil _ started] at closed
  obtain ⟨body, quotable, rfl⟩ := exists_quotedText_of_isElement element closed
  exact ⟨front, body, quotable, rfl, text_concat head front _⟩

theorem isNested_eq_false_of_unopened {text : List Char} (unopened : ¬ ['{', '{'] <:+: text) :
    isNested text = false := by
  by_contra nested
  obtain ⟨parent, selector, found, _, _⟩ := (isNested_iff text).mp (by simpa using nested)
  rw [eq_nestedText_of_splitNested? found] at unopened
  exact unopened ⟨['$', '"'], ' ' :: (parent ++ [' ', '}', '}', ' '] ++ (selector ++ ['"'])), by
    simp [nestedText, opening, startsNested]⟩

structure Chain.IsFront (chain : Chain) : Prop where
  head : isElement chain.head = true ∨ isPageElement chain.head = true
  links : ∀ link ∈ chain.links, isElement link = true

theorem Chain.IsFront.isSegment {chain : Chain} (front : chain.IsFront) (free : BraceFree chain.text) :
    ∀ segment ∈ chain.segments, IsSegment segment := by
  have unbraced {segment : List Char} (member : segment ∈ chain.segments)
      (element : isElement segment = true) : IsSegment segment :=
    isSegment_of_isUnbracedElement ⟨element, free.of_infix (infix_text_of_mem member)⟩
  intro segment member
  rcases List.mem_cons.mp member with rfl | below
  · rcases front.head with element | page
    · exact unbraced member element
    · exact isSegment_of_isPageElement page
  · exact unbraced member (front.links segment below)

theorem Chain.IsFront.crosses {chain : Chain} (front : chain.IsFront) (free : BraceFree chain.text) :
    ∀ segment ∈ chain.segments, Crosses (0, false) segment (0, false) :=
  fun segment member => (front.isSegment free segment member).crosses 0 false (Or.inr rfl)

theorem isHead_ofText_iff_of_unopened {text : List Char} (unopened : ¬ ['{', '{'] <:+: text) :
    isHead (Chain.ofText text).head = true ↔
      isElement (Chain.ofText text).head = true ∨ isPageElement (Chain.ofText text).head = true := by
  have inside : (Chain.ofText text).head <:+: (Chain.ofText text).text :=
    Chain.infix_text_of_mem List.mem_cons_self
  rw [Chain.text_ofText] at inside
  have plain := isNested_eq_false_of_unopened fun found => unopened (found.trans inside)
  simp [isHead, plain]

theorem isDescendantElement_iff_of_unopened {text : List Char} (unopened : ¬ ['{', '{'] <:+: text) :
    isDescendantElement text = true ↔
      (Chain.ofText text).links ≠ [] ∧ (Chain.ofText text).IsFront := by
  simp only [isDescendantElement_iff, isNested_eq_false_of_unopened unopened,
    isHead_ofText_iff_of_unopened unopened, Bool.false_eq_true, and_false, false_or]
  apply and_congr_right
  intro _
  constructor
  · rintro ⟨start, below⟩
    exact ⟨start, below⟩
  · intro front
    exact ⟨front.head, front.links⟩

theorem ofText_of_isPageElement {text : List Char} (page : isPageElement text = true) :
    Chain.ofText text = ⟨text, []⟩ :=
  Chain.ofText_of_crosses ((isSegment_of_isPageElement page).crosses 0 false (Or.inr rfl))

/-- What may stand in front of a joint: a target, or a page element. -/
theorem isFront_ofText_iff {text : List Char} (free : BraceFree text) :
    (Chain.ofText text).IsFront ↔ isTarget text = true ∨ isPageElement text = true := by
  constructor
  · intro front
    by_cases single : (Chain.ofText text).links = []
    · have alone := Chain.ofText_of_links_eq_nil single
      rcases front.head with element | page
      · rw [alone] at element
        exact Or.inl (by simpa [isTarget] using Or.inl element)
      · rw [alone] at page
        exact Or.inr page
    · have descends := (isDescendantElement_iff_of_unopened free.1).mpr ⟨single, front⟩
      exact Or.inl (by simp [isTarget, descends])
  · rintro (target | page)
    · rcases Bool.or_eq_true_iff.mp target with element | descends
      · rw [Chain.ofText_of_isSingle (isSingle_of_isElement element)]
        exact ⟨Or.inl element, by simp⟩
      · exact ((isDescendantElement_iff_of_unopened free.1).mp descends).2
    · rw [ofText_of_isPageElement page]
      exact ⟨Or.inr page, by simp⟩

theorem isTarget_eq_false_of_isPageElement {text : List Char} (page : isPageElement text = true) :
    isTarget text = false := by
  by_contra target
  have quoted := infix_of_isTarget (by simpa using target)
  obtain ⟨name, named, rfl⟩ := exists_name_of_isPageElement page
  have quote : '"' ∈ name := by simpa using quoted.subset (List.mem_cons_of_mem '$' List.mem_cons_self)
  simpa [isNameChar] using isNameChar_of_isName named '"' quote

theorem IsSealed.braceFree_append {first second : List Char} (closed : IsSealed first)
    (free : BraceFree second) : BraceFree (first ++ second) := by
  induction first with
  | nil => exact free
  | cons c first ih =>
      obtain ⟨notOpen, notClose⟩ := closed.not_prefix second
      have tail := ih closed.tail
      constructor
      · intro found
        exact (List.infix_cons_iff.mp found).elim notOpen tail.1
      · intro found
        exact (List.infix_cons_iff.mp found).elim notClose tail.2

theorem braceFree_append_joint {parent selector : List Char} (free : BraceFree parent)
    (below : IsSelector selector) : BraceFree (parent ++ (joint ++ quotedText selector)) := by
  have quoted : BraceFree (selector ++ ['"']) := (Chain.isSealed_concat below.free (by decide)).free
  have start : IsSealed ['>', '>', ' ', '$', '"'] := ⟨by decide, by simp⟩
  have front : IsSealed (parent ++ [' ']) := Chain.isSealed_concat free (by decide)
  have whole := IsSealed.braceFree_append front (IsSealed.braceFree_append start quoted)
  simpa [quotedText, joint] using whole

theorem isDescendantElement_append_joint_iff {parent selector : List Char} (free : BraceFree parent)
    (below : IsSelector selector) :
    isDescendantElement (parent ++ (joint ++ quotedText selector)) = true ↔
      (Chain.ofText parent).IsFront ∧ isElement (quotedText selector) = true := by
  rw [isDescendantElement_iff_of_unopened (braceFree_append_joint free below).1]
  constructor
  · rintro ⟨filled, front⟩
    have text := Chain.text_ofText (parent ++ (joint ++ quotedText selector))
    generalize Chain.ofText (parent ++ (joint ++ quotedText selector)) = chain at filled front text
    rw [← List.append_assoc] at text
    obtain ⟨links, body, quotable, shaped, split⟩ := Chain.exists_quotedText_last filled front.links
      (by rw [text, getLast?_append_quotedText])
    -- The last joint is the one in front of the selector, since no link starts inside a selector.
    rw [text, ← List.append_assoc] at split
    obtain ⟨cut, same⟩ := eq_of_append_quotedText below.quotable quotable split
    have whole : parent = (Chain.mk chain.head links).text := List.append_cancel_right cut
    have init : (Chain.mk chain.head links).IsFront :=
      ⟨front.head, fun link member => front.links link (by simp [shaped, member])⟩
    rw [whole, Chain.ofText_chain (init.crosses (whole ▸ free))]
    exact ⟨init, front.links _ (by simp [shaped, same])⟩
  · rintro ⟨front, element⟩
    have crosses := front.crosses (by rwa [Chain.text_ofText])
    have split := Chain.ofText_text_append_joint crosses
      (Chain.ofText_of_isSingle (isSingle_of_isElement element))
    rw [Chain.text_ofText] at split
    rw [split]
    refine ⟨by simp, front.head, ?_⟩
    intro link member
    rcases List.mem_append.mp member with inner | last
    · exact front.links link inner
    · rwa [List.mem_singleton.mp last]

theorem Chain.exists_crosses_concat_blank {depth : Nat} (opened : 0 < depth) (quoted : Bool)
    {text : List Char} (closed : IsSealed (text ++ [' '])) :
    ∃ quoted', Crosses (depth, quoted) (text ++ [' ']) (depth, quoted') := by
  have pass {c : Char} {rest : List Char} {quoted quoted' : Bool} (closed : IsSealed (c :: rest))
      (notEscape : c ≠ '\\') (notQuote : c ≠ '"')
      (tail : Crosses (depth, quoted) rest (depth, quoted')) :
      Crosses (depth, quoted) (c :: rest) (depth, quoted') := by
    intro after
    obtain ⟨notOpen, notClose⟩ := closed.not_prefix after
    rw [List.cons_append, split_cons_inside (Or.inl opened) notEscape notQuote notOpen notClose, tail]
    simp
  induction text using List.twoStepInduction generalizing quoted with
  | nil => exact ⟨quoted, crosses_blank (Or.inl opened)⟩
  | singleton c =>
      -- A backslash at the end escapes the blank, and not what stands behind it.
      by_cases escape : c = '\\'
      · exact ⟨quoted, escape ▸ crosses_escaped depth quoted ' '⟩
      by_cases quote : c = '"'
      · exact ⟨!quoted, quote ▸ (crosses_quote depth quoted).append (crosses_blank (Or.inl opened))⟩
      · exact ⟨quoted, pass closed escape quote (crosses_blank (Or.inl opened))⟩
  | cons_cons c d text ih ih' =>
      by_cases escape : c = '\\'
      · obtain ⟨quoted', tail⟩ := ih quoted closed.tail.tail
        exact ⟨quoted', escape ▸ (crosses_escaped depth quoted d).append tail⟩
      by_cases quote : c = '"'
      · obtain ⟨quoted', tail⟩ := ih' d (!quoted) closed.tail
        exact ⟨quoted', quote ▸ (crosses_quote depth quoted).append tail⟩
      · obtain ⟨quoted', tail⟩ := ih' d quoted closed.tail
        exact ⟨quoted', pass closed escape quote tail⟩

theorem exists_links_nestedText_eq {parent : List Char} (free : BraceFree parent)
    (selector : List Char) : ∃ chain : Chain, chain.text = ' ' :: selector ++ ['"'] ∧
      (Chain.ofText (nestedText parent selector)).links = chain.links := by
  have spaced : IsSealed (' ' :: parent ++ [' ']) := Chain.isSealed_concat free.cons_blank (by decide)
  obtain ⟨quoted, inside⟩ := Chain.exists_crosses_concat_blank (by decide : 0 < 1) true spaced
  have dollar : Crosses (0, false) ['$'] (0, false) := Chain.crosses_plain 0 false (by simp [Chain.IsPlain])
  have start := (dollar.append (Chain.crosses_quote 0 false)).append (Chain.crosses_open 0 true)
  have whole := (start.append inside).append (Chain.crosses_close 1 quoted)
  refine ⟨Chain.split 0 quoted (' ' :: selector ++ ['"']), Chain.text_split _ _ _, ?_⟩
  have shaped : nestedText parent selector =
      ['$'] ++ ['"'] ++ ['{', '{'] ++ (' ' :: parent ++ [' ']) ++ ['}', '}'] ++
        (' ' :: selector ++ ['"']) := by
    simp [nestedText, opening, startsNested]
  rw [Chain.ofText, shaped, whole]
  rfl

theorem links_nestedText_eq_nil {parent selector : List Char} (free : BraceFree parent)
    (below : IsSelector selector)
    (elements : ∀ link ∈ (Chain.ofText (nestedText parent selector)).links, isElement link = true) :
    (Chain.ofText (nestedText parent selector)).links = [] := by
  obtain ⟨chain, text, same⟩ := exists_links_nestedText_eq free selector
  rw [same] at elements ⊢
  by_contra filled
  obtain ⟨front, body, _, _, whole⟩ :=
    Chain.exists_quotedText_last filled elements (by rw [text, List.getLast?_concat])
  have quotable : Quotable (' ' :: selector) := Quotable.plain (by decide) (by decide) below.quotable
  -- The last link would start at a quote inside the selector.
  apply not_suffix_of_quotable quotable body
  rw [text, ← List.append_assoc] at whole
  exact ⟨_, whole.symm⟩

theorem isDescendantElement_nestedText_iff {parent selector : List Char} (free : BraceFree parent)
    (below : IsSelector selector) :
    isDescendantElement (nestedText parent selector) = true ↔ isTarget parent = true := by
  constructor
  · intro descends
    have nested : isNested (nestedText parent selector) = true := by
      rcases (isDescendantElement_iff _).mp descends with ⟨_, nested⟩ | ⟨filled, _, elements⟩
      · exact nested
      · exact absurd (links_nestedText_eq_nil free below elements) filled
    obtain ⟨other, inner, found, _, target⟩ := (isNested_iff _).mp nested
    rw [splitNested?_of_isBalanced_concat
      (isBalanced_of_isSealed (Chain.isSealed_concat free (by decide)))] at found
    obtain ⟨rfl, rfl⟩ : parent = other ∧ selector = inner := by simpa using found
    exact target
  · intro target
    have front := (isFront_ofText_iff free).mpr (Or.inl target)
    have enclosed : IsEnclosed parent := by
      rw [← Chain.text_ofText parent]
      exact isEnclosed_text (front.isSegment (by rwa [Chain.text_ofText]))
    have segment := isSegment_nestedText enclosed below
    have alone := Chain.ofText_of_crosses (segment.crosses 0 false (Or.inr rfl))
    rw [isDescendantElement, alone]
    exact isNested_nestedText enclosed below target

/-- The two notations differ in two ways. In front of a joint a page element may stand alone, in braces
it may not; and only behind braces may a selector escape a line feed. -/
theorem notations_agree_iff {parent selector : List Char} (free : BraceFree parent)
    (below : IsSelector selector) :
    let joined := isDescendantElement (parent ++ (joint ++ quotedText selector))
    let nested := isDescendantElement (nestedText parent selector)
    (joined = true ↔
      (isTarget parent = true ∨ isPageElement parent = true) ∧ escapesLineFeed selector = false) ∧
    (nested = true ↔ isTarget parent = true) ∧
    (joined = nested ↔
      if escapesLineFeed selector then isTarget parent = false else isPageElement parent = false) := by
  intro joined nested
  have first : joined = true ↔
      (isTarget parent = true ∨ isPageElement parent = true) ∧ escapesLineFeed selector = false := by
    rw [isDescendantElement_append_joint_iff free below, isFront_ofText_iff free,
      isElement_quotedText below]
    simp
  have second : nested = true ↔ isTarget parent = true := isDescendantElement_nestedText_iff free below
  refine ⟨first, second, ?_⟩
  rw [Bool.eq_iff_iff, first, second]
  by_cases feed : escapesLineFeed selector = true
  · simp [feed]
  · cases page : isPageElement parent with
    | false => simp [feed]
    | true => simp [feed, isTarget_eq_false_of_isPageElement page]

theorem notations_agree_form :
    let parent := "$form >> $\".row\":last".toList
    let selector := "li > [title=\\\"b >> c\\\"]".toList
    BraceFree parent ∧ IsSelector selector ∧
      isDescendantElement (parent ++ (joint ++ quotedText selector)) =
        isDescendantElement (nestedText parent selector) ∧
      isDescendantElement (nestedText parent selector) = true := by
  intro parent selector
  have free : BraceFree parent := by decide +kernel
  have below : IsSelector selector := ⟨by decide +kernel, by decide +kernel, by decide +kernel⟩
  obtain ⟨_, nested, agree⟩ := notations_agree_iff free below
  exact ⟨free, below, agree.mpr (by decide +kernel), nested.mpr (by decide +kernel)⟩

theorem notations_differ_page :
    ¬ ∀ parent selector, BraceFree parent → IsSelector selector →
      (isDescendantElement (parent ++ (joint ++ quotedText selector)) = true ↔
        isDescendantElement (nestedText parent selector) = true) := by
  intro agree
  have same := agree "$form".toList ".x".toList (by decide) ⟨by decide, by decide, by decide⟩
  have joined : isDescendantElement ("$form".toList ++ (joint ++ quotedText ".x".toList)) = true := by
    decide +kernel
  have nested : isDescendantElement (nestedText "$form".toList ".x".toList) = false := by decide +kernel
  rw [nested] at same
  exact absurd (same.mp joined) (by decide)

end WebTestLint.Identifier
