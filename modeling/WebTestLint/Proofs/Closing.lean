import WebTestLint.Proofs.Form
import WebTestLint.Proofs.Vocabulary

/-!
What closes a nested form. Its selector is cut out between the braces and the last quote of the text,
and no quote in between is looked at. So text may run past the selector's own quote, as long as a quote
ends it.
-/

namespace WebTestLint

namespace Identifier

open Scan (nestedText opening startsNested not_pair_isPrefix)

def HasLooseQuote (text : List Char) : Prop :=
  ∃ own past, Quotable own ∧ text = own ++ '"' :: past

theorem not_hasLooseQuote {text : List Char} (quotable : Quotable text) : ¬ HasLooseQuote text := by
  rintro ⟨own, past, ownQuotable, rfl⟩
  have whole := throughQuote_quotable quotable []
  have first := throughQuote_quotable ownQuotable (past ++ ['"'])
  rw [List.append_assoc, List.cons_append, first] at whole
  simp at whole

/-- A text that the nested form alone accounts for: no joint cuts it. -/
structure IsNestedForm (text : List Char) : Prop where
  whole : (Chain.ofText text).links = []
  nested : isNested text = true

/-- A parent in braces that are closed behind it, and a selector up to its own quote. -/
structure IsClosedForm (parent own : List Char) : Prop where
  matched : splitAtClose? 1 (parent ++ [' ', '}', '}']) = some (parent ++ [' '], [])
  target : isTarget parent = true
  quotable : Quotable own

/-- What may run past the selector's own quote: nothing, or what ends in a quote. -/
def Closes (own past : List Char) : Prop :=
  if past = [] then ¬ AllBlank own else past.getLast? = some '"'

instance (own past : List Char) : Decidable (Closes own past) :=
  inferInstanceAs
    (Decidable (if past = [] then ¬ ∀ c ∈ own, isBlank c = true else past.getLast? = some '"'))

theorem closes_iff {past : List Char} (runs : past ≠ []) (own : List Char) :
    Closes own past ↔ past.getLast? = some '"' := by
  rw [Closes, if_neg runs]

theorem prefix_closing_iff (brace c : Char) (inner after other : List Char) :
    [brace, brace] <+: c :: (inner ++ '}' :: '}' :: after) ↔
      [brace, brace] <+: c :: (inner ++ '}' :: '}' :: other) := by
  cases inner with
  | nil => simp
  | cons d inner => simp

theorem splitAtClose?_other {depth : Nat} {text before after : List Char}
    (found : splitAtClose? depth text = some (before, after)) (other : List Char) :
    splitAtClose? depth (before ++ '}' :: '}' :: other) = some (before, other) := by
  fun_induction splitAtClose? depth text generalizing before with
  | case1 => simp at found
  | case2 depth rest ih =>
      obtain ⟨⟨inner, after'⟩, found', same⟩ := Option.map_eq_some_iff.mp found
      obtain ⟨rfl, rfl⟩ := Prod.mk.inj same
      simp [splitAtClose?, ih found']
  | case3 depth rest last =>
      obtain ⟨rfl, rfl⟩ := Prod.mk.inj (Option.some.inj found)
      simp [splitAtClose?, last]
  | case4 depth rest deeper ih =>
      obtain ⟨⟨inner, after'⟩, found', same⟩ := Option.map_eq_some_iff.mp found
      obtain ⟨rfl, rfl⟩ := Prod.mk.inj same
      simp [splitAtClose?, deeper, ih found']
  | case5 depth c rest notOpen notClose ih =>
      obtain ⟨⟨inner, after'⟩, found', same⟩ := Option.map_eq_some_iff.mp found
      obtain ⟨rfl, rfl⟩ := Prod.mk.inj same
      obtain rfl := eq_append_of_splitAtClose? found'
      have unopened : ¬ ['{', '{'] <+: c :: (inner ++ '}' :: '}' :: other) := by
        rw [← prefix_closing_iff '{' c inner after']
        exact not_pair_isPrefix notOpen
      have unclosed : ¬ ['}', '}'] <+: c :: (inner ++ '}' :: '}' :: other) := by
        rw [← prefix_closing_iff '}' c inner after']
        exact not_pair_isPrefix notClose
      rw [List.cons_append, splitAtClose?_cons_other depth unopened unclosed, ih found']
      rfl

theorem splitNested?_nestedText_iff (parent selector : List Char) :
    splitNested? (nestedText parent selector) = some (parent, selector) ↔
      splitAtClose? 1 (parent ++ [' ', '}', '}']) = some (parent ++ [' '], []) := by
  have started : dropStart? "$\"\x7b\x7b ".toList (nestedText parent selector) =
      some (parent ++ [' '] ++ '}' :: '}' :: ' ' :: (selector ++ ['"'])) := by
    rw [dropStart?_eq_some_iff]
    simp [nestedText, opening, startsNested]
  have trimmed (before : List Char) : dropEnd? [' '] before = some parent ↔ before = parent ++ [' '] :=
    dropEnd?_eq_some_iff _ _ _
  have suffixed : dropEnd? ['"'] (selector ++ ['"']) = some selector := (dropEnd?_eq_some_iff _ _ _).mpr rfl
  rw [splitNested?, started]
  constructor
  · intro found
    simp only [Option.bind_eq_bind, Option.bind_some, Option.bind_eq_some_iff, Option.pure_def,
      Option.some.injEq, Prod.mk.injEq, Prod.exists] at found
    obtain ⟨before, after, closed, _, cut, _, _, _, _, rfl, _⟩ := found
    rw [(trimmed before).mp cut] at closed
    simpa using splitAtClose?_other closed []
  · intro matched
    have closed := splitAtClose?_other matched (' ' :: (selector ++ ['"']))
    simp only [Option.bind_eq_bind, Option.bind_some, closed, (trimmed _).mpr rfl]
    simp [dropStart?, suffixed]

namespace IsClosedForm

variable {parent own : List Char}

theorem splitNested?_eq_some_iff (closed : IsClosedForm parent own) (past other selector : List Char) :
    splitNested? (nestedText parent own ++ past) = some (other, selector) ↔
      other = parent ∧ selector ++ ['"'] = own ++ '"' :: past := by
  have cut {body : List Char} (same : body ++ ['"'] = own ++ '"' :: past) :
      splitNested? (nestedText parent own ++ past) = some (parent, body) := by
    have shaped : nestedText parent own ++ past = nestedText parent body := by
      simp [nestedText, same]
    rw [shaped]
    exact (splitNested?_nestedText_iff parent body).mpr closed.matched
  constructor
  · intro found
    have ends := congrArg List.getLast? (eq_nestedText_of_splitNested? found)
    rw [nestedText, nestedText, List.append_assoc, List.append_assoc,
      List.getLast?_append_of_ne_nil _ (by simp), ← List.append_assoc (opening other),
      List.getLast?_concat, List.singleton_append] at ends
    obtain ⟨body, same⟩ := List.getLast?_eq_some_iff.mp ends
    rw [cut same.symm] at found
    obtain ⟨rfl, rfl⟩ := Prod.mk.inj (Option.some.inj found)
    exact ⟨rfl, same.symm⟩
  · rintro ⟨rfl, same⟩
    exact cut same

theorem exists_selector_iff (past : List Char) :
    (∃ selector, selector ++ ['"'] = own ++ '"' :: past ∧ ¬ AllBlank selector) ↔ Closes own past := by
  rcases List.eq_nil_or_concat past with rfl | ⟨more, last, rfl⟩
  · simp [Closes]
  · have shaped : own ++ '"' :: more.concat last = own ++ '"' :: more ++ [last] := by simp
    rw [shaped]
    constructor
    · rintro ⟨selector, same, _⟩
      obtain rfl : '"' = last := List.singleton_inj.mp (List.append_inj_right' same rfl)
      simp [Closes]
    · intro closes
      obtain rfl : last = '"' := by simpa [Closes] using closes
      refine ⟨own ++ '"' :: more, rfl, fun blank => ?_⟩
      exact absurd (blank '"' (by simp)) (by decide)

theorem isNested_iff (closed : IsClosedForm parent own) (past : List Char) :
    isNested (nestedText parent own ++ past) = true ↔ Closes own past := by
  rw [Identifier.isNested_iff, ← exists_selector_iff]
  constructor
  · rintro ⟨other, selector, found, visible, _⟩
    exact ⟨selector, ((closed.splitNested?_eq_some_iff _ _ _).mp found).2, visible⟩
  · rintro ⟨selector, same, visible⟩
    exact ⟨parent, selector, (closed.splitNested?_eq_some_iff _ _ _).mpr ⟨rfl, same⟩, visible,
      closed.target⟩

theorem hasLooseQuote_iff (closed : IsClosedForm parent own) {past selector : List Char}
    (same : selector ++ ['"'] = own ++ '"' :: past) : HasLooseQuote selector ↔ past ≠ [] := by
  constructor
  · rintro loose rfl
    obtain rfl : selector = own := List.append_cancel_right same
    exact not_hasLooseQuote closed.quotable loose
  · intro runs
    obtain ⟨more, last, rfl⟩ := (List.eq_nil_or_concat past).resolve_left runs
    have cut : selector ++ ['"'] = own ++ '"' :: more ++ [last] := by simpa using same
    exact ⟨own, more, closed.quotable, List.append_inj_left' cut rfl⟩

theorem isSingle_eq_false (closed : IsClosedForm parent own) (past : List Char) :
    isSingle (nestedText parent own ++ past) = false := by
  by_contra single
  obtain ⟨body, suffix, quotable, touching, same⟩ := shape_of_isSingle (by simpa using single)
  have inner : ['{', '{', ' '] ++ parent ++ [' ', '}', '}', ' '] ++ own ++ '"' :: past =
      body ++ '"' :: suffix := by
    simpa [nestedText, opening, startsNested] using same
  -- The body of a single identifier ends at its first loose quote, so it cannot hold the parent.
  have short : ¬ ['{', '{', ' '] ++ parent ++ [' ', '}', '}', ' '] ++ own <+: body := by
    intro taken
    have inside : parent <:+: ['{', '{', ' '] ++ parent ++ [' ', '}', '}', ' '] ++ own :=
      ⟨['{', '{', ' '], [' ', '}', '}', ' '] ++ own, by simp⟩
    exact not_infix_of_quotable quotable
      ((infix_of_isTarget closed.target).trans (inside.trans taken.isInfix))
  rcases List.append_eq_append_iff.mp inner with ⟨more, longer, _⟩ | ⟨more, shorter, behind⟩
  · exact short ⟨more, longer.symm⟩
  · cases more with
    | nil => exact short ⟨[], by simpa using shorter⟩
    | cons c more =>
        have quote : '"' ∈ suffix := by simp [(List.cons.inj behind).2]
        exact not_isSuffixChar_quote (touching '"' quote)

theorem isDescendantElement_iff (closed : IsClosedForm parent own) {past : List Char}
    (whole : (Chain.ofText (nestedText parent own ++ past)).links = []) :
    isDescendantElement (nestedText parent own ++ past) = true ↔ Closes own past := by
  rw [Identifier.isDescendantElement_iff, closed.isNested_iff]
  simp [whole]

end IsClosedForm

theorem isClosedForm_of_isNestedForm {text parent selector own : List Char}
    (nested : IsNestedForm text) (found : splitNested? text = some (parent, selector))
    (quotable : Quotable own) : IsClosedForm parent own := by
  obtain ⟨other, inner, found', _, target⟩ := (isNested_iff text).mp nested.nested
  obtain ⟨rfl, rfl⟩ := Prod.mk.inj (Option.some.inj (found'.symm.trans found))
  have shaped := eq_nestedText_of_splitNested? found
  rw [shaped, splitNested?_nestedText_iff] at found
  exact ⟨found, target, quotable⟩

theorem hasLooseQuote_iff {text parent selector : List Char} (nested : IsNestedForm text)
    (found : splitNested? text = some (parent, selector)) :
    HasLooseQuote selector ↔
      ∃ own past, IsClosedForm parent own ∧ past ≠ [] ∧ text = nestedText parent own ++ past := by
  constructor
  · rintro ⟨own, past, quotable, rfl⟩
    refine ⟨own, past ++ ['"'], isClosedForm_of_isNestedForm nested found quotable, by simp, ?_⟩
    rw [eq_nestedText_of_splitNested? found]
    simp [nestedText]
  · rintro ⟨own, past, closed, runs, rfl⟩
    obtain ⟨_, same⟩ := (closed.splitNested?_eq_some_iff past parent selector).mp found
    exact (closed.hasLooseQuote_iff same).mpr runs

end Identifier

theorem Value.check_isValid_iff_of_quoted {text : List Char} (quoted : ['$', '"'] <+: text) :
    (check (String.ofList text)).isValid = true ↔
      Identifier.isSingle text = true ∨ Identifier.isDescendantElement text = true := by
  obtain ⟨rest, rfl⟩ := quoted
  have trimmed : trim (['$', '"'] ++ rest) = ['$', '"'] ++ trimEnd rest :=
    trim_append (by simp) (isTrimmed_of_blankFree (by decide)) rest
  have literal : isLiteral (['$', '"'] ++ rest) = false := by
    rw [isLiteral, trimmed]
    rfl
  generalize shaped : ['$', '"'] ++ rest = text at literal
  have fault : fault? (String.ofList text) =
      if Identifier.isSingle text || Identifier.isDescendantElement text then none
      else some .valueInvalid := by
    rw [fault?, String.toList_ofList, literal, ← shaped]
    simp [Data.parameterName?, isEnvironment, dropStart?]
  by_cases identifier : (Identifier.isSingle text || Identifier.isDescendantElement text) = true
  · rw [check, fault, if_pos identifier]
    simpa [Verdict.isValid] using identifier
  · rw [check, fault, if_neg identifier]
    simpa [Verdict.isValid] using identifier

theorem Action.check_isValid_iff_of_interaction {action : Action} {identifier : String}
    (interacts : action.kind = .interaction identifier) (known : action.command ∈ commands) :
    action.check.isValid = true ↔ Identifier.isTarget identifier.toList = true := by
  have target : action.hasTarget = Identifier.isTarget identifier.toList := by
    simp [hasTarget, identifier?, interacts]
  rw [← target]
  constructor
  · intro accepted
    by_contra missing
    rw [check, if_pos (by simpa using missing)] at accepted
    simp [Verdict.isValid] at accepted
  · intro present
    exact isValid_check_of_mem present (by simp [checkedValue?, interacts]) known

namespace Identifier

open Scan (nestedText)

/-- A nested form is not closed by its selector's own quote: text that runs past that quote is accepted
with it, by the recogniser and by the checks, exactly if a quote ends the text and no joint cuts it. -/
theorem runsPast_iff (text : List Char) :
    ((∀ parent selector, IsNestedForm text → splitNested? text = some (parent, selector) →
        ¬ HasLooseQuote selector) ↔
      ¬ ∃ parent own past, IsClosedForm parent own ∧ text = nestedText parent own ++ past ∧
        past.getLast? = some '"' ∧ (Chain.ofText text).links = []) ∧
    ∀ parent own past, IsClosedForm parent own → text = nestedText parent own ++ past →
      (Chain.ofText text).links = [] →
        ((Value.check (String.ofList text)).isValid = true ↔ Closes own past) ∧
        ∀ action : Action, action.kind = .interaction (String.ofList text) →
          action.command ∈ Action.commands → (action.check.isValid = true ↔ Closes own past) := by
  refine ⟨⟨?_, ?_⟩, ?_⟩
  · rintro tight ⟨parent, own, past, closed, rfl, ended, whole⟩
    have runs : past ≠ [] := by
      rintro rfl
      simp at ended
    have nested := (closed.isNested_iff past).mpr ((closes_iff runs own).mpr ended)
    obtain ⟨other, selector, found, _⟩ := (isNested_iff _).mp nested
    obtain ⟨_, same⟩ := (closed.splitNested?_eq_some_iff past other selector).mp found
    exact tight other selector ⟨whole, nested⟩ found ((closed.hasLooseQuote_iff same).mpr runs)
  · intro absent parent selector nested found loose
    obtain ⟨own, past, closed, runs, rfl⟩ := (hasLooseQuote_iff nested found).mp loose
    have ended := (closes_iff runs own).mp ((closed.isNested_iff past).mp nested.nested)
    exact absent ⟨parent, own, past, closed, rfl, ended, nested.whole⟩
  · rintro parent own past closed rfl whole
    have single := closed.isSingle_eq_false past
    have quoted : ['$', '"'] <+: nestedText parent own ++ past := List.prefix_append ['$', '"'] _
    have element : isElement (nestedText parent own ++ past) = false := by
      simp only [isSingle, Bool.or_eq_false_iff] at single
      exact single.1
    constructor
    · rw [Value.check_isValid_iff_of_quoted quoted, single, closed.isDescendantElement_iff whole]
      simp
    · intro action interacts known
      rw [Action.check_isValid_iff_of_interaction interacts known, String.toList_ofList, isTarget,
        element, Bool.false_or]
      exact closed.isDescendantElement_iff whole

theorem runsPast_iff_menu :
    let parent := "$\".menu\":last".toList
    let own := "li[title=\\\"x\\\"]".toList
    let past := " a\"".toList
    let text := nestedText parent own ++ past
    IsClosedForm parent own ∧ past.getLast? = some '"' ∧ (Chain.ofText text).links = [] ∧
      (¬ ∀ parent selector, IsNestedForm text → splitNested? text = some (parent, selector) →
        ¬ HasLooseQuote selector) ∧
      (Value.check (String.ofList text)).isValid = true := by
  intro parent own past text
  have closed : IsClosedForm parent own := ⟨by decide +kernel, by decide +kernel, by decide +kernel⟩
  have ended : past.getLast? = some '"' := by decide +kernel
  have whole : (Chain.ofText text).links = [] := by decide +kernel
  obtain ⟨tight, accepts⟩ := runsPast_iff text
  refine ⟨closed, ended, whole, fun claimed => ?_, ?_⟩
  · exact tight.mp claimed ⟨parent, own, past, closed, rfl, ended, whole⟩
  · exact (accepts parent own past closed rfl whole).1.mpr (by decide +kernel)

theorem runsPast_bare :
    ¬ ∀ text parent selector, splitNested? text = some (parent, selector) → IsNestedForm text →
      ¬ HasLooseQuote selector := by
  intro closes
  apply closes "$\"\x7b\x7b $\".a\" \x7d\x7d .b\"x\"".toList "$\".a\"".toList ".b\"x".toList
  · decide +kernel
  · exact ⟨by decide +kernel, by decide +kernel⟩
  · exact ⟨".b".toList, "x".toList, by decide +kernel, rfl⟩

end Identifier

end WebTestLint
