import WebTestLint.Proofs.Notation

/-!
Braces in selectors. A split counts them between quotes, too, so the joint behind an element cuts a text
only if the element's selector closes the braces that it opens.
-/

namespace WebTestLint.Identifier

open Scan (nestedText opening startsNested)
open Chain (Crosses openBraces)

section Joined

variable {parent below : List Char}

theorem ofText_joined_of_closed (single : isSingle parent = true) (singleBelow : isSingle below = true)
    (closed : openBraces 0 parent = 0) :
    Chain.ofText (parent ++ (joint ++ below)) = ⟨parent, [below]⟩ := by
  have taken := Chain.crosses_of_isSingle 0 single
  rw [closed] at taken
  have each : ∀ segment ∈ (Chain.mk parent []).segments, Crosses (0, false) segment (0, false) := by
    simpa [Chain.segments] using taken
  have whole := Chain.ofText_text_append_joint each (Chain.ofText_of_isSingle singleBelow)
  simpa [Chain.text] using whole

theorem ofText_joined_of_open (single : isSingle parent = true) (singleBelow : isSingle below = true)
    (opened : openBraces 0 parent ≠ 0) :
    Chain.ofText (parent ++ (joint ++ below)) = ⟨parent ++ (joint ++ below), []⟩ := by
  have inside : Crosses (openBraces 0 parent, false) joint (openBraces 0 parent, false) :=
    Chain.crosses_joint (Or.inl (Nat.pos_of_ne_zero opened))
  have behind := inside.append (Chain.crosses_of_isSingle _ singleBelow)
  exact Chain.ofText_of_crosses ((Chain.crosses_of_isSingle 0 single).append behind)

theorem isDescendantElement_joined_iff (element : isElement parent = true)
    (elementBelow : isElement below = true) :
    isDescendantElement (parent ++ (joint ++ below)) = true ↔
      openBraces 0 parent = 0 ∨ isNested (parent ++ (joint ++ below)) = true := by
  have single := isSingle_of_isElement element
  have singleBelow := isSingle_of_isElement elementBelow
  by_cases closed : openBraces 0 parent = 0
  · simp [isDescendantElement, ofText_joined_of_closed single singleBelow closed, isHead, element,
      elementBelow, closed]
  · simp [isDescendantElement, ofText_joined_of_open single singleBelow closed, closed]

theorem isDescendantAttribute_joined_iff (element : isElement parent = true)
    (named : isAttribute below = true) :
    isDescendantAttribute (parent ++ (joint ++ below)) = true ↔ openBraces 0 parent = 0 := by
  have single := isSingle_of_isElement element
  have singleBelow : isSingle below = true := by simp [isSingle, named]
  by_cases closed : openBraces 0 parent = 0
  · simp [isDescendantAttribute, ofText_joined_of_closed single singleBelow closed, isHead, element,
      named, closed]
  · simp [isDescendantAttribute, ofText_joined_of_open single singleBelow closed, closed]

end Joined

def IsLead (lead : List Char) : Prop :=
  lead = [] ∨ ∃ page, isPageElement page = true ∧ lead = page ++ joint

/-- Braces that one element opens and the other one closes. They enclose a target, whose first and only
element has the joint in its selector. -/
def Straddles (parent child : List Char) : Prop :=
  ∃ lead position index selector, IsLead lead ∧ isPosition position = true ∧ isPosition index = true ∧
    ¬ AllBlank selector ∧ parent = startsNested ++ ' ' :: (lead ++ '$' :: '"' :: position) ∧
    child = '$' :: '"' :: (index ++ ' ' :: '}' :: '}' :: ' ' :: (selector ++ ['"']))

theorem exists_lead_of_isTarget {text : List Char} (target : isTarget text = true) :
    startsNested <+: text ∨ ∃ (lead element : List Char) (links : List (List Char)), IsLead lead ∧
      isElement element = true ∧ (∀ link ∈ links, isElement link = true) ∧
      text = lead ++ (element ++ links.flatMap (joint ++ ·)) := by
  have nests {text : List Char} (nested : isNested text = true) : startsNested <+: text := by
    obtain ⟨parent, selector, found, _, _⟩ := (isNested_iff text).mp nested
    rw [eq_nestedText_of_splitNested? found, nestedText, opening, List.append_assoc]
    exact List.prefix_append startsNested _
  rcases Bool.or_eq_true_iff.mp target with element | descends
  · exact Or.inr ⟨[], text, [], Or.inl rfl, element, by simp, by simp⟩
  rcases (isDescendantElement_iff text).mp descends with ⟨_, nested⟩ | ⟨filled, head, below⟩
  · exact Or.inl (nests nested)
  have whole := Chain.text_ofText text
  generalize Chain.ofText text = chain at filled head below whole
  obtain ⟨first, links, shaped⟩ := List.exists_cons_of_ne_nil filled
  simp only [isHead, Bool.or_eq_true] at head
  rcases head with (element | page) | nested
  · exact Or.inr ⟨[], chain.head, chain.links, Or.inl rfl, element, below, whole.symm⟩
  · rw [shaped] at below
    refine Or.inr ⟨chain.head ++ joint, first, links, Or.inr ⟨chain.head, page, rfl⟩,
      below first List.mem_cons_self, fun link member => below link (List.mem_cons_of_mem first member), ?_⟩
    rw [← whole, Chain.text, shaped]
    simp
  · exact Or.inl ((nests nested).trans (whole ▸ List.prefix_append _ _))

def IsUnmarked (text : List Char) : Prop := ∀ c ∈ text, c ≠ '"' ∧ c ≠ '\\' ∧ c ≠ '{' ∧ c ≠ '}'

instance (text : List Char) : Decidable (IsUnmarked text) :=
  List.decidableBAll (fun c => c ≠ '"' ∧ c ≠ '\\' ∧ c ≠ '{' ∧ c ≠ '}') text

theorem IsUnmarked.append {first second : List Char} (left : IsUnmarked first)
    (right : IsUnmarked second) : IsUnmarked (first ++ second) :=
  List.forall_mem_append.mpr ⟨left, right⟩

theorem IsUnmarked.quotable {text : List Char} (unmarked : IsUnmarked text) : Quotable text :=
  quotable_of_plain fun c member => ⟨(unmarked c member).1, (unmarked c member).2.1⟩

theorem IsUnmarked.unbraced {text : List Char} (unmarked : IsUnmarked text) :
    ∀ c ∈ text, c ≠ '{' ∧ c ≠ '}' :=
  fun c member => (unmarked c member).2.2

theorem isUnmarked_of_isPlain {text : List Char} (plain : ∀ c ∈ text, Chain.IsPlain c) :
    IsUnmarked text := by
  intro c member
  obtain ⟨notEscape, notQuote, notOpen, notClose, _⟩ := plain c member
  exact ⟨notQuote, notEscape, notOpen, notClose⟩

theorem isUnmarked_of_isPosition {position : List Char} (placed : isPosition position = true) :
    IsUnmarked position := by
  apply isUnmarked_of_isPlain
  intro c member
  exact Chain.isPlain_of_isSuffixChar
    ((isNameChar_or_colon_of_isPosition placed c member).imp_right Or.inl)

theorem IsLead.isUnmarked {lead : List Char} (leads : IsLead lead) : IsUnmarked lead := by
  rcases leads with rfl | ⟨page, shaped, rfl⟩
  · decide
  · obtain ⟨name, named, rfl⟩ := exists_name_of_isPageElement shaped
    have letters : IsUnmarked name := isUnmarked_of_isPlain fun c member =>
      Chain.isPlain_of_isSuffixChar (Or.inl (isNameChar_of_isName named c member))
    have dollar : IsUnmarked ['$'] := by decide
    exact (dollar.append letters).append (by decide)

theorem IsLead.isTarget_append {lead element : List Char} (leads : IsLead lead)
    (shaped : isElement element = true) : isTarget (lead ++ element) = true := by
  rcases leads with rfl | ⟨page, named, rfl⟩
  · simp [isTarget, shaped]
  · have each : ∀ segment ∈ (Chain.mk page []).segments, Crosses (0, false) segment (0, false) := by
      simpa [Chain.segments] using (isSegment_of_isPageElement named).crosses 0 false (Or.inr rfl)
    have whole := Chain.ofText_text_append_joint each
      (Chain.ofText_of_isSingle (isSingle_of_isElement shaped))
    have split : Chain.ofText (page ++ (joint ++ element)) = ⟨page, [element]⟩ := by
      simpa [Chain.text] using whole
    rw [List.append_assoc, isTarget, isDescendantElement, split]
    simp [isHead, named, shaped]

theorem isElement_between {position index : List Char} (placed : isPosition position = true)
    (placedBelow : isPosition index = true) :
    isElement ('$' :: '"' :: (position ++ (joint ++ ['$']) ++ '"' :: index)) = true := by
  have unmarked : IsUnmarked (position ++ (joint ++ ['$'])) :=
    (isUnmarked_of_isPosition placed).append (by decide)
  have unescaped : '\\' ∉ position ++ (joint ++ ['$']) := fun member => (unmarked _ member).2.1 rfl
  rw [isElement_of_quotable unmarked.quotable (by simp), escapesLineFeed_of_unescaped unescaped, placedBelow]
  rfl

theorem isNested_of_straddles {parent child : List Char} (straddles : Straddles parent child) :
    isNested (parent ++ (joint ++ child)) = true := by
  obtain ⟨lead, position, index, selector, leads, placed, placedBelow, visible, rfl, rfl⟩ := straddles
  have element := isElement_between placed placedBelow
  have shaped : startsNested ++ ' ' :: (lead ++ '$' :: '"' :: position) ++
      (joint ++ '$' :: '"' :: (index ++ ' ' :: '}' :: '}' :: ' ' :: (selector ++ ['"']))) =
      nestedText (lead ++ '$' :: '"' :: (position ++ (joint ++ ['$']) ++ '"' :: index)) selector := by
    simp [nestedText, opening]
  have unbraced : ∀ c ∈ lead ++ '$' :: '"' :: (position ++ (joint ++ ['$']) ++ '"' :: index),
      c ≠ '{' ∧ c ≠ '}' := by
    have between : IsUnmarked (position ++ (joint ++ ['$'])) :=
      (isUnmarked_of_isPosition placed).append (by decide)
    generalize position ++ (joint ++ ['$']) = middle at between
    simp only [List.forall_mem_append, List.forall_mem_cons]
    exact ⟨leads.isUnmarked.unbraced, by decide, by decide, between.unbraced, by decide,
      (isUnmarked_of_isPosition placedBelow).unbraced⟩
  rw [shaped]
  exact (isNested_iff _).mpr ⟨_, selector,
    splitNested?_nestedText (isBalanced_of_isSealed (Chain.isSealed_of_unbraced unbraced)) selector,
    visible, leads.isTarget_append element⟩

example : isNested ("$\"\x7b\x7b $\"".toList ++ (joint ++ "$\":2 \x7d\x7d .a\"".toList)) = true := by
  decide +kernel

theorem exists_of_opened {body rest inner after : List Char} (quotable : Quotable body)
    (target : isTarget inner = true)
    (same : body ++ '"' :: rest = ['{', '{', ' '] ++ (inner ++ after)) :
    ∃ own past, body = ['{', '{', ' '] ++ own ∧ inner = own ++ '"' :: past ∧ rest = past ++ after := by
  have quoted := infix_of_isTarget target
  have outside : ¬ inner <:+: body :=
    fun inside => not_infix_of_quotable quotable (quoted.trans inside)
  obtain ⟨own, rfl, behind⟩ : ∃ own, body = ['{', '{', ' '] ++ own ∧ own ++ '"' :: rest = inner ++ after := by
    rcases List.append_eq_append_iff.mp same with ⟨more, short, behind⟩ | ⟨own, rfl, behind⟩
    · cases more with
      | nil => exact ⟨[], by simpa using short.symm, behind⟩
      | cons c more =>
          obtain ⟨rfl, _⟩ := List.cons.inj behind
          have member : '"' ∈ ['{', '{', ' '] := by simp [short]
          simp at member
    · exact ⟨own, rfl, behind.symm⟩
  rcases List.append_eq_append_iff.mp behind with ⟨past, rfl, rest⟩ | ⟨more, rfl, _⟩
  · cases past with
    | nil => exact absurd ⟨['{', '{', ' '], [], by simp⟩ outside
    | cons c past =>
        obtain ⟨rfl, rfl⟩ := List.cons.inj rest
        exact ⟨own, past, rfl, rfl, rfl⟩
  · exact absurd ⟨['{', '{', ' '], more, by simp⟩ outside

theorem exists_of_closed {front body suffix past selector : List Char} (unmarked : IsUnmarked front)
    (unmarkedSuffix : IsUnmarked suffix)
    (same : front ++ '"' :: (body ++ '"' :: suffix) =
      past ++ ' ' :: '}' :: '}' :: ' ' :: (selector ++ ['"'])) :
    ∃ index, past = front ++ '"' :: index ∧ body = index ++ ' ' :: '}' :: '}' :: ' ' :: selector ∧
      suffix = [] := by
  obtain rfl : suffix = [] := by
    rcases List.eq_nil_or_concat suffix with rfl | ⟨touching, last, rfl⟩
    · rfl
    · have ends : front ++ '"' :: (body ++ '"' :: touching) ++ [last] =
          past ++ ' ' :: '}' :: '}' :: ' ' :: selector ++ ['"'] := by simpa using same
      obtain rfl : last = '"' := by simpa using List.append_inj_right' ends rfl
      exact absurd rfl (unmarkedSuffix '"' (by simp)).1
  have cut : front ++ ['"'] ++ body = past ++ ' ' :: '}' :: '}' :: ' ' :: selector := by
    rw [← List.append_left_inj ['"']]
    simpa using same
  rcases List.append_eq_append_iff.mp cut with ⟨index, rfl, rfl⟩ | ⟨more, short, behind⟩
  · exact ⟨index, by simp, rfl, rfl⟩
  · rcases more with _ | ⟨c, _ | ⟨d, more⟩⟩
    · exact ⟨[], by simpa using short.symm, by simpa using behind.symm, rfl⟩
    · obtain ⟨rfl, _⟩ := List.cons.inj behind
      have ends := congrArg List.getLast? short
      simp at ends
    · obtain rfl : '}' = d := (List.cons.inj (List.cons.inj behind).2).1
      have member : '}' ∈ front ++ ['"'] := by simp [short]
      have inside : '}' ∈ front := by simpa using member
      exact absurd rfl (unmarked '}' inside).2.2.2

theorem straddles_of_isNested {parent child : List Char} (element : isElement parent = true)
    (elementBelow : isElement child = true) (nested : isNested (parent ++ (joint ++ child)) = true) :
    Straddles parent child := by
  obtain ⟨body, position, quotable, placed, rfl⟩ := shape_of_isElement element
  obtain ⟨bodyBelow, suffix, quotableBelow, placedBelow, rfl⟩ := shape_of_isElement elementBelow
  obtain ⟨inner, selector, found, visible, target⟩ := (isNested_iff _).mp nested
  have whole := eq_nestedText_of_splitNested? found
  have unmarked : IsUnmarked (position ++ (joint ++ ['$'])) :=
    (isUnmarked_of_isPosition placed).append (by decide)
  have same : body ++ '"' :: (position ++ (joint ++ ['$']) ++ '"' :: (bodyBelow ++ '"' :: suffix)) =
      ['{', '{', ' '] ++ (inner ++ ' ' :: '}' :: '}' :: ' ' :: (selector ++ ['"'])) := by
    simpa [nestedText, opening, startsNested] using whole
  obtain ⟨own, past, rfl, rfl, behind⟩ := exists_of_opened quotable target same
  obtain ⟨index, rfl, rfl, rfl⟩ :=
    exists_of_closed unmarked (isUnmarked_of_isPosition placedBelow) behind
  have quotableOwn : Quotable own := by simpa [quotable_cons_iff] using quotable
  rcases exists_lead_of_isTarget target with ⟨more, nests⟩ | ⟨lead, first, links, leads, shaped, below, cut⟩
  · have dollar : Quotable ['$'] := Quotable.plain (by decide) (by decide) Quotable.nil
    have nests : ['$'] ++ '"' :: ('{' :: '{' :: more) =
        own ++ '"' :: (position ++ (joint ++ ['$']) ++ '"' :: index) := nests
    obtain ⟨_, braces⟩ := dollar.append_quote_inj quotableOwn nests
    have member : '{' ∈ position ++ (joint ++ ['$']) := by
      cases position with
      | nil => simp [joint] at braces
      | cons c position =>
          obtain rfl : '{' = c := (List.cons.inj braces).1
          simp
    exact absurd rfl (unmarked '{' member).2.2.1
  · obtain ⟨selected, suffix, quotableFirst, placedFirst, rfl⟩ := shape_of_isElement shaped
    have quotableLead : Quotable (lead ++ ['$']) := (leads.isUnmarked.append (by decide)).quotable
    have cut : own ++ '"' :: (position ++ (joint ++ ['$']) ++ '"' :: index) =
        lead ++ ['$'] ++ '"' :: (selected ++ '"' :: (suffix ++ links.flatMap (joint ++ ·))) := by
      simpa using cut
    obtain ⟨rfl, rest⟩ := quotableOwn.append_quote_inj quotableLead cut
    obtain ⟨_, rfl⟩ := unmarked.quotable.append_quote_inj quotableFirst rest
    -- No further link follows, since none starts in the selector of the child.
    obtain rfl : links = [] := by
      rw [List.eq_nil_iff_forall_not_mem]
      intro link member
      have started := (prefix_of_isSingle (isSingle_of_isElement (below link member))).isInfix
      have inside : link <:+: (Chain.mk suffix links).text :=
        Chain.infix_text_of_mem (List.mem_cons_of_mem suffix member)
      exact not_infix_of_quotable quotableBelow (started.trans (inside.trans (List.prefix_append _ _).isInfix))
    exact ⟨lead, position, suffix, selector, leads, placed, placedFirst, visible,
      by simp [startsNested], by simp⟩

theorem isNested_joined_iff {parent child : List Char} (element : isElement parent = true)
    (elementBelow : isElement child = true) :
    isNested (parent ++ (joint ++ child)) = true ↔ Straddles parent child :=
  ⟨straddles_of_isNested element elementBelow, isNested_of_straddles⟩

/-- The joint behind an element is one if the element's selector closes the braces that it opens. If it
leaves some open, no attribute stands below it, and an element does only where the joint is taken for a
part of the selector of an element in braces. -/
theorem isDescendant_joined_iff {parent child property : List Char} (element : isElement parent = true)
    (elementBelow : isElement child = true) (named : isAttribute property = true) :
    (isDescendantElement (parent ++ (joint ++ child)) = true ↔
      openBraces 0 parent = 0 ∨ Straddles parent child) ∧
    (isDescendantAttribute (parent ++ (joint ++ property)) = true ↔ openBraces 0 parent = 0) := by
  refine ⟨?_, isDescendantAttribute_joined_iff element named⟩
  rw [isDescendantElement_joined_iff element elementBelow, isNested_joined_iff element elementBelow]

theorem isDescendant_joined_iff_escaped :
    let parent := "$\"\\\x7b\x7b [title='\x7b\x7b a \x7d\x7d']\":last".toList
    let child := "$\".b \x7b\x7b\"".toList
    let property := "$\".b\".href".toList
    isElement parent = true ∧ isElement child = true ∧ isAttribute property = true ∧
      isDescendantElement (parent ++ (joint ++ child)) = true ∧
      isDescendantAttribute (parent ++ (joint ++ property)) = true := by
  intro parent child property
  have element : isElement parent = true := by decide +kernel
  have elementBelow : isElement child = true := by decide +kernel
  have named : isAttribute property = true := by decide +kernel
  have closed : openBraces 0 parent = 0 := by decide +kernel
  obtain ⟨joined, joinedProperty⟩ := isDescendant_joined_iff element elementBelow named
  exact ⟨element, elementBelow, named, joined.mpr (Or.inl closed), joinedProperty.mpr closed⟩

theorem isDescendant_joined_open :
    ¬ ∀ parent child property, isElement parent = true → isElement child = true →
      isAttribute property = true → isDescendantElement (parent ++ (joint ++ child)) = true ∧
        isDescendantAttribute (parent ++ (joint ++ property)) = true := by
  intro joins
  have joined := joins "$\".a\x7b\x7b\"".toList "$\".b\"".toList "$\".b\".href".toList
    (by decide +kernel) (by decide +kernel) (by decide +kernel)
  exact absurd joined.1 (by decide +kernel)

end WebTestLint.Identifier
