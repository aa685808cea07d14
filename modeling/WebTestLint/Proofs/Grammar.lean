import WebTestLint.Proofs.Splitting

/-!
The descendants that are written by rule: chains inside nested forms inside chains, to any depth and
of any length. The recogniser accepts them all.
-/

namespace WebTestLint.Identifier

open Scan (BraceFree nestedText opening startsNested)
open Chain (Crosses Inside IsSealed IsPlain)

structure IsUnbracedElement (text : List Char) : Prop where
  element : isElement text = true
  free : BraceFree text

structure IsSelector (selector : List Char) : Prop where
  quotable : Quotable selector
  free : BraceFree selector
  visible : ¬ AllBlank selector

inductive Nonterminal where
  | nested
  | parent
  | head
  | descendant

/-- The texts of each nonterminal. A nested form has an element or a descendant for its parent, and a
chain is a descendant if at least one link stands behind its head. -/
inductive Derives : Nonterminal → List Char → Prop
  | nested {parent selector} : Derives .parent parent → IsSelector selector →
      Derives .nested (nestedText parent selector)
  | parentElement {text} : IsUnbracedElement text → Derives .parent text
  | parentDescendant {text} : Derives .descendant text → Derives .parent text
  | headElement {text} : IsUnbracedElement text → Derives .head text
  | headPage {text} : isPageElement text = true → Derives .head text
  | headNested {text} : Derives .nested text → Derives .head text
  | descendantNested {text} : Derives .nested text → Derives .descendant text
  | descendantChain {chain : Chain} : Derives .head chain.head → chain.links ≠ [] →
      (∀ link ∈ chain.links, IsUnbracedElement link) → Derives .descendant chain.text

structure IsEnclosed (text : List Char) : Prop where
  crosses : ∀ depth quoted, 0 < depth → Crosses (depth, quoted) text (depth, quoted)
  balanced : IsBalanced text

structure IsSegment (text : List Char) : Prop where
  crosses : ∀ depth quoted, 0 < depth ∨ quoted = false →
    Crosses (depth, quoted) text (depth, quoted)
  balanced : IsBalanced text

theorem IsSegment.isEnclosed {text : List Char} (segment : IsSegment text) : IsEnclosed text :=
  ⟨fun depth quoted opened => segment.crosses depth quoted (Or.inl opened), segment.balanced⟩

theorem IsEnclosed.append {first second : List Char} (left : IsEnclosed first)
    (right : IsEnclosed second) : IsEnclosed (first ++ second) :=
  ⟨fun depth quoted opened => (left.crosses depth quoted opened).append (right.crosses depth quoted opened),
    left.balanced.append right.balanced⟩

theorem isEnclosed_joint : IsEnclosed joint :=
  ⟨fun _ _ opened => Chain.crosses_joint (Or.inl opened),
    isBalanced_of_isSealed ⟨by decide, by simp [joint]⟩⟩

theorem isEnclosed_blank : IsEnclosed [' '] :=
  ⟨fun _ _ opened => Chain.crosses_blank (Or.inl opened),
    isBalanced_of_isSealed ⟨by decide, by simp⟩⟩

theorem isSealed_of_isUnbracedElement {text : List Char} (unbraced : IsUnbracedElement text) :
    IsSealed text := by
  refine ⟨unbraced.free, ?_⟩
  obtain ⟨body, suffix, _, touching, rfl⟩ := shape_of_isSingle (isSingle_of_isElement unbraced.element)
  intro c found
  have shaped : '$' :: '"' :: (body ++ '"' :: suffix) = '$' :: '"' :: body ++ '"' :: suffix := rfl
  rw [shaped, List.getLast?_append_of_ne_nil _ (by simp)] at found
  rcases List.mem_cons.mp (List.mem_of_getLast? found) with rfl | member
  · decide
  · have := Chain.isPlain_of_isSuffixChar (touching c member)
    exact ⟨this.2.2.1, this.2.2.2.1⟩

theorem isSegment_of_isUnbracedElement {text : List Char} (unbraced : IsUnbracedElement text) :
    IsSegment text :=
  ⟨fun _ _ outside => Chain.crosses_of_isElement outside unbraced.element unbraced.free,
    isBalanced_of_isSealed (isSealed_of_isUnbracedElement unbraced)⟩

theorem isSegment_of_isPageElement {text : List Char} (page : isPageElement text = true) :
    IsSegment text := by
  obtain ⟨name, named, rfl⟩ := exists_name_of_isPageElement page
  have plain : ∀ c ∈ '$' :: name, IsPlain c := by
    intro c member
    rcases List.mem_cons.mp member with rfl | member
    · simp [IsPlain]
    · exact Chain.isPlain_of_isSuffixChar (Or.inl (isNameChar_of_isName named c member))
  exact ⟨fun depth quoted _ => Chain.crosses_plain depth quoted plain,
    isBalanced_of_isSealed (Chain.isSealed_of_isPlain plain)⟩

theorem isSegment_nestedText {parent selector : List Char} (inner : IsEnclosed parent)
    (below : IsSelector selector) : IsSegment (nestedText parent selector) := by
  have spaced : IsEnclosed ([' '] ++ parent ++ [' ']) :=
    (isEnclosed_blank.append inner).append isEnclosed_blank
  have shaped : nestedText parent selector =
      ['$', '"'] ++ (['{', '{'] ++ ([' '] ++ parent ++ [' ']) ++ ['}', '}']) ++
        (' ' :: selector ++ ['"']) := by
    simp [nestedText, opening, startsNested]
  have quotable : Quotable (' ' :: selector) := Quotable.plain (by decide) (by decide) below.quotable
  have free : BraceFree (' ' :: selector) := below.free.cons_blank
  rw [shaped]
  constructor
  · intro depth quoted outside
    have inside : Inside depth (!quoted) := outside.imp_right (by rintro rfl; rfl)
    have dollar : Crosses (depth, quoted) ['$'] (depth, quoted) :=
      Chain.crosses_plain depth quoted (by simp [IsPlain])
    have start := dollar.append (Chain.crosses_quote depth quoted)
    have braces := ((Chain.crosses_open depth (!quoted)).append
      (spaced.crosses (depth + 1) (!quoted) (by omega))).append (Chain.crosses_close (depth + 1) (!quoted))
    have whole := (start.append braces).append (Chain.crosses_selector inside quotable free)
    simpa using whole
  · have start : IsBalanced ['$', '"'] := isBalanced_of_isSealed ⟨by decide, by simp⟩
    have finish := isBalanced_of_isSealed (Chain.isSealed_concat free (c := '"') (by decide))
    exact (start.append spaced.balanced.braced).append finish

theorem isNested_nestedText {parent selector : List Char} (inner : IsEnclosed parent)
    (below : IsSelector selector) (target : isTarget parent = true) :
    isNested (nestedText parent selector) = true :=
  (isNested_iff _).mpr
    ⟨parent, selector, splitNested?_nestedText inner.balanced selector, below.visible, target⟩

structure Chain.IsDescendant (chain : Chain) : Prop where
  segments : ∀ segment ∈ chain.segments, IsSegment segment
  head : isHead chain.head = true
  links : ∀ link ∈ chain.links, isElement link = true
  alone : chain.links = [] → isNested chain.head = true

theorem Chain.IsDescendant.crosses {chain : Chain} (descends : chain.IsDescendant) :
    ∀ segment ∈ chain.segments, Crosses (0, false) segment (0, false) :=
  fun segment member => (descends.segments segment member).crosses 0 false (Or.inr rfl)

theorem Chain.IsDescendant.isDescendantElement {chain : Chain} (descends : chain.IsDescendant) :
    isDescendantElement chain.text = true := by
  rw [Identifier.isDescendantElement, Chain.ofText_chain descends.crosses]
  by_cases alone : chain.links = []
  · simpa [alone, Chain.text] using descends.alone alone
  · simpa [alone, descends.head] using descends.links

theorem Chain.IsDescendant.isDescendantElement_append {chain : Chain} (descends : chain.IsDescendant)
    {last : List Char} (alone : ofText last = ⟨last, []⟩) :
    Identifier.isDescendantElement (chain.text ++ (joint ++ last)) = isElement last := by
  have inner : chain.links.all isElement = true := List.all_eq_true.mpr descends.links
  rw [Identifier.isDescendantElement, Chain.ofText_text_append_joint descends.crosses alone]
  simp [descends.head, inner]

theorem isEnclosed_text {chain : Chain} (each : ∀ segment ∈ chain.segments, IsSegment segment) :
    IsEnclosed chain.text := by
  obtain ⟨head, links⟩ := chain
  have first : IsEnclosed head := (each head (by simp [Chain.segments])).isEnclosed
  have below : ∀ link ∈ links, IsEnclosed link :=
    fun link member => (each link (by simp [Chain.segments, member])).isEnclosed
  clear each
  induction links generalizing head with
  | nil => simpa [Chain.text] using first
  | cons link links ih =>
      have joined : IsEnclosed (head ++ (joint ++ link)) :=
        first.append (isEnclosed_joint.append (below link List.mem_cons_self))
      have whole := ih _ joined fun other member => below other (List.mem_cons_of_mem link member)
      simpa [Chain.text] using whole

def Nonterminal.Recognised : Nonterminal → List Char → Prop
  | .nested, text => IsSegment text ∧ isNested text = true
  | .parent, text => IsEnclosed text ∧ isTarget text = true
  | .head, text => IsSegment text ∧ isHead text = true
  | .descendant, text => ∃ chain : Chain, chain.IsDescendant ∧ chain.text = text

theorem recognised_of_derives {nonterminal : Nonterminal} {text : List Char}
    (derived : Derives nonterminal text) : nonterminal.Recognised text := by
  induction derived with
  | nested _ below parent =>
      obtain ⟨inner, target⟩ := parent
      exact ⟨isSegment_nestedText inner below, isNested_nestedText inner below target⟩
  | parentElement unbraced =>
      exact ⟨(isSegment_of_isUnbracedElement unbraced).isEnclosed, by simp [isTarget, unbraced.element]⟩
  | parentDescendant _ descendant =>
      obtain ⟨chain, descends, rfl⟩ := descendant
      exact ⟨isEnclosed_text descends.segments, by simp [isTarget, descends.isDescendantElement]⟩
  | headElement unbraced =>
      exact ⟨isSegment_of_isUnbracedElement unbraced, by simp [isHead, unbraced.element]⟩
  | headPage page => exact ⟨isSegment_of_isPageElement page, by simp [isHead, page]⟩
  | headNested _ nested => exact ⟨nested.1, by simp [isHead, nested.2]⟩
  | @descendantNested text _ nested =>
      refine ⟨⟨text, []⟩, ⟨?_, ?_, by simp, fun _ => nested.2⟩, by simp [Chain.text]⟩
      · simpa [Chain.segments] using nested.1
      · simp [isHead, nested.2]
  | @descendantChain chain _ filled below head =>
      refine ⟨chain, ⟨?_, head.2, fun link member => (below link member).element, ?_⟩, rfl⟩
      · intro segment member
        rcases List.mem_cons.mp member with rfl | member
        · exact head.1
        · exact isSegment_of_isUnbracedElement (below segment member)
      · exact fun alone => absurd alone filled

/-- Every descendant of the grammar is recognised. Behind a further joint an element keeps it a
descendant and any other single segment does not. -/
theorem isDescendantElement_of_derives {text : List Char} (derived : Derives .descendant text) :
    isDescendantElement text = true ∧
      ∀ last, (Chain.ofText last).links = [] →
        isDescendantElement (text ++ (joint ++ last)) = isElement last := by
  obtain ⟨chain, descends, rfl⟩ := recognised_of_derives derived
  refine ⟨descends.isDescendantElement, ?_⟩
  intro last single
  exact descends.isDescendantElement_append (Chain.ofText_of_links_eq_nil single)

theorem isDescendantElement_deep :
    let inner := nestedText "$form >> $\".a >> .b\":2".toList "[title=\\\"x y\\\"]".toList
    let outer := nestedText (inner ++ " >> $\".c\"".toList) ".d".toList
    let text := outer ++ " >> $\".e\"".toList
    Derives .descendant text ∧ isDescendantElement text = true ∧
      (Chain.ofText "nope".toList).links = [] ∧
      isDescendantElement (text ++ (joint ++ "nope".toList)) = isElement "nope".toList := by
  intro inner outer text
  have chained {head link : List Char} (start : Derives .head head) (unbraced : IsUnbracedElement link) :
      Derives .descendant (head ++ (joint ++ link)) := by
    have whole : Derives .descendant (Chain.mk head [link]).text :=
      Derives.descendantChain start (by simp) (by simpa using unbraced)
    simpa [Chain.text] using whole
  have page : Derives .descendant ("$form".toList ++ (joint ++ "$\".a >> .b\":2".toList)) :=
    chained (Derives.headPage (by decide +kernel)) ⟨by decide +kernel, by decide +kernel⟩
  have innerNested : Derives .nested inner :=
    Derives.nested (Derives.parentDescendant page) ⟨by decide +kernel, by decide +kernel, by decide +kernel⟩
  have link : Derives .descendant (inner ++ (joint ++ "$\".c\"".toList)) :=
    chained (Derives.headNested innerNested) ⟨by decide +kernel, by decide +kernel⟩
  have outerNested : Derives .nested outer :=
    Derives.nested (Derives.parentDescendant link) ⟨by decide +kernel, by decide +kernel, by decide +kernel⟩
  have derived : Derives .descendant text :=
    chained (Derives.headNested outerNested) ⟨by decide +kernel, by decide +kernel⟩
  obtain ⟨accepted, further⟩ := isDescendantElement_of_derives derived
  have single : (Chain.ofText "nope".toList).links = [] := by decide +kernel
  exact ⟨derived, accepted, single, further _ single⟩

end WebTestLint.Identifier
