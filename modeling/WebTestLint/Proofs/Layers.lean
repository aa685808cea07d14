import WebTestLint.Proofs.Closing
import WebTestLint.Proofs.Extent

/-!
The layers of a nested form. Each pass of the loop over them takes one layer off, and the loop accepts
what the grammar of nested forms does.
-/

namespace WebTestLint.Identifier

open Scan (Search nestedText opening startsNested not_pair_isPrefix)

/-- A text at whose end, and nowhere before, the outermost of `depth` open braces is closed. -/
inductive Matched : Nat → List Char → Prop
  | last : Matched 1 ['}', '}']
  | opened {depth rest} : Matched (depth + 1) rest → Matched depth ('{' :: '{' :: rest)
  | closed {depth rest} : Matched (depth + 1) rest → Matched (depth + 2) ('}' :: '}' :: rest)
  | other {depth c rest} : ¬ ['{', '{'] <+: c :: rest → ¬ ['}', '}'] <+: c :: rest →
      Matched depth rest → Matched depth (c :: rest)

theorem matched_of_splitAtClose? {depth : Nat} {text before after : List Char} (positive : 0 < depth)
    (found : splitAtClose? depth text = some (before, after)) : Matched depth (before ++ ['}', '}']) := by
  fun_induction splitAtClose? depth text generalizing before with
  | case1 => simp at found
  | case2 depth rest ih =>
      obtain ⟨⟨inner, after'⟩, found', same⟩ := Option.map_eq_some_iff.mp found
      obtain ⟨rfl, rfl⟩ := Prod.mk.inj same
      exact .opened (ih (Nat.succ_pos depth) found')
  | case3 depth rest last =>
      obtain ⟨rfl, rfl⟩ := Prod.mk.inj (Option.some.inj found)
      obtain rfl : depth = 1 := Nat.le_antisymm last positive
      exact .last
  | case4 depth rest deeper ih =>
      obtain ⟨⟨inner, after'⟩, found', same⟩ := Option.map_eq_some_iff.mp found
      obtain ⟨rfl, rfl⟩ := Prod.mk.inj same
      obtain ⟨below, rfl⟩ : ∃ below, depth = below + 2 := ⟨depth - 2, by omega⟩
      exact .closed (ih (Nat.succ_pos below) found')
  | case5 depth c rest notOpen notClose ih =>
      obtain ⟨⟨inner, after'⟩, found', same⟩ := Option.map_eq_some_iff.mp found
      obtain ⟨rfl, rfl⟩ := Prod.mk.inj same
      obtain rfl := eq_append_of_splitAtClose? found'
      apply Matched.other _ _ (ih positive found')
      · rw [prefix_closing_iff '{' c inner [] after']
        exact not_pair_isPrefix notOpen
      · rw [prefix_closing_iff '}' c inner [] after']
        exact not_pair_isPrefix notClose

theorem Matched.splitAtClose? {depth : Nat} {text : List Char} (matched : Matched depth text) :
    ∃ before, text = before ++ ['}', '}'] ∧ Identifier.splitAtClose? depth text = some (before, []) := by
  induction matched with
  | last => exact ⟨[], rfl, rfl⟩
  | opened _ ih =>
      obtain ⟨before, rfl, found⟩ := ih
      exact ⟨'{' :: '{' :: before, rfl, by simp [Identifier.splitAtClose?, found]⟩
  | closed _ ih =>
      obtain ⟨before, rfl, found⟩ := ih
      exact ⟨'}' :: '}' :: before, rfl, by simp [Identifier.splitAtClose?, found]⟩
  | @other depth c rest notOpen notClose _ ih =>
      obtain ⟨before, rfl, found⟩ := ih
      refine ⟨c :: before, rfl, ?_⟩
      rw [splitAtClose?_cons_other depth notOpen notClose, found]
      rfl

theorem splitAtClose?_eq_some_iff {depth : Nat} (positive : 0 < depth) (before : List Char) :
    splitAtClose? depth (before ++ ['}', '}']) = some (before, []) ↔
      Matched depth (before ++ ['}', '}']) := by
  constructor
  · exact matched_of_splitAtClose? positive
  · intro matched
    obtain ⟨front, whole, found⟩ := matched.splitAtClose?
    obtain rfl := List.append_cancel_right whole
    exact found

def closePass (text : List Char) (search : Search) : Pass Search (Option Nat) :=
  if search.offset < byteLength text then
    if BytesStart text search.offset ['{', '{'] then .again ⟨search.depth + 1, search.offset + 2⟩
    else if BytesStart text search.offset ['}', '}'] then
      match search.depth with
      | 0 => .wrong
      | 1 => .done (some search.offset)
      | depth + 2 => .again ⟨depth + 1, search.offset + 2⟩
    else .again ⟨search.depth, search.offset + 1⟩
  else .done none

section Passes

variable {before rest : List Char} {depth : Nat}

theorem closePass_of_append (c : Char) :
    closePass (before ++ c :: rest) ⟨depth, byteLength before⟩ =
      if ['{', '{'] <+: c :: rest then .again ⟨depth + 1, byteLength before + 2⟩
      else if ['}', '}'] <+: c :: rest then
        match depth with
        | 0 => .wrong
        | 1 => .done (some (byteLength before))
        | depth + 2 => .again ⟨depth + 1, byteLength before + 2⟩
      else .again ⟨depth, byteLength before + 1⟩ := by
  have inside := byteLength_lt_append_cons before c rest
  simp (disch := simp) only [closePass, if_pos inside, bytesStart_append_iff]

theorem closePass_open :
    closePass (before ++ '{' :: '{' :: rest) ⟨depth, byteLength before⟩ =
      .again ⟨depth + 1, byteLength (before ++ ['{', '{'])⟩ := by
  rw [closePass_of_append, if_pos (by simp), byteLength_append]
  rfl

theorem closePass_last :
    closePass (before ++ '}' :: '}' :: rest) ⟨1, byteLength before⟩ = .done (some (byteLength before)) := by
  rw [closePass_of_append, if_neg (by simp), if_pos (by simp)]

theorem closePass_close :
    closePass (before ++ '}' :: '}' :: rest) ⟨depth + 2, byteLength before⟩ =
      .again ⟨depth + 1, byteLength (before ++ ['}', '}'])⟩ := by
  rw [closePass_of_append, if_neg (by simp), if_pos (by simp), byteLength_append]
  rfl

theorem closePass_of_not_bytesStart {text : List Char} {index : Nat} (below : index < byteLength text)
    (none : ∀ c start, c.toNat < 128 → ¬ BytesStart text index (c :: start)) :
    closePass text ⟨depth, index⟩ = .again ⟨depth, index + 1⟩ := by
  simp [closePass, below, none]

theorem endsIn_closePass_other {c : Char} {result : Option Nat} (notOpen : ¬ ['{', '{'] <+: c :: rest)
    (notClose : ¬ ['}', '}'] <+: c :: rest)
    (ended : EndsIn (closePass (before ++ c :: rest)) ⟨depth, byteLength (before ++ [c])⟩ result) :
    EndsIn (closePass (before ++ c :: rest)) ⟨depth, byteLength before⟩ result := by
  have passed : closePass (before ++ c :: rest) ⟨depth, byteLength before⟩ =
      .again ⟨depth, byteLength before + 1⟩ := by
    rw [closePass_of_append, if_neg notOpen, if_neg notClose]
  exact EndsIn.again passed
    (EndsIn.rest_of_character (Search.mk depth) (fun _ => closePass_of_not_bytesStart) ended)

end Passes

theorem endsIn_closePass (before : List Char) {depth : Nat} (positive : 0 < depth) (rest : List Char) :
    EndsIn (closePass (before ++ rest)) ⟨depth, byteLength before⟩
      ((splitAtClose? depth rest).map (byteLength before + byteLength ·.1)) := by
  fun_induction splitAtClose? depth rest generalizing before with
  | case1 =>
      apply EndsIn.done
      simp [closePass]
  | case2 depth rest ih =>
      apply EndsIn.again closePass_open
      simpa [Function.comp_def, Nat.add_assoc] using ih (before ++ ['{', '{']) (Nat.succ_pos depth)
  | case3 depth rest last =>
      obtain rfl : depth = 1 := Nat.le_antisymm last positive
      exact EndsIn.done closePass_last
  | case4 depth rest deeper ih =>
      obtain ⟨below, rfl⟩ : ∃ below, depth = below + 2 := ⟨depth - 2, by omega⟩
      apply EndsIn.again closePass_close
      simpa [Function.comp_def, Nat.add_assoc] using ih (before ++ ['}', '}']) (Nat.succ_pos below)
  | case5 depth c rest notOpen notClose ih =>
      apply endsIn_closePass_other (not_pair_isPrefix notOpen) (not_pair_isPrefix notClose)
      simpa [Function.comp_def, Nat.add_assoc] using ih (before ++ [c]) positive

structure IsLayer (parent selector : List Char) : Prop where
  matched : Matched 1 (parent ++ [' ', '}', '}'])
  filled : ¬ AllBlank selector

inductive Nested : List Char → Prop
  | element {parent selector} : IsLayer parent selector → isElement parent = true →
      Nested (nestedText parent selector)
  | chain {parent selector} : IsLayer parent selector → (Chain.ofText parent).links ≠ [] →
      (∀ link ∈ (Chain.ofText parent).links, isElement link = true) →
      isElement (Chain.ofText parent).head = true ∨ isPageElement (Chain.ofText parent).head = true →
      Nested (nestedText parent selector)
  | chainWithin {parent selector} : IsLayer parent selector → (Chain.ofText parent).links ≠ [] →
      (∀ link ∈ (Chain.ofText parent).links, isElement link = true) →
      Nested (Chain.ofText parent).head → Nested (nestedText parent selector)
  | within {parent selector} : IsLayer parent selector → (Chain.ofText parent).links = [] →
      Nested parent → Nested (nestedText parent selector)

theorem isLayer_iff (parent selector : List Char) :
    IsLayer parent selector ↔
      splitNested? (nestedText parent selector) = some (parent, selector) ∧ ¬ AllBlank selector := by
  have matched := splitAtClose?_eq_some_iff (Nat.succ_pos 0) (parent ++ [' '])
  rw [List.append_assoc] at matched
  rw [splitNested?_nestedText_iff]
  constructor
  · rintro ⟨closed, filled⟩
    exact ⟨matched.mpr closed, filled⟩
  · rintro ⟨closed, filled⟩
    exact ⟨matched.mp closed, filled⟩

theorem isNested_eq_of_isLayer {parent selector : List Char} (layer : IsLayer parent selector) :
    isNested (nestedText parent selector) = isTarget parent := by
  obtain ⟨found, filled⟩ := (isLayer_iff parent selector).mp layer
  rw [Bool.eq_iff_iff, isNested_iff]
  constructor
  · rintro ⟨parent', selector', found', _, target⟩
    rw [found] at found'
    obtain ⟨rfl, rfl⟩ := Prod.mk.inj (Option.some.inj found')
    exact target
  · intro target
    exact ⟨parent, selector, found, filled, target⟩

theorem isNested_of_nested {text : List Char} (nested : Nested text) : isNested text = true := by
  induction nested with
  | element layer element =>
      rw [isNested_eq_of_isLayer layer, isTarget_eq, if_pos element]
  | @chain parent _ layer joined links head =>
      have outer : (Chain.ofText parent).links.all isElement = true := List.all_eq_true.mpr links
      rw [isNested_eq_of_isLayer layer, isTarget_eq]
      simp only [List.isEmpty_iff, joined, outer, Bool.true_and]
      rcases head with element | page
      · simp [element]
      · simp [page]
  | @chainWithin parent _ layer joined links _ ih =>
      have outer : (Chain.ofText parent).links.all isElement = true := List.all_eq_true.mpr links
      rw [isNested_eq_of_isLayer layer, isTarget_eq]
      simp only [List.isEmpty_iff, joined, outer, ih, Bool.true_and]
      simp
  | within layer single _ ih =>
      rw [isNested_eq_of_isLayer layer, isTarget_eq]
      simp [single, ih]

theorem nested_of_isNested (text : List Char) (nested : isNested text = true) : Nested text := by
  induction size : text.length using Nat.strongRecOn generalizing text with
  | ind size ih =>
      obtain ⟨parent, selector, found, filled, target⟩ := (isNested_iff text).mp nested
      obtain rfl := eq_nestedText_of_splitNested? found
      have layer : IsLayer parent selector := (isLayer_iff parent selector).mpr ⟨found, filled⟩
      have shorter := length_parent_lt found
      by_cases element : isElement parent = true
      · exact .element layer element
      · by_cases single : (Chain.ofText parent).links = []
        · rw [isTarget_eq, if_neg element, single] at target
          exact .within layer single (ih parent.length (size ▸ shorter) parent target rfl)
        · have shortest := Chain.length_head_ofText_le parent
          simp only [isTarget_eq, element, List.isEmpty_iff, single, Bool.false_eq_true, ↓reduceIte,
            Bool.and_eq_true, Bool.or_eq_true, List.all_eq_true] at target
          obtain ⟨links, head | nested⟩ := target
          · exact .chain layer single links head
          · exact .chainWithin layer single links (ih _ (by omega) _ nested rfl)

def layerPass (current : List Char) : Pass (List Char) Bool :=
  match splitNested? current with
  | none => .done false
  | some (parent, child) =>
    if child.all isBlank then .done false
    else if isElement parent then .done true
    else if (Chain.ofText parent).links.isEmpty then .again parent
    else if !(Chain.ofText parent).links.all isElement then .done false
    else if isElement (Chain.ofText parent).head || isPageElement (Chain.ofText parent).head then
      .done true
    else .again (Chain.ofText parent).head

theorem exists_of_layerPass_again {text next : List Char} (passed : layerPass text = .again next) :
    ∃ parent selector, text = nestedText parent selector ∧
      (next = parent ∨ next = (Chain.ofText parent).head) := by
  rw [layerPass] at passed
  split at passed
  · simp at passed
  · rename_i parent selector found
    refine ⟨parent, selector, eq_nestedText_of_splitNested? found, ?_⟩
    split_ifs at passed
    · exact Or.inl (Pass.again.inj passed).symm
    · exact Or.inr (Pass.again.inj passed).symm

theorem byteLength_lt_of_layerPass {text next : List Char} (passed : layerPass text = .again next) :
    byteLength next < byteLength text := by
  obtain ⟨parent, selector, rfl, taken⟩ := exists_of_layerPass_again passed
  have outer : byteLength parent < byteLength (nestedText parent selector) := by
    simp only [nestedText, opening, startsNested, byteLength_append, byteLength_cons, List.cons_append]
    have := Char.utf8Size_pos '$'
    omega
  rcases taken with rfl | rfl
  · exact outer
  · have whole := congrArg byteLength (Chain.text_ofText parent)
    rw [Chain.text, byteLength_append] at whole
    omega

theorem endsIn_layerPass (text : List Char) : EndsIn layerPass text (isNested text) := by
  fun_induction isNested text with
  | case1 text missing =>
      apply EndsIn.done
      simp [layerPass, missing]
  | case2 text parent child found blank =>
      apply EndsIn.done
      simp [layerPass, found, blank]
  | case3 text parent child found filled element =>
      apply EndsIn.done
      simp [layerPass, found, filled, element]
  | case4 text parent child found filled element single ih =>
      have passed : layerPass text = .again parent := by simp [layerPass, found, filled, element, single]
      exact EndsIn.again passed ih
  | case5 text parent child found filled element joined ih =>
      by_cases links : (Chain.ofText parent).links.all isElement = true
      · by_cases head :
            (isElement (Chain.ofText parent).head || isPageElement (Chain.ofText parent).head) = true
        · apply EndsIn.done
          simp only [layerPass, found, filled, element, joined, links, head]
          simp
        · have passed : layerPass text = .again (Chain.ofText parent).head := by
            simp only [layerPass, found, filled, element, joined, links, head]
            simp
          apply EndsIn.again passed
          simpa [links, head] using ih
      · apply EndsIn.done
        simp only [layerPass, found, filled, element, joined, links]
        simp

theorem isNested_iff_nested (text : List Char) : isNested text = true ↔ Nested text :=
  ⟨nested_of_isNested text, isNested_of_nested⟩

/-- The loop over the layers of a text goes on with a shorter text at each pass, ends, and tells whether
the text is in the grammar. The loop for the closing braces never takes a brace from a count of none. -/
theorem layers_are_nested (text : List Char) :
    (∀ next, layerPass text = .again next → byteLength next < byteLength text) ∧
    (∀ answer, EndsIn layerPass text answer ↔ (answer = true ↔ Nested text)) ∧
    EndsIn (closePass text) ⟨1, 0⟩ ((splitAtClose? 1 text).map (byteLength ·.1)) ∧
    (isNested text = true ↔ Nested text) := by
  refine ⟨fun _ => byteLength_lt_of_layerPass, ?_, ?_, isNested_iff_nested text⟩
  · intro answer
    rw [← isNested_iff_nested, ← Bool.eq_iff_iff]
    constructor
    · intro ended
      exact ended.unique (endsIn_layerPass text)
    · rintro rfl
      exact endsIn_layerPass text
  · have ended := endsIn_closePass [] (Nat.succ_pos 0) text
    simpa using ended

theorem layers_are_nested_chain :
    let inner := "$\"\x7b\x7b $page >> $\".a\" \x7d\x7d é\"".toList
    let text := "$\"\x7b\x7b ".toList ++ inner ++ " >> $\".b\" \x7d\x7d .c\"".toList
    layerPass text = .again inner ∧ byteLength inner < byteLength text ∧ EndsIn layerPass text true ∧
      Nested text := by
  intro inner text
  have first : layerPass text = .again inner := by decide +kernel
  have last : layerPass inner = .done true := by decide +kernel
  have ended : EndsIn layerPass text true := .again first (.done last)
  obtain ⟨shorter, answers, _⟩ := layers_are_nested text
  exact ⟨first, shorter inner first, ended, ((answers true).mp ended).mp rfl⟩

end WebTestLint.Identifier
