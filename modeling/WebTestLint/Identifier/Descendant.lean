import WebTestLint.Text.Affix
import WebTestLint.Identifier.Chain

/-!
Descendants: an element or attribute found below another one. A chain names the ancestors from the
outermost on, `$".form" >> $".input"`; the nested form carries its parent in braces,
`$"{{ $".form" }} .input"`. Either may stand inside the other.
-/

namespace WebTestLint.Identifier

/-- Splits a text at the `}}` that closes the outermost of `depth` open braces: what stands before it
and what follows. -/
def splitAtClose? (depth : Nat) : List Char → Option (List Char × List Char)
  | [] => none
  | '{' :: '{' :: rest =>
    (splitAtClose? (depth + 1) rest).map fun (inner, after) => ('{' :: '{' :: inner, after)
  | '}' :: '}' :: rest =>
    if depth ≤ 1 then some ([], rest)
    else (splitAtClose? (depth - 1) rest).map fun (inner, after) => ('}' :: '}' :: inner, after)
  | c :: rest => (splitAtClose? depth rest).map fun (inner, after) => (c :: inner, after)

def splitNested? (text : List Char) : Option (List Char × List Char) := do
  let body ← dropStart? "$\"\x7b\x7b ".toList text
  let (before, after) ← splitAtClose? 1 body
  let parent ← dropEnd? [' '] before
  let closed ← dropStart? [' '] after
  let child ← dropEnd? ['"'] closed
  pure (parent, child)

theorem eq_append_of_splitAtClose? {depth : Nat} {text before after : List Char}
    (found : splitAtClose? depth text = some (before, after)) :
    text = before ++ '}' :: '}' :: after := by
  fun_induction splitAtClose? depth text generalizing before with
  | case1 => simp at found
  | case2 depth rest ih =>
    obtain ⟨⟨inner, after'⟩, found', same⟩ := Option.map_eq_some_iff.mp found
    simp only [Prod.mk.injEq] at same
    obtain ⟨rfl, rfl⟩ := same
    simp [ih found']
  | case3 depth rest _ =>
    simp only [Option.some.injEq, Prod.mk.injEq] at found
    obtain ⟨rfl, rfl⟩ := found
    rfl
  | case4 depth rest _ ih =>
    obtain ⟨⟨inner, after'⟩, found', same⟩ := Option.map_eq_some_iff.mp found
    simp only [Prod.mk.injEq] at same
    obtain ⟨rfl, rfl⟩ := same
    simp [ih found']
  | case5 depth c rest _ _ ih =>
    obtain ⟨⟨inner, after'⟩, found', same⟩ := Option.map_eq_some_iff.mp found
    simp only [Prod.mk.injEq] at same
    obtain ⟨rfl, rfl⟩ := same
    simp [ih found']

theorem length_parent_lt {text parent child : List Char}
    (found : splitNested? text = some (parent, child)) : parent.length < text.length := by
  simp only [splitNested?, Option.bind_eq_bind, Option.bind_eq_some_iff, Option.pure_def,
    Option.some.injEq, Prod.mk.injEq, Prod.exists] at found
  obtain ⟨body, started, before, after, closed, trimmed, suffixed, _, _, _, _, rfl, _⟩ := found
  have bodyLength := congrArg List.length ((dropStart?_eq_some_iff _ _ _).mp started)
  have beforeLength := congrArg List.length (eq_append_of_splitAtClose? closed)
  have parentLength := congrArg List.length ((dropEnd?_eq_some_iff _ _ _).mp suffixed)
  simp only [List.length_append, List.length_cons] at bodyLength beforeLength parentLength
  omega

/-- The nested form: its selector is not blank, and its parent is an element, a nested form, or a
chain of elements whose head may also be a page element or a nested form. -/
def isNested (text : List Char) : Bool :=
  match _found : splitNested? text with
  | none => false
  | some (parent, child) =>
    if child.all isBlank then false
    else if isElement parent then true
    else if (Chain.ofText parent).links.isEmpty then isNested parent
    else (Chain.ofText parent).links.all isElement &&
      (isElement (Chain.ofText parent).head || isPageElement (Chain.ofText parent).head ||
        isNested (Chain.ofText parent).head)
termination_by text.length
decreasing_by
  · exact length_parent_lt _found
  · have headLength := Chain.length_head_ofText_le parent
    have parentLength := length_parent_lt _found
    omega

def isHead (text : List Char) : Bool := isElement text || isPageElement text || isNested text

def isDescendantElement (text : List Char) : Bool :=
  let chain := Chain.ofText text
  if chain.links.isEmpty then isNested text
  else isHead chain.head && chain.links.all isElement

def isDescendantAttribute (text : List Char) : Bool :=
  let chain := Chain.ofText text
  match chain.links.getLast? with
  | none => false
  | some last => isAttribute last && isHead chain.head && chain.links.dropLast.all isElement

def isSingle (text : List Char) : Bool := isElement text || isAttribute text

def isTarget (text : List Char) : Bool := isElement text || isDescendantElement text

def isAny (text : List Char) : Bool :=
  isSingle text || isDescendantElement text || isDescendantAttribute text

end WebTestLint.Identifier
