import Mathlib.Data.List.Infix
import WebTestLint.Proofs.Notation

/-!
The texts that are chains. Where no braces are opened, they are the elements put together with joints,
and each in one way only.
-/

namespace WebTestLint.Identifier

open Chain (Crosses openBraces)

/-- A chain from an element or a page element down to a last link of a given kind. -/
structure Chain.LeadsTo (kind : List Char → Bool) (chain : Chain) : Prop where
  head : isElement chain.head = true ∨ isPageElement chain.head = true
  inner : ∀ link ∈ chain.links.dropLast, isElement link = true
  last : ∃ link ∈ chain.links.getLast?, kind link = true

namespace Chain.LeadsTo

variable {kind other : List Char → Bool} {chain : Chain}

theorem imp (leads : chain.LeadsTo kind) (included : ∀ text, kind text = true → other text = true) :
    chain.LeadsTo other := by
  obtain ⟨link, found, shaped⟩ := leads.last
  exact ⟨leads.head, leads.inner, link, found, included link shaped⟩

theorem isElement_or_of_mem (leads : chain.LeadsTo kind) {link : List Char}
    (member : link ∈ chain.links) : isElement link = true ∨ kind link = true := by
  obtain ⟨last, found, shaped⟩ := leads.last
  by_cases final : some link = chain.links.getLast?
  · obtain rfl : link = last := Option.some.inj (final.trans found)
    exact Or.inr shaped
  · exact Or.inl (leads.inner link (List.mem_dropLast_of_mem_of_ne_getLast? member final))

theorem isSingle_of_mem (leads : chain.LeadsTo isSingle) {link : List Char}
    (member : link ∈ chain.links) : isSingle link = true :=
  (leads.isElement_or_of_mem member).elim isSingle_of_isElement id

theorem crosses (leads : chain.LeadsTo isSingle) (unopened : ¬ ['{', '{'] <:+: chain.text) :
    ∀ segment ∈ chain.segments, Crosses (0, false) segment (0, false) := by
  have passes {segment : List Char} (member : segment ∈ chain.segments)
      (single : isSingle segment = true) : Crosses (0, false) segment (0, false) := by
    have closed : openBraces 0 segment = 0 :=
      openBraces_of_unopened fun found => unopened (found.trans (infix_text_of_mem member))
    have taken := crosses_of_isSingle 0 single
    rwa [closed] at taken
  intro segment member
  rcases List.mem_cons.mp member with rfl | below
  · rcases leads.head with element | page
    · exact passes member (isSingle_of_isElement element)
    · exact (isSegment_of_isPageElement page).crosses 0 false (Or.inr rfl)
  · exact passes member (leads.isSingle_of_mem below)

theorem eq_ofText (leads : chain.LeadsTo isSingle) (unopened : ¬ ['{', '{'] <:+: chain.text) :
    chain = ofText chain.text :=
  (ofText_chain (leads.crosses unopened)).symm

end Chain.LeadsTo

theorem leadsTo_isElement_iff (chain : Chain) :
    chain.LeadsTo isElement ↔ chain.links ≠ [] ∧ chain.IsFront := by
  constructor
  · intro leads
    refine ⟨?_, leads.head, fun link member => (leads.isElement_or_of_mem member).elim id id⟩
    obtain ⟨last, found, _⟩ := leads.last
    exact List.ne_nil_of_mem (List.mem_of_getLast? found)
  · rintro ⟨filled, front⟩
    exact ⟨front.head, fun link member => front.links link (List.mem_of_mem_dropLast member),
      chain.links.getLast filled, List.getLast?_eq_some_getLast filled,
      front.links _ (List.getLast_mem filled)⟩

theorem isDescendantAttribute_iff_of_unopened {text : List Char} (unopened : ¬ ['{', '{'] <:+: text) :
    isDescendantAttribute text = true ↔ (Chain.ofText text).LeadsTo isAttribute := by
  have head := isHead_ofText_iff_of_unopened unopened
  simp only [isDescendantAttribute]
  constructor
  · intro descends
    split at descends
    · simp at descends
    · rename_i last found
      simp only [Bool.and_eq_true, head, List.all_eq_true] at descends
      exact ⟨descends.1.2, descends.2, last, found, descends.1.1⟩
  · rintro ⟨start, inner, last, found, named⟩
    rw [Option.mem_def.mp found]
    simp only [Bool.and_eq_true, head, List.all_eq_true]
    exact ⟨⟨named, start⟩, inner⟩

/-- Where no braces are opened, the descendants are the chains from an element or a page element down,
and no text can be cut into such a chain in two ways. -/
theorem isDescendant_iff_leadsTo {text : List Char} (unopened : ¬ ['{', '{'] <:+: text) :
    (isDescendantElement text = true ↔ ∃ chain : Chain, chain.text = text ∧ chain.LeadsTo isElement) ∧
      (isDescendantAttribute text = true ↔
        ∃ chain : Chain, chain.text = text ∧ chain.LeadsTo isAttribute) ∧
      ∀ first second : Chain, first.text = text → second.text = text →
        first.LeadsTo isSingle → second.LeadsTo isSingle → first = second := by
  have unique {chain : Chain} (whole : chain.text = text) (leads : chain.LeadsTo isSingle) :
      chain = Chain.ofText text := by
    subst whole
    exact leads.eq_ofText unopened
  have exists_iff {kind : List Char → Bool} (single : ∀ link, kind link = true → isSingle link = true) :
      (Chain.ofText text).LeadsTo kind ↔ ∃ chain : Chain, chain.text = text ∧ chain.LeadsTo kind := by
    constructor
    · intro leads
      exact ⟨Chain.ofText text, Chain.text_ofText text, leads⟩
    · rintro ⟨chain, whole, leads⟩
      rwa [← unique whole (leads.imp single)]
  refine ⟨?_, ?_, ?_⟩
  · rw [isDescendantElement_iff_of_unopened unopened, ← leadsTo_isElement_iff]
    exact exists_iff fun link => isSingle_of_isElement
  · rw [isDescendantAttribute_iff_of_unopened unopened]
    exact exists_iff fun link named => by simp [isSingle, named]
  · intro first second whole other leads leadsOther
    rw [unique whole leads, unique other leadsOther]

theorem isDescendant_iff_leadsTo_form :
    let chain : Chain :=
      ⟨"$form".toList, ["$\".a >> \x7d\x7d \\\"b\\\"\":2".toList, "$\"\\é\".data-id".toList]⟩
    (¬ ['{', '{'] <:+: chain.text) ∧ chain.LeadsTo isAttribute ∧
      isDescendantAttribute chain.text = true ∧
      ∀ other : Chain, other.text = chain.text → other.LeadsTo isSingle → other = chain := by
  intro chain
  have unopened : ¬ ['{', '{'] <:+: chain.text := by decide +kernel
  have leads : chain.LeadsTo isAttribute :=
    ⟨by decide +kernel, by decide +kernel, _, rfl, by decide +kernel⟩
  obtain ⟨_, named, unique⟩ := isDescendant_iff_leadsTo unopened
  refine ⟨unopened, leads, named.mpr ⟨chain, rfl, leads⟩, ?_⟩
  intro other whole leadsOther
  exact unique other chain whole rfl leadsOther (leads.imp fun link named => by simp [isSingle, named])

end WebTestLint.Identifier
