import WebTestLint.Identifier.Scan
import WebTestLint.Proofs.Selector

/-!
What the scanners read when a text is put together from parts. A link is read whole from whatever
follows it, as long as that starts with a blank, and joints are followed from link to link.
-/

namespace WebTestLint.Scan

open Identifier (joint Chain)

/-- What can follow an identifier: nothing, or a text that starts with a blank. -/
def IsEnd (rest : List Char) : Prop := ∀ c ∈ rest.head?, isBlank c = true

instance (rest : List Char) : Decidable (IsEnd rest) :=
  match rest with
  | [] => isTrue (by simp [IsEnd])
  | c :: _ => decidable_of_iff (isBlank c = true) (by simp [IsEnd])

theorem isEnd_nil : IsEnd [] := by simp [IsEnd]

theorem isEnd_cons {c : Char} (blank : isBlank c = true) (rest : List Char) : IsEnd (c :: rest) := by
  simpa [IsEnd] using blank

theorem isEnd_append {blanks : List Char} (filled : blanks ≠ []) (allBlank : AllBlank blanks)
    (rest : List Char) : IsEnd (blanks ++ rest) := by
  intro c found
  rw [List.head?_append_of_ne_nil _ filled] at found
  exact allBlank c (List.mem_of_mem_head? found)

theorem isEnd_joint (rest : List Char) : IsEnd (joint ++ rest) := isEnd_cons (by decide) _

theorem prefix_of_prefix_append {start text rest : List Char} (free : BlankFree start)
    (ended : IsEnd rest) (started : start <+: text ++ rest) : start <+: text := by
  rcases List.prefix_or_prefix_of_prefix started (List.prefix_append text rest) with done | ⟨more, rfl⟩
  · exact done
  · have further : more <+: rest := (List.prefix_append_right_inj text).mp started
    cases more with
    | nil => simp
    | cons c more =>
        obtain ⟨finish, rfl⟩ := further
        have blank : isBlank c = true := ended c rfl
        simp [free c (by simp)] at blank

theorem word_of_isEnd {rest : List Char} (ended : IsEnd rest) : word rest = ([], rest) := by
  cases rest with
  | nil => rfl
  | cons c rest => simp [word, ended c rfl]

theorem word_append_of_isEnd {text rest : List Char} (free : BlankFree text) (ended : IsEnd rest) :
    word (text ++ rest) = (text, rest) := by
  have inside : ∀ c ∈ text, (!isBlank c) = true := fun c member => by simp [free c member]
  have stopped := word_of_isEnd ended
  simp only [word, Prod.mk.injEq] at stopped ⊢
  rw [List.takeWhile_append_of_pos inside, List.dropWhile_append_of_pos inside, stopped.1, stopped.2]
  simp

theorem blankFree_word (text : List Char) : BlankFree (word text).1 := by
  intro c member
  simpa using List.mem_takeWhile_imp member

theorem word_ne_nil {text : List Char} (filled : text ≠ [])
    (head : ∀ c ∈ text.head?, isBlank c = false) : (word text).1 ≠ [] := by
  obtain ⟨c, rest, rfl⟩ := List.exists_cons_of_ne_nil filled
  simp [word, head c rfl]

theorem isEnd_word (text : List Char) : IsEnd (word text).2 := by
  intro c found
  have head := List.head?_dropWhile_not (!isBlank ·) text
  have same : (text.dropWhile (!isBlank ·)).head? = some c := found
  simpa [same] using head

/-- A text that is read as one link, whatever ends it. -/
structure IsLink (text : List Char) : Prop where
  filled : text ≠ []
  trimmed : IsTrimmed text
  link_append : ∀ rest, IsEnd rest → link (text ++ rest) = (text, rest)

def startsNested : List Char := ['$', '"', '{', '{']

theorem nested?_eq_none {text : List Char} (plain : ¬ startsNested <+: text) : nested? text = none := by
  unfold nested?
  split
  · exact absurd ⟨_, rfl⟩ plain
  · rfl

theorem selector?_eq_none {text : List Char} (notQuoted : ¬ ['"'] <+: text)
    (notSelector : ¬ ['$', '"'] <+: text) : selector? text = none := by
  unfold selector?
  split
  · exact absurd ⟨_, rfl⟩ notSelector
  · unfold scanQuoted?
    split
    · exact absurd ⟨_, rfl⟩ notQuoted
    · rfl

theorem link_of_selector? {text quoted after : List Char} (plain : ¬ startsNested <+: text)
    (selected : selector? text = some (quoted, after)) :
    link text = (quoted ++ (word after).1, (word after).2) := by
  simp [link, nested?_eq_none plain, selected]

theorem link_eq_word {text : List Char} (notQuoted : ¬ ['"'] <+: text)
    (notSelector : ¬ ['$', '"'] <+: text) : link text = word text := by
  have plain : ¬ startsNested <+: text := by
    rintro ⟨body, rfl⟩
    exact notSelector ⟨_, rfl⟩
  simp [link, nested?_eq_none plain, selector?_eq_none notQuoted notSelector]

theorem isEnd_link (text : List Char) : IsEnd (link text).2 := by
  unfold link
  split <;> exact isEnd_word _

theorem isLink_of_isSingle {text : List Char} (single : Identifier.isSingle text = true)
    (plain : ¬ startsNested <+: text) : IsLink text := by
  obtain ⟨body, suffix, quotable, touching, rfl⟩ := Identifier.shape_of_isSingle single
  have free : BlankFree suffix := fun c member => Identifier.isBlank_of_isSuffixChar (touching c member)
  refine ⟨by simp, ?_, ?_⟩
  · have shaped : '$' :: '"' :: (body ++ '"' :: suffix) = ['$', '"'] ++ body ++ ('"' :: suffix) := by simp
    rw [shaped]
    exact IsTrimmed.append (isTrimmed_of_blankFree (by decide)) (by simp) body
      (isTrimmed_of_blankFree (blankFree_cons (by decide) free)) (by simp)
  · intro rest ended
    have quoted := scanQuoted?_quotable quotable (suffix ++ rest)
    have selected : selector? ('$' :: '"' :: (body ++ '"' :: suffix) ++ rest) =
        some ('$' :: '"' :: (body ++ ['"']), suffix ++ rest) := by
      simp [selector?, quoted]
    have unnested : ¬ startsNested <+: '$' :: '"' :: (body ++ '"' :: suffix) ++ rest :=
      fun started => plain (prefix_of_prefix_append (by decide) ended started)
    rw [link_of_selector? unnested selected, word_append_of_isEnd free ended]
    simp

theorem isLink_of_blankFree {text : List Char} (filled : text ≠ []) (free : BlankFree text)
    (notQuoted : ¬ ['"'] <+: text) (notSelector : ¬ ['$', '"'] <+: text) : IsLink text := by
  refine ⟨filled, isTrimmed_of_blankFree free, ?_⟩
  intro rest ended
  rw [link_eq_word, word_append_of_isEnd free ended]
  · exact fun started => notQuoted (prefix_of_prefix_append (by decide) ended started)
  · exact fun started => notSelector (prefix_of_prefix_append (by decide) ended started)

theorem isLink_of_quotable {body : List Char} (quotable : Quotable body) :
    IsLink ('"' :: (body ++ ['"'])) := by
  refine ⟨by simp, ?_, ?_⟩
  · have quote : IsTrimmed ['"'] := isTrimmed_of_blankFree (by decide)
    exact quote.append (by simp) body quote (by simp)
  · intro rest ended
    have selected : selector? ('"' :: (body ++ ['"']) ++ rest) = some ('"' :: (body ++ ['"']), rest) := by
      simp [selector?, scanQuoted?_quotable quotable rest]
    have unnested : ¬ startsNested <+: '"' :: (body ++ ['"']) ++ rest := by simp [startsNested]
    rw [link_of_selector? unnested selected, word_of_isEnd ended]
    simp

theorem isLink_of_isPageElement {text : List Char} (page : Identifier.isPageElement text = true) :
    IsLink text := by
  have free := Identifier.blankFree_of_isPageElement page
  unfold Identifier.isPageElement at page
  split at page
  · rename_i name
    refine isLink_of_blankFree (by simp) free (by simp) ?_
    rintro ⟨rest, same⟩
    obtain rfl : '"' :: rest = name := by simpa using same
    simp [Identifier.isName, Identifier.isNameChar] at page
  · simp at page

theorem links_of_not_joint {text : List Char} (loose : ¬ joint <+: text) : links text = ([], text) := by
  rw [links]
  split
  · rfl
  · rename_i below found
    exact absurd ⟨below, ((dropStart?_eq_some_iff _ _ _).mp found).symm⟩ loose

theorem links_joint_of_link {text rest : List Char} (filled : text ≠ [])
    (read : link (text ++ rest) = (text, rest)) :
    links (joint ++ (text ++ rest)) = (joint ++ text ++ (links rest).1, (links rest).2) := by
  have dropped : dropStart? joint (joint ++ (text ++ rest)) = some (text ++ rest) :=
    (dropStart?_eq_some_iff _ _ _).mpr rfl
  rw [links]
  split
  · rename_i missing
    rw [dropped] at missing
    simp at missing
  · rename_i below found
    rw [dropped] at found
    obtain rfl : text ++ rest = below := by simpa using found
    rw [read, if_neg (by simpa using filled)]

theorem links_joint_append {text : List Char} (read : IsLink text) {rest : List Char}
    (ended : IsEnd rest) :
    links (joint ++ (text ++ rest)) = (joint ++ text ++ (links rest).1, (links rest).2) :=
  links_joint_of_link read.filled (read.link_append rest ended)

theorem isEnd_links {text : List Char} (ended : IsEnd text) : IsEnd (links text).2 := by
  fun_induction links text with
  | case1 => exact ended
  | case2 => exact ended
  | case3 text below found filled further rest shaped ih =>
      rw [shaped] at ih
      exact ih (isEnd_link below)

theorem isEnd_flatMap_joint (below : List (List Char)) {rest : List Char} (ended : IsEnd rest) :
    IsEnd (below.flatMap (joint ++ ·) ++ rest) := by
  cases below with
  | nil => exact ended
  | cons first below =>
      rw [List.flatMap_cons, List.append_assoc, List.append_assoc]
      exact isEnd_joint _

theorem links_flatMap_append {below : List (List Char)} (each : ∀ text ∈ below, IsLink text)
    {rest : List Char} (ended : IsEnd rest) :
    links (below.flatMap (joint ++ ·) ++ rest) =
      (below.flatMap (joint ++ ·) ++ (links rest).1, (links rest).2) := by
  induction below with
  | nil => rfl
  | cons first below ih =>
      have tail := ih (fun text member => each text (List.mem_cons_of_mem _ member))
      rw [List.flatMap_cons, List.append_assoc, List.append_assoc,
        links_joint_append (each first List.mem_cons_self) (isEnd_flatMap_joint below ended), tail]
      simp

theorem isEnd_identifier (text : List Char) : IsEnd (identifier text).2 := isEnd_links (isEnd_link text)

structure IsIdentifier (text : List Char) : Prop where
  filled : text ≠ []
  trimmed : IsTrimmed text
  identifier_append : ∀ rest, IsEnd rest → ¬ joint <+: rest → identifier (text ++ rest) = (text, rest)

theorem isTrimmed_chain {chain : Chain} (each : ∀ text ∈ chain.segments, IsLink text) :
    IsTrimmed chain.text := by
  have head := each chain.head List.mem_cons_self
  rcases List.eq_nil_or_concat chain.links with empty | ⟨front, last, split⟩
  · simpa [Chain.text, empty] using head.trimmed
  · have lastLink : IsLink last := each last (by simp [Chain.segments, split])
    have parts : chain.text = chain.head ++ (front.flatMap (joint ++ ·) ++ joint) ++ last := by
      simp [Chain.text, split]
    rw [parts]
    exact head.trimmed.append head.filled _ lastLink.trimmed lastLink.filled

theorem isIdentifier_chain {chain : Chain} (each : ∀ text ∈ chain.segments, IsLink text) :
    IsIdentifier chain.text := by
  have head := each chain.head List.mem_cons_self
  refine ⟨by simp [Chain.text, head.filled], isTrimmed_chain each, ?_⟩
  intro rest ended loose
  have below : ∀ text ∈ chain.links, IsLink text :=
    fun text member => each text (List.mem_cons_of_mem _ member)
  rw [identifier, Chain.text, List.append_assoc,
    head.link_append _ (isEnd_flatMap_joint chain.links ended), links_flatMap_append below ended,
    links_of_not_joint loose]
  simp

theorem isIdentifier_of_isLink {text : List Char} (read : IsLink text) : IsIdentifier text := by
  have alone : IsIdentifier (Chain.mk text []).text :=
    isIdentifier_chain (by simpa [Chain.segments] using read)
  simpa [Chain.text] using alone

theorem not_joint_prefix {blanks : List Char} (filled : blanks ≠ []) (allBlank : AllBlank blanks)
    {c : Char} (other : c ≠ '>') (rest : List Char) : ¬ joint <+: blanks ++ c :: rest := by
  rintro ⟨below, same⟩
  have shaped : ' ' :: '>' :: ('>' :: ' ' :: below) = blanks ++ c :: rest := same
  rcases blanks with _ | ⟨first, _ | ⟨second, blanks⟩⟩
  · exact filled rfl
  · exact other (List.cons.inj (List.cons.inj shaped).2).1.symm
  · have blank : isBlank second = true := allBlank second (by simp)
    rw [← (List.cons.inj (List.cons.inj shaped).2).1] at blank
    simp [isBlank, blankRanges] at blank

end WebTestLint.Scan
