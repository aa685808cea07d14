import Mathlib.Data.List.Chain
import WebTestLint.Identifier.Descendant
import WebTestLint.Proofs.Nested

/-!
Which nested forms the scanner reads back. Its end is found only if what follows the first quote of the
selector happens to read as words up to the closing quote.
-/

namespace WebTestLint.Scan

open Identifier (joint Chain)

def QuotesEscaped (selector : List Char) : Prop :=
  ∀ before behind, selector = before ++ '"' :: behind → before.getLast? = some '\\'

theorem quotesEscaped_iff (selector : List Char) :
    QuotesEscaped selector ↔
      List.IsChain (fun before c => c = '"' → before = '\\') (' ' :: selector) := by
  rw [List.isChain_iff_forall_rel_of_append_cons_cons]
  constructor
  · rintro escaped before c front behind same rfl
    cases front with
    | nil =>
        obtain ⟨rfl, rfl⟩ := List.cons.inj same
        simpa using escaped [] behind rfl
    | cons first front =>
        obtain ⟨_, split⟩ := List.cons.inj same
        simpa using escaped (front ++ [before]) behind (by simp [split])
  · intro related before behind same
    rcases List.eq_nil_or_concat before with rfl | ⟨front, c, rfl⟩
    · have split : ' ' :: selector = [] ++ ' ' :: '"' :: behind := by simp [same]
      exact absurd (related split rfl) (by decide)
    · have split : ' ' :: selector = ' ' :: front ++ c :: '"' :: behind := by simp [same]
      simp [related split rfl]

instance (selector : List Char) : Decidable (QuotesEscaped selector) :=
  decidable_of_iff _ (quotesEscaped_iff selector).symm

theorem not_quoted_of_escaped {selector front text finish : List Char}
    (escaped : QuotesEscaped selector) (split : selector = front ++ (joint ++ text ++ finish)) :
    ¬ ['"'] <+: text ∧ ¬ ['$', '"'] <+: text := by
  constructor
  · rintro ⟨rest, rfl⟩
    have last := escaped (front ++ joint) (rest ++ finish) (by simp [split])
    simp [joint] at last
  · rintro ⟨rest, rfl⟩
    have last := escaped (front ++ joint ++ ['$']) (rest ++ finish) (by simp [split])
    simp at last

/-- Behind the first quote of a selector, blanks stand in joints alone, and each joint leads to a word
that is more than a last `$`. -/
inductive IsRecoverable : List Char → Prop
  | unquoted {selector} : '"' ∉ selector → IsRecoverable selector
  | words {before} {chain : Chain} : '"' ∉ before → IsWords chain →
      chain.links.getLast? ≠ some ['$'] → IsRecoverable (before ++ '"' :: chain.text)

theorem isLink_of_isWords {selector front : List Char} {chain : Chain} (escaped : QuotesEscaped selector)
    (words : IsWords chain) {finish : List Char} (split : selector = front ++ (chain.text ++ finish))
    {text : List Char} (member : text ∈ chain.links) : IsLink text := by
  obtain ⟨before, after, same⟩ := List.append_of_mem member
  have whole : selector = front ++ (chain.head ++ before.flatMap (joint ++ ·)) ++
      (joint ++ text ++ (after.flatMap (joint ++ ·) ++ finish)) := by
    simp [split, Chain.text, same]
  obtain ⟨notQuoted, notSelector⟩ := not_quoted_of_escaped escaped whole
  exact isLink_of_blankFree (words.filled text member)
    (words.free text (List.mem_cons_of_mem _ member)) notQuoted notSelector

theorem not_quoted_concat {text : List Char} (notQuoted : ¬ ['"'] <+: text)
    (notSelector : ¬ ['$', '"'] <+: text) (filled : text ≠ []) (notDollar : text ≠ ['$']) :
    ¬ ['"'] <+: text ++ ['"'] ∧ ¬ ['$', '"'] <+: text ++ ['"'] := by
  constructor
  · intro started
    rcases List.prefix_concat_iff.mp started with same | started
    · exact filled (by simpa using same.symm)
    · exact notQuoted started
  · intro started
    rcases List.prefix_concat_iff.mp started with same | started
    · have parts : text ++ ['"'] = ['$'] ++ ['"'] := same.symm
      exact notDollar (List.append_inj_left' parts rfl)
    · exact notSelector started

theorem exists_closed_chain {selector front : List Char} {chain : Chain} (escaped : QuotesEscaped selector)
    (words : IsWords chain) (last : chain.links.getLast? ≠ some ['$'])
    (split : selector = front ++ chain.text) :
    ∃ closed : Chain, closed.text = chain.text ++ ['"'] ∧ BlankFree closed.head ∧
      ∀ text ∈ closed.links, IsLink text := by
  have each : ∀ text ∈ chain.links, IsLink text := by
    intro text member
    have whole : selector = front ++ (chain.text ++ []) := by simpa using split
    exact isLink_of_isWords escaped words whole member
  have extended : ∀ text, BlankFree text → BlankFree (text ++ ['"']) :=
    fun text free => (blankFree_append_iff text ['"']).mpr ⟨free, by decide⟩
  rcases List.eq_nil_or_concat chain.links with alone | ⟨inner, kept, shaped⟩
  · refine ⟨⟨chain.head ++ ['"'], []⟩, by simp [Chain.text, alone], ?_, by simp⟩
    exact extended _ (words.free chain.head List.mem_cons_self)
  · rw [List.concat_eq_append] at shaped
    have member : kept ∈ chain.links := by simp [shaped]
    have whole : selector = front ++ (chain.head ++ inner.flatMap (joint ++ ·)) ++
        (joint ++ kept ++ []) := by
      simp [split, Chain.text, shaped]
    obtain ⟨notQuoted, notSelector⟩ := not_quoted_of_escaped escaped whole
    have filled := words.filled kept member
    have notDollar : kept ≠ ['$'] := fun dollar => last (by simp [shaped, dollar])
    have unquoted := not_quoted_concat notQuoted notSelector filled notDollar
    have closed : IsLink (kept ++ ['"']) := isLink_of_blankFree (by simp)
      (extended _ (words.free kept (List.mem_cons_of_mem _ member))) unquoted.1 unquoted.2
    refine ⟨⟨chain.head, inner ++ [kept ++ ['"']]⟩, by simp [Chain.text, shaped], ?_, ?_⟩
    · exact words.free chain.head List.mem_cons_self
    · intro text found
      rcases List.mem_append.mp found with found | found
      · exact each text (by simp [shaped, found])
      · simp only [List.mem_singleton] at found
        exact found ▸ closed

theorem identifier_nestedText {parent selector : List Char} (free : BraceFree parent)
    (escaped : QuotesEscaped selector) (recoverable : IsRecoverable selector) {rest : List Char}
    (ended : IsEnd rest) (loose : ¬ joint <+: rest) :
    identifier (nestedText parent selector ++ rest) = (nestedText parent selector, rest) := by
  cases recoverable with
  | unquoted unquoted =>
      have shaped : nestedText parent selector ++ rest =
          opening parent ++ (selector ++ '"' :: rest) := by
        simp [nestedText]
      rw [shaped, identifier_opening free unquoted, words_of_isEnd ended loose]
      simp [nestedText]
  | @words before chain unquoted words last =>
      have behind : before ++ '"' :: chain.text = before ++ ['"'] ++ chain.text := by simp
      obtain ⟨closed, text, head, below⟩ := exists_closed_chain escaped words last behind
      have shaped : nestedText parent (before ++ '"' :: chain.text) ++ rest =
          opening parent ++ (before ++ '"' :: (closed.text ++ rest)) := by
        simp [nestedText, text]
      rw [shaped, identifier_opening free unquoted, words_chain head below ended,
        links_of_not_joint loose]
      simp [nestedText, text]

theorem links_overrun {kept : List Char} (short : kept = [] ∨ kept = ['$']) :
    (links (joint ++ (kept ++ ['"', ' ', '"']))).1 = joint ++ (kept ++ ['"', ' ', '"']) := by
  rcases short with rfl | rfl <;> decide +kernel

theorem link_eq_word_of_escaped {selector front finish : List Char} (escaped : QuotesEscaped selector)
    (split : selector ++ ['"'] = front ++ (joint ++ finish)) : link finish = word finish := by
  rcases List.eq_nil_or_concat finish with rfl | ⟨kept, c, rfl⟩
  · have last := congrArg List.getLast? split
    simp [joint] at last
  · rw [List.concat_eq_append] at split ⊢
    have parts : selector ++ ['"'] = (front ++ (joint ++ kept)) ++ [c] := by simpa using split
    obtain ⟨inside, quote⟩ := List.append_inj' parts rfl
    obtain rfl : c = '"' := by simpa using quote.symm
    have whole : selector = front ++ (joint ++ kept ++ []) := by simpa using inside
    obtain ⟨notQuoted, notSelector⟩ := not_quoted_of_escaped escaped whole
    by_cases filled : kept = []
    · subst filled
      decide
    · by_cases dollar : kept = ['$']
      · subst dollar
        decide
      · have unquoted := not_quoted_concat notQuoted notSelector filled dollar
        exact link_eq_word unquoted.1 unquoted.2

theorem words_of_read {parent before behind rest : List Char} (free : BraceFree parent)
    (unquoted : '"' ∉ before)
    (read : (identifier (nestedText parent (before ++ '"' :: behind) ++ rest)).1 =
      nestedText parent (before ++ '"' :: behind)) :
    (words (behind ++ '"' :: rest)).1 = behind ++ ['"'] := by
  have shaped : nestedText parent (before ++ '"' :: behind) ++ rest =
      opening parent ++ (before ++ '"' :: (behind ++ '"' :: rest)) := by
    simp [nestedText]
  rw [shaped, identifier_opening free unquoted] at read
  simpa [nestedText] using read

theorem IsWords.closing {chain : Chain} (words : IsWords chain) {behind : List Char}
    (closed : chain.text = behind ++ ['"']) :
    chain = ⟨behind ++ ['"'], []⟩ ∨
      ∃ head inner kept, chain = ⟨head, inner ++ [kept ++ ['"']]⟩ ∧
        behind = (Chain.mk head inner).text ++ (joint ++ kept) := by
  obtain ⟨head, links⟩ := chain
  rcases List.eq_nil_or_concat links with rfl | ⟨inner, last, rfl⟩
  · left
    simpa [Chain.text] using closed
  · right
    rw [List.concat_eq_append] at words closed ⊢
    rcases List.eq_nil_or_concat last with rfl | ⟨kept, c, rfl⟩
    · exact absurd rfl (words.filled [] (by simp))
    · have parts : (Chain.mk head inner).text ++ (joint ++ kept) ++ [c] = behind ++ ['"'] := by
        rw [← closed]
        simp [Chain.text]
      obtain ⟨inside, quote⟩ := List.append_inj' parts rfl
      obtain rfl : c = '"' := by simpa using quote
      exact ⟨head, inner, kept, by simp, inside.symm⟩

theorem IsWords.init {head last : List Char} {inner : List (List Char)}
    (words : IsWords ⟨head, inner ++ [last]⟩) : IsWords ⟨head, inner⟩ := by
  constructor
  · intro segment member
    apply words.free segment
    rcases List.mem_cons.mp member with rfl | below
    · exact List.mem_cons_self
    · exact List.mem_cons_of_mem _ (List.mem_append_left _ below)
  · exact fun segment member => words.filled segment (List.mem_append_left _ member)

theorem IsWords.unquote_head {head : List Char} (words : IsWords ⟨head ++ ['"'], []⟩) :
    IsWords ⟨head, []⟩ := by
  refine ⟨?_, by simp⟩
  intro segment member
  obtain rfl : segment = head := by simpa [Chain.segments] using member
  exact ((blankFree_append_iff _ _).mp (words.free _ List.mem_cons_self)).1

theorem IsWords.unquote_last {head kept : List Char} {inner : List (List Char)}
    (words : IsWords ⟨head, inner ++ [kept ++ ['"']]⟩) (filled : kept ≠ []) :
    IsWords ⟨head, inner ++ [kept]⟩ := by
  constructor
  · intro segment member
    simp only [Chain.segments, List.mem_cons, List.mem_append, List.not_mem_nil, or_false] at member
    rcases member with rfl | found | rfl
    · exact words.free _ List.mem_cons_self
    · exact words.init.free segment (List.mem_cons_of_mem _ found)
    · have closed := words.free (segment ++ ['"']) (by simp [Chain.segments])
      exact ((blankFree_append_iff _ _).mp closed).1
  · intro segment member
    rcases List.mem_append.mp member with found | found
    · exact words.init.filled segment found
    · obtain rfl : segment = kept := by simpa using found
      exact filled

theorem words_overrun {selector front kept : List Char} {chain : Chain} (escaped : QuotesEscaped selector)
    (split : selector = front ++ (chain.text ++ (joint ++ kept))) (isWords : IsWords chain)
    (short : kept = [] ∨ kept = ['$']) :
    (words (chain.text ++ (joint ++ kept) ++ ['"', ' ', '"'])).1 =
      chain.text ++ (joint ++ kept) ++ ['"', ' ', '"'] := by
  have below : ∀ segment ∈ chain.links, IsLink segment :=
    fun segment member => isLink_of_isWords escaped isWords split member
  -- The last joint leads to nothing but the closing quote, so the next quote of the line ends what is read.
  have overrun := words_chain (isWords.free chain.head List.mem_cons_self) below
    (isEnd_joint (kept ++ ['"', ' ', '"']))
  rw [List.append_assoc, List.append_assoc, overrun, links_overrun short]

theorem isRecoverable_of_read {parent selector : List Char} (free : BraceFree parent)
    (escaped : QuotesEscaped selector)
    (read : ∀ rest, IsEnd rest → ¬ joint <+: rest →
      (identifier (nestedText parent selector ++ rest)).1 = nestedText parent selector) :
    IsRecoverable selector := by
  by_cases quoted : '"' ∈ selector
  swap
  · exact IsRecoverable.unquoted quoted
  obtain ⟨before, behind, rfl, unquoted⟩ := List.eq_append_cons_of_mem quoted
  have reads : ∀ rest, IsEnd rest → ¬ joint <+: rest →
      (words (behind ++ '"' :: rest)).1 = behind ++ ['"'] :=
    fun rest ended loose => words_of_read free unquoted (read rest ended loose)
  -- No joint leads to a quoted text, since every quote but the closing one has a backslash before it.
  obtain ⟨chain, text, isWords⟩ := exists_words_eq (behind ++ ['"']) (by
    intro front finish split
    have whole : before ++ '"' :: behind ++ ['"'] = before ++ '"' :: front ++ (joint ++ finish) := by
      simp [split]
    exact link_eq_word_of_escaped escaped whole)
  rw [reads [] isEnd_nil (by decide)] at text
  rcases isWords.closing text with rfl | ⟨head, inner, kept, rfl, inside⟩
  · simpa [Chain.text] using IsRecoverable.words unquoted isWords.unquote_head (by simp)
  · -- Nothing behind the text is no test of a short last word, but a further quote on the line is.
    have long : ¬ (kept = [] ∨ kept = ['$']) := by
      intro short
      have split : before ++ '"' :: behind =
          before ++ ['"'] ++ ((Chain.mk head inner).text ++ (joint ++ kept)) := by
        simp [inside]
      have overrun := words_overrun escaped split isWords.init short
      have whole := reads [' ', '"'] (isEnd_cons (by decide) _) (by decide)
      rw [← inside, whole] at overrun
      simp at overrun
    have whole : behind = (Chain.mk head (inner ++ [kept])).text := by simp [Chain.text, inside]
    rw [whole]
    apply IsRecoverable.words unquoted (isWords.unquote_last fun empty => long (Or.inl empty))
    simpa using fun dollar => long (Or.inr dollar)

theorem links_append (text : List Char) : (links text).1 ++ (links text).2 = text := by
  fun_induction links text with
  | case1 => rfl
  | case2 => rfl
  | case3 text below found filled further rest shaped ih =>
      rw [shaped] at ih
      have whole := (dropStart?_eq_some_iff _ _ _).mp found
      have parts := link_append below
      rw [← ih] at parts
      simpa [whole] using parts

theorem identifier_append (text : List Char) : (identifier text).1 ++ (identifier text).2 = text := by
  simp [identifier, links_append, link_append]

theorem eq_of_byteLength_eq {first second text : List Char} (left : first <+: text)
    (right : second <+: text) (same : byteLength first = byteLength second) : first = second := by
  have nil_of_byteLength : ∀ more : List Char, byteLength more = 0 → more = [] := by
    intro more empty
    have short := length_le_byteLength more
    exact List.length_eq_zero_iff.mp (by omega)
  rcases List.prefix_or_prefix_of_prefix left right with ⟨more, rfl⟩ | ⟨more, rfl⟩
  · rw [byteLength_append] at same
    simp [nil_of_byteLength more (by omega)]
  · rw [byteLength_append] at same
    simp [nil_of_byteLength more (by omega)]

theorem stop_zero (scan : List Char → List Char × List Char) (text : String) :
    stop scan text 0 = byteLength (scan text.toList).1 := by
  simp [stop, dropBytes?]

theorem stop_identifier_iff (text rest : String) :
    stop identifier (text ++ rest) 0 = byteLength text.toList ↔
      (identifier (text.toList ++ rest.toList)).1 = text.toList := by
  rw [stop_zero, String.toList_append]
  constructor
  · intro same
    exact eq_of_byteLength_eq ⟨_, identifier_append _⟩ (List.prefix_append _ _) same
  · intro same
    rw [same]

theorem isTrimmed_nestedText (parent selector : List Char) : IsTrimmed (nestedText parent selector) := by
  have shaped : nestedText parent selector =
      startsNested ++ (' ' :: (parent ++ [' ', '}', '}', ' ']) ++ selector) ++ ['"'] := by
    simp [nestedText, opening]
  rw [shaped]
  exact IsTrimmed.append (isTrimmed_of_blankFree (by decide)) (by decide) _
    (isTrimmed_of_blankFree (by decide)) (by decide)

theorem isIdentifier_nestedText {parent selector : List Char} (free : BraceFree parent)
    (escaped : QuotesEscaped selector) (recoverable : IsRecoverable selector) :
    IsIdentifier (nestedText parent selector) :=
  ⟨by simp [nestedText], isTrimmed_nestedText parent selector,
    fun _ ended loose => identifier_nestedText free escaped recoverable ended loose⟩

/-- The scanner finds the end of a nested form in every line exactly if its selector is recoverable, and
then statements are read with that identifier. Neither the parent nor the selector has to be well
formed for this. -/
theorem stop_identifier_nested_iff {parent selector : List Char} (free : BraceFree parent)
    (escaped : QuotesEscaped selector) :
    let value := String.ofList (nestedText parent selector)
    ((∀ rest : String, IsEnd rest.toList → ¬ joint <+: rest.toList →
        stop identifier (value ++ rest) 0 = byteLength value.toList) ↔ IsRecoverable selector) ∧
      (IsRecoverable selector →
        (Action.ofLine ("click " ++ value)).kind = .interaction value ∧
          (Assertion.ofLine (value ++ " exists")).identifier = value) := by
  intro value
  have text : value.toList = nestedText parent selector := String.toList_ofList
  refine ⟨⟨?_, ?_⟩, ?_⟩
  · intro stops
    apply isRecoverable_of_read free escaped
    intro rest ended loose
    have read := stops (String.ofList rest) (by simpa using ended) (by simpa using loose)
    rw [stop_identifier_iff, text] at read
    simpa using read
  · intro recoverable rest ended loose
    rw [stop_identifier_iff, text, identifier_nestedText free escaped recoverable ended loose]
  · intro recoverable
    have read : IsIdentifier value.toList := text ▸ isIdentifier_nestedText free escaped recoverable
    have gap : IsGap " " := ⟨by decide, by decide⟩
    refine ⟨?_, ?_⟩
    · have known : "click" ∈ Action.interactionCommands := by decide
      exact (Action.ofLine_interaction known (by decide) (by decide) gap read).2
    · have word : Assertion.IsOperator "exists" := Assertion.isOperator_of_mem (by decide)
      have ended : IsEnd (trimEnd "".toList) := isEnd_nil
      have left : trim (trimEnd "".toList) = "".toList := rfl
      have line : value ++ " exists" = value ++ " " ++ "exists" ++ "" := by
        rw [String.append_empty, String.append_assoc]
        rfl
      rw [line]
      exact (Assertion.ofLine_of_isEnd read gap word ended left).1

theorem stop_identifier_nested_titled :
    let selector := "[title=\\\"b >> c\\\"]".toList
    let value := String.ofList (nestedText "$\".a\"".toList selector)
    BraceFree "$\".a\"".toList ∧ QuotesEscaped selector ∧ IsRecoverable selector ∧
      stop identifier (value ++ " exists") 0 = byteLength value.toList ∧
      (Assertion.ofLine (value ++ " exists")).identifier = value := by
  intro selector value
  have free : BraceFree "$\".a\"".toList := by decide +kernel
  have escaped : QuotesEscaped selector := by decide +kernel
  have words : IsWords ⟨"b".toList, ["c\\\"]".toList]⟩ := ⟨by decide +kernel, by decide +kernel⟩
  have unquoted : '"' ∉ "[title=\\".toList := by decide +kernel
  have recoverable : IsRecoverable selector := IsRecoverable.words unquoted words (by decide +kernel)
  obtain ⟨stops, read⟩ := stop_identifier_nested_iff free escaped
  refine ⟨free, escaped, recoverable, ?_, (read recoverable).2⟩
  exact stops.mpr recoverable " exists" (by decide +kernel) (by decide +kernel)

theorem stop_identifier_spaced_ne :
    let parent := "$\".a\"".toList
    let selector := "[title=\\\"a b\\\"]".toList
    let value := nestedText parent selector
    Identifier.isElement parent = true ∧ BraceFree parent ∧ BraceFree selector ∧
      QuotesEscaped selector ∧ trim selector ≠ [] ∧
      Identifier.isDescendantElement value = true ∧
      stop identifier (String.ofList value ++ " exists") 0 = 24 ∧ byteLength value = 30 := by
  decide +kernel

end WebTestLint.Scan
