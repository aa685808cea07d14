import WebTestLint.Identifier.Descendant
import WebTestLint.Proofs.Nested

/-!
How texts are split. Between quotes and inside braces a joint is plain text, so a text that closes
what it opens is taken over whole by any split that reaches it.
-/

namespace WebTestLint.Identifier

open Scan (BraceFree nestedText opening startsNested)

namespace Chain

@[simp] theorem extend_extend (front text : List Char) (chain : Chain) :
    (chain.extend text).extend front = chain.extend (front ++ text) := by
  simp [extend]

theorem split_cons_other (depth : Nat) (quoted : Bool) {c : Char} {rest : List Char}
    (notEscape : c ≠ '\\') (notQuote : c ≠ '"') (notOpen : ¬ ['{', '{'] <+: c :: rest)
    (notClose : ¬ ['}', '}'] <+: c :: rest) (loose : ¬ joint <+: c :: rest) :
    split depth quoted (c :: rest) = (split depth quoted rest).extend [c] := by
  rw [split.eq_def]
  split
  · rename_i empty
    simp at empty
  · rename_i same
    exact absurd (List.cons.inj same).1 notEscape
  · rename_i same
    exact absurd ⟨_, same.symm⟩ notOpen
  · rename_i same
    exact absurd ⟨_, same.symm⟩ notClose
  · rename_i same
    exact absurd (List.cons.inj same).1 notQuote
  · rename_i same
    exact absurd ⟨_, same.symm⟩ loose
  · rename_i same
    obtain ⟨rfl, rfl⟩ := List.cons.inj same
    rfl

/-- The state in which a joint is plain text: braces are open, or a quote is. -/
def Inside (depth : Nat) (quoted : Bool) : Prop := 0 < depth ∨ quoted = true

theorem split_joint_of_inside {depth : Nat} {quoted : Bool} (inside : Inside depth quoted)
    (rest : List Char) :
    split depth quoted (' ' :: '>' :: '>' :: ' ' :: rest) = (split depth quoted rest).extend joint := by
  have plain : (decide (depth = 0) && !quoted) = false := by
    rcases inside with braced | rfl
    · simp [Nat.ne_of_gt braced]
    · simp
  simp [split, plain]

theorem split_cons_inside {depth : Nat} {quoted : Bool} (inside : Inside depth quoted) {c : Char}
    {rest : List Char} (notEscape : c ≠ '\\') (notQuote : c ≠ '"')
    (notOpen : ¬ ['{', '{'] <+: c :: rest) (notClose : ¬ ['}', '}'] <+: c :: rest) :
    split depth quoted (c :: rest) = (split depth quoted rest).extend [c] := by
  induction length : rest.length using Nat.strongRecOn generalizing c rest with
  | ind size ih =>
      by_cases joined : joint <+: c :: rest
      · obtain ⟨below, same⟩ := joined
        obtain ⟨rfl, rfl⟩ : ' ' = c ∧ '>' :: '>' :: ' ' :: below = rest := List.cons.inj same
        have blank : split depth quoted (' ' :: below) = (split depth quoted below).extend [' '] := by
          apply ih below.length _ (by decide) (by decide) (by simp) (by simp) rfl
          rw [← length]
          simp only [List.length_cons]
          omega
        rw [split_joint_of_inside inside,
          split_cons_other depth quoted (by decide) (by decide) (by simp) (by simp) (by simp [joint]),
          split_cons_other depth quoted (by decide) (by decide) (by simp) (by simp) (by simp [joint]),
          blank]
        simp [joint]
      · exact split_cons_other depth quoted notEscape notQuote notOpen notClose joined

/-- A split that is in the state `before` where a text starts takes the text over without a cut, and
is in the state `after` where it ends. A state is a count of open braces and whether a quote is open. -/
def Crosses (before : Nat × Bool) (text : List Char) (after : Nat × Bool) : Prop :=
  ∀ rest, split before.1 before.2 (text ++ rest) = (split after.1 after.2 rest).extend text

theorem Crosses.append {before between after : Nat × Bool} {first second : List Char}
    (left : Crosses before first between) (right : Crosses between second after) :
    Crosses before (first ++ second) after := by
  intro rest
  rw [List.append_assoc, left, right, extend_extend]

theorem crosses_quote (depth : Nat) (quoted : Bool) :
    Crosses (depth, quoted) ['"'] (depth, !quoted) := by
  intro rest
  simp [split]

theorem crosses_open (depth : Nat) (quoted : Bool) :
    Crosses (depth, quoted) ['{', '{'] (depth + 1, quoted) := by
  intro rest
  simp [split]

theorem crosses_close (depth : Nat) (quoted : Bool) :
    Crosses (depth, quoted) ['}', '}'] (depth - 1, quoted) := by
  intro rest
  simp [split]

theorem crosses_escaped (depth : Nat) (quoted : Bool) (c : Char) :
    Crosses (depth, quoted) ['\\', c] (depth, quoted) := by
  intro rest
  simp [split]

theorem crosses_joint {depth : Nat} {quoted : Bool} (inside : Inside depth quoted) :
    Crosses (depth, quoted) joint (depth, quoted) :=
  fun rest => split_joint_of_inside inside rest

theorem crosses_blank {depth : Nat} {quoted : Bool} (inside : Inside depth quoted) :
    Crosses (depth, quoted) [' '] (depth, quoted) := by
  intro rest
  exact split_cons_inside inside (by decide) (by decide) (by simp) (by simp)

def IsPlain (c : Char) : Prop := c ≠ '\\' ∧ c ≠ '"' ∧ c ≠ '{' ∧ c ≠ '}' ∧ c ≠ ' '

theorem crosses_plain (depth : Nat) (quoted : Bool) {text : List Char}
    (plain : ∀ c ∈ text, IsPlain c) : Crosses (depth, quoted) text (depth, quoted) := by
  intro rest
  induction text with
  | nil => rfl
  | cons c text ih =>
      obtain ⟨notEscape, notQuote, notOpen, notClose, notBlank⟩ := plain c List.mem_cons_self
      have tail := ih fun d member => plain d (List.mem_cons_of_mem c member)
      rw [List.cons_append, split_cons_other depth quoted notEscape notQuote
        (by simp [notOpen.symm]) (by simp [notClose.symm]) (by simp [joint, notBlank.symm]), tail]
      simp

theorem isPlain_of_isSuffixChar {c : Char} (touching : IsSuffixChar c) : IsPlain c := by
  refine ⟨?_, ?_, ?_, ?_, ?_⟩ <;> rintro rfl <;> revert touching <;> simp [IsSuffixChar] <;> decide

/-- A text without double braces that no brace behind it can make up to one. -/
structure IsSealed (text : List Char) : Prop where
  free : BraceFree text
  last : ∀ c ∈ text.getLast?, c ≠ '{' ∧ c ≠ '}'

theorem IsSealed.tail {c : Char} {text : List Char} (closed : IsSealed (c :: text)) : IsSealed text := by
  refine ⟨closed.free.of_infix (List.infix_cons List.infix_rfl), ?_⟩
  intro d found
  cases text with
  | nil => simp at found
  | cons e text => exact closed.last d (by simpa using found)

theorem IsSealed.not_prefix {c : Char} {text : List Char} (closed : IsSealed (c :: text))
    (rest : List Char) :
    ¬ ['{', '{'] <+: c :: (text ++ rest) ∧ ¬ ['}', '}'] <+: c :: (text ++ rest) := by
  cases text with
  | nil =>
      have apart : c ≠ '{' ∧ c ≠ '}' := closed.last c rfl
      simp [apart.1.symm, apart.2.symm]
  | cons d text =>
      constructor
      · intro started
        apply closed.free.1
        obtain ⟨rfl, rfl⟩ : '{' = c ∧ '{' = d := by simpa using started
        exact (List.prefix_append ['{', '{'] text).isInfix
      · intro started
        apply closed.free.2
        obtain ⟨rfl, rfl⟩ : '}' = c ∧ '}' = d := by simpa using started
        exact (List.prefix_append ['}', '}'] text).isInfix

theorem isSealed_concat {text : List Char} (free : BraceFree text) {c : Char}
    (apart : c ≠ '{' ∧ c ≠ '}') : IsSealed (text ++ [c]) := by
  have ends (brace : Char) (other : c ≠ brace) (none : ¬ [brace, brace] <:+: text) :
      ¬ [brace, brace] <:+: text ++ [c] := by
    intro found
    rcases List.infix_concat_iff.mp found with ended | found
    · obtain ⟨front, same⟩ := ended
      have last := congrArg List.getLast? same
      simp at last
      exact other last.symm
    · exact none found
  exact ⟨⟨ends '{' apart.1 free.1, ends '}' apart.2 free.2⟩, by simpa using apart⟩

theorem isSealed_of_unbraced {text : List Char} (unbraced : ∀ c ∈ text, c ≠ '{' ∧ c ≠ '}') :
    IsSealed text := by
  refine ⟨⟨fun found => ?_, fun found => ?_⟩, fun c found => unbraced c (List.mem_of_getLast? found)⟩
  · exact (unbraced '{' (found.subset List.mem_cons_self)).1 rfl
  · exact (unbraced '}' (found.subset List.mem_cons_self)).2 rfl

theorem isSealed_of_isPlain {text : List Char} (plain : ∀ c ∈ text, IsPlain c) : IsSealed text :=
  isSealed_of_unbraced fun c member => ⟨(plain c member).2.2.1, (plain c member).2.2.2.1⟩

theorem crosses_selector {depth : Nat} {quoted : Bool} (inside : Inside depth quoted)
    {body : List Char} (quotable : Quotable body) (free : BraceFree body) :
    Crosses (depth, quoted) (body ++ ['"']) (depth, !quoted) := by
  have closed : IsSealed (body ++ ['"']) := isSealed_concat free (by decide)
  clear free
  induction quotable with
  | nil => exact crosses_quote depth quoted
  | @plain c rest notQuote notEscape _ ih =>
      intro after
      have sealed : IsSealed (c :: (rest ++ ['"'])) := closed
      obtain ⟨notOpen, notClose⟩ := sealed.not_prefix after
      rw [List.cons_append, List.cons_append,
        split_cons_inside inside notEscape notQuote notOpen notClose, ih closed.tail after]
      simp
  | @escaped c rest _ ih =>
      exact (crosses_escaped depth quoted c).append (ih closed.tail.tail)

/-- The braces that are open behind a text, if `depth` are open in front of it. A backslash takes the
character behind it out of the count, and what closes braces that are not open counts for nothing. -/
def openBraces (depth : Nat) : List Char → Nat
  | [] => depth
  | '\\' :: _ :: rest => openBraces depth rest
  | '{' :: '{' :: rest => openBraces (depth + 1) rest
  | '}' :: '}' :: rest => openBraces (depth - 1) rest
  | _ :: rest => openBraces depth rest

theorem openBraces_of_isPlain (depth : Nat) {text : List Char} (plain : ∀ c ∈ text, IsPlain c) :
    openBraces depth text = depth := by
  fun_induction openBraces depth text with
  | case1 => rfl
  | case2 => exact absurd rfl (plain _ List.mem_cons_self).1
  | case3 => exact absurd rfl (plain _ List.mem_cons_self).2.2.1
  | case4 => exact absurd rfl (plain _ List.mem_cons_self).2.2.2.1
  | case5 depth c rest _ _ _ ih => exact ih fun d member => plain d (List.mem_cons_of_mem c member)

theorem openBraces_of_unopened {text : List Char} (unopened : ¬ ['{', '{'] <:+: text) :
    openBraces 0 text = 0 := by
  have tail (front : List Char) {rest : List Char} (free : ¬ ['{', '{'] <:+: front ++ rest) : ¬ ['{', '{'] <:+: rest :=
    fun found => free (found.trans (List.suffix_append front rest).isInfix)
  generalize start : 0 = depth
  fun_induction openBraces depth text with
  | case1 => rfl
  | case2 depth c rest ih => exact ih (tail ['\\', c] unopened) start
  | case3 depth rest => exact absurd (List.prefix_append ['{', '{'] rest).isInfix unopened
  | case4 depth rest ih =>
      subst start
      exact ih (tail ['}', '}'] unopened) rfl
  | case5 depth c rest _ _ _ ih => exact ih (tail [c] unopened) start

theorem exists_of_append_quote {brace : Char} (other : brace ≠ '"') {body suffix rest : List Char}
    (same : body ++ '"' :: suffix = brace :: brace :: rest) :
    ∃ inner, body = brace :: brace :: inner ∧ inner ++ '"' :: suffix = rest := by
  rcases body with _ | ⟨first, _ | ⟨second, inner⟩⟩
  · exact absurd (List.cons.inj same).1.symm other
  · exact absurd (List.cons.inj (List.cons.inj same).2).1.symm other
  · obtain ⟨rfl, rfl, behind⟩ : first = brace ∧ second = brace ∧ inner ++ '"' :: suffix = rest := by
      simpa using same
    exact ⟨inner, rfl, behind⟩

/-- Whatever braces a selector holds, behind its closing quote no quote is open. -/
theorem crosses_quoted (depth : Nat) {body suffix : List Char} (quotable : Quotable body)
    (plain : ∀ c ∈ suffix, IsPlain c) :
    Crosses (depth, true) (body ++ '"' :: suffix) (openBraces depth (body ++ '"' :: suffix), false) := by
  generalize whole : body ++ '"' :: suffix = text
  fun_induction openBraces depth text generalizing body with
  | case1 => simp at whole
  | case2 depth c rest ih =>
      cases quotable with
      | nil => simp at whole
      | plain _ notEscape _ => exact absurd (List.cons.inj whole).1 notEscape
      | @escaped d body quotable =>
          obtain ⟨rfl, same⟩ := List.cons.inj (List.cons.inj whole).2
          exact (crosses_escaped depth true d).append (ih quotable same)
  | case3 depth rest ih =>
      obtain ⟨body, rfl, same⟩ := exists_of_append_quote (by decide) whole
      exact (crosses_open depth true).append (ih (by simpa [quotable_cons_iff] using quotable) same)
  | case4 depth rest ih =>
      obtain ⟨body, rfl, same⟩ := exists_of_append_quote (by decide) whole
      exact (crosses_close depth true).append (ih (by simpa [quotable_cons_iff] using quotable) same)
  | case5 depth c rest notEscape notOpen notClose ih =>
      cases quotable with
      | nil =>
          obtain ⟨rfl, rfl⟩ := List.cons.inj whole
          rw [openBraces_of_isPlain depth plain]
          exact (crosses_quote depth true).append (crosses_plain depth false plain)
      | @plain d body notQuote unescaped quotable =>
          obtain ⟨rfl, same⟩ := List.cons.inj whole
          intro after
          have tail := ih quotable same after
          -- The closing quote is still ahead, so the text behind it makes no double brace with this one.
          obtain ⟨next, rest, rfl⟩ := List.exists_cons_of_ne_nil (l := rest) (by rintro rfl; simp at same)
          have unopened : ¬ ['{', '{'] <+: d :: (next :: rest ++ after) := by
            rintro ⟨more, started⟩
            obtain ⟨rfl, behind⟩ := List.cons.inj started
            exact notOpen rest rfl (by rw [← (List.cons.inj behind).1])
          have unclosed : ¬ ['}', '}'] <+: d :: (next :: rest ++ after) := by
            rintro ⟨more, started⟩
            obtain ⟨rfl, behind⟩ := List.cons.inj started
            exact notClose rest rfl (by rw [← (List.cons.inj behind).1])
          rw [List.cons_append, split_cons_inside (Or.inr rfl) unescaped notQuote unopened unclosed, tail]
          simp
      | @escaped d body quotable =>
          obtain ⟨rfl, same⟩ := List.cons.inj whole
          exact absurd same.symm (notEscape _ _ rfl)

theorem crosses_of_isSingle (depth : Nat) {text : List Char} (single : isSingle text = true) :
    Crosses (depth, false) text (openBraces depth text, false) := by
  obtain ⟨body, suffix, quotable, touching, rfl⟩ := shape_of_isSingle single
  have dollar : Crosses (depth, false) ['$'] (depth, false) := crosses_plain depth false (by simp [IsPlain])
  have selector := crosses_quoted depth quotable
    fun c member => isPlain_of_isSuffixChar (touching c member)
  have whole := (dollar.append (crosses_quote depth false)).append selector
  simpa [openBraces] using whole

theorem text_concat (head : List Char) (front : List (List Char)) (last : List Char) :
    (Chain.mk head (front ++ [last])).text = (Chain.mk head front).text ++ (joint ++ last) := by
  simp [text]

theorem infix_text_of_mem {chain : Chain} {segment : List Char} (member : segment ∈ chain.segments) :
    segment <:+: chain.text := by
  rcases List.mem_cons.mp member with rfl | below
  · exact (List.prefix_append _ _).isInfix
  · obtain ⟨before, after, split⟩ := List.append_of_mem below
    exact ⟨chain.head ++ (before.flatMap (joint ++ ·) ++ joint), after.flatMap (joint ++ ·),
      by simp [text, split]⟩

theorem crosses_of_isElement {depth : Nat} {quoted : Bool} (outside : 0 < depth ∨ quoted = false)
    {text : List Char} (element : isElement text = true) (free : BraceFree text) :
    Crosses (depth, quoted) text (depth, quoted) := by
  obtain ⟨body, suffix, quotable, touching, rfl⟩ := shape_of_isSingle (isSingle_of_isElement element)
  have inner : body <:+: '$' :: '"' :: (body ++ '"' :: suffix) := ⟨['$', '"'], '"' :: suffix, by simp⟩
  have inside : Inside depth (!quoted) := outside.imp_right (by rintro rfl; rfl)
  have dollar : Crosses (depth, quoted) ['$'] (depth, quoted) :=
    crosses_plain depth quoted (by simp [IsPlain])
  have selector := crosses_selector inside quotable (free.of_infix inner)
  have suffixed := crosses_plain depth (!!quoted) fun c member => isPlain_of_isSuffixChar (touching c member)
  have whole := ((dollar.append (crosses_quote depth quoted)).append selector).append suffixed
  simpa using whole

theorem ofText_of_crosses {text : List Char} {depth : Nat}
    (taken : Crosses (0, false) text (depth, false)) : ofText text = ⟨text, []⟩ := by
  have whole := taken []
  simpa [ofText, split, extend] using whole

theorem ofText_of_links_eq_nil {text : List Char} (single : (ofText text).links = []) :
    ofText text = ⟨text, []⟩ := by
  have whole := text_ofText text
  generalize ofText text = chain at single whole ⊢
  obtain ⟨head, links⟩ := chain
  obtain rfl : links = [] := single
  simpa [Chain.text] using whole

theorem ofText_of_isSingle {text : List Char} (single : isSingle text = true) :
    ofText text = ⟨text, []⟩ :=
  ofText_of_crosses (crosses_of_isSingle 0 single)

theorem split_joint (rest : List Char) :
    split 0 false (joint ++ rest) = ⟨[], (split 0 false rest).segments⟩ := by
  simp [joint, split]

theorem split_text_append_joint {chain : Chain}
    (each : ∀ segment ∈ chain.segments, Crosses (0, false) segment (0, false)) (rest : List Char) :
    split 0 false (chain.text ++ (joint ++ rest)) =
      ⟨chain.head, chain.links ++ (split 0 false rest).segments⟩ := by
  obtain ⟨head, links⟩ := chain
  induction links generalizing head with
  | nil =>
      have first : Crosses (0, false) head (0, false) := each head (by simp [segments])
      rw [text, List.flatMap_nil, List.append_nil, first, split_joint]
      simp [extend]
  | cons link links ih =>
      have first : Crosses (0, false) head (0, false) := each head (by simp [segments])
      have below := ih link fun segment member => each segment (List.mem_cons_of_mem head member)
      have shaped : (Chain.mk head (link :: links)).text ++ (joint ++ rest) =
          head ++ (joint ++ ((Chain.mk link links).text ++ (joint ++ rest))) := by
        simp [text]
      rw [shaped, first, split_joint, below]
      simp [extend, segments]

theorem ofText_text_append_joint {chain : Chain}
    (each : ∀ segment ∈ chain.segments, Crosses (0, false) segment (0, false)) {last : List Char}
    (alone : ofText last = ⟨last, []⟩) :
    ofText (chain.text ++ (joint ++ last)) = ⟨chain.head, chain.links ++ [last]⟩ := by
  rw [ofText] at alone
  rw [ofText, split_text_append_joint each, alone]
  rfl

theorem ofText_chain {chain : Chain}
    (each : ∀ segment ∈ chain.segments, Crosses (0, false) segment (0, false)) :
    ofText chain.text = chain := by
  obtain ⟨head, links⟩ := chain
  rcases List.eq_nil_or_concat links with rfl | ⟨front, last, rfl⟩
  · have whole := ofText_of_crosses (each head (by simp [segments]))
    simpa [text] using whole
  · have alone := ofText_of_crosses (each last (by simp [segments]))
    have inner : ∀ segment ∈ (Chain.mk head front).segments, Crosses (0, false) segment (0, false) := by
      intro segment member
      apply each
      rcases List.mem_cons.mp member with rfl | member
      · exact List.mem_cons_self
      · simp [segments, member]
    rw [List.concat_eq_append, text_concat, ofText_text_append_joint inner alone]

end Chain

theorem splitAtClose?_cons_other (depth : Nat) {c : Char} {rest : List Char}
    (notOpen : ¬ ['{', '{'] <+: c :: rest) (notClose : ¬ ['}', '}'] <+: c :: rest) :
    splitAtClose? depth (c :: rest) =
      (splitAtClose? depth rest).map fun (inner, after) => (c :: inner, after) := by
  rw [splitAtClose?.eq_def]
  split
  · rename_i empty
    simp at empty
  · rename_i same
    exact absurd ⟨_, same.symm⟩ notOpen
  · rename_i same
    exact absurd ⟨_, same.symm⟩ notClose
  · rename_i same
    obtain ⟨rfl, rfl⟩ := List.cons.inj same
    rfl

def IsBalanced (text : List Char) : Prop :=
  ∀ depth rest, 0 < depth → splitAtClose? depth (text ++ rest) =
    (splitAtClose? depth rest).map fun parts => (text ++ parts.1, parts.2)

theorem IsBalanced.append {first second : List Char} (left : IsBalanced first)
    (right : IsBalanced second) : IsBalanced (first ++ second) := by
  intro depth rest opened
  rw [List.append_assoc, left depth _ opened, right depth rest opened, Option.map_map]
  simp [Function.comp_def]

theorem isBalanced_of_isSealed {text : List Char} (closed : Chain.IsSealed text) : IsBalanced text := by
  intro depth rest opened
  induction text with
  | nil => simp
  | cons c text ih =>
      obtain ⟨notOpen, notClose⟩ := closed.not_prefix rest
      rw [List.cons_append, splitAtClose?_cons_other depth notOpen notClose, ih closed.tail, Option.map_map]
      simp [Function.comp_def]

theorem IsBalanced.braced {text : List Char} (balanced : IsBalanced text) :
    IsBalanced (['{', '{'] ++ text ++ ['}', '}']) := by
  intro depth rest opened
  have deeper : ¬ depth + 1 ≤ 1 := by omega
  have inner := balanced (depth + 1) ('}' :: '}' :: rest) (by omega)
  simp only [splitAtClose?, deeper, ↓reduceIte, Nat.add_sub_cancel] at inner
  simp only [List.append_assoc, List.cons_append, List.nil_append, splitAtClose?, inner, Option.map_map]
  simp [Function.comp_def]

theorem IsBalanced.splitAtClose? {text : List Char} (balanced : IsBalanced text) (after : List Char) :
    splitAtClose? 1 (text ++ '}' :: '}' :: after) = some (text, after) := by
  rw [balanced 1 _ (by decide)]
  simp [Identifier.splitAtClose?]

theorem splitNested?_of_isBalanced_concat {parent : List Char} (balanced : IsBalanced (parent ++ [' ']))
    (selector : List Char) :
    splitNested? (nestedText parent selector) = some (parent, selector) := by
  have closed := balanced.splitAtClose? (' ' :: (selector ++ ['"']))
  have started : dropStart? "$\"\x7b\x7b ".toList (nestedText parent selector) =
      some (parent ++ [' '] ++ '}' :: '}' :: ' ' :: (selector ++ ['"'])) := by
    rw [dropStart?_eq_some_iff]
    simp [nestedText, opening, startsNested]
  have trimmed : dropEnd? [' '] (parent ++ [' ']) = some parent := (dropEnd?_eq_some_iff _ _ _).mpr rfl
  have suffixed : dropEnd? ['"'] (selector ++ ['"']) = some selector := (dropEnd?_eq_some_iff _ _ _).mpr rfl
  rw [splitNested?, started]
  simp only [Option.bind_eq_bind, Option.bind_some, closed, trimmed]
  simp [dropStart?, suffixed]

theorem splitNested?_nestedText {parent : List Char} (balanced : IsBalanced parent)
    (selector : List Char) :
    splitNested? (nestedText parent selector) = some (parent, selector) := by
  have blank : IsBalanced [' '] := isBalanced_of_isSealed ⟨by decide, by simp⟩
  exact splitNested?_of_isBalanced_concat (balanced.append blank) selector

theorem eq_nestedText_of_splitNested? {text parent selector : List Char}
    (found : splitNested? text = some (parent, selector)) : text = nestedText parent selector := by
  simp only [splitNested?, Option.bind_eq_bind, Option.bind_eq_some_iff, Option.pure_def,
    Option.some.injEq, Prod.mk.injEq, Prod.exists] at found
  obtain ⟨body, started, before, after, closed, _, trimmed, rest, stripped, _, suffixed, rfl, rfl⟩ := found
  rw [dropStart?_eq_some_iff] at started stripped
  rw [dropEnd?_eq_some_iff] at trimmed suffixed
  rw [started, eq_append_of_splitAtClose? closed, trimmed, stripped, suffixed]
  simp [nestedText, opening, startsNested]

theorem isDescendantElement_iff (text : List Char) :
    isDescendantElement text = true ↔
      ((Chain.ofText text).links = [] ∧ isNested text = true) ∨
        ((Chain.ofText text).links ≠ [] ∧ isHead (Chain.ofText text).head = true ∧
          ∀ link ∈ (Chain.ofText text).links, isElement link = true) := by
  by_cases single : (Chain.ofText text).links = []
  · simp [isDescendantElement, single]
  · simp [isDescendantElement, single]

theorem isTarget_eq (text : List Char) :
    isTarget text =
      if isElement text then true
      else if (Chain.ofText text).links.isEmpty then isNested text
      else (Chain.ofText text).links.all isElement &&
        (isElement (Chain.ofText text).head || isPageElement (Chain.ofText text).head ||
          isNested (Chain.ofText text).head) := by
  by_cases element : isElement text = true
  · simp [isTarget, element]
  · simp [isTarget, isDescendantElement, isHead, element, Bool.and_comm]

theorem isNested_iff (text : List Char) :
    isNested text = true ↔ ∃ parent selector, splitNested? text = some (parent, selector) ∧
      ¬ AllBlank selector ∧ isTarget parent = true := by
  rw [isNested]
  split
  · rename_i missing
    simp [missing]
  · rename_i parent selector found
    have blank : selector.all isBlank = true ↔ AllBlank selector := List.all_eq_true
    simp only [found, Option.some.injEq, Prod.mk.injEq, isTarget_eq]
    by_cases allBlank : AllBlank selector
    · rw [if_pos (blank.mpr allBlank)]
      simp [allBlank]
    · rw [if_neg (blank.not.mpr allBlank)]
      simp [allBlank]

end WebTestLint.Identifier
