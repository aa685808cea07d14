import WebTestLint.Proofs.Recovery

/-!
What a scanner has read it reads again when other text follows. It looks ahead for closing braces and
for quotes, so other text without a quote makes no difference to it.
-/

namespace WebTestLint.Scan

open Identifier (joint)

/-- What the scanner reads ends in a quote and tells by itself where it ends. -/
structure IsQuoteScanner (scan : List Char → Option (List Char × List Char)) : Prop where
  append : ∀ {text quoted after}, scan text = some (quoted, after) → text = quoted ++ after
  closed : ∀ {text quoted after}, scan text = some (quoted, after) → quoted.getLast? = some '"'
  again : ∀ {text quoted after}, scan text = some (quoted, after) →
    ∀ other, scan (quoted ++ other) = some (quoted, other)

theorem throughClose?_again {depth : Nat} {text closed after : List Char}
    (found : throughClose? depth text = some (closed, after)) (other : List Char) :
    closed ≠ [] ∧ throughClose? depth (closed ++ other) = some (closed, other) := by
  fun_induction throughClose? depth text generalizing closed with
  | case1 => simp at found
  | case2 depth rest ih =>
      obtain ⟨⟨inner, after'⟩, found', same⟩ := Option.map_eq_some_iff.mp found
      obtain ⟨rfl, rfl⟩ : '{' :: '{' :: inner = closed ∧ after' = after := by simpa using same
      simp [throughClose?, (ih found').2]
  | case3 depth rest shallow =>
      obtain ⟨rfl, rfl⟩ : ['}', '}'] = closed ∧ rest = after := by simpa using found
      simp [throughClose?, shallow]
  | case4 depth rest deep ih =>
      obtain ⟨⟨inner, after'⟩, found', same⟩ := Option.map_eq_some_iff.mp found
      obtain ⟨rfl, rfl⟩ : '}' :: '}' :: inner = closed ∧ after' = after := by simpa using same
      simp [throughClose?, deep, (ih found').2]
  | case5 depth c rest notOpen notClose ih =>
      obtain ⟨⟨inner, after'⟩, found', same⟩ := Option.map_eq_some_iff.mp found
      obtain ⟨rfl, rfl⟩ : c :: inner = closed ∧ after' = after := by simpa using same
      obtain ⟨filled, again⟩ := ih found'
      have whole := throughClose?_append found'
      -- The character behind `c` is the same as before, since something is read there.
      obtain ⟨d, inner, rfl⟩ := List.exists_cons_of_ne_nil filled
      refine ⟨by simp, ?_⟩
      rw [List.cons_append, throughClose?_cons_other depth, again]
      · rfl
      · intro started
        obtain ⟨rfl, rfl⟩ : '{' = c ∧ '{' = d := by simpa using started
        exact notOpen _ rfl whole
      · intro started
        obtain ⟨rfl, rfl⟩ : '}' = c ∧ '}' = d := by simpa using started
        exact notClose _ rfl whole

theorem exists_of_nested? {text quoted after : List Char}
    (found : nested? text = some (quoted, after)) :
    ∃ body braces before, text = startsNested ++ body ∧ '"' ∉ before ∧
      throughClose? 1 body = some (braces, before ++ '"' :: after) ∧
      quoted = startsNested ++ (braces ++ (before ++ ['"'])) := by
  unfold nested? at found
  split at found
  · rename_i body
    simp only [Option.bind_eq_bind, Option.bind_eq_some_iff, Prod.exists] at found
    obtain ⟨braces, tail, closed, found⟩ := found
    split at found
    · simp at found
    · rename_i quote rest dropped
      have stopped : (quote != '"') = false := by
        have head := List.head?_dropWhile_not (· != '"') tail
        simpa [dropped] using head
      obtain rfl : quote = '"' := by simpa using stopped
      have split : tail.takeWhile (· != '"') ++ '"' :: rest = tail := by
        rw [← dropped, List.takeWhile_append_dropWhile]
      obtain ⟨same, rfl⟩ : _ = quoted ∧ rest = after := by simpa using found
      refine ⟨body, braces, tail.takeWhile (· != '"'), rfl, ?_, by rw [split, closed], ?_⟩
      · intro member
        simpa using List.mem_takeWhile_imp member
      · simp [← same, startsNested]
  · simp at found

theorem isQuoteScanner_nested? : IsQuoteScanner nested? := by
  refine ⟨nested?_append, ?_, ?_⟩
  · intro text quoted after found
    obtain ⟨body, braces, before, _, _, _, rfl⟩ := exists_of_nested? found
    rw [← List.append_assoc, ← List.append_assoc, List.getLast?_concat]
  · intro text quoted after found other
    obtain ⟨body, braces, before, _, unquoted, closed, rfl⟩ := exists_of_nested? found
    have again := (throughClose?_again closed (before ++ '"' :: other)).2
    simpa using nested?_of_throughClose? again unquoted

theorem throughQuote_again {escaped : Bool} {text quoted after : List Char}
    (found : throughQuote escaped text = some (quoted, after)) (other : List Char) :
    quoted.getLast? = some '"' ∧ throughQuote escaped (quoted ++ other) = some (quoted, other) := by
  induction text generalizing escaped quoted with
  | nil => simp [throughQuote] at found
  | cons c rest ih =>
      rw [throughQuote] at found
      by_cases closing : (decide (c = '"') && !escaped) = true
      · rw [if_pos closing] at found
        obtain ⟨rfl, rfl⟩ : [c] = quoted ∧ rest = after := by simpa using found
        obtain rfl : c = '"' := by simpa using (Bool.and_eq_true_iff.mp closing).1
        exact ⟨rfl, by rw [List.singleton_append, throughQuote, if_pos closing]⟩
      · rw [if_neg closing] at found
        obtain ⟨⟨inner, after'⟩, found', same⟩ := Option.map_eq_some_iff.mp found
        obtain ⟨rfl, rfl⟩ : c :: inner = quoted ∧ after' = after := by simpa using same
        obtain ⟨last, again⟩ := ih found'
        refine ⟨by simp [List.getLast?_cons, last], ?_⟩
        rw [List.cons_append, throughQuote, if_neg closing, again]
        rfl

theorem exists_of_scanQuoted? {text quoted after : List Char}
    (found : scanQuoted? text = some (quoted, after)) :
    ∃ body inner, text = '"' :: body ∧ throughQuote false body = some (inner, after) ∧
      quoted = '"' :: inner := by
  unfold scanQuoted? at found
  split at found
  · rename_i body
    obtain ⟨⟨inner, after'⟩, found', same⟩ := Option.map_eq_some_iff.mp found
    obtain ⟨rfl, rfl⟩ : '"' :: inner = quoted ∧ after' = after := by simpa using same
    exact ⟨body, inner, rfl, found', rfl⟩
  · simp at found

theorem exists_of_selector? {text quoted after : List Char}
    (found : selector? text = some (quoted, after)) :
    ∃ start body inner, (start = ['$', '"'] ∨ start = ['"']) ∧ text = start ++ body ∧
      throughQuote false body = some (inner, after) ∧ quoted = start ++ inner := by
  unfold selector? at found
  split at found
  · rename_i body
    obtain ⟨⟨marked, after'⟩, found', same⟩ := Option.map_eq_some_iff.mp found
    obtain ⟨rfl, rfl⟩ : '$' :: marked = quoted ∧ after' = after := by simpa using same
    obtain ⟨body', inner, whole, closed, rfl⟩ := exists_of_scanQuoted? found'
    obtain rfl : body = body' := by simpa using whole
    exact ⟨['$', '"'], body, inner, Or.inl rfl, rfl, closed, rfl⟩
  · obtain ⟨body, inner, rfl, closed, rfl⟩ := exists_of_scanQuoted? found
    exact ⟨['"'], body, inner, Or.inr rfl, rfl, closed, rfl⟩

theorem isQuoteScanner_selector? : IsQuoteScanner selector? := by
  refine ⟨selector?_append, ?_, ?_⟩
  · intro text quoted after found
    obtain ⟨start, body, inner, _, _, closed, rfl⟩ := exists_of_selector? found
    have last := (throughQuote_again closed []).1
    rw [List.getLast?_append_of_ne_nil _ (by rintro rfl; simp at last), last]
  · intro text quoted after found other
    obtain ⟨start, body, inner, either, _, closed, rfl⟩ := exists_of_selector? found
    have again := (throughQuote_again closed other).2
    rcases either with rfl | rfl
    · simp [selector?, scanQuoted?, again]
    · simp [selector?, scanQuoted?, again]

theorem IsQuoteScanner.eq_none {scan : List Char → Option (List Char × List Char)}
    (quotes : IsQuoteScanner scan) {text rest other : List Char} (missing : scan (text ++ rest) = none)
    (unquoted : '"' ∉ other) : scan (text ++ other) = none := by
  by_contra found
  obtain ⟨⟨quoted, after⟩, found⟩ := Option.ne_none_iff_exists'.mp found
  have last := quotes.closed found
  -- The quote that ends what is read stands in front of the other text, so it was there before.
  obtain ⟨more, rfl⟩ : quoted <+: text := by
    rcases List.append_eq_append_iff.mp (quotes.append found) with ⟨more, rfl, same⟩ | ⟨more, rfl, _⟩
    · by_cases empty : more = []
      · simp [empty]
      · rw [List.getLast?_append_of_ne_nil _ empty] at last
        exact absurd (same ▸ List.mem_append_left _ (List.mem_of_getLast? last)) unquoted
    · exact List.prefix_append quoted more
  have again := quotes.again found (more ++ rest)
  rw [← List.append_assoc, missing] at again
  simp at again

theorem word_again {text rest kept : List Char} (read : (word text).1 = kept) (ended : IsEnd rest) :
    word (kept ++ rest) = (kept, rest) :=
  word_append_of_isEnd (read ▸ blankFree_word text) ended

theorem link_again {text kept rest other : List Char}
    (read : link (text ++ (kept ++ rest)) = (text, kept ++ rest)) (unquoted : '"' ∉ other)
    (ended : IsEnd (kept ++ other)) : link (text ++ (kept ++ other)) = (text, kept ++ other) := by
  have quoted {scan : List Char → Option (List Char × List Char)} (quotes : IsQuoteScanner scan)
      {start after : List Char} (found : scan (text ++ (kept ++ rest)) = some (start, after))
      (same : (start ++ (word after).1, (word after).2) = (text, kept ++ rest)) :
      ∃ behind, scan (text ++ (kept ++ other)) = some (start, behind) ∧
        (start ++ (word behind).1, (word behind).2) = (text, kept ++ other) := by
    obtain ⟨touching, _⟩ := Prod.mk.inj same
    have again : word ((word after).1 ++ (kept ++ other)) = ((word after).1, kept ++ other) :=
      word_again rfl ended
    refine ⟨(word after).1 ++ (kept ++ other), ?_, ?_⟩
    · rw [← touching, List.append_assoc]
      exact quotes.again found _
    · rw [again, touching]
  have missing {scan : List Char → Option (List Char × List Char)} (quotes : IsQuoteScanner scan)
      (unread : scan (text ++ (kept ++ rest)) = none) : scan (text ++ (kept ++ other)) = none := by
    rw [← List.append_assoc] at unread ⊢
    exact quotes.eq_none unread unquoted
  unfold link at read ⊢
  cases nested : nested? (text ++ (kept ++ rest)) with
  | some pair =>
      simp only [nested, Option.orElse_eq_orElse, Option.orElse_eq_or, Option.some_or] at read
      obtain ⟨behind, found, same⟩ := quoted isQuoteScanner_nested? nested read
      simp [found, same]
  | none =>
      have unnested := missing isQuoteScanner_nested? nested
      cases selected : selector? (text ++ (kept ++ rest)) with
      | some pair =>
          simp only [nested, selected] at read
          obtain ⟨behind, found, same⟩ := quoted isQuoteScanner_selector? selected read
          simp [unnested, found, same]
      | none =>
          have unselected := missing isQuoteScanner_selector? selected
          simp only [nested, selected] at read
          simpa [unnested, unselected] using word_again (congrArg Prod.fst read) ended

theorem isEnd_links_append (text : List Char) {other : List Char} (ended : IsEnd other) :
    IsEnd ((links text).1 ++ other) := by
  rw [links]
  split
  · exact ended
  · split
    · exact ended
    · simpa using isEnd_joint _

theorem links_again (text : List Char) {other : List Char} (unquoted : '"' ∉ other)
    (ended : IsEnd other) (loose : ¬ joint <+: other) :
    links ((links text).1 ++ other) = ((links text).1, other) := by
  fun_induction links text with
  | case1 => exact links_of_not_joint loose
  | case2 => exact links_of_not_joint loose
  | case3 text below found filled further rest shaped ih =>
      have whole := (dropStart?_eq_some_iff _ _ _).mp found
      have behind : further ++ rest = (link below).2 := by
        have parts := links_append (link below).2
        rwa [shaped] at parts
      have read : link ((link below).1 ++ (further ++ rest)) = ((link below).1, further ++ rest) := by
        rw [behind, link_append]
      have closing : IsEnd (further ++ other) := by
        have start := isEnd_links_append (link below).2 ended
        rwa [shaped] at start
      rw [shaped] at ih
      have again := links_joint_of_link (by simpa using filled) (link_again read unquoted closing)
      simpa [ih] using again

/-- What is read as an identifier is read again if other text without a quote stands behind it. -/
theorem identifier_again (text : List Char) {other : List Char} (unquoted : '"' ∉ other)
    (ended : IsEnd other) (loose : ¬ joint <+: other) :
    identifier ((identifier text).1 ++ other) = ((identifier text).1, other) := by
  have read : link ((link text).1 ++ ((links (link text).2).1 ++ (links (link text).2).2)) =
      ((link text).1, (links (link text).2).1 ++ (links (link text).2).2) := by
    rw [links_append, link_append]
  have again := link_again read unquoted (isEnd_links_append _ ended)
  simp [identifier, again, links_again _ unquoted ended loose]

end WebTestLint.Scan
