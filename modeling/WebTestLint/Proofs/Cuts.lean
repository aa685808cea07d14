import Mathlib.Data.List.Forall2
import WebTestLint.Proofs.Offsets
import WebTestLint.Proofs.Splitting

/-!
Where a text is cut into segments. The loop over its bytes cuts it at places only, the segments make up
the text again, and none of them can be cut further.
-/

namespace WebTestLint.Identifier

open Scan (not_pair_isPrefix)

namespace Chain

theorem head_isPrefix (depth : Nat) (quoted : Bool) (text : List Char) :
    (split depth quoted text).head <+: text :=
  ⟨_, text_split depth quoted text⟩

theorem inside_of_covered {depth : Nat} {quoted : Bool}
    (covered : ¬ (decide (depth = 0) && !quoted) = true) : Inside depth quoted := by
  simp only [Bool.and_eq_true, decide_eq_true_eq, Bool.not_eq_true', not_and, Bool.not_eq_false] at covered
  exact (Nat.eq_zero_or_pos depth).symm.imp_right covered

theorem not_joint_isPrefix {c : Char} {rest : List Char}
    (loose : ∀ more, c = ' ' → rest = '>' :: '>' :: ' ' :: more → False) : ¬ joint <+: c :: rest := by
  rintro ⟨more, same⟩
  obtain ⟨rfl, rfl⟩ := List.cons.inj same
  exact loose more rfl rfl

theorem eq_nil_of_notEscape {c : Char} {rest : List Char}
    (notEscape : ∀ d more, c = '\\' → rest = d :: more → False) (escape : c = '\\') : rest = [] := by
  cases rest with
  | nil => rfl
  | cons d rest => exact absurd rfl (notEscape d rest escape)

theorem split_head_and_links (depth : Nat) (quoted : Bool) (text : List Char) :
    split depth quoted (split depth quoted text).head = ⟨(split depth quoted text).head, []⟩ ∧
      ∀ link ∈ (split depth quoted text).links, ofText link = ⟨link, []⟩ := by
  fun_induction split depth quoted text with
  | case1 => simp [split]
  | case2 _ _ _ _ ih | case3 _ _ _ ih | case4 _ _ _ ih | case5 _ _ _ ih =>
      exact ⟨by simp [extend, split, ih.1], ih.2⟩
  | case6 depth quoted rest outside ih =>
      obtain ⟨rfl, rfl⟩ : depth = 0 ∧ quoted = false := by simpa using outside
      refine ⟨by simp [split], ?_⟩
      intro link member
      rcases List.mem_cons.mp member with rfl | below
      · exact ih.1
      · exact ih.2 link below
  | case7 depth quoted rest covered ih =>
      refine ⟨?_, ih.2⟩
      have taken := split_joint_of_inside (inside_of_covered covered) (split depth quoted rest).head
      rw [ih.1] at taken
      simpa [extend, joint] using taken
  | case8 depth quoted c rest notEscape notOpen notClose notQuote loose ih =>
      refine ⟨?_, ih.2⟩
      by_cases escape : c = '\\'
      · obtain rfl := eq_nil_of_notEscape notEscape escape
        simp [extend, split]
      · -- The head is cut off from what stood behind it, and so starts with nothing that the text does not.
        have shorter : c :: (split depth quoted rest).head <+: c :: rest :=
          (List.prefix_cons_inj c).mpr (head_isPrefix depth quoted rest)
        have unopened := fun started : ['{', '{'] <+: _ => not_pair_isPrefix notOpen (started.trans shorter)
        have unclosed := fun started : ['}', '}'] <+: _ => not_pair_isPrefix notClose (started.trans shorter)
        have unjoined := fun started : joint <+: _ => not_joint_isPrefix loose (started.trans shorter)
        rw [extend, List.singleton_append,
          split_cons_other depth quoted escape notQuote unopened unclosed unjoined, ih.1]
        rfl

end Chain

/-- Where the loop over the bytes stands: the start of the segment it is in, its index, the braces that
are open, whether a quote is open, and the ends of the segments behind it. -/
structure Cutting where
  start : Nat
  index : Nat
  depth : Nat
  quoted : Bool
  cuts : List (Nat × Nat)

def cutPass (text : List Char) (cutting : Cutting) : Pass Cutting (List (Nat × Nat)) :=
  let ⟨start, index, depth, quoted, cuts⟩ := cutting
  if index < byteLength text then
    if BytesStart text index ['\\'] then .again ⟨start, index + 2, depth, quoted, cuts⟩
    else if BytesStart text index ['{', '{'] then .again ⟨start, index + 2, depth + 1, quoted, cuts⟩
    else if BytesStart text index ['}', '}'] then .again ⟨start, index + 2, depth - 1, quoted, cuts⟩
    else if BytesStart text index ['"'] then .again ⟨start, index + 1, depth, !quoted, cuts⟩
    else if depth = 0 ∧ quoted = false ∧ BytesStart text index joint then
      if (slice? start index text).isNone then .wrong
      else
        .again ⟨index + byteLength joint, index + byteLength joint, depth, quoted, cuts ++ [(start, index)]⟩
    else .again ⟨start, index + 1, depth, quoted, cuts⟩
  else if (slice? start (byteLength text) text).isNone then .wrong
  else .done (cuts ++ [(start, byteLength text)])

def ranges (start : Nat) : List (List Char) → List (Nat × Nat)
  | [] => []
  | segment :: rest =>
    (start, start + byteLength segment) :: ranges (start + byteLength segment + byteLength joint) rest

section Passes

variable {text before rest : List Char} {start depth : Nat} {quoted : Bool} {cuts result : List (Nat × Nat)}

theorem cutPass_of_append (c : Char) :
    cutPass (before ++ c :: rest) ⟨start, byteLength before, depth, quoted, cuts⟩ =
      if ['\\'] <+: c :: rest then .again ⟨start, byteLength before + 2, depth, quoted, cuts⟩
      else if ['{', '{'] <+: c :: rest then .again ⟨start, byteLength before + 2, depth + 1, quoted, cuts⟩
      else if ['}', '}'] <+: c :: rest then .again ⟨start, byteLength before + 2, depth - 1, quoted, cuts⟩
      else if ['"'] <+: c :: rest then .again ⟨start, byteLength before + 1, depth, !quoted, cuts⟩
      else if depth = 0 ∧ quoted = false ∧ joint <+: c :: rest then
        if (slice? start (byteLength before) (before ++ c :: rest)).isNone then .wrong
        else
          .again ⟨byteLength before + byteLength joint, byteLength before + byteLength joint, depth, quoted,
            cuts ++ [(start, byteLength before)]⟩
      else .again ⟨start, byteLength before + 1, depth, quoted, cuts⟩ := by
  have inside := byteLength_lt_append_cons before c rest
  have ascii : ∀ c ∈ joint, c.toNat < 128 := by simp [joint]
  simp (disch := simp) only [cutPass, if_pos inside, bytesStart_append_iff, bytesStart_append_iff ascii]

theorem cutPass_of_not_bytesStart {index : Nat} (below : index < byteLength text)
    (none : ∀ c start, c.toNat < 128 → ¬ BytesStart text index (c :: start)) :
    cutPass text ⟨start, index, depth, quoted, cuts⟩ = .again ⟨start, index + 1, depth, quoted, cuts⟩ := by
  have unjoined : ¬ BytesStart text index joint := none ' ' _ (by decide)
  simp [cutPass, below, none, unjoined]

theorem cutPass_of_past {index : Nat} (past : ¬ index < byteLength (before ++ rest)) :
    cutPass (before ++ rest) ⟨byteLength before, index, depth, quoted, cuts⟩ =
      .done (cuts ++ [(byteLength before, byteLength (before ++ rest))]) := by
  have cut := slice?_append_isNone before rest []
  rw [List.append_nil] at cut
  simp only [cutPass, if_neg past, cut, Bool.false_eq_true, if_false]

theorem cutPass_escape :
    cutPass (before ++ '\\' :: rest) ⟨start, byteLength before, depth, quoted, cuts⟩ =
      .again ⟨start, byteLength (before ++ ['\\']) + 1, depth, quoted, cuts⟩ := by
  rw [cutPass_of_append, if_pos (by simp), byteLength_append]
  rfl

theorem cutPass_open :
    cutPass (before ++ '{' :: '{' :: rest) ⟨start, byteLength before, depth, quoted, cuts⟩ =
      .again ⟨start, byteLength (before ++ ['{', '{']), depth + 1, quoted, cuts⟩ := by
  rw [cutPass_of_append, if_neg (by simp), if_pos (by simp), byteLength_append]
  rfl

theorem cutPass_close :
    cutPass (before ++ '}' :: '}' :: rest) ⟨start, byteLength before, depth, quoted, cuts⟩ =
      .again ⟨start, byteLength (before ++ ['}', '}']), depth - 1, quoted, cuts⟩ := by
  rw [cutPass_of_append, if_neg (by simp), if_neg (by simp), if_pos (by simp), byteLength_append]
  rfl

theorem cutPass_quote :
    cutPass (before ++ '"' :: rest) ⟨start, byteLength before, depth, quoted, cuts⟩ =
      .again ⟨start, byteLength (before ++ ['"']), depth, !quoted, cuts⟩ := by
  rw [cutPass_of_append, if_neg (by simp), if_neg (by simp), if_neg (by simp), if_pos (by simp),
    byteLength_append]
  rfl

theorem cutPass_joint (segment : List Char) :
    cutPass (before ++ segment ++ (joint ++ rest))
        ⟨byteLength before, byteLength (before ++ segment), 0, false, cuts⟩ =
      .again ⟨byteLength (before ++ segment ++ joint), byteLength (before ++ segment ++ joint), 0, false,
        cuts ++ [(byteLength before, byteLength (before ++ segment))]⟩ := by
  have split : joint ++ rest = ' ' :: '>' :: '>' :: ' ' :: rest := rfl
  rw [split, cutPass_of_append, if_neg (by simp), if_neg (by simp), if_neg (by simp), if_neg (by simp),
    if_pos (by simp [joint]), slice?_append_isNone, byteLength_append _ joint]
  rfl

theorem cutPass_other {c : Char} (notEscape : c ≠ '\\') (notQuote : c ≠ '"')
    (notOpen : ¬ ['{', '{'] <+: c :: rest) (notClose : ¬ ['}', '}'] <+: c :: rest)
    (kept : Chain.Inside depth quoted ∨ ¬ joint <+: c :: rest) :
    cutPass (before ++ c :: rest) ⟨start, byteLength before, depth, quoted, cuts⟩ =
      .again ⟨start, byteLength before + 1, depth, quoted, cuts⟩ := by
  have uncut : ¬ (depth = 0 ∧ quoted = false ∧ joint <+: c :: rest) := by
    rintro ⟨rfl, rfl, joined⟩
    rcases kept with inside | loose
    · simp [Chain.Inside] at inside
    · exact loose joined
  rw [cutPass_of_append, if_neg (by simpa using Ne.symm notEscape), if_neg notOpen, if_neg notClose,
    if_neg (by simpa using Ne.symm notQuote), if_neg uncut]

theorem endsIn_cutPass_inside (c : Char)
    (ended : EndsIn (cutPass (before ++ c :: rest))
      ⟨start, byteLength (before ++ [c]), depth, quoted, cuts⟩ result) :
    EndsIn (cutPass (before ++ c :: rest)) ⟨start, byteLength before + 1, depth, quoted, cuts⟩ result :=
  EndsIn.rest_of_character (Cutting.mk start · depth quoted cuts)
    (fun _ => cutPass_of_not_bytesStart) ended

theorem endsIn_cutPass_escape (c : Char)
    (ended : EndsIn (cutPass (before ++ '\\' :: c :: rest))
      ⟨start, byteLength (before ++ ['\\', c]), depth, quoted, cuts⟩ result) :
    EndsIn (cutPass (before ++ '\\' :: c :: rest))
      ⟨start, byteLength before, depth, quoted, cuts⟩ result := by
  apply EndsIn.again cutPass_escape
  have split : before ++ '\\' :: c :: rest = (before ++ ['\\']) ++ c :: rest := by simp
  rw [split] at ended ⊢
  apply endsIn_cutPass_inside
  simpa using ended

theorem endsIn_cutPass_last (segment : List Char) :
    EndsIn (cutPass (before ++ segment ++ ['\\']))
      ⟨byteLength before, byteLength (before ++ segment), depth, quoted, cuts⟩
      (cuts ++ [(byteLength before, byteLength (before ++ segment ++ ['\\']))]) := by
  apply EndsIn.again cutPass_escape
  apply EndsIn.done
  rw [List.append_assoc]
  exact cutPass_of_past (Nat.not_lt.mpr (Nat.le_succ _))

theorem endsIn_cutPass_other {c : Char} (notEscape : c ≠ '\\') (notQuote : c ≠ '"')
    (notOpen : ¬ ['{', '{'] <+: c :: rest) (notClose : ¬ ['}', '}'] <+: c :: rest)
    (kept : Chain.Inside depth quoted ∨ ¬ joint <+: c :: rest)
    (ended : EndsIn (cutPass (before ++ c :: rest))
      ⟨start, byteLength (before ++ [c]), depth, quoted, cuts⟩ result) :
    EndsIn (cutPass (before ++ c :: rest)) ⟨start, byteLength before, depth, quoted, cuts⟩ result :=
  EndsIn.again (cutPass_other notEscape notQuote notOpen notClose kept) (endsIn_cutPass_inside c ended)

theorem endsIn_cutPass_joint (inside : Chain.Inside depth quoted)
    (ended : EndsIn (cutPass (before ++ (joint ++ rest)))
      ⟨start, byteLength (before ++ joint), depth, quoted, cuts⟩ result) :
    EndsIn (cutPass (before ++ (joint ++ rest)))
      ⟨start, byteLength before, depth, quoted, cuts⟩ result := by
  have step (front below : List Char) (c : Char) (plain : c = ' ' ∨ c = '>')
      (split : joint = front ++ c :: below)
      (ended : EndsIn (cutPass (before ++ (joint ++ rest)))
        ⟨start, byteLength (before ++ (front ++ [c])), depth, quoted, cuts⟩ result) :
      EndsIn (cutPass (before ++ (joint ++ rest)))
        ⟨start, byteLength (before ++ front), depth, quoted, cuts⟩ result := by
    have whole : before ++ (joint ++ rest) = (before ++ front) ++ c :: (below ++ rest) := by simp [split]
    rw [whole] at ended ⊢
    rw [← List.append_assoc] at ended
    rcases plain with rfl | rfl
    · exact endsIn_cutPass_other (by decide) (by decide) (by simp) (by simp) (Or.inl inside) ended
    · exact endsIn_cutPass_other (by decide) (by decide) (by simp) (by simp) (Or.inl inside) ended
  have first := step [] ">> ".toList ' ' (Or.inl rfl) rfl
  have second := step " ".toList "> ".toList '>' (Or.inr rfl) rfl
  have third := step " >".toList " ".toList '>' (Or.inr rfl) rfl
  have last := step " >>".toList [] ' ' (Or.inl rfl) rfl
  rw [List.append_nil] at first
  exact first (second (third (last ended)))

end Passes

/-- From the state in which a split starts the loop makes the cuts of the split. -/
theorem endsIn_cutPass (before front rest : List Char) (depth : Nat) (quoted : Bool)
    (cuts : List (Nat × Nat)) :
    EndsIn (cutPass (before ++ front ++ rest))
      ⟨byteLength before, byteLength (before ++ front), depth, quoted, cuts⟩
      (cuts ++ ranges (byteLength before) ((Chain.split depth quoted rest).extend front).segments) := by
  fun_induction Chain.split depth quoted rest generalizing before front cuts with
  | case1 depth quoted =>
      apply EndsIn.done
      rw [List.append_nil, cutPass_of_past (Nat.lt_irrefl _)]
      simp [ranges, Chain.extend, Chain.segments]
  | case2 depth quoted c rest ih =>
      rw [Chain.extend_extend]
      apply endsIn_cutPass_escape
      simpa [Nat.add_assoc] using ih before (front ++ ['\\', c]) cuts
  | case3 depth quoted rest ih =>
      rw [Chain.extend_extend]
      apply EndsIn.again cutPass_open
      simpa [Nat.add_assoc] using ih before (front ++ ['{', '{']) cuts
  | case4 depth quoted rest ih =>
      rw [Chain.extend_extend]
      apply EndsIn.again cutPass_close
      simpa [Nat.add_assoc] using ih before (front ++ ['}', '}']) cuts
  | case5 depth quoted rest ih =>
      rw [Chain.extend_extend]
      apply EndsIn.again cutPass_quote
      simpa [Nat.add_assoc] using ih before (front ++ ['"']) cuts
  | case6 depth quoted rest outside ih =>
      obtain ⟨rfl, rfl⟩ : depth = 0 ∧ quoted = false := by simpa using outside
      have ended := ih (before ++ front ++ joint) []
        (cuts ++ [(byteLength before, byteLength (before ++ front))])
      apply EndsIn.again (cutPass_joint front)
      simpa [joint, ranges, Chain.extend, Chain.segments, Nat.add_assoc] using ended
  | case7 depth quoted rest covered ih =>
      rw [Chain.extend_extend]
      apply endsIn_cutPass_joint (Chain.inside_of_covered covered)
      simpa [joint, Nat.add_assoc] using ih before (front ++ joint) cuts
  | case8 depth quoted c rest notEscape notOpen notClose notQuote loose ih =>
      by_cases escape : c = '\\'
      · obtain rfl := Chain.eq_nil_of_notEscape notEscape escape
        subst escape
        simpa [ranges, Chain.split, Chain.extend, Chain.segments] using endsIn_cutPass_last front
      · rw [Chain.extend_extend]
        apply endsIn_cutPass_other escape notQuote (not_pair_isPrefix notOpen) (not_pair_isPrefix notClose)
          (Or.inr (Chain.not_joint_isPrefix loose))
        simpa [Nat.add_assoc] using ih before (front ++ [c]) cuts

def IsCutOut (text : String) (range : Nat × Nat) (segment : List Char) : Prop :=
  IsPlace text range.1 ∧ IsPlace text range.2 ∧ slice? range.1 range.2 text.toList = some segment

theorem isCutOut_of_append {text : String} {before segment after : List Char}
    (whole : text.toList = before ++ (segment ++ after)) :
    IsCutOut text (byteLength before, byteLength before + byteLength segment) segment := by
  have cut := slice?_append before segment after
  rw [← whole] at cut
  obtain ⟨first, last, _⟩ := (exists_slice?_iff text _ _).mp ⟨segment, cut⟩
  exact ⟨first, last, cut⟩

theorem isCutOut_ranges {text : String} {before : List Char} {chain : Chain}
    (whole : text.toList = before ++ chain.text) :
    List.Forall₂ (IsCutOut text) (ranges (byteLength before) chain.segments) chain.segments := by
  obtain ⟨head, links⟩ := chain
  induction links generalizing before head with
  | nil => exact .cons (isCutOut_of_append whole) .nil
  | cons link links ih =>
      have next : text.toList = (before ++ head ++ joint) ++ (Chain.mk link links).text := by
        simpa [Chain.text] using whole
      have rest := ih link next
      rw [byteLength_append, byteLength_append] at rest
      exact .cons (isCutOut_of_append whole) rest

namespace Chain

theorem intercalate_segments (chain : Chain) : joint.intercalate chain.segments = chain.text := by
  obtain ⟨head, links⟩ := chain
  induction links generalizing head with
  | nil => simp [segments, text, List.intercalate]
  | cons link links ih =>
      have rest := ih link
      simp only [segments, text, List.intercalate] at rest
      simp [segments, text, List.intercalate, rest]

/-- The loop over the bytes of a text ends, with cuts that are all between places of the text. What it
cuts out makes up the text again, and cannot be cut further. -/
theorem cuts_are_faithful (text : String) :
    (∃ ranges, EndsIn (cutPass text.toList) ⟨0, 0, 0, false, []⟩ ranges ∧
      List.Forall₂ (IsCutOut text) ranges (ofText text.toList).segments) ∧
    " >> ".intercalate ((ofText text.toList).segments.map String.ofList) = text ∧
    ∀ segment ∈ (ofText text.toList).segments, (ofText segment).segments = [segment] := by
  refine ⟨⟨ranges 0 (ofText text.toList).segments, ?_, ?_⟩, ?_, ?_⟩
  · exact endsIn_cutPass [] [] text.toList 0 false []
  · have whole : text.toList = [] ++ (ofText text.toList).text := (text_ofText text.toList).symm
    exact isCutOut_ranges whole
  · have joined : " >> ".toList = joint := rfl
    rw [← String.toList_inj, String.toList_intercalate, List.map_map, joined]
    simp [Function.comp_def, intercalate_segments, text_ofText]
  · obtain ⟨head, links⟩ := split_head_and_links 0 false text.toList
    intro segment member
    rcases List.mem_cons.mp member with rfl | below
    · exact congrArg segments head
    · exact congrArg segments (links segment below)

theorem cuts_are_faithful_escaped :
    let text := "\\é >> \x7b\x7b \"a\" >> b \x7d\x7d >> c\\"
    let last := "c\\".toList
    last ∈ (ofText text.toList).segments ∧ (ofText last).segments = [last] ∧
      ∃ ranges, EndsIn (cutPass text.toList) ⟨0, 0, 0, false, []⟩ ranges ∧ ranges.length = 3 := by
  intro text last
  obtain ⟨⟨ranges, ended, cut⟩, _, whole⟩ := cuts_are_faithful text
  have count : (ofText text.toList).segments.length = 3 := by decide +kernel
  have member : last ∈ (ofText text.toList).segments := by decide +kernel
  exact ⟨member, whole last member, ranges, ended, cut.length_eq.trans count⟩

end Chain

end WebTestLint.Identifier
