import WebTestLint.Proofs.Layers

/-!
Two searches for the braces that close a nested form. The scanner starts at the opening braces with none
counted, and moves by characters. The recogniser starts behind them with one pair counted, and moves by
bytes. Both come to the same braces, and the scanner goes on from there to the next quote.
-/

namespace WebTestLint

namespace Scan

open Identifier (splitAtClose? splitAtClose?_cons_other eq_append_of_splitAtClose?)

theorem throughClose?_eq_map (depth : Nat) (text : List Char) :
    throughClose? depth text =
      (splitAtClose? depth text).map fun (inner, after) => (inner ++ ['}', '}'], after) := by
  fun_induction throughClose? depth text with
  | case1 => rfl
  | case2 depth rest ih =>
      rw [splitAtClose?, ih]
      simp [Function.comp_def]
  | case3 depth rest last => simp [splitAtClose?, last]
  | case4 depth rest deeper ih =>
      rw [splitAtClose?, if_neg deeper, ih]
      simp [Function.comp_def]
  | case5 depth c rest notOpen notClose ih =>
      rw [splitAtClose?_cons_other depth (not_pair_isPrefix notOpen) (not_pair_isPrefix notClose), ih]
      simp [Function.comp_def]

structure IsAtClose (text : List Char) (search : Search) : Prop where
  braces : ∃ after, dropBytes? search.offset text = some ('}' :: '}' :: after)
  count : search.depth - 1 = 0

theorem IsAtClose.bracePass {text : List Char} {search : Search} (closes : IsAtClose text search) :
    Scan.bracePass text search = .done (search.offset + 2) := by
  obtain ⟨⟨after, found⟩, count⟩ := closes
  obtain ⟨before, rfl, size⟩ := (dropBytes?_eq_some_iff _ _ _).mp found
  obtain ⟨depth, offset⟩ := search
  obtain rfl : byteLength before = offset := size
  exact bracePass_last before after (by dsimp only at count; omega)

theorem exists_reaches_of_splitAtClose? (before : List Char) {depth : Nat} {text inner after : List Char}
    (found : splitAtClose? depth text = some (inner, after)) :
    ∃ last, Reaches (bracePass (before ++ text)) ⟨depth, byteLength before⟩
      ⟨last, byteLength (before ++ inner)⟩ ∧ last - 1 = 0 := by
  -- Each pass moves what it goes over from the text to what stands before it.
  fun_induction splitAtClose? depth text generalizing before inner with
  | case1 => simp at found
  | case2 depth rest ih =>
      obtain ⟨⟨inner, after'⟩, found', same⟩ := Option.map_eq_some_iff.mp found
      obtain ⟨rfl, rfl⟩ := Prod.mk.inj same
      obtain ⟨last, run, count⟩ := ih (before ++ ['{', '{']) found'
      exact ⟨last, .again (bracePass_open before rest depth) (by simpa using run), count⟩
  | case3 depth rest last =>
      obtain ⟨rfl, rfl⟩ := Prod.mk.inj (Option.some.inj found)
      rw [List.append_nil]
      exact ⟨depth, .refl, by omega⟩
  | case4 depth rest deeper ih =>
      obtain ⟨⟨inner, after'⟩, found', same⟩ := Option.map_eq_some_iff.mp found
      obtain ⟨rfl, rfl⟩ := Prod.mk.inj same
      obtain ⟨last, run, count⟩ := ih (before ++ ['}', '}']) found'
      exact ⟨last, .again (bracePass_close before rest deeper) (by simpa using run), count⟩
  | case5 depth c rest notOpen notClose ih =>
      obtain ⟨⟨inner, after'⟩, found', same⟩ := Option.map_eq_some_iff.mp found
      obtain ⟨rfl, rfl⟩ := Prod.mk.inj same
      obtain ⟨last, run, count⟩ := ih (before ++ [c]) found'
      have passed := bracePass_other before depth (not_pair_isPrefix notOpen) (not_pair_isPrefix notClose)
      exact ⟨last, .again passed (by simpa using run), count⟩

theorem exists_reaches_of_unsplit (before : List Char) {depth : Nat} {text : List Char}
    (missing : splitAtClose? depth text = none) :
    ∃ last, Reaches (bracePass (before ++ text)) ⟨depth, byteLength before⟩
      ⟨last, byteLength (before ++ text)⟩ := by
  fun_induction splitAtClose? depth text generalizing before with
  | case1 depth =>
      rw [List.append_nil]
      exact ⟨depth, .refl⟩
  | case2 depth rest ih =>
      obtain ⟨last, run⟩ := ih (before ++ ['{', '{']) (Option.map_eq_none_iff.mp missing)
      exact ⟨last, .again (bracePass_open before rest depth) (by simpa using run)⟩
  | case3 => simp at missing
  | case4 depth rest deeper ih =>
      obtain ⟨last, run⟩ := ih (before ++ ['}', '}']) (Option.map_eq_none_iff.mp missing)
      exact ⟨last, .again (bracePass_close before rest deeper) (by simpa using run)⟩
  | case5 depth c rest notOpen notClose ih =>
      obtain ⟨last, run⟩ := ih (before ++ [c]) (Option.map_eq_none_iff.mp missing)
      have passed := bracePass_other before depth (not_pair_isPrefix notOpen) (not_pair_isPrefix notClose)
      exact ⟨last, .again passed (by simpa using run)⟩

theorem isAtClose_of_splitAtClose? {depth last : Nat} {text inner after : List Char}
    (found : splitAtClose? depth text = some (inner, after)) (count : last - 1 = 0) :
    IsAtClose text ⟨last, byteLength inner⟩ := by
  refine ⟨⟨after, ?_⟩, count⟩
  rw [eq_append_of_splitAtClose? found, dropBytes?_append]

theorem exists_reaches_isAtClose_iff (depth : Nat) (text : List Char) (offset : Nat) :
    (∃ last, Reaches (bracePass text) ⟨depth, 0⟩ ⟨last, offset⟩ ∧ IsAtClose text ⟨last, offset⟩) ↔
      ∃ inner after, splitAtClose? depth text = some (inner, after) ∧ offset = byteLength inner := by
  constructor
  · rintro ⟨last, run, closes⟩
    cases found : splitAtClose? depth text with
    | none =>
        obtain ⟨other, run'⟩ := exists_reaches_of_unsplit [] found
        have finished : bracePass text ⟨other, byteLength text⟩ = .done (byteLength text) := by
          simp [bracePass]
        have same := Reaches.unique run run' closes.bracePass finished
        -- At the end of the text stand no braces.
        obtain ⟨after, behind⟩ := closes.braces
        obtain ⟨before, rfl, size⟩ := (dropBytes?_eq_some_iff _ _ _).mp behind
        have past := congrArg Search.offset same
        have inside := byteLength_lt_append_cons before '}' ('}' :: after)
        simp only [List.nil_append] at past size
        omega
    | some parts =>
        obtain ⟨inner, after⟩ := parts
        obtain ⟨other, run', count⟩ := exists_reaches_of_splitAtClose? [] found
        have finished := (isAtClose_of_splitAtClose? found count).bracePass
        have same := Reaches.unique run run' closes.bracePass finished
        exact ⟨inner, after, rfl, congrArg Search.offset same⟩
  · rintro ⟨inner, after, found, rfl⟩
    obtain ⟨last, run, count⟩ := exists_reaches_of_splitAtClose? [] found
    exact ⟨last, run, isAtClose_of_splitAtClose? found count⟩

/-- The search of the scanner for the closing braces of a nested form at `start` comes to them at an index
of the text. -/
def ClosesAt (text : String) (start index : Nat) : Prop :=
  ∃ behind last offset, dropBytes? (start + 2) text.toList = some behind ∧
    Reaches (bracePass behind) ⟨0, 0⟩ ⟨last, offset⟩ ∧ IsAtClose behind ⟨last, offset⟩ ∧
    index = start + 2 + offset

end Scan

/-- The search of the recogniser for the closing braces of a nested form at `start` comes to them at an
index of the text. -/
def Identifier.ClosesAt (text : String) (start index : Nat) : Prop :=
  ∃ behind offset, dropBytes? (start + 5) text.toList = some behind ∧
    EndsIn (closePass behind) ⟨1, 0⟩ (some offset) ∧ index = start + 5 + offset

section Nested

variable {text : String} {start : Nat} {body : List Char}

theorem dropBytes?_behind (front : List Char) {rest : List Char}
    (found : dropBytes? start text.toList = some (front ++ rest)) :
    dropBytes? (start + byteLength front) text.toList = some rest := by
  obtain ⟨before, whole, rfl⟩ := (dropBytes?_eq_some_iff _ _ _).mp found
  rw [whole, ← byteLength_append, ← List.append_assoc, dropBytes?_append]

open Identifier (splitAtClose?)

theorem dropBytes?_body (opens : dropBytes? start text.toList = some (Scan.startsNested ++ ' ' :: body)) :
    dropBytes? (start + 5) text.toList = some body :=
  dropBytes?_behind (Scan.startsNested ++ [' ']) (by simpa using opens)

theorem dropBytes?_closed {inner after : List Char}
    (opens : dropBytes? start text.toList = some (Scan.startsNested ++ ' ' :: body))
    (cut : splitAtClose? 1 body = some (inner, after)) :
    dropBytes? (start + 5 + byteLength inner + 2) text.toList = some after := by
  have inside := dropBytes?_body opens
  rw [Identifier.eq_append_of_splitAtClose? cut] at inside
  exact dropBytes?_behind ['}', '}'] (dropBytes?_behind inner inside)

theorem Scan.closesAt_iff (opens : dropBytes? start text.toList = some (startsNested ++ ' ' :: body))
    (index : Nat) :
    ClosesAt text start index ↔
      ∃ inner after, splitAtClose? 1 body = some (inner, after) ∧
        index = start + 5 + byteLength inner := by
  have below : dropBytes? (start + 2) text.toList = some ('{' :: '{' :: ' ' :: body) :=
    dropBytes?_behind ['$', '"'] opens
  -- The opening braces are counted first, and the blank behind them is passed over.
  have split : splitAtClose? 0 ('{' :: '{' :: ' ' :: body) =
      (splitAtClose? 1 body).map fun (inner, after) => ('{' :: '{' :: ' ' :: inner, after) := by
    simp [splitAtClose?, Function.comp_def]
  have size (inner : List Char) : byteLength ('{' :: '{' :: ' ' :: inner) = 3 + byteLength inner :=
    byteLength_append ['{', '{', ' '] inner
  constructor
  · rintro ⟨behind, last, offset, found, run, closes, rfl⟩
    obtain rfl := Option.some.inj (below.symm.trans found)
    obtain ⟨_, _, whole, rfl⟩ := (exists_reaches_isAtClose_iff 0 _ offset).mp ⟨last, run, closes⟩
    rw [split] at whole
    obtain ⟨⟨inner, after⟩, cut, same⟩ := Option.map_eq_some_iff.mp whole
    obtain ⟨rfl, rfl⟩ := Prod.mk.inj same
    exact ⟨inner, after, cut, by rw [size]; omega⟩
  · rintro ⟨inner, after, cut, rfl⟩
    have whole : splitAtClose? 0 ('{' :: '{' :: ' ' :: body) = some ('{' :: '{' :: ' ' :: inner, after) := by
      rw [split, cut]
      rfl
    obtain ⟨last, run, closes⟩ := (exists_reaches_isAtClose_iff 0 _ _).mpr ⟨_, after, whole, rfl⟩
    exact ⟨_, last, _, below, run, closes, by rw [size]; omega⟩

theorem Identifier.closesAt_iff
    (opens : dropBytes? start text.toList = some (Scan.startsNested ++ ' ' :: body)) (index : Nat) :
    ClosesAt text start index ↔
      ∃ inner after, splitAtClose? 1 body = some (inner, after) ∧
        index = start + 5 + byteLength inner := by
  have below := dropBytes?_body opens
  have ended : EndsIn (closePass body) ⟨1, 0⟩ ((splitAtClose? 1 body).map (byteLength ·.1)) := by
    simpa using endsIn_closePass [] (Nat.succ_pos 0) body
  constructor
  · rintro ⟨behind, offset, found, run, rfl⟩
    obtain rfl := Option.some.inj (below.symm.trans found)
    obtain ⟨⟨inner, after⟩, cut, rfl⟩ := Option.map_eq_some_iff.mp (ended.unique run)
    exact ⟨inner, after, cut, rfl⟩
  · rintro ⟨inner, after, cut, rfl⟩
    rw [cut] at ended
    exact ⟨body, byteLength inner, below, ended, rfl⟩

namespace Scan

theorem quoteOffset?_eq_some_iff (text : List Char) (offset : Nat) :
    quoteOffset? text = some offset ↔
      ∃ between behind, text = between ++ '"' :: behind ∧ '"' ∉ between ∧ offset = byteLength between := by
  constructor
  · intro found
    by_cases quoted : '"' ∈ text
    · obtain ⟨between, behind, rfl, unquoted⟩ := List.eq_append_cons_of_mem quoted
      rw [quoteOffset?_append unquoted] at found
      exact ⟨between, behind, rfl, unquoted, (Option.some.inj found).symm⟩
    · simp [quoteOffset?_eq_none quoted] at found
  · rintro ⟨between, behind, rfl, unquoted, rfl⟩
    exact quoteOffset?_append unquoted behind

theorem throughClose?_blank (body : List Char) :
    throughClose? 1 (' ' :: body) =
      (splitAtClose? 1 body).map fun (inner, after) => (' ' :: inner ++ ['}', '}'], after) := by
  rw [throughClose?_eq_map, Identifier.splitAtClose?_cons_other 1 (by simp) (by simp)]
  simp [Function.comp_def]

theorem stopNested?_eq_some_iff
    (opens : dropBytes? start text.toList = some (startsNested ++ ' ' :: body)) (finish : Nat) :
    stopNested? text start = some finish ↔
      ∃ inner between behind, splitAtClose? 1 body = some (inner, between ++ '"' :: behind) ∧
        '"' ∉ between ∧ finish = start + 5 + byteLength inner + 2 + byteLength between + 1 := by
  have read : stopNested? text start =
      ((nested? (startsNested ++ ' ' :: body)).map fun read => byteLength read.1).map (start + ·) := by
    simp [stopNested?, opens, Function.comp_def]
  have closed := throughClose?_blank body
  rw [read, map_nested?, Option.map_map]
  cases cut : splitAtClose? 1 body with
  | none =>
      rw [cut] at closed
      simp [unsearched, closed, quoteOffset?_eq_none]
  | some parts =>
      obtain ⟨inner, after⟩ := parts
      rw [cut] at closed
      have rest : unsearched 1 (' ' :: body) = after := by simp [unsearched, closed]
      have size : byteLength (searched 1 (' ' :: body)) = 1 + byteLength inner + 2 := by
        calc byteLength (searched 1 (' ' :: body))
            = byteLength ([' '] ++ inner ++ ['}', '}']) := by simp [searched, closed]
          _ = 1 + byteLength inner + 2 := by
            rw [byteLength_append, byteLength_append]
            rfl
      simp only [rest, size, Option.map_eq_some_iff, quoteOffset?_eq_some_iff, Function.comp_apply]
      constructor
      · rintro ⟨_, ⟨between, behind, rfl, unquoted, rfl⟩, rfl⟩
        exact ⟨inner, between, behind, rfl, unquoted, by omega⟩
      · rintro ⟨_, between, behind, same, unquoted, rfl⟩
        obtain ⟨rfl, rfl⟩ := Prod.mk.inj (Option.some.inj same)
        exact ⟨_, ⟨between, behind, rfl, unquoted, rfl⟩, by omega⟩

/-- The scanner finds closing braces for a nested form exactly if the recogniser does, and they are the
same. It stops just past the first quote behind them, if there is one. -/
theorem brace_searches_agree (text : String) (start : Nat) (body : List Char)
    (opens : dropBytes? start text.toList = some (startsNested ++ ' ' :: body)) :
    (∀ index, ClosesAt text start index ↔ Identifier.ClosesAt text start index) ∧
    (∀ first second, ClosesAt text start first → Identifier.ClosesAt text start second →
      first = second) ∧
    (∀ index, ClosesAt text start index ↔
      ∃ inner after, splitAtClose? 1 body = some (inner, after) ∧
        index = start + 5 + byteLength inner) ∧
    throughClose? 1 (' ' :: body) =
      (splitAtClose? 1 body).map (fun (inner, after) => (' ' :: inner ++ ['}', '}'], after)) ∧
    ∀ finish, stopNested? text start = some finish ↔
      ∃ index between behind, ClosesAt text start index ∧
        dropBytes? (index + 2) text.toList = some (between ++ '"' :: behind) ∧ '"' ∉ between ∧
        finish = index + 2 + byteLength between + 1 := by
  have scanned := closesAt_iff opens
  have recognised := Identifier.closesAt_iff opens
  refine ⟨fun index => (scanned index).trans (recognised index).symm, ?_, scanned,
    throughClose?_blank body, ?_⟩
  · intro first second closes closes'
    obtain ⟨inner, after, cut, rfl⟩ := (scanned first).mp closes
    obtain ⟨inner', after', cut', rfl⟩ := (recognised second).mp closes'
    obtain ⟨rfl, rfl⟩ := Prod.mk.inj (Option.some.inj (cut.symm.trans cut'))
    rfl
  · intro finish
    rw [stopNested?_eq_some_iff opens]
    constructor
    · rintro ⟨inner, between, behind, cut, unquoted, rfl⟩
      exact ⟨_, between, behind, (scanned _).mpr ⟨inner, _, cut, rfl⟩, dropBytes?_closed opens cut,
        unquoted, rfl⟩
    · rintro ⟨_, between, behind, closes, found, unquoted, rfl⟩
      obtain ⟨inner, after, cut, rfl⟩ := (scanned _).mp closes
      obtain rfl := Option.some.inj ((dropBytes?_closed opens cut).symm.trans found)
      exact ⟨inner, between, behind, cut, unquoted, rfl⟩

theorem brace_searches_agree_runs :
    let text := "é$\"\x7b\x7b \x7b\x7b\x7bü\x7d\x7d\x7d é\x7d\x7d .b\" c"
    let body := "\x7b\x7b\x7bü\x7d\x7d\x7d é\x7d\x7d .b\" c".toList
    dropBytes? 2 text.toList = some (startsNested ++ ' ' :: body) ∧ ClosesAt text 2 18 ∧
      Identifier.ClosesAt text 2 18 ∧ stopNested? text 2 = some 24 := by
  intro text body
  have opens : dropBytes? 2 text.toList = some (startsNested ++ ' ' :: body) := by decide +kernel
  obtain ⟨agree, _, cuts, _, stops⟩ := brace_searches_agree text 2 body opens
  have closes : ClosesAt text 2 18 :=
    (cuts 18).mpr ⟨"\x7b\x7b\x7bü\x7d\x7d\x7d é".toList, " .b\" c".toList, by decide +kernel,
      by decide +kernel⟩
  have stopped : stopNested? text 2 = some 24 :=
    (stops 24).mpr ⟨18, " .b".toList, " c".toList, closes, by decide +kernel, by decide +kernel,
      by decide +kernel⟩
  exact ⟨opens, closes, (agree 18).mp closes, stopped⟩

end Scan

end Nested

end WebTestLint
