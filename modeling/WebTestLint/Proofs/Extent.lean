import WebTestLint.Proofs.Offsets
import WebTestLint.Proofs.Pieces

/-!
How far the scanners go. From a place in the text each stops at a place, no further than the text's end,
and what is cut out of a line between such places is what the line is read as.
-/

namespace WebTestLint

namespace Scan

open Identifier (joint)

def Splits (scan : List Char → List Char × List Char) : Prop :=
  ∀ text, (scan text).1 ++ (scan text).2 = text

section Stops

variable {scan : List Char → List Char × List Char} {text : String} {before rest : List Char}

theorem stop_of_append (whole : text.toList = before ++ rest) :
    stop scan text (byteLength before) = byteLength before + byteLength (scan rest).1 := by
  simp [stop, whole, dropBytes?_append]

theorem stop_of_not_isPlace {start : Nat} (outside : ¬ IsPlace text start) : stop scan text start = start := by
  simp [stop, (dropBytes?_eq_none_iff text start).mpr outside]

theorem bounds_of_append {kept behind : List Char} (whole : text.toList = before ++ (kept ++ behind)) :
    byteLength before + byteLength kept ≤ text.utf8ByteSize ∧
      IsPlace text (byteLength before + byteLength kept) := by
  rw [← List.append_assoc] at whole
  rw [← byteLength_append]
  refine ⟨?_, isPlace_of_append whole⟩
  rw [← byteLength_toList, whole, byteLength_append _ behind]
  exact Nat.le_add_right _ _

theorem slice?_stop (splits : Splits scan) (whole : text.toList = before ++ rest) :
    slice? (byteLength before) (stop scan text (byteLength before)) text.toList = some (scan rest).1 ∧
      slice? (stop scan text (byteLength before)) text.utf8ByteSize text.toList = some (scan rest).2 := by
  have split : text.toList = before ++ ((scan rest).1 ++ (scan rest).2) := by rw [splits, whole]
  rw [stop_of_append whole]
  constructor
  · rw [split, slice?_append]
  · have behind := slice?_append (before ++ (scan rest).1) (scan rest).2 []
    rw [← byteLength_toList, split]
    simpa [Nat.add_assoc] using behind

theorem slice?_stop_zero (splits : Splits scan) (text : String) :
    slice? 0 (stop scan text 0) text.toList = some (scan text.toList).1 ∧
      slice? (stop scan text 0) text.utf8ByteSize text.toList = some (scan text.toList).2 :=
  slice?_stop splits (List.nil_append text.toList).symm

theorem bounds_stop (splits : Splits scan) {start : Nat} (place : IsPlace text start) :
    start ≤ stop scan text start ∧ stop scan text start ≤ text.utf8ByteSize ∧
      IsPlace text (stop scan text start) := by
  obtain ⟨before, rest, whole, rfl⟩ := place.exists_append
  have split : text.toList = before ++ ((scan rest).1 ++ (scan rest).2) := by rw [splits, whole]
  rw [stop_of_append whole]
  exact ⟨Nat.le_add_right _ _, bounds_of_append split⟩

end Stops

theorem stopQuoted?_of_not_isPlace {text : String} {start : Nat} (outside : ¬ IsPlace text start) :
    stopQuoted? text start = none := by
  simp [stopQuoted?, (dropBytes?_eq_none_iff text start).mpr outside]

theorem bounds_stopQuoted? {text : String} {start finish : Nat} (found : stopQuoted? text start = some finish) :
    start < finish ∧ finish ≤ text.utf8ByteSize ∧ IsPlace text finish := by
  simp only [stopQuoted?, Option.bind_eq_bind, Option.bind_eq_some_iff, Option.pure_def,
    Option.some.injEq, Prod.exists] at found
  obtain ⟨rest, dropped, quoted, after, scanned, rfl⟩ := found
  obtain ⟨before, whole, rfl⟩ := (dropBytes?_eq_some_iff _ _ _).mp dropped
  rw [scanQuoted?_append _ _ _ scanned] at whole
  refine ⟨?_, bounds_of_append whole⟩
  obtain ⟨body, inner, _, _, rfl⟩ := exists_of_scanQuoted? scanned
  have := Char.utf8Size_pos '"'
  simp only [byteLength_cons]
  omega

structure Search where
  depth : Nat
  offset : Nat

def bracePass (text : List Char) (search : Search) : Pass Search Nat :=
  if search.offset < byteLength text then
    match dropBytes? search.offset text with
    | none => .wrong
    | some rest =>
      if ['{', '{'] <+: rest then .again ⟨search.depth + 1, search.offset + 2⟩
      else if ['}', '}'] <+: rest then
        if search.depth - 1 = 0 then .done (search.offset + 2)
        else .again ⟨search.depth - 1, search.offset + 2⟩
      else .again ⟨search.depth, search.offset + (rest.head?.map Char.utf8Size).getD 1⟩
  else .done search.offset

def searched (depth : Nat) (text : List Char) : List Char := (throughClose? depth text).elim text Prod.fst

def unsearched (depth : Nat) (text : List Char) : List Char := (throughClose? depth text).elim [] Prod.snd

theorem searched_append_unsearched (depth : Nat) (text : List Char) :
    searched depth text ++ unsearched depth text = text := by
  unfold searched unsearched
  cases closed : throughClose? depth text with
  | none => simp
  | some parts => exact (throughClose?_append closed).symm

theorem searched_open (depth : Nat) (rest : List Char) :
    searched depth ('{' :: '{' :: rest) = '{' :: '{' :: searched (depth + 1) rest := by
  cases found : throughClose? (depth + 1) rest <;> simp [searched, throughClose?, found]

theorem searched_last {depth : Nat} (last : depth ≤ 1) (rest : List Char) :
    searched depth ('}' :: '}' :: rest) = ['}', '}'] := by
  simp [searched, throughClose?, last]

theorem searched_close {depth : Nat} (deeper : ¬ depth ≤ 1) (rest : List Char) :
    searched depth ('}' :: '}' :: rest) = '}' :: '}' :: searched (depth - 1) rest := by
  cases found : throughClose? (depth - 1) rest <;> simp [searched, throughClose?, deeper, found]

theorem searched_other (depth : Nat) {c : Char} {rest : List Char}
    (notOpen : ¬ ['{', '{'] <+: c :: rest) (notClose : ¬ ['}', '}'] <+: c :: rest) :
    searched depth (c :: rest) = c :: searched depth rest := by
  rw [searched, throughClose?_cons_other depth notOpen notClose]
  cases found : throughClose? depth rest <;> simp [searched, found]

theorem bracePass_of_append (before : List Char) (c : Char) (rest : List Char) (depth : Nat) :
    bracePass (before ++ c :: rest) ⟨depth, byteLength before⟩ =
      if ['{', '{'] <+: c :: rest then .again ⟨depth + 1, byteLength before + 2⟩
      else if ['}', '}'] <+: c :: rest then
        if depth - 1 = 0 then .done (byteLength before + 2) else .again ⟨depth - 1, byteLength before + 2⟩
      else .again ⟨depth, byteLength before + c.utf8Size⟩ := by
  rw [bracePass, if_pos (byteLength_lt_append_cons before c rest), dropBytes?_append]
  rfl

theorem bracePass_open (before rest : List Char) (depth : Nat) :
    bracePass (before ++ '{' :: '{' :: rest) ⟨depth, byteLength before⟩ =
      .again ⟨depth + 1, byteLength (before ++ ['{', '{'])⟩ := by
  rw [bracePass_of_append, if_pos (by simp), byteLength_append]
  rfl

theorem bracePass_last (before rest : List Char) {depth : Nat} (last : depth ≤ 1) :
    bracePass (before ++ '}' :: '}' :: rest) ⟨depth, byteLength before⟩ =
      .done (byteLength before + byteLength ['}', '}']) := by
  have zero : depth - 1 = 0 := by omega
  rw [bracePass_of_append, if_neg (by simp), if_pos (by simp), if_pos zero]
  rfl

theorem bracePass_close (before rest : List Char) {depth : Nat} (deeper : ¬ depth ≤ 1) :
    bracePass (before ++ '}' :: '}' :: rest) ⟨depth, byteLength before⟩ =
      .again ⟨depth - 1, byteLength (before ++ ['}', '}'])⟩ := by
  have left : depth - 1 ≠ 0 := by omega
  rw [bracePass_of_append, if_neg (by simp), if_pos (by simp), if_neg left, byteLength_append]
  rfl

theorem bracePass_other (before : List Char) {c : Char} {rest : List Char} (depth : Nat)
    (notOpen : ¬ ['{', '{'] <+: c :: rest) (notClose : ¬ ['}', '}'] <+: c :: rest) :
    bracePass (before ++ c :: rest) ⟨depth, byteLength before⟩ =
      .again ⟨depth, byteLength (before ++ [c])⟩ := by
  rw [bracePass_of_append, if_neg notOpen, if_neg notClose]
  simp

theorem endsIn_bracePass (before : List Char) (depth : Nat) (rest : List Char) :
    EndsIn (bracePass (before ++ rest)) ⟨depth, byteLength before⟩
      (byteLength before + byteLength (searched depth rest)) := by
  fun_induction throughClose? depth rest generalizing before with
  | case1 depth =>
      apply EndsIn.done
      simp [bracePass, searched, throughClose?]
  | case2 depth rest ih =>
      rw [searched_open]
      apply EndsIn.again (bracePass_open before rest depth)
      simpa [Nat.add_assoc] using ih (before ++ ['{', '{'])
  | case3 depth rest last =>
      rw [searched_last last]
      exact EndsIn.done (bracePass_last before rest last)
  | case4 depth rest deeper ih =>
      rw [searched_close deeper]
      apply EndsIn.again (bracePass_close before rest deeper)
      simpa [Nat.add_assoc] using ih (before ++ ['}', '}'])
  | case5 depth c rest notOpen notClose ih =>
      have unopened := not_pair_isPrefix notOpen
      have unclosed := not_pair_isPrefix notClose
      rw [searched_other depth unopened unclosed]
      apply EndsIn.again (bracePass_other before depth unopened unclosed)
      simpa [Nat.add_assoc] using ih (before ++ [c])

def quoteOffset? (text : List Char) : Option Nat :=
  if '"' ∈ text then some (byteLength (text.takeWhile (· != '"'))) else none

/-- The byte index just past the first quote behind the closing braces of a nested form. -/
def stopNested? (text : String) (start : Nat) : Option Nat :=
  (dropBytes? start text.toList).bind fun rest => (nested? rest).map fun read => start + byteLength read.1

theorem quoteOffset?_eq_none {text : List Char} (unquoted : '"' ∉ text) : quoteOffset? text = none :=
  if_neg unquoted

theorem quoteOffset?_append {before : List Char} (unquoted : '"' ∉ before) (behind : List Char) :
    quoteOffset? (before ++ '"' :: behind) = some (byteLength before) := by
  have plain : ∀ c ∈ before, (c != '"') = true := by
    intro c member
    simpa using fun same : c = '"' => unquoted (same ▸ member)
  rw [quoteOffset?, if_pos (by simp), List.takeWhile_append_of_pos plain]
  simp

theorem map_nested? (body : List Char) :
    (nested? (startsNested ++ body)).map (fun read => byteLength read.1) =
      (quoteOffset? (unsearched 1 body)).map (4 + byteLength (searched 1 body) + · + 1) := by
  cases closed : throughClose? 1 body with
  | none => simp [nested?, startsNested, searched, unsearched, quoteOffset?, closed]
  | some parts =>
      obtain ⟨braces, after⟩ := parts
      by_cases quoted : '"' ∈ after
      · obtain ⟨before, behind, rfl, unquoted⟩ := List.eq_append_cons_of_mem quoted
        rw [nested?_of_throughClose? closed unquoted]
        have size : byteLength startsNested = 4 := rfl
        have one : '"'.utf8Size = 1 := rfl
        simp [searched, unsearched, closed, quoteOffset?_append unquoted, size, one, Nat.add_assoc]
      · have dropped : after.dropWhile (· != '"') = [] := by
          rw [List.dropWhile_eq_nil_iff]
          intro c member
          simpa using fun same : c = '"' => quoted (same ▸ member)
        simp [nested?, startsNested, unsearched, quoteOffset?_eq_none quoted, closed, dropped]

theorem exists_endsIn_bracePass {text : String} {before body : List Char}
    (whole : text.toList = before ++ (startsNested ++ body)) :
    ∃ offset behind, EndsIn (bracePass ('{' :: '{' :: body)) ⟨0, 0⟩ offset ∧
      dropBytes? offset ('{' :: '{' :: body) = some behind ∧
      stopNested? text (byteLength before) =
        (quoteOffset? behind).map (byteLength before + 2 + offset + · + 1) := by
  have ended := endsIn_bracePass [] 0 ('{' :: '{' :: body)
  have split : '{' :: '{' :: body = searched 0 ('{' :: '{' :: body) ++ unsearched 1 body := by
    rw [searched_open, List.cons_append, List.cons_append, searched_append_unsearched]
  refine ⟨_, unsearched 1 body, ended, ?_, ?_⟩
  · nth_rewrite 2 [split]
    rw [byteLength_nil, Nat.zero_add, dropBytes?_append]
  · have read : stopNested? text (byteLength before) =
        ((nested? (startsNested ++ body)).map fun read => byteLength read.1).map (byteLength before + ·) := by
      simp [stopNested?, whole, dropBytes?_append, Function.comp_def]
    have size : byteLength (searched 0 ('{' :: '{' :: body)) = 2 + byteLength (searched 1 body) := by
      rw [searched_open]
      exact byteLength_append ['{', '{'] (searched 1 body)
    rw [read, map_nested?, Option.map_map, size]
    congr 1
    funext offset
    simp only [Function.comp_apply, byteLength_nil]
    omega

def stopSelector? (text : String) (start : Nat) : Option Nat :=
  match dropBytes? start text.toList with
  | some ('$' :: '"' :: _) => stopNested? text start <|> stopQuoted? text (start + 1)
  | some ('"' :: _) => stopQuoted? text start
  | _ => none

theorem stopQuoted?_of_append {text : String} {before rest : List Char} (whole : text.toList = before ++ rest) :
    stopQuoted? text (byteLength before) =
      (scanQuoted? rest).map fun read => byteLength before + byteLength read.1 := by
  rw [stopQuoted?, whole, dropBytes?_append]
  cases scanned : scanQuoted? rest <;> simp [scanned]

theorem stopSelector?_of_append {text : String} {before rest : List Char}
    (whole : text.toList = before ++ rest) :
    stopSelector? text (byteLength before) =
      (nested? rest <|> selector? rest).map fun read => byteLength before + byteLength read.1 := by
  rw [stopSelector?, whole, dropBytes?_append]
  split
  · rename_i body found
    obtain rfl := Option.some.inj found
    have behind : text.toList = (before ++ ['$']) ++ '"' :: body := by simpa using whole
    have quoted := stopQuoted?_of_append behind
    have size : byteLength (before ++ ['$']) = byteLength before + 1 := byteLength_append before ['$']
    rw [size] at quoted
    have dollar : '$'.utf8Size = 1 := rfl
    rw [quoted, stopNested?, whole, dropBytes?_append]
    cases nested : nested? ('$' :: '"' :: body) with
    | some read => simp [nested]
    | none =>
        cases scanned : scanQuoted? ('"' :: body) <;>
          simp [nested, selector?, scanned, dollar, Nat.add_assoc]
  · rename_i body found
    obtain rfl := Option.some.inj found
    have unnested : nested? ('"' :: body) = none := nested?_eq_none (by simp [startsNested])
    rw [stopQuoted?_of_append whole, unnested]
    rfl
  · rename_i notDollar notQuote
    have unnested : nested? rest = none := by
      apply nested?_eq_none
      rintro ⟨body, rfl⟩
      exact notDollar _ rfl
    have unselected : selector? rest = none := by
      apply selector?_eq_none
      · rintro ⟨body, rfl⟩
        exact notQuote body rfl
      · rintro ⟨body, rfl⟩
        exact notDollar body rfl
    rw [unnested, unselected]
    rfl

theorem stop_link (text : String) (start : Nat) :
    stop link text start = stop word text ((stopSelector? text start).getD start) := by
  by_cases place : IsPlace text start
  · obtain ⟨before, rest, whole, rfl⟩ := place.exists_append
    rw [stop_of_append whole, stopSelector?_of_append whole, link]
    cases read : nested? rest <|> selector? rest with
    | none => simp [stop_of_append whole]
    | some parts =>
        obtain ⟨quoted, after⟩ := parts
        have whole' := link_append rest
        rw [link, read, List.append_assoc, word_append] at whole'
        have split : text.toList = (before ++ quoted) ++ after := by rw [whole, ← whole', List.append_assoc]
        have behind : stop word text _ = _ := stop_of_append split
        rw [byteLength_append] at behind
        simp [behind, Nat.add_assoc]
  · simp [stop_of_not_isPlace place, stopSelector?, (dropBytes?_eq_none_iff text start).mpr place]

def chainPass (text : String) (finish : Nat) : Pass Nat Nat :=
  match dropBytes? finish text.toList with
  | none => .done finish
  | some rest =>
    let below := finish + byteLength joint
    if joint <+: rest ∧ stop link text below ≠ below then .again (stop link text below) else .done finish

theorem chainPass_of_append {text : String} {before rest : List Char} (whole : text.toList = before ++ rest) :
    chainPass text (byteLength before) =
      match dropStart? joint rest with
      | none => .done (byteLength before)
      | some below =>
        if (link below).1.isEmpty then .done (byteLength before)
        else .again (byteLength (before ++ (joint ++ (link below).1))) := by
  simp only [chainPass, whole, dropBytes?_append]
  cases found : dropStart? joint rest with
  | none =>
      have loose : ¬ joint <+: rest := by
        rintro ⟨below, rfl⟩
        rw [(dropStart?_eq_some_iff _ _ _).mpr rfl] at found
        simp at found
      simp [loose]
  | some inner =>
      obtain rfl := (dropStart?_eq_some_iff _ _ _).mp found
      rw [← List.append_assoc] at whole
      have below : stop link text _ = _ := stop_of_append whole
      rw [byteLength_append] at below
      rw [below]
      by_cases empty : (link inner).1 = []
      · simp [empty]
      · have filled : byteLength (link inner).1 ≠ 0 := (byteLength_eq_zero_iff _).not.mpr empty
        simp [empty, filled, Nat.add_assoc]

theorem endsIn_chainPass_links {text : String} {before rest : List Char}
    (whole : text.toList = before ++ rest) :
    EndsIn (chainPass text) (byteLength before) (byteLength before + byteLength (links rest).1) := by
  fun_induction links rest generalizing before with
  | case1 rest missing =>
      apply EndsIn.done
      simp [chainPass_of_append whole, missing]
  | case2 rest below found empty =>
      apply EndsIn.done
      simp [chainPass_of_append whole, found, empty]
  | case3 rest below found filled further left shaped ih =>
      have passed : chainPass text (byteLength before) =
          .again (byteLength (before ++ (joint ++ (link below).1))) := by
        simp [chainPass_of_append whole, found, filled]
      apply EndsIn.again passed
      rw [shaped] at ih
      have split : text.toList = (before ++ (joint ++ (link below).1)) ++ (link below).2 := by
        rw [whole, (dropStart?_eq_some_iff _ _ _).mp found, List.append_assoc, List.append_assoc, link_append]
      simpa [Nat.add_assoc] using ih split

theorem endsIn_chainPass (text : String) (start : Nat) :
    EndsIn (chainPass text) (stop link text start) (stop identifier text start) := by
  by_cases place : IsPlace text start
  · obtain ⟨before, rest, whole, rfl⟩ := place.exists_append
    have split : text.toList = (before ++ (link rest).1) ++ (link rest).2 := by
      rw [List.append_assoc, link_append, whole]
    have ended := endsIn_chainPass_links split
    rw [stop_of_append whole, stop_of_append whole]
    simpa [identifier, Nat.add_assoc] using ended
  · rw [stop_of_not_isPlace place, stop_of_not_isPlace place]
    apply EndsIn.done
    simp [chainPass, (dropBytes?_eq_none_iff text start).mpr place]

theorem ends_identifier {text : String} {start : Nat} (place : IsPlace text start) :
    stop identifier text start = text.utf8ByteSize ∨
      ∃ c rest, dropBytes? (stop identifier text start) text.toList = some (c :: rest) ∧ isBlank c = true := by
  obtain ⟨before, rest, whole, rfl⟩ := place.exists_append
  have split : text.toList = (before ++ (identifier rest).1) ++ (identifier rest).2 := by
    rw [List.append_assoc, identifier_append, whole]
  have ended := isEnd_identifier rest
  rw [stop_of_append whole, ← byteLength_append, split, dropBytes?_append]
  cases behind : (identifier rest).2 with
  | nil =>
      left
      rw [← byteLength_toList, split, behind, List.append_nil]
  | cons c after =>
      right
      rw [behind] at ended
      exact ⟨c, after, rfl, ended c rfl⟩

end Scan

namespace Action

structure IsSliced (action : Action) : Prop where
  command : slice? 0 (Scan.stop Scan.word action.source 0) action.source.toList =
    some action.command.toList
  arguments : ∃ behind, slice? (Scan.stop Scan.word action.source 0) action.source.utf8ByteSize
    action.source.toList = some behind ∧ action.arguments.toList = trim behind
  identifier : ∀ identifier ∈ action.identifier?,
    slice? 0 (Scan.stop Scan.identifier action.arguments 0) action.arguments.toList =
      some identifier.toList
  value : ∀ identifier value, action.kind = .input identifier value →
    ∃ behind, slice? identifier.utf8ByteSize action.arguments.utf8ByteSize action.arguments.toList =
      some behind ∧ value.toList = inputValue behind

theorem input_of_ofLine {line identifier value : String}
    (kind : (ofLine line).kind = .input identifier value) :
    identifier.toList = (Scan.identifier (ofLine line).arguments.toList).1 ∧
      value.toList = inputValue (Scan.identifier (ofLine line).arguments.toList).2 := by
  have set := command_eq_set_of_input kind
  rw [kind_eq_kindOf, set, kindOf_set] at kind
  obtain ⟨rfl, rfl⟩ := Kind.input.inj kind
  exact ⟨String.toList_ofList, String.toList_ofList⟩

theorem identifier?_of_ofLine {line identifier : String} (named : (ofLine line).identifier? = some identifier) :
    identifier.toList = (Scan.identifier (ofLine line).arguments.toList).1 := by
  cases kind : (ofLine line).kind with
  | interaction other =>
      obtain rfl : other = identifier := by simpa [identifier?, kind] using named
      exact (interaction_of_ofLine kind).2
  | input other value =>
      obtain rfl : other = identifier := by simpa [identifier?, kind] using named
      exact (input_of_ofLine kind).1
  | _ => simp [identifier?, kind] at named

theorem isSliced_ofLine (line : String) : (ofLine line).IsSliced := by
  have command := Scan.slice?_stop_zero Scan.word_append (ofLine line).source
  have identifier := Scan.slice?_stop_zero Scan.identifier_append (ofLine line).arguments
  have source : (ofLine line).source.toList = trim line.toList := by simp [ofLine]
  refine ⟨?_, ⟨_, command.2, ?_⟩, ?_, ?_⟩
  · rw [command.1, source]
    simp [ofLine]
  · rw [source, toList_arguments]
  · intro name named
    rw [identifier?_of_ofLine named]
    exact identifier.1
  · intro name value kind
    obtain ⟨named, same⟩ := input_of_ofLine kind
    refine ⟨_, ?_, same⟩
    rw [Scan.stop_zero, ← named, byteLength_toList] at identifier
    exact identifier.2

end Action

namespace Assertion

structure IsSliced (assertion : Assertion) : Prop where
  identifier : slice? 0 (Scan.stop Scan.identifier assertion.source 0) assertion.source.toList =
    some assertion.identifier.toList
  operator : let first := Scan.stop Scan.blanks assertion.source assertion.identifier.utf8ByteSize
    slice? first (Scan.stop Scan.word assertion.source first) assertion.source.toList =
      some assertion.operator.toList
  value : let first := Scan.stop Scan.blanks assertion.source assertion.identifier.utf8ByteSize
    ∃ behind, slice? (Scan.stop Scan.word assertion.source first) assertion.source.utf8ByteSize
      assertion.source.toList = some behind ∧
      assertion.value? =
        if takesValue assertion.operator (trim behind) then some (String.ofList (trim behind)) else none

theorem isSliced_ofLine (line : String) : (ofLine line).IsSliced := by
  have source : (ofLine line).source.toList = trim line.toList := by simp [ofLine]
  have named : (ofLine line).identifier.toList = (Scan.identifier (ofLine line).source.toList).1 := by
    rw [source, toList_identifier]
  generalize behind : (Scan.identifier (ofLine line).source.toList).2 = rest
  have whole : (ofLine line).source.toList = (ofLine line).identifier.toList ++ rest := by
    rw [named, ← behind, Scan.identifier_append]
  have skipped : (ofLine line).source.toList =
      (ofLine line).identifier.toList ++ (Scan.blanks rest).1 ++ trimStart rest := by
    rw [whole, List.append_assoc]
    exact congrArg _ (Scan.blanks_append rest).symm
  have first : Scan.stop Scan.blanks (ofLine line).source (ofLine line).identifier.utf8ByteSize =
      byteLength ((ofLine line).identifier.toList ++ (Scan.blanks rest).1) := by
    rw [← byteLength_toList, Scan.stop_of_append whole, byteLength_append]
  obtain ⟨operator, value⟩ := Scan.slice?_stop Scan.word_append skipped
  refine ⟨?_, ?_, ?_⟩
  · rw [named]
    exact (Scan.slice?_stop_zero Scan.identifier_append _).1
  · dsimp only
    rw [first, operator, toList_operator, ← source, behind]
  · dsimp only
    rw [first]
    refine ⟨_, value, ?_⟩
    have read : (ofLine line).value? = if takesValue (ofLine line).operator (tail line)
        then some (String.ofList (tail line)) else none := rfl
    rw [read, tail, ← source, behind]

end Assertion

namespace Scan

/-- No scanner leaves the text: it stays where it is if it starts at no place of the text, and otherwise
it stops at a place further on. Its loops come to an end, and neither they nor the reading of a line as
a statement cut a text anywhere but between places. -/
theorem scanners_keep_inside (text : String) (start : Nat) :
    (¬ IsPlace text start →
      stop blanks text start = start ∧ stop word text start = start ∧
      stop identifier text start = start ∧ stopQuoted? text start = none) ∧
    (IsPlace text start →
      (∀ scan ∈ [blanks, word, identifier], start ≤ stop scan text start ∧
        stop scan text start ≤ text.utf8ByteSize ∧ IsPlace text (stop scan text start)) ∧
      (∀ finish ∈ stopQuoted? text start,
        start < finish ∧ finish ≤ text.utf8ByteSize ∧ IsPlace text finish) ∧
      (stop identifier text start = text.utf8ByteSize ∨ ∃ c rest,
        dropBytes? (stop identifier text start) text.toList = some (c :: rest) ∧ isBlank c = true)) ∧
    EndsIn (chainPass text) (stop link text start) (stop identifier text start) ∧
    stop link text start = stop word text ((stopSelector? text start).getD start) ∧
    (∀ body, dropBytes? start text.toList = some (startsNested ++ body) →
      ∃ offset behind, EndsIn (bracePass ('{' :: '{' :: body)) ⟨0, 0⟩ offset ∧
        dropBytes? offset ('{' :: '{' :: body) = some behind ∧
        stopNested? text start = (quoteOffset? behind).map (start + 2 + offset + · + 1)) ∧
    (Action.ofLine text).IsSliced ∧ (Assertion.ofLine text).IsSliced := by
  refine ⟨?_, ?_, endsIn_chainPass text start, stop_link text start, ?_, Action.isSliced_ofLine text,
    Assertion.isSliced_ofLine text⟩
  · intro outside
    exact ⟨stop_of_not_isPlace outside, stop_of_not_isPlace outside, stop_of_not_isPlace outside,
      stopQuoted?_of_not_isPlace outside⟩
  · intro place
    refine ⟨?_, fun finish => bounds_stopQuoted?, ends_identifier place⟩
    intro scan member
    simp only [List.mem_cons, List.not_mem_nil, or_false] at member
    rcases member with rfl | rfl | rfl
    · exact bounds_stop blanks_append place
    · exact bounds_stop word_append place
    · exact bounds_stop identifier_append place
  · intro body found
    obtain ⟨before, whole, rfl⟩ := (dropBytes?_eq_some_iff _ _ _).mp found
    exact exists_endsIn_bracePass whole

theorem scanners_keep_inside_nested :
    let text := "é$\"\x7b\x7b $\".a\" \x7d\x7d ü\" >> $\".b\":2 is"
    let body := " $\".a\" \x7d\x7d ü\" >> $\".b\":2 is".toList
    ¬ IsPlace text 1 ∧ stop identifier text 1 = 1 ∧ stopQuoted? text 1 = none ∧
      IsPlace text 2 ∧ IsPlace text 30 ∧ EndsIn (chainPass text) 19 30 ∧
      dropBytes? 2 text.toList = some (startsNested ++ body) ∧
      ∃ offset, EndsIn (bracePass ('{' :: '{' :: body)) ⟨0, 0⟩ offset := by
  intro text body
  have outside : ¬ IsPlace text 1 := (dropBytes?_eq_none_iff text 1).mp (by decide +kernel)
  have dropped : dropBytes? 2 text.toList = some (startsNested ++ body) := by decide +kernel
  have place : IsPlace text 2 := (isPlace_iff text 2).mpr ⟨_, dropped⟩
  have stays := (scanners_keep_inside text 1).1 outside
  obtain ⟨_, moves, loop, _, nests, _⟩ := scanners_keep_inside text 2
  have inside := ((moves place).1 identifier (by simp)).2.2
  obtain ⟨offset, _, searched, _⟩ := nests body dropped
  have linked : stop link text 2 = 19 := by decide +kernel
  have stopped : stop identifier text 2 = 30 := by decide +kernel
  rw [linked, stopped] at loop
  rw [stopped] at inside
  exact ⟨outside, stays.2.2.1, stays.2.2.2, place, inside, loop, dropped, offset, searched⟩

/-- An identifier that is cut out of a line is read as a whole. -/
theorem stop_identifier_front (text : String) :
    ∃ front : String, slice? 0 (stop identifier text 0) text.toList = some front.toList ∧
      front.utf8ByteSize = stop identifier text 0 ∧ stop identifier front 0 = front.utf8ByteSize := by
  have front : (String.ofList (identifier text.toList).1).toList = (identifier text.toList).1 :=
    String.toList_ofList
  have again := identifier_again text.toList (List.not_mem_nil : '"' ∉ []) isEnd_nil (by decide)
  rw [List.append_nil] at again
  refine ⟨String.ofList (identifier text.toList).1, ?_, ?_, ?_⟩
  · rw [front]
    exact (slice?_stop_zero identifier_append text).1
  · rw [← byteLength_toList, front, stop_zero]
  · rw [stop_zero, ← byteLength_toList, front, again]

end Scan

end WebTestLint
