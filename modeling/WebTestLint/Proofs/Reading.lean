import WebTestLint.Json.Record
import WebTestLint.Proofs.Skipping

/-!
Reading and skipping. What can be read can be skipped, and both stop at the same place. A value that is
skipped need not be readable: its numbers may be out of range, its surrogates alone and its brackets too
deep.
-/

namespace WebTestLint.Json

theorem skipString_unit {text after : List Char} {unit : Nat} (found : unit? text = some (unit, after)) :
    skipString ('\\' :: 'u' :: text) = skipString after := by
  unfold unit? at found
  split at found
  · rename_i a b c d rest
    simp only [Option.bind_eq_bind, Option.bind_eq_some_iff, Option.pure_def, Option.some.injEq,
      Prod.mk.injEq] at found
    obtain ⟨_, first, _, second, _, third, _, fourth, _, rfl⟩ := found
    simp [skipString, unit?, first, second, third, fourth]
  · simp at found

theorem skipString_letter {letter c : Char} (short : unescape? letter = some c) (text : List Char) :
    skipString ('\\' :: letter :: text) = skipString text := by
  have other : letter ≠ 'u' := by
    rintro rfl
    simp [unescape?] at short
  rw [skipString.eq_def]
  simp [other, short]

theorem skipString_of_readTrailing {leading : Nat} {text after : List Char} {c : Char}
    (read : readTrailing leading text = .ok (c, after)) : skipString text = skipString after := by
  unfold readTrailing at read
  split at read
  · rename_i rest
    split at read
    · rename_i unit behind found
      split at read
      · obtain ⟨_, rfl⟩ := Prod.mk.inj (Except.ok.inj read)
        exact skipString_unit found
      · simp at read
    · simp at read
  · simp at read
  · simp at read
  · simp at read
  · simp at read

theorem skipString_of_readEscape {text after : List Char} {c : Char}
    (read : readEscape text = .ok (c, after)) : skipString ('\\' :: text) = skipString after := by
  unfold readEscape at read
  split at read
  · simp at read
  · split at read
    · rename_i unit behind found
      rw [skipString_unit found]
      split at read
      · simp at read
      · split at read
        · exact skipString_of_readTrailing read
        · obtain ⟨_, rfl⟩ := Prod.mk.inj (Except.ok.inj read)
          rfl
    · simp at read
  · split at read
    · rename_i char short
      obtain ⟨_, rfl⟩ := Prod.mk.inj (Except.ok.inj read)
      exact skipString_letter short _
    · simp at read

theorem skipString_plain {c : Char} (notQuote : c ≠ '"') (notEscape : c ≠ '\\')
    (printed : ¬ c.toNat < 0x20) (text : List Char) : skipString (c :: text) = skipString text := by
  rw [skipString.eq_def]
  simp [notEscape, printed]

theorem skipString_of_readBody {text body rest : List Char} (read : readBody text = .ok (body, rest)) :
    skipString text = .ok rest := by
  fun_induction readBody text generalizing body with
  | case1 => simp at read
  | case2 after =>
      obtain ⟨_, rfl⟩ := Prod.mk.inj (Except.ok.inj read)
      rfl
  | case3 text c after escaped ih =>
      obtain ⟨inner, read', _⟩ := exists_of_map_eq_ok read
      rw [skipString_of_readEscape escaped, ih read']
  | case4 => simp at read
  | case5 => simp at read
  | case6 c text notQuote notEscape printed ih =>
      obtain ⟨inner, read', _⟩ := exists_of_map_eq_ok read
      rw [skipString_plain (by simpa using notQuote) (by simpa using notEscape) printed, ih read']

theorem skipString_of_readString {text rest : List Char} {string : String}
    (read : readString text = .ok (string, rest)) : skipString text = .ok rest := by
  obtain ⟨body, read', _⟩ := exists_of_map_eq_ok read
  exact skipString_of_readBody read'

namespace Number

theorem dropWhile_accumulate (limit number : Nat) (text : List Char) :
    (accumulate limit number text).2.dropWhile Char.isDigit = text.dropWhile Char.isDigit := by
  induction text generalizing number with
  | nil => rfl
  | cons c text ih =>
      by_cases digit : c.isDigit = true
      · by_cases fits : number * 10 + Number.digit c < limit
        · simp [accumulate, digit, fits, ih]
        · simp [accumulate, digit, fits]
      · simp [accumulate, digit]

theorem skipPower_of_other {text : List Char} (other : ∀ c ∈ text.head?, c ≠ 'e' ∧ c ≠ 'E') :
    skipPower text = .ok text := by
  cases text with
  | nil => rfl
  | cons c text =>
      obtain ⟨notSmall, notLarge⟩ := other c rfl
      simp [skipPower, notSmall, notLarge]

theorem eq_of_ofParts {negative : Bool} {significand : Nat} {exponent : Int} {text rest : List Char}
    {number : Number} (read : ofParts negative significand exponent text = .ok (number, rest)) :
    rest = text := by
  unfold ofParts at read
  split at read
  · exact (Prod.mk.inj (Except.ok.inj read)).2.symm
  · simp at read

theorem of_ofExponentDigits {negative falling : Bool} {significand : Nat} {exponent : Int}
    {text rest : List Char} {number : Number}
    (read : ofExponentDigits negative significand exponent falling text = .ok (number, rest)) :
    startsWithDigit text = true ∧ rest = text.dropWhile Char.isDigit := by
  unfold ofExponentDigits at read
  split at read
  · simp at read
  · rename_i c tail
    split at read
    · rename_i digit
      refine ⟨digit, ?_⟩
      have dropped := dropWhile_accumulate (UInt32.size / 2) 0 (c :: tail)
      rw [← dropped]
      split at read
      · rename_i power further behind found
        rw [found]
        split at read
        -- With a digit left the exponent is out of bounds: the number is zero, or there is none.
        · rename_i more
          split at read
          · simp at read
          · rw [← (Prod.mk.inj (Except.ok.inj read)).2, List.dropWhile_cons_of_pos more]
        · rename_i last
          rw [eq_of_ofParts read, List.dropWhile_cons_of_neg last]
      · rename_i power found
        rw [found, eq_of_ofParts read]
        rfl
    · simp at read

theorem skipExponent_of_ofExponent {negative : Bool} {significand : Nat} {exponent : Int}
    {text rest : List Char} {number : Number}
    (read : ofExponent negative significand exponent text = .ok (number, rest)) :
    skipExponent text = .ok rest := by
  unfold ofExponent at read
  split at read
  · obtain ⟨digit, rfl⟩ := of_ofExponentDigits read
    simp [skipExponent, digit]
  · obtain ⟨digit, rfl⟩ := of_ofExponentDigits read
    simp [skipExponent, digit]
  · rename_i notRising notFalling
    obtain ⟨digit, rfl⟩ := of_ofExponentDigits read
    unfold skipExponent
    split
    · exact absurd rfl (notRising _)
    · exact absurd rfl (notFalling _)
    · exact if_pos digit

theorem skipPower_of_ofRest {negative : Bool} {significand : Nat} {exponent : Int} {text rest : List Char}
    {number : Number} (read : ofRest negative significand exponent text = .ok (number, rest)) :
    skipPower text = .ok rest := by
  unfold ofRest at read
  split at read
  · rename_i c tail
    split at read
    · rename_i power
      rw [skipPower, if_pos power]
      exact skipExponent_of_ofExponent read
    · rename_i other
      rw [skipPower, if_neg other, eq_of_ofParts read]
  · rw [eq_of_ofParts read]
    rfl

theorem of_ofFraction {negative : Bool} {significand : Nat} {exponent : Int} {text rest : List Char}
    {number : Number} (read : ofFraction negative significand exponent text = .ok (number, rest)) :
    startsWithDigit text = true ∧ skipPower (text.dropWhile Char.isDigit) = .ok rest := by
  have dropped := dropWhile_accumulate UInt64.size significand text
  simp only [ofFraction, dropped] at read
  split at read
  · rename_i digit
    exact ⟨digit, skipPower_of_ofRest read⟩
  · split at read
    · simp at read
    · simp at read

theorem ofInteger_snd (negative : Bool) (significand : Nat) (rest : List Char) :
    (ofInteger negative significand rest).2 = rest := by
  unfold ofInteger
  split
  · rfl
  · split
    · rfl
    · rfl

theorem skipNumber_of_read {negative : Bool} {text rest : List Char} {number : Number}
    (readNumber : read negative text = .ok (number, rest)) : skipNumber text = .ok rest := by
  cases text with
  | nil => simp [read] at readNumber
  | cons c tail =>
      have dropped := dropWhile_accumulate UInt64.size 0 (c :: tail)
      simp only [read, dropped] at readNumber
      split at readNumber
      · simp at readNumber
      · rename_i digit
        split at readNumber
        · simp at readNumber
        · rename_i alone
          split at readNumber
          · rename_i fraction point
            obtain ⟨first, power⟩ := of_ofFraction readNumber
            rw [skipNumber, if_neg digit, if_neg alone]
            simp only [point, first, ↓reduceIte, power]
          · rename_i whole notPoint
            rw [skipNumber, if_neg digit, if_neg alone]
            split
            · rename_i fraction point
              exact absurd point (notPoint fraction)
            · split at readNumber
              · exact skipPower_of_ofRest readNumber
              -- An integer that is read at once has no power behind it, so there is none to skip.
              · rename_i other
                have kept := congrArg Prod.snd (Except.ok.inj readNumber)
                rw [ofInteger_snd] at kept
                rw [← show _ = rest from kept]
                apply skipPower_of_other
                intro d first
                simp only [Option.mem_def.mp first, Bool.or_eq_true, beq_iff_eq, Option.some.injEq,
                  not_or] at other
                exact ⟨other.1.2, other.2⟩

end Number

theorem skipScalar_of_readScalar {text rest : List Char} {value : Value}
    (read : readScalar text = .ok (value, rest)) : skipScalar text = .ok rest := by
  unfold skipScalar
  split
  · rename_i tail
    obtain ⟨string, read', _⟩ := exists_of_map_eq_ok read
    exact skipString_of_readString read'
  · rename_i tail
    obtain ⟨number, read', _⟩ := exists_of_map_eq_ok read
    exact Number.skipNumber_of_read read'
  · rename_i c tail notQuote notMinus
    split
    · rename_i digit
      rw [readScalar_digit digit] at read
      obtain ⟨number, read', _⟩ := exists_of_map_eq_ok read
      exact Number.skipNumber_of_read read'
    · rw [read]
      rfl
  · simp [readScalar] at read

/-- The items of a list as they are written: the text from each one on. What stands behind the closing
bracket is left. -/
inductive WrittenItems : Bool → List Char → List (List Char) → List Char → Prop
  | nil {first text} : nextItem first text = .ok none →
      WrittenItems first text [] ((skipSpace text).drop 1)
  | cons {first text start after starts rest} : nextItem first text = .ok (some start) →
      skipValue start = .ok after → WrittenItems false after starts rest →
      WrittenItems first text (start :: starts) rest

def Steps {α : Type} (read : List Char → Reading α) : Prop :=
  ∀ text value rest, read text = .ok (value, rest) → skipValue text = .ok rest

theorem nextItem_cases {first : Bool} {text : List Char} {next : Option (List Char)}
    (found : nextItem first text = .ok next) :
    (∃ rest, skipSpace text = ']' :: rest ∧ next = none) ∨
      (first = true ∧ ∃ c rest, skipSpace text = c :: rest ∧ c ≠ ']' ∧ next = some (c :: rest)) ∨
      (first = false ∧ ∃ before, skipSpace text = ',' :: before ∧ next = some (skipSpace before)) := by
  unfold nextItem at found
  split at found
  · simp at found
  · rename_i rest shaped
    exact Or.inl ⟨rest, shaped, (Except.ok.inj found).symm⟩
  · rename_i c rest visible shaped
    split at found
    · rename_i isFirst
      exact Or.inr (Or.inl ⟨isFirst, c, rest, shaped, visible, (Except.ok.inj found).symm⟩)
    · rename_i further
      split at found
      · rename_i comma
        subst comma
        refine Or.inr (Or.inr ⟨by simpa using further, rest, shaped, ?_⟩)
        split at found
        · simp at found
        · simp at found
        · exact (Except.ok.inj found).symm
      · simp at found

theorem ended_of_nextItem {first : Bool} {text : List Char} (ended : nextItem first text = .ok none) :
    skipSpace text = Bracket.list.closing :: (skipSpace text).drop 1 := by
  rcases nextItem_cases ended with ⟨rest, shaped, _⟩ | ⟨_, _, _, _, _, same⟩ | ⟨_, _, _, same⟩
  · rw [shaped]
    rfl
  · simp at same
  · simp at same

theorem next_of_nextItem {first : Bool} {text start after : List Char}
    (found : nextItem first text = .ok (some start)) (skipped : skipValue start = .ok after) :
    ∃ before, Bracket.list.Next first text before ∧ Skips before after := by
  have skips := skips_iff.mpr skipped
  rcases nextItem_cases found with ⟨_, _, same⟩ | ⟨rfl, c, rest, shaped, visible, same⟩ |
    ⟨rfl, before, comma, same⟩
  · simp at same
  · obtain rfl := Option.some.inj same
    exact ⟨c :: rest, .item shaped visible, skips⟩
  · obtain rfl := Option.some.inj same
    exact ⟨before, .furtherItem comma, skips.of_skipSpace⟩

theorem WrittenItems.closes {text rest : List Char} {starts : List (List Char)}
    (written : WrittenItems false text starts rest) : Closes .list text rest := by
  generalize notFirst : false = first at written
  induction written with
  | nil ended => exact .last (ended_of_nextItem ended)
  | cons found skipped _ ih =>
      subst notFirst
      obtain ⟨before, next, skips⟩ := next_of_nextItem found skipped
      exact .next next skips (ih rfl)

theorem WrittenItems.skips {text rest : List Char} {starts : List (List Char)}
    (written : WrittenItems true text starts rest) : Skips ('[' :: text) rest := by
  cases written with
  | nil ended =>
      have skips := Skips.empty (ended_of_nextItem ended)
      exact skips
  | cons found skipped others =>
      obtain ⟨before, next, skips⟩ := next_of_nextItem found skipped
      exact .filled next skips others.closes

theorem writtenItems_of_readItems {α : Type} {item : List Char → Reading α} (steps : Steps item)
    {fuel : Nat} {first : Bool} {text rest : List Char} {values : List α}
    (read : readItems item fuel first text = .ok (values, rest)) :
    ∃ starts, WrittenItems first text starts rest := by
  induction fuel generalizing first text values with
  | zero => simp [readItems] at read
  | succ fuel ih =>
      rw [readItems] at read
      obtain ⟨next, found, read⟩ := bind_eq_ok_iff.mp read
      cases next with
      | none =>
          obtain ⟨_, rfl⟩ := Prod.mk.inj (Except.ok.inj read)
          exact ⟨[], .nil found⟩
      | some start =>
          obtain ⟨⟨value, after⟩, value', read⟩ := bind_eq_ok_iff.mp read
          obtain ⟨⟨values', rest'⟩, others, same⟩ := bind_eq_ok_iff.mp read
          obtain ⟨_, rfl⟩ := Prod.mk.inj (Except.ok.inj same)
          obtain ⟨starts, written⟩ := ih others
          exact ⟨start :: starts, .cons found (steps _ _ _ value') written⟩

theorem length_of_nextItem {first : Bool} {text start : List Char}
    (found : nextItem first text = .ok (some start)) : start.length ≤ text.length := by
  have spaces := length_skipSpace_le text
  rcases nextItem_cases found with ⟨_, _, same⟩ | ⟨_, c, rest, shaped, _, same⟩ |
    ⟨_, before, comma, same⟩
  · simp at same
  · obtain rfl := Option.some.inj same
    rwa [shaped] at spaces
  · obtain rfl := Option.some.inj same
    have behind := length_skipSpace_le before
    rw [comma, List.length_cons] at spaces
    omega

theorem readItems_of_writtenItems {α : Type} {item : List Char → Reading α} (steps : Steps item)
    {first : Bool} {text rest : List Char} {starts : List (List Char)}
    (written : WrittenItems first text starts rest)
    (each : ∀ start ∈ starts, ∃ reading, item start = .ok reading) {fuel : Nat}
    (enough : text.length < fuel) :
    ∃ values, readItems item fuel first text = .ok (values, rest) := by
  induction written generalizing fuel with
  | nil ended =>
      obtain ⟨fuel, rfl, _⟩ := exists_eq_succ enough
      exact ⟨[], readItems_end ended⟩
  | @cons first text start after starts rest found skipped _ ih =>
      obtain ⟨⟨⟨value, after'⟩, read⟩, others⟩ := List.forall_mem_cons.mp each
      obtain rfl : after = after' := Except.ok.inj (skipped.symm.trans (steps _ _ _ read))
      obtain ⟨fuel, rfl, enough⟩ := exists_eq_succ enough
      have shorter := (skips_iff.mpr skipped).shorter
      have startLength := length_of_nextItem found
      have enoughLeft : after.length < fuel := by omega
      obtain ⟨values, readOthers⟩ := ih others enoughLeft
      exact ⟨value :: values, by rw [readItems_next found read, readOthers]; rfl⟩

/-- The members of an object as they are written: each key with the text from its value on. What stands
behind the closing bracket is left. -/
inductive WrittenMembers : Bool → List Char → List (String × List Char) → List Char → Prop
  | nil {first text} : nextKey first text = .ok none →
      WrittenMembers first text [] ((skipSpace text).drop 1)
  | cons {first text key behind start after entries rest} :
      nextKey first text = .ok (some (key, behind)) → readColon behind = .ok start →
      skipValue start = .ok after → WrittenMembers false after entries rest →
      WrittenMembers first text ((key, start) :: entries) rest

theorem nextKey_cases {first : Bool} {text : List Char} {next : Option (String × List Char)}
    (found : nextKey first text = .ok next) :
    (∃ rest, skipSpace text = '}' :: rest ∧ next = none) ∨
      (first = true ∧ ∃ quoted named, skipSpace text = '"' :: quoted ∧ readString quoted = .ok named ∧
        next = some named) ∨
      (first = false ∧ ∃ before quoted named, skipSpace text = ',' :: before ∧
        skipSpace before = '"' :: quoted ∧ readString quoted = .ok named ∧ next = some named) := by
  unfold nextKey at found
  split at found
  · simp at found
  · rename_i rest shaped
    exact Or.inl ⟨rest, shaped, (Except.ok.inj found).symm⟩
  · rename_i c rest visible shaped
    split at found
    · rename_i isFirst
      split at found
      · rename_i quote
        subst quote
        obtain ⟨named, read, same⟩ := map_eq_ok_iff.mp found
        exact Or.inr (Or.inl ⟨isFirst, rest, named, shaped, read, same.symm⟩)
      · simp at found
    · rename_i further
      split at found
      · rename_i comma
        subst comma
        split at found
        · simp at found
        · rename_i quoted quote
          obtain ⟨named, read, same⟩ := map_eq_ok_iff.mp found
          exact Or.inr (Or.inr
            ⟨by simpa using further, rest, quoted, named, shaped, quote, read, same.symm⟩)
        · simp at found
        · simp at found
      · simp at found

theorem ended_of_nextKey {first : Bool} {text : List Char} (ended : nextKey first text = .ok none) :
    skipSpace text = Bracket.object.closing :: (skipSpace text).drop 1 := by
  rcases nextKey_cases ended with ⟨rest, shaped, _⟩ | ⟨_, _, _, _, _, same⟩ |
    ⟨_, _, _, _, _, _, _, same⟩
  · rw [shaped]
    rfl
  · simp at same
  · simp at same

theorem skipKey_of_readString {text quoted behind start : List Char} {key : String}
    (quote : skipSpace text = '"' :: quoted) (read : readString quoted = .ok (key, behind))
    (colon : readColon behind = .ok start) : skipKey text = .ok start := by
  simp only [skipKey, quote, skipString_of_readString read, bind, Except.bind, colon]

theorem next_of_nextKey {first : Bool} {text behind start : List Char} {key : String}
    (found : nextKey first text = .ok (some (key, behind))) (colon : readColon behind = .ok start) :
    Bracket.object.Next first text start := by
  rcases nextKey_cases found with ⟨_, _, same⟩ | ⟨rfl, quoted, named, quote, read, same⟩ |
    ⟨rfl, before, quoted, named, comma, quote, read, same⟩
  · simp at same
  · obtain rfl := Option.some.inj same
    exact .member (skipKey_of_readString quote read colon)
  · obtain rfl := Option.some.inj same
    exact .furtherMember comma (skipKey_of_readString quote read colon)

theorem WrittenMembers.closes {text rest : List Char} {entries : List (String × List Char)}
    (written : WrittenMembers false text entries rest) : Closes .object text rest := by
  generalize notFirst : false = first at written
  induction written with
  | nil ended => exact .last (ended_of_nextKey ended)
  | cons found colon skipped _ ih =>
      subst notFirst
      exact .next (next_of_nextKey found colon) (skips_iff.mpr skipped) (ih rfl)

theorem WrittenMembers.skips {text rest : List Char} {entries : List (String × List Char)}
    (written : WrittenMembers true text entries rest) : Skips ('{' :: text) rest := by
  cases written with
  | nil ended =>
      have skips := Skips.empty (ended_of_nextKey ended)
      exact skips
  | cons found colon skipped others =>
      exact .filled (next_of_nextKey found colon) (skips_iff.mpr skipped) others.closes

theorem WrittenMembers.eq {first : Bool} {text rest rest' : List Char}
    {entries entries' : List (String × List Char)} (written : WrittenMembers first text entries rest)
    (written' : WrittenMembers first text entries' rest') : entries = entries' := by
  induction written generalizing entries' rest' with
  | nil ended =>
      cases written' with
      | nil => rfl
      | cons found => simp [ended] at found
  | cons found colon skipped _ ih =>
      cases written' with
      | nil ended => simp [found] at ended
      | cons found' colon' skipped' others' =>
          obtain ⟨rfl, rfl⟩ := Prod.mk.inj (Option.some.inj (Except.ok.inj (found.symm.trans found')))
          obtain rfl := Except.ok.inj (colon.symm.trans colon')
          obtain rfl := Except.ok.inj (skipped.symm.trans skipped')
          rw [ih others']

def StepsMembers {σ : Type} (member : σ → String → List Char → Reading σ)
    (accepts : String → List Char → Prop) : Prop :=
  ∀ state key behind next after, member state key behind = .ok (next, after) →
    ∃ start, readColon behind = .ok start ∧ skipValue start = .ok after ∧ accepts key start

theorem writtenMembers_of_readMembers {σ : Type} {member : σ → String → List Char → Reading σ}
    {accepts : String → List Char → Prop} (steps : StepsMembers member accepts) {fuel : Nat}
    {first : Bool} {state final : σ} {text rest : List Char}
    (read : readMembers member fuel first state text = .ok (final, rest)) :
    ∃ entries, WrittenMembers first text entries rest ∧
      ∀ entry ∈ entries, accepts entry.1 entry.2 := by
  induction fuel generalizing first state text with
  | zero => simp [readMembers] at read
  | succ fuel ih =>
      rw [readMembers] at read
      obtain ⟨next, found, read⟩ := bind_eq_ok_iff.mp read
      cases next with
      | none =>
          obtain ⟨_, rfl⟩ := Prod.mk.inj (Except.ok.inj read)
          exact ⟨[], .nil found, by simp⟩
      | some named =>
          obtain ⟨⟨state', after⟩, taken, read⟩ := bind_eq_ok_iff.mp read
          obtain ⟨start, colon, skipped, accepted⟩ := steps _ _ _ _ _ taken
          obtain ⟨entries, written, each⟩ := ih read
          exact ⟨(named.1, start) :: entries, .cons found colon skipped written,
            List.forall_mem_cons.mpr ⟨accepted, each⟩⟩

theorem length_of_nextKey {first : Bool} {text behind : List Char} {key : String}
    (found : nextKey first text = .ok (some (key, behind))) : behind.length ≤ text.length := by
  have spaces := length_skipSpace_le text
  rcases nextKey_cases found with ⟨_, _, same⟩ | ⟨_, quoted, named, quote, read, same⟩ |
    ⟨_, before, quoted, named, comma, quote, read, same⟩
  · simp at same
  · obtain rfl := Option.some.inj same
    have shorter := length_skipString (skipString_of_readString read)
    rw [quote, List.length_cons] at spaces
    omega
  · obtain rfl := Option.some.inj same
    have shorter := length_skipString (skipString_of_readString read)
    have spaces' := length_skipSpace_le before
    rw [comma, List.length_cons] at spaces
    rw [quote, List.length_cons] at spaces'
    omega

theorem mem_keys_set (members : Members) (key other : String) (value : Value) :
    other ∈ (members.set key value).map Prod.fst ↔ other = key ∨ other ∈ members.map Prod.fst := by
  induction members with
  | nil => simp [Members.set]
  | cons member members ih =>
      rw [Members.set]
      split
      · rename_i same
        simp [same]
      · rw [List.map_cons, List.map_cons, List.mem_cons, List.mem_cons, ih, or_left_comm]

theorem readMembers_of_writtenMembers {value : List Char → Reading Value} (steps : Steps value)
    {first : Bool} {text rest : List Char} {entries : List (String × List Char)}
    (written : WrittenMembers first text entries rest)
    (each : ∀ entry ∈ entries, ∃ reading, value entry.2 = .ok reading) {fuel : Nat}
    (enough : text.length < fuel) (front : Members) :
    ∃ members, readMembers (readMember value) fuel first front text = .ok (members, rest) ∧
      ∀ key, key ∈ members.map Prod.fst ↔
        key ∈ front.map Prod.fst ∨ key ∈ entries.map Prod.fst := by
  induction written generalizing fuel front with
  | nil ended =>
      obtain ⟨fuel, rfl, _⟩ := exists_eq_succ enough
      exact ⟨front, readMembers_end ended, by simp⟩
  | @cons first text key behind start after entries rest found colon skipped _ ih =>
      obtain ⟨⟨⟨item, after'⟩, read⟩, others⟩ := List.forall_mem_cons.mp each
      obtain rfl : after = after' := Except.ok.inj (skipped.symm.trans (steps _ _ _ read))
      obtain ⟨fuel, rfl, enough⟩ := exists_eq_succ enough
      have shorter := (skips_iff.mpr skipped).shorter
      have startLength := length_readColon colon
      have keyLength := length_of_nextKey found
      have enoughLeft : after.length < fuel := by omega
      obtain ⟨members, readOthers, keys⟩ := ih others enoughLeft (front.set key item)
      refine ⟨members, by rw [readMembers_next found (readMember_of_read colon read), readOthers], ?_⟩
      intro other
      rw [keys, mem_keys_set, List.map_cons, List.mem_cons, or_assoc, or_left_comm]

theorem stepsMembers_readMember {value : List Char → Reading Value} (steps : Steps value) :
    StepsMembers (readMember value) fun _ start => ∃ reading, value start = .ok reading := by
  intro members key behind next after taken
  obtain ⟨start, colon, taken⟩ := bind_eq_ok_iff.mp taken
  obtain ⟨⟨item, after'⟩, read, same⟩ := bind_eq_ok_iff.mp taken
  obtain ⟨_, rfl⟩ := Prod.mk.inj (Except.ok.inj same)
  exact ⟨start, colon, steps _ _ _ read, _, read⟩

theorem readValue_cases {room : Nat} {text rest : List Char} {value : Value}
    (read : readValue room text = .ok (value, rest)) :
    readScalar (skipSpace text) = .ok (value, rest) ∨
      ∃ inner, room = inner + 1 ∧
        ((∃ body items, skipSpace text = '[' :: body ∧ value = .array items ∧
            readItems (readValue inner) (body.length + 1) true body = .ok (items, rest)) ∨
          ∃ body members, skipSpace text = '{' :: body ∧ value = .object members ∧
            readMembers (readMember (readValue inner)) (body.length + 1) true [] body =
              .ok (members, rest)) := by
  rw [readValue.eq_def] at read
  split at read
  · rename_i body inner shaped
    obtain ⟨items, inside, rfl⟩ := exists_of_map_eq_ok read
    exact Or.inr ⟨inner, rfl, Or.inl ⟨body, items, shaped, rfl, inside⟩⟩
  · rename_i body inner shaped
    obtain ⟨members, inside, rfl⟩ := exists_of_map_eq_ok read
    exact Or.inr ⟨inner, rfl, Or.inr ⟨body, members, shaped, rfl, inside⟩⟩
  · simp at read
  · simp at read
  · exact Or.inl read

/-- What is read is skipped to the same place. -/
theorem steps_readValue (room : Nat) : Steps (readValue room) := by
  induction room using Nat.strongRecOn with
  | ind room ih =>
      intro text value rest read
      apply Skips.skipValue
      apply Skips.of_skipSpace
      rcases readValue_cases read with scalar | ⟨inner, rfl, ⟨body, items, shaped, _, inside⟩ |
        ⟨body, members, shaped, _, inside⟩⟩
      · apply Skips.scalar
        rw [skipSpace_skipSpace]
        exact skipScalar_of_readScalar scalar
      · obtain ⟨starts, written⟩ :=
          writtenItems_of_readItems (ih inner (Nat.lt_succ_self inner)) inside
        rw [shaped]
        exact written.skips
      · obtain ⟨entries, written, _⟩ := writtenMembers_of_readMembers
          (stepsMembers_readMember (ih inner (Nat.lt_succ_self inner))) inside
        rw [shaped]
        exact written.skips

/-- The members of the object that a text starts with, and what stands behind it. -/
def IsObject (text : List Char) (entries : List (String × List Char)) (rest : List Char) : Prop :=
  ∃ body, skipSpace text = '{' :: body ∧ WrittenMembers true body entries rest

theorem IsObject.skips {text rest : List Char} {entries : List (String × List Char)}
    (object : IsObject text entries rest) : Skips text rest := by
  obtain ⟨body, opened, written⟩ := object
  apply Skips.of_skipSpace
  rw [opened]
  exact written.skips

theorem IsObject.eq {text rest rest' : List Char} {entries entries' : List (String × List Char)}
    (object : IsObject text entries rest) (object' : IsObject text entries' rest') : entries = entries' := by
  obtain ⟨body, opened, written⟩ := object
  obtain ⟨body', opened', written'⟩ := object'
  obtain rfl := (List.cons.inj (opened.symm.trans opened')).2
  exact written.eq written'

theorem IsObject.exists_readValue {room : Nat} {text rest : List Char}
    {entries : List (String × List Char)} (object : IsObject text entries rest)
    (each : ∀ entry ∈ entries, ∃ reading, readValue room entry.2 = .ok reading) :
    ∃ members, readValue (room + 1) text = .ok (.object members, rest) ∧
      ∀ key, key ∈ members.map Prod.fst ↔ key ∈ entries.map Prod.fst := by
  obtain ⟨body, opened, written⟩ := object
  obtain ⟨members, read, keys⟩ := readMembers_of_writtenMembers (steps_readValue room) written each
    (Nat.lt_succ_self body.length) []
  exact ⟨members, readValue_object opened read, by simpa using keys⟩

theorem IsObject.readable {room : Nat} {text rest : List Char} {entries : List (String × List Char)}
    (object : IsObject text entries rest) {value : Value} {rest' : List Char}
    (read : readValue (room + 1) text = .ok (value, rest')) :
    ∀ entry ∈ entries, ∃ reading, readValue room entry.2 = .ok reading := by
  obtain ⟨body, opened, written⟩ := object
  rcases readValue_cases read with scalar | ⟨inner, same, ⟨body', _, opened', _⟩ |
    ⟨body', members, opened', _, inside⟩⟩
  · rw [opened] at scalar
    simp [readScalar] at scalar
  · simp [opened] at opened'
  · obtain rfl := Nat.succ.inj same
    obtain rfl := (List.cons.inj (opened.symm.trans opened')).2
    obtain ⟨entries', written', each⟩ := writtenMembers_of_readMembers
      (stepsMembers_readMember (steps_readValue room)) inside
    rwa [written.eq written']

end WebTestLint.Json
