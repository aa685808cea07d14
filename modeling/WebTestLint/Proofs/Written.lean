import Mathlib.Data.List.Basic
import WebTestLint.Json.Reader
import WebTestLint.Json.Writer

/-!
What is written is read back. The reader of a value stops where the written value ends, whatever is
written behind it, so the parts of a list or an object are read one after the other.
-/

namespace WebTestLint.Json

theorem readBody_escaped {text after : List Char} {c : Char} (read : readEscape text = .ok (c, after)) :
    readBody ('\\' :: text) = (readBody after).map fun (body, rest) => (c :: body, rest) := by
  rw [readBody]
  split
  · rename_i d after' read'
    rw [read] at read'
    obtain ⟨rfl, rfl⟩ := Prod.mk.inj (Except.ok.inj read')
    rfl
  · rename_i fault read'
    rw [read] at read'
    simp at read'

theorem readBody_plain {c : Char} (notQuote : c ≠ '"') (notEscape : c ≠ '\\')
    (printed : ¬ c.toNat < 0x20) (text : List Char) :
    readBody (c :: text) = (readBody text).map fun (body, rest) => (c :: body, rest) := by
  rw [readBody.eq_def]
  split
  · rename_i empty
    simp at empty
  · rename_i same
    exact absurd (List.cons.inj same).1 notQuote
  · rename_i same
    exact absurd (List.cons.inj same).1 notEscape
  · rename_i same
    obtain ⟨rfl, rfl⟩ := List.cons.inj same
    rw [if_neg printed]

theorem hexDigit?_digitChar {digit : Nat} (small : digit < 16) :
    hexDigit? (Nat.digitChar digit) = some digit := by
  have all : ∀ digit : Fin 16, hexDigit? (Nat.digitChar digit) = some digit.val := by decide
  exact all ⟨digit, small⟩

theorem readEscape_control {c : Char} (control : c.toNat < 0x20) (rest : List Char) :
    readEscape ('u' :: '0' :: '0' ::
      Nat.digitChar (c.toNat / 16) :: Nat.digitChar (c.toNat % 16) :: rest) = .ok (c, rest) := by
  have zero : hexDigit? '0' = some 0 := by decide
  have high := hexDigit?_digitChar (show c.toNat / 16 < 16 by omega)
  have low := hexDigit?_digitChar (show c.toNat % 16 < 16 by omega)
  have whole : c.toNat / 16 * 16 + c.toNat % 16 = c.toNat := by omega
  have trailing : isTrailing c.toNat = false := by
    simp only [isTrailing, Bool.and_eq_false_iff, decide_eq_false_iff_not]
    omega
  have leading : isLeading c.toNat = false := by
    simp only [isLeading, Bool.and_eq_false_iff, decide_eq_false_iff_not]
    omega
  simp [readEscape, unit?, zero, high, low, whole, trailing, leading]

theorem readEscape_letter {letter c : Char} (short : unescape? letter = some c) (rest : List Char) :
    readEscape (letter :: rest) = .ok (c, rest) := by
  have other : letter ≠ 'u' := by
    rintro rfl
    simp [unescape?] at short
  rw [readEscape.eq_def]
  split
  · rename_i empty
    simp at empty
  · rename_i same
    exact absurd (List.cons.inj same).1 other
  · rename_i same
    obtain ⟨rfl, rfl⟩ := List.cons.inj same
    rw [short]

theorem escape_cases (c : Char) :
    (∃ letter, escape c = ['\\', letter] ∧ unescape? letter = some c) ∨
      (c.toNat < 0x20 ∧ escape c =
        ['\\', 'u', '0', '0', Nat.digitChar (c.toNat / 16), Nat.digitChar (c.toNat % 16)]) ∨
      (escape c = [c] ∧ c ≠ '"' ∧ c ≠ '\\' ∧ ¬ c.toNat < 0x20) := by
  by_cases quote : c = '"'
  · exact Or.inl ⟨'"', by rw [quote]; decide, by rw [quote]; decide⟩
  by_cases backslash : c = '\\'
  · exact Or.inl ⟨'\\', by rw [backslash]; decide, by rw [backslash]; decide⟩
  by_cases back : c = '\x08'
  · exact Or.inl ⟨'b', by rw [back]; decide, by rw [back]; decide⟩
  by_cases page : c = '\x0c'
  · exact Or.inl ⟨'f', by rw [page]; decide, by rw [page]; decide⟩
  by_cases line : c = '\n'
  · exact Or.inl ⟨'n', by rw [line]; decide, by rw [line]; decide⟩
  by_cases carriage : c = '\r'
  · exact Or.inl ⟨'r', by rw [carriage]; decide, by rw [carriage]; decide⟩
  by_cases tab : c = '\t'
  · exact Or.inl ⟨'t', by rw [tab]; decide, by rw [tab]; decide⟩
  by_cases control : c.toNat < 0x20
  · exact Or.inr (Or.inl ⟨control, by
      simp only [escape, quote, backslash, back, page, line, carriage, tab, control, ↓reduceIte]⟩)
  · exact Or.inr (Or.inr ⟨by
      simp only [escape, quote, backslash, back, page, line, carriage, tab, control, ↓reduceIte],
      quote, backslash, control⟩)

theorem readBody_escape (c : Char) (rest : List Char) :
    readBody (escape c ++ rest) = (readBody rest).map fun (body, rest) => (c :: body, rest) := by
  rcases escape_cases c with ⟨letter, shaped, short⟩ | ⟨control, shaped⟩ |
    ⟨shaped, notQuote, notEscape, printed⟩
  · rw [shaped]
    exact readBody_escaped (readEscape_letter short rest)
  · rw [shaped]
    exact readBody_escaped (readEscape_control control rest)
  · rw [shaped]
    exact readBody_plain notQuote notEscape printed rest

theorem readString_writeString (text : String) (rest : List Char) :
    readString (text.toList.flatMap escape ++ '"' :: rest) = .ok (text, rest) := by
  have body (characters : List Char) :
      readBody (characters.flatMap escape ++ '"' :: rest) = .ok (characters, rest) := by
    induction characters with
    | nil => rw [List.flatMap_nil, List.nil_append, readBody]
    | cons c characters ih =>
        rw [List.flatMap_cons, List.append_assoc, readBody_escape, ih]
        rfl
  rw [readString, body]
  simp [Except.map]

namespace Number

theorem isDigit_digitChar {digit : Nat} (small : digit < 10) : (Nat.digitChar digit).isDigit = true := by
  have all : ∀ digit : Fin 10, (Nat.digitChar digit).isDigit = true := by decide
  exact all ⟨digit, small⟩

theorem digit_digitChar {number : Nat} (small : number < 10) : digit (Nat.digitChar number) = number := by
  have all : ∀ number : Fin 10, digit (Nat.digitChar number) = number.val := by decide
  exact all ⟨number, small⟩

theorem accumulate_digitChar {limit number last : Nat} (small : last < 10)
    (below : number * 10 + last < limit) (rest : List Char) :
    accumulate limit number (Nat.digitChar last :: rest) =
      accumulate limit (number * 10 + last) rest := by
  simp [accumulate, isDigit_digitChar small, digit_digitChar small, below]

theorem accumulate_toDigits {limit number : Nat} (below : number < limit) (rest : List Char) :
    accumulate limit 0 (Nat.toDigits 10 number ++ rest) = accumulate limit number rest := by
  induction number using Nat.strongRecOn generalizing rest with
  | ind number ih =>
      rw [Nat.toDigits_eq_if (by decide)]
      split
      · rename_i small
        rw [List.singleton_append, accumulate_digitChar small (by omega)]
        simp
      · have shorter : number / 10 < number := by omega
        have whole : number / 10 * 10 + number % 10 = number := by omega
        rw [List.append_assoc, ih (number / 10) shorter (by omega), List.singleton_append,
          accumulate_digitChar (by omega) (by omega), whole]

theorem accumulate_stop (limit number : Nat) {rest : List Char}
    (stops : ∀ c ∈ rest.head?, c.isDigit = false) :
    accumulate limit number rest = (number, rest) := by
  cases rest with
  | nil => rfl
  | cons c rest => simp [accumulate, stops c rfl]

theorem eq_zero_of_head?_toDigits {number : Nat} (zero : (Nat.toDigits 10 number).head? = some '0') :
    number = 0 := by
  induction number using Nat.strongRecOn with
  | ind number ih =>
      rw [Nat.toDigits_eq_if (by decide)] at zero
      split at zero
      · rename_i small
        have same := digit_digitChar small
        rw [List.head?_singleton, Option.some.injEq] at zero
        rw [← same, zero]
        decide
      · rw [List.head?_append_of_ne_nil _ Nat.toDigits_ne_nil] at zero
        have shorter := ih (number / 10) (by omega) zero
        omega

theorem exists_cons_toDigits (number : Nat) :
    ∃ c rest, Nat.toDigits 10 number = c :: rest ∧ c.isDigit = true := by
  have filled : Nat.toDigits 10 number ≠ [] := Nat.toDigits_ne_nil
  obtain ⟨c, rest, digits⟩ := List.exists_cons_of_ne_nil filled
  have member : c ∈ Nat.toDigits 10 number := by simp [digits]
  exact ⟨c, rest, digits, Nat.isDigit_of_mem_toDigits (by decide) (by decide) member⟩

def Ends (rest : List Char) : Prop :=
  ∀ c ∈ rest.head?, c.isDigit = false ∧ c ≠ '.' ∧ c ≠ 'e' ∧ c ≠ 'E'

theorem Ends.not_isDigit {rest : List Char} (ends : Ends rest) :
    ∀ c ∈ rest.head?, c.isDigit = false :=
  fun c first => (ends c first).1

theorem read_toDigits (negative : Bool) {number : Nat} (small : number < UInt64.size) {rest : List Char}
    (ends : Ends rest) :
    read negative (Nat.toDigits 10 number ++ rest) = .ok (ofInteger negative number rest) := by
  obtain ⟨c, tail, digits, first⟩ := exists_cons_toDigits number
  have whole : accumulate UInt64.size 0 (c :: (tail ++ rest)) = (number, rest) := by
    rw [← List.cons_append, ← digits, accumulate_toDigits small, accumulate_stop _ _ ends.not_isDigit]
  have alone : c = '0' → startsWithDigit (tail ++ rest) = false := by
    intro zero
    obtain rfl : number = 0 := eq_zero_of_head?_toDigits (by rw [digits, zero]; rfl)
    obtain rfl : [] = tail := (List.cons.inj digits).2
    cases rest with
    | nil => rfl
    | cons d rest => exact (ends d rfl).1
  rw [digits, List.cons_append, Number.read, whole]
  cases rest with
  | nil => simpa [first] using alone
  | cons d rest =>
      obtain ⟨notDigit, notPoint, notSmall, notLarge⟩ := ends d rfl
      simpa [first, notDigit, notPoint, notSmall, notLarge] using alone

end Number

theorem skipSpace_cons {c : Char} (visible : isSpace c = false) (rest : List Char) :
    skipSpace (c :: rest) = c :: rest := by
  simp [skipSpace, visible]

theorem skipSpace_lineBreak (indented : Bool) (level : Nat) (rest : List Char) :
    skipSpace (lineBreak indented level ++ rest) = skipSpace rest := by
  have spaces : ∀ c ∈ lineBreak indented level, isSpace c = true := by
    intro c member
    cases indented with
    | false => simp [lineBreak] at member
    | true =>
        rcases List.mem_cons.mp member with rfl | member
        · decide
        · obtain rfl := List.eq_of_mem_replicate member
          decide
  rw [skipSpace, List.dropWhile_append_of_pos spaces, skipSpace]

theorem readValue_blank (room : Nat) (text : List Char) :
    readValue room (' ' :: text) = readValue room text := by
  have skipped : skipSpace (' ' :: text) = skipSpace text := rfl
  rw [readValue.eq_def, readValue.eq_def room text, skipped]

/-- A value that a reader with room for so many open brackets can take in whole: its integers are of 64
bits, it has no other numbers, and no key of an object comes twice. -/
inductive Value.IsPlain : Nat → Value → Prop
  | null {room} : IsPlain room .null
  | boolean {room} (value : Bool) : IsPlain room (.boolean value)
  | natural {room value} : value < UInt64.size → IsPlain room (.number (.natural value))
  | negative {room magnitude} : 1 ≤ magnitude → magnitude ≤ UInt64.size / 2 →
      IsPlain room (.number (.negative magnitude))
  | string {room} (text : String) : IsPlain room (.string text)
  | array {room items} : (∀ item ∈ items, IsPlain room item) → IsPlain (room + 1) (.array items)
  | object {room members} : (members.map Prod.fst).Nodup →
      (∀ member ∈ members, IsPlain room member.2) → IsPlain (room + 1) (.object members)

theorem ne_of_isDigit {c other : Char} (digit : c.isDigit = true) (letter : other.isDigit = false) :
    c ≠ other := by
  rintro rfl
  simp [letter] at digit

theorem isSpace_of_isDigit {c : Char} (digit : c.isDigit = true) : isSpace c = false := by
  simp [isSpace, ne_of_isDigit digit]

theorem Value.IsPlain.exists_cons_write {room : Nat} {value : Value} (plain : value.IsPlain room)
    (indented : Bool) (level : Nat) :
    ∃ c rest, write indented level value = c :: rest ∧ isSpace c = false ∧ c ≠ ']' := by
  cases plain with
  | null => exact ⟨'n', _, rfl, by decide, by decide⟩
  | boolean value =>
      cases value with
      | true => exact ⟨'t', _, rfl, by decide, by decide⟩
      | false => exact ⟨'f', _, rfl, by decide, by decide⟩
  | @natural _ value small =>
      obtain ⟨c, rest, digits, digit⟩ := Number.exists_cons_toDigits value
      exact ⟨c, rest, by rw [write, Number.write, digits], isSpace_of_isDigit digit,
        ne_of_isDigit digit (by decide)⟩
  | negative => exact ⟨'-', _, rfl, by decide, by decide⟩
  | string text => exact ⟨'"', _, rfl, by decide, by decide⟩
  | @array _ items _ =>
      cases items with
      | nil => exact ⟨'[', _, rfl, by decide, by decide⟩
      | cons item items => exact ⟨'[', _, by rw [write]; rfl, by decide, by decide⟩
  | @object _ members _ _ =>
      cases members with
      | nil => exact ⟨'{', _, rfl, by decide, by decide⟩
      | cons member members => exact ⟨'{', _, by rw [write]; rfl, by decide, by decide⟩

/-- The reader of a value stops where the value ends, however it is indented. -/
def Value.IsReadBack (room : Nat) (value : Value) : Prop :=
  ∀ indented level rest, Number.Ends rest →
    readValue room (write indented level value ++ rest) = .ok (value, rest)

theorem ends_lineBreak (indented : Bool) (level : Nat) {rest : List Char} (ends : Number.Ends rest) :
    Number.Ends (lineBreak indented level ++ rest) := by
  cases indented with
  | false => exact ends
  | true => simp [lineBreak, Number.Ends]

section Items

variable {α : Type} {item : List Char → Reading α} {fuel : Nat} {first : Bool} {text : List Char}

theorem readItems_end (ended : nextItem first text = .ok none) :
    readItems item (fuel + 1) first text = .ok ([], (skipSpace text).drop 1) := by
  rw [readItems, ended]
  rfl

theorem readItems_next {start rest : List Char} {value : α}
    (next : nextItem first text = .ok (some start)) (read : item start = .ok (value, rest)) :
    readItems item (fuel + 1) first text =
      (readItems item fuel false rest).map fun (values, rest) => (value :: values, rest) := by
  rw [readItems, next]
  simp only [bind, Except.bind, read]
  cases readItems item fuel false rest <;> rfl

end Items

section Items

variable {room : Nat} {indented : Bool} {level : Nat}

theorem nextItem_end (first indented : Bool) (level : Nat) (rest : List Char) :
    nextItem first (lineBreak indented level ++ ']' :: rest) = .ok none := by
  rw [nextItem, skipSpace_lineBreak, skipSpace_cons (by decide)]
  rfl

theorem nextItem_first {item : Value} (plain : item.IsPlain room) (rest : List Char) :
    nextItem true (lineBreak indented level ++ (write indented level item ++ rest)) =
      .ok (some (write indented level item ++ rest)) := by
  obtain ⟨c, tail, shaped, visible, notEnd⟩ := plain.exists_cons_write indented level
  rw [shaped, nextItem, skipSpace_lineBreak, List.cons_append, skipSpace_cons visible]
  simp

theorem nextItem_comma {item : Value} (plain : item.IsPlain room) (rest : List Char) :
    nextItem false (',' :: (lineBreak indented level ++ (write indented level item ++ rest))) =
      .ok (some (write indented level item ++ rest)) := by
  obtain ⟨c, tail, shaped, visible, notEnd⟩ := plain.exists_cons_write indented level
  have skipped : skipSpace (lineBreak indented level ++ c :: (tail ++ rest)) = c :: (tail ++ rest) := by
    rw [skipSpace_lineBreak, skipSpace_cons visible]
  rw [shaped, nextItem, skipSpace_cons (by decide)]
  simp [skipped, notEnd]

theorem ends_writeItems (indented : Bool) (level : Nat) (items : List Value) (outer : Nat)
    (rest : List Char) :
    Number.Ends (writeItems indented level items ++ (lineBreak indented outer ++ ']' :: rest)) := by
  cases items with
  | nil => exact ends_lineBreak indented outer (by simp [Number.Ends])
  | cons item items => simp [writeItems, Number.Ends]

theorem readItems_writeItems {items : List Value} (plain : ∀ item ∈ items, item.IsPlain room)
    (each : ∀ item ∈ items, item.IsReadBack room) {fuel : Nat} (enough : items.length < fuel)
    (outer : Nat) (rest : List Char) :
    readItems (readValue room) fuel false
        (writeItems indented level items ++ (lineBreak indented outer ++ ']' :: rest)) =
      .ok (items, rest) := by
  induction items generalizing fuel with
  | nil =>
      obtain ⟨fuel, rfl⟩ := Nat.exists_eq_succ_of_ne_zero (Nat.ne_of_gt enough)
      rw [writeItems, List.nil_append, readItems_end (nextItem_end false indented outer rest),
        skipSpace_lineBreak, skipSpace_cons (by decide)]
      rfl
  | cons item items ih =>
      obtain ⟨fuel, rfl⟩ := Nat.exists_eq_succ_of_ne_zero (Nat.ne_of_gt (Nat.zero_lt_of_lt enough))
      obtain ⟨first, below⟩ := List.forall_mem_cons.mp plain
      obtain ⟨readFirst, readBelow⟩ := List.forall_mem_cons.mp each
      have head := readFirst indented level _ (ends_writeItems indented level items outer rest)
      have tail := ih below readBelow (Nat.lt_of_succ_lt_succ enough)
      simp only [writeItems, List.cons_append, List.append_assoc]
      rw [readItems_next (nextItem_comma first _) head, tail]
      rfl

end Items

section Members

variable {σ : Type} {member : σ → String → List Char → Reading σ} {fuel : Nat} {first : Bool}
  {state : σ} {text : List Char}

theorem readMembers_end (ended : nextKey first text = .ok none) :
    readMembers member (fuel + 1) first state text = .ok (state, (skipSpace text).drop 1) := by
  rw [readMembers, ended]
  rfl

theorem readMembers_next {key : String} {start rest : List Char} {next : σ}
    (named : nextKey first text = .ok (some (key, start)))
    (read : member state key start = .ok (next, rest)) :
    readMembers member (fuel + 1) first state text = readMembers member fuel false next rest := by
  rw [readMembers, named]
  simp only [bind, Except.bind, read]

end Members

section Members

variable {room : Nat} {indented : Bool} {level : Nat}

theorem nextKey_end (first indented : Bool) (level : Nat) (rest : List Char) :
    nextKey first (lineBreak indented level ++ '}' :: rest) = .ok none := by
  rw [nextKey, skipSpace_lineBreak, skipSpace_cons (by decide)]
  rfl

theorem nextKey_first (key : String) (rest : List Char) :
    nextKey true (lineBreak indented level ++ (writeString key ++ rest)) = .ok (some (key, rest)) := by
  rw [nextKey, skipSpace_lineBreak, writeString, List.append_assoc, List.cons_append,
    skipSpace_cons (by decide)]
  simp [readString_writeString, Except.map]

theorem nextKey_comma (key : String) (rest : List Char) :
    nextKey false (',' :: (lineBreak indented level ++ (writeString key ++ rest))) =
      .ok (some (key, rest)) := by
  have skipped : skipSpace (lineBreak indented level ++ (writeString key ++ rest)) =
      '"' :: (key.toList.flatMap escape ++ '"' :: rest) := by
    rw [skipSpace_lineBreak, writeString, List.append_assoc, List.cons_append, skipSpace_cons (by decide)]
    rfl
  rw [nextKey, skipSpace_cons (by decide)]
  simp [skipped, readString_writeString, Except.map]

theorem set_of_fresh {members : Members} {key : String} (fresh : key ∉ members.map Prod.fst)
    (value : Value) : members.set key value = members ++ [(key, value)] := by
  induction members with
  | nil => rfl
  | cons member members ih =>
      simp only [List.map_cons, List.mem_cons, not_or] at fresh
      rw [Members.set, if_neg (Ne.symm fresh.1), ih fresh.2, List.cons_append]

theorem readMember_of_read {value : List Char → Reading Value} {members : Members} {key : String}
    {text start rest : List Char} {item : Value} (colon : readColon text = .ok start)
    (read : value start = .ok (item, rest)) :
    readMember value members key text = .ok (members.set key item, rest) := by
  simp only [readMember, colon, read, bind, Except.bind, pure, Except.pure]

theorem readColon_colon (room : Nat) (indented : Bool) (rest : List Char) :
    ∃ start, readColon (colon indented ++ rest) = .ok start ∧
      readValue room start = readValue room rest := by
  cases indented with
  | false => exact ⟨rest, rfl, rfl⟩
  | true => exact ⟨' ' :: rest, rfl, readValue_blank room rest⟩

theorem readMember_colon (indented : Bool) (level : Nat) {value : Value}
    (readBack : value.IsReadBack room) {members : Members} {key : String}
    (fresh : key ∉ members.map Prod.fst) {rest : List Char} (ends : Number.Ends rest) :
    readMember (readValue room) members key (colon indented ++ (write indented level value ++ rest)) =
      .ok (members ++ [(key, value)], rest) := by
  obtain ⟨start, colon, same⟩ := readColon_colon room indented (write indented level value ++ rest)
  rw [readMember_of_read colon (same.trans (readBack indented level rest ends)), set_of_fresh fresh]

theorem ends_writeMembers (indented : Bool) (level : Nat) (members : Members) (outer : Nat)
    (rest : List Char) :
    Number.Ends (writeMembers indented level members ++ (lineBreak indented outer ++ '}' :: rest)) := by
  cases members with
  | nil => exact ends_lineBreak indented outer (by simp [Number.Ends])
  | cons member members => simp [writeMembers, Number.Ends]

theorem readMembers_writeMembers {members front : Members}
    (each : ∀ member ∈ members, member.2.IsReadBack room)
    (distinct : ((front ++ members).map Prod.fst).Nodup) {fuel : Nat} (enough : members.length < fuel)
    (outer : Nat) (rest : List Char) :
    readMembers (readMember (readValue room)) fuel false front
        (writeMembers indented level members ++ (lineBreak indented outer ++ '}' :: rest)) =
      .ok (front ++ members, rest) := by
  induction members generalizing front fuel with
  | nil =>
      obtain ⟨fuel, rfl⟩ := Nat.exists_eq_succ_of_ne_zero (Nat.ne_of_gt enough)
      rw [writeMembers, List.nil_append, readMembers_end (nextKey_end false indented outer rest),
        skipSpace_lineBreak, skipSpace_cons (by decide), List.append_nil]
      rfl
  | cons member members ih =>
      obtain ⟨key, value⟩ := member
      obtain ⟨fuel, rfl⟩ := Nat.exists_eq_succ_of_ne_zero (Nat.ne_of_gt (Nat.zero_lt_of_lt enough))
      obtain ⟨readFirst, readBelow⟩ := List.forall_mem_cons.mp each
      have distinct' : (((front ++ [(key, value)]) ++ members).map Prod.fst).Nodup := by
        simpa using distinct
      have fresh : key ∉ front.map Prod.fst := by
        intro member
        rw [List.map_append, List.nodup_append] at distinct
        exact distinct.2.2 key member key (by simp) rfl
      have head := readMember_colon indented level readFirst fresh
        (ends_writeMembers indented level members outer rest)
      have tail := ih readBelow distinct' (Nat.lt_of_succ_lt_succ enough)
      simp only [writeMembers, List.cons_append, List.append_assoc]
      rw [readMembers_next (nextKey_comma key _) head, tail]
      simp

end Members

theorem readValue_scalar {c : Char} (visible : isSpace c = false) (notList : c ≠ '[')
    (notObject : c ≠ '{') (room : Nat) (rest : List Char) :
    readValue room (c :: rest) = readScalar (c :: rest) := by
  rw [readValue.eq_def, skipSpace_cons visible]
  simp [notList, notObject]

theorem readScalar_digit {c : Char} (digit : c.isDigit = true) (rest : List Char) :
    readScalar (c :: rest) =
      (Number.read false (c :: rest)).map fun (number, rest) => (.number number, rest) := by
  rw [readScalar.eq_def]
  simp [digit, ne_of_isDigit digit]

theorem readValue_array {room : Nat} {text body rest : List Char} {items : List Value}
    (opened : skipSpace text = '[' :: body)
    (read : readItems (readValue room) (body.length + 1) true body = .ok (items, rest)) :
    readValue (room + 1) text = .ok (.array items, rest) := by
  rw [readValue.eq_def, opened]
  simp [read, Except.map]

theorem readValue_object {room : Nat} {text body rest : List Char} {members : Members}
    (opened : skipSpace text = '{' :: body)
    (read : readMembers (readMember (readValue room)) (body.length + 1) true [] body =
      .ok (members, rest)) :
    readValue (room + 1) text = .ok (.object members, rest) := by
  rw [readValue.eq_def, opened]
  simp [read, Except.map]

theorem length_le_writeItems (indented : Bool) (level : Nat) (items : List Value) :
    items.length ≤ (writeItems indented level items).length := by
  induction items with
  | nil => simp
  | cons item items ih =>
      simp only [writeItems, List.length_append, List.length_cons]
      omega

theorem length_le_writeMembers (indented : Bool) (level : Nat) (members : Members) :
    members.length ≤ (writeMembers indented level members).length := by
  induction members with
  | nil => simp
  | cons member members ih =>
      simp only [writeMembers, List.length_append, List.length_cons]
      omega

theorem isReadBack_array {room : Nat} {items : List Value} (plain : ∀ item ∈ items, item.IsPlain room)
    (each : ∀ item ∈ items, item.IsReadBack room) : (Value.array items).IsReadBack (room + 1) := by
  intro indented level rest _
  cases items with
  | nil =>
      have ended : nextItem true (']' :: rest) = .ok none := nextItem_end true false level rest
      rw [write]
      exact readValue_array (skipSpace_cons (by decide) _) (readItems_end ended)
  | cons item items =>
      obtain ⟨first, below⟩ := List.forall_mem_cons.mp plain
      obtain ⟨readFirst, readBelow⟩ := List.forall_mem_cons.mp each
      have head := readFirst indented (level + 1) _
        (ends_writeItems indented (level + 1) items level rest)
      have enough := length_le_writeItems indented (level + 1) items
      rw [write]
      simp only [List.cons_append, List.append_assoc, List.nil_append]
      apply readValue_array (skipSpace_cons (by decide) _)
      rw [readItems_next (nextItem_first first _) head, readItems_writeItems below readBelow _ level rest]
      · rfl
      · simp only [List.length_append, List.length_cons]
        omega

theorem isReadBack_object {room : Nat} {members : Members} (distinct : (members.map Prod.fst).Nodup)
    (each : ∀ member ∈ members, member.2.IsReadBack room) :
    (Value.object members).IsReadBack (room + 1) := by
  intro indented level rest _
  cases members with
  | nil =>
      have ended : nextKey true ('}' :: rest) = .ok none := nextKey_end true false level rest
      rw [write]
      exact readValue_object (skipSpace_cons (by decide) _) (readMembers_end ended)
  | cons member members =>
      obtain ⟨key, value⟩ := member
      obtain ⟨readFirst, readBelow⟩ := List.forall_mem_cons.mp each
      have fresh : key ∉ ([] : Members).map Prod.fst := by simp
      have head := readMember_colon indented (level + 1) readFirst fresh
        (ends_writeMembers indented (level + 1) members level rest)
      have enough := length_le_writeMembers indented (level + 1) members
      rw [write]
      simp only [List.cons_append, List.append_assoc, List.nil_append]
      apply readValue_object (skipSpace_cons (by decide) _)
      have distinct' : ((([] ++ [(key, value)]) ++ members).map Prod.fst).Nodup := distinct
      rw [readMembers_next (nextKey_first key _) head,
        readMembers_writeMembers readBelow distinct' _ level rest]
      · rfl
      · simp only [List.length_append, List.length_cons]
        omega

/-- A plain value is read back from its text. -/
theorem Value.IsPlain.isReadBack {room : Nat} {value : Value} (plain : value.IsPlain room) :
    value.IsReadBack room := by
  induction plain with
  | @null room =>
      intro indented level rest _
      exact readValue_scalar (by decide) (by decide) (by decide) room _
  | @boolean room value =>
      intro indented level rest _
      cases value with
      | true => exact readValue_scalar (by decide) (by decide) (by decide) room _
      | false => exact readValue_scalar (by decide) (by decide) (by decide) room _
  | @natural room value small =>
      intro indented level rest ends
      obtain ⟨c, tail, digits, digit⟩ := Number.exists_cons_toDigits value
      have read := Number.read_toDigits false small ends
      rw [write, Number.write]
      rw [digits, List.cons_append] at read ⊢
      rw [readValue_scalar (isSpace_of_isDigit digit) (ne_of_isDigit digit (by decide))
        (ne_of_isDigit digit (by decide)), readScalar_digit digit, read]
      rfl
  | @negative room magnitude positive small =>
      intro indented level rest ends
      have fits : magnitude < UInt64.size := Nat.lt_of_le_of_lt small (by decide)
      have read := Number.read_toDigits true fits ends
      have kept : Number.ofInteger true magnitude rest = (.negative magnitude, rest) := by
        simp [Number.ofInteger, positive, small]
      rw [write, Number.write, List.cons_append, readValue_scalar (by decide) (by decide) (by decide),
        readScalar, read, kept]
      rfl
  | @string room text =>
      intro indented level rest _
      rw [write, writeString, List.append_assoc, List.cons_append,
        readValue_scalar (by decide) (by decide) (by decide), readScalar, List.singleton_append,
        readString_writeString]
      rfl
  | array plain each => exact isReadBack_array plain each
  | object distinct _ each => exact isReadBack_object distinct each

theorem Value.IsPlain.ofText_write {value : Value} (plain : value.IsPlain depthLimit) (indented : Bool) :
    Value.ofText (String.ofList (write indented 0 value)) = .ok value := by
  have ends : Number.Ends [] := by simp [Number.Ends]
  have read := plain.isReadBack indented 0 [] ends
  rw [List.append_nil] at read
  rw [Value.ofText, String.toList_ofList, read]
  rfl

end WebTestLint.Json
