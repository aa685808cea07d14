import Mathlib.Data.List.DropRight
import WebTestLint.Json.Skip
import WebTestLint.Proofs.Results
import WebTestLint.Proofs.Written

/-!
Skipping. One value is skipped at a time, and within brackets one after the other, whatever other brackets
are open around it. The steps that are allowed are never too few.
-/

namespace WebTestLint.Json

theorem exists_of_map_eq_ok {α β : Type} {f : α → β} {reading : Reading α} {value : β}
    {rest : List Char} (read : (reading.map fun (before, rest) => (f before, rest)) = .ok (value, rest)) :
    ∃ before, reading = .ok (before, rest) ∧ f before = value := by
  obtain ⟨⟨before, rest'⟩, read', same⟩ := map_eq_ok_iff.mp read
  obtain ⟨changed, rfl⟩ := Prod.mk.inj same
  exact ⟨before, read', changed⟩

theorem length_skipString {text rest : List Char} (skipped : skipString text = .ok rest) :
    rest.length < text.length := by
  fun_induction skipString text with
  | case2 after =>
      obtain rfl := Except.ok.inj skipped
      exact Nat.lt_succ_self _
  | case4 a b c d after unit ih =>
      have tail := ih skipped
      simp only [List.length_cons]
      omega
  | case7 c after _ _ short ih =>
      have tail := ih skipped
      simp only [List.length_cons]
      omega
  | case10 c after _ _ _ _ _ printed ih => exact Nat.lt_succ_of_lt (ih skipped)
  | _ => simp at skipped

theorem length_of_digits {text rest : List Char} {fault : Fault}
    (skipped : (if Number.startsWithDigit text then Except.ok (text.dropWhile Char.isDigit)
      else .error fault) = .ok rest) : rest.length ≤ text.length := by
  split at skipped
  · obtain rfl := Except.ok.inj skipped
    exact List.length_dropWhile_le _ text
  · simp at skipped

theorem length_skipExponent_le {text rest : List Char} (skipped : skipExponent text = .ok rest) :
    rest.length ≤ text.length := by
  simp only [skipExponent] at skipped
  split at skipped
  · exact Nat.le_succ_of_le (length_of_digits skipped)
  · exact Nat.le_succ_of_le (length_of_digits skipped)
  · exact length_of_digits skipped

theorem length_skipPower_le {text rest : List Char} (skipped : skipPower text = .ok rest) :
    rest.length ≤ text.length := by
  unfold skipPower at skipped
  split at skipped
  · split at skipped
    · exact Nat.le_succ_of_le (length_skipExponent_le skipped)
    · rw [Except.ok.inj skipped]
  · rw [Except.ok.inj skipped]

theorem length_skipNumber {text rest : List Char} (skipped : skipNumber text = .ok rest) :
    rest.length < text.length := by
  cases text with
  | nil => simp [skipNumber] at skipped
  | cons c tail =>
      rw [skipNumber] at skipped
      split at skipped
      · simp at skipped
      · rename_i digit
        have tailLength := List.length_dropWhile_le Char.isDigit tail
        rw [List.dropWhile_cons_of_pos (by simpa using digit)] at skipped
        rw [List.length_cons]
        split at skipped
        · simp at skipped
        · split at skipped
          · rename_i fraction point
            rw [point, List.length_cons] at tailLength
            have fractionLength := List.length_dropWhile_le Char.isDigit fraction
            split at skipped
            · have power := length_skipPower_le skipped
              omega
            · simp at skipped
          · have power := length_skipPower_le skipped
            omega

theorem length_readWord_le {value read : Value} {letters text rest : List Char}
    (found : readWord value letters text = .ok (read, rest)) : rest.length ≤ text.length := by
  induction letters generalizing text with
  | nil => rw [(Prod.mk.inj (Except.ok.inj found)).2]
  | cons letter letters ih =>
      cases text with
      | nil => simp [readWord] at found
      | cons c text =>
          rw [readWord] at found
          split at found
          · exact Nat.le_succ_of_le (ih found)
          · simp at found

theorem length_readScalar_le {c : Char} {tail rest : List Char} {value : Value} (notQuote : c ≠ '"')
    (notMinus : c ≠ '-') (notDigit : ¬ c.isDigit = true)
    (read : readScalar (c :: tail) = .ok (value, rest)) :
    rest.length ≤ tail.length := by
  rw [readScalar.eq_def] at read
  split at read
  · simp at read
  · rename_i same
    rw [(List.cons.inj same).2]
    exact length_readWord_le read
  · rename_i same
    rw [(List.cons.inj same).2]
    exact length_readWord_le read
  · rename_i same
    rw [(List.cons.inj same).2]
    exact length_readWord_le read
  · rename_i same
    exact absurd (List.cons.inj same).1 notQuote
  · rename_i same
    exact absurd (List.cons.inj same).1 notMinus
  · rename_i same
    rw [(List.cons.inj same).1] at notDigit
    simp [notDigit] at read

theorem length_skipScalar {text rest : List Char} (skipped : skipScalar text = .ok rest) :
    rest.length < text.length := by
  unfold skipScalar at skipped
  split at skipped
  · exact Nat.lt_succ_of_lt (length_skipString skipped)
  · exact Nat.lt_succ_of_lt (length_skipNumber skipped)
  · rename_i c tail notQuote notMinus
    split at skipped
    · exact length_skipNumber skipped
    · rename_i notDigit
      obtain ⟨⟨value, rest'⟩, read, rfl⟩ := map_eq_ok_iff.mp skipped
      exact Nat.lt_succ_of_le (length_readScalar_le notQuote notMinus notDigit read)
  · simp at skipped

theorem length_skipSpace_le (text : List Char) : (skipSpace text).length ≤ text.length :=
  List.length_dropWhile_le _ text

theorem skipSpace_skipSpace (text : List Char) : skipSpace (skipSpace text) = skipSpace text :=
  List.dropWhile_idempotent isSpace text

theorem skipOpen_skipSpace (fuel : Nat) (brackets : List Bracket) (text : List Char) :
    skipOpen fuel brackets (skipSpace text) = skipOpen fuel brackets text := by
  cases fuel with
  | zero => rfl
  | succ fuel => simp only [skipOpen, skipSpace_skipSpace]

theorem eq_cons_of_skipKey {text start : List Char} (key : skipKey text = .ok start) :
    ∃ quoted behind, skipSpace text = '"' :: quoted ∧ skipString quoted = .ok behind ∧
      readColon behind = .ok start := by
  unfold skipKey at key
  split at key
  · rename_i quoted found
    obtain ⟨behind, skipped, colon⟩ := bind_eq_ok_iff.mp key
    exact ⟨quoted, behind, found, skipped, colon⟩
  · simp at key
  · simp at key

theorem length_readColon {text rest : List Char} (colon : readColon text = .ok rest) :
    rest.length < text.length := by
  have spaces := length_skipSpace_le text
  unfold readColon at colon
  split at colon
  · rename_i found
    obtain rfl := Except.ok.inj colon
    rw [found, List.length_cons] at spaces
    omega
  · simp at colon
  · simp at colon

theorem length_skipKey {text start : List Char} (key : skipKey text = .ok start) :
    start.length < text.length := by
  obtain ⟨quoted, behind, found, skipped, colon⟩ := eq_cons_of_skipKey key
  have spaces := length_skipSpace_le text
  have quotedLength := length_skipString skipped
  have colonLength := length_readColon colon
  rw [found, List.length_cons] at spaces
  omega

theorem skipKey_skipSpace (text : List Char) : skipKey (skipSpace text) = skipKey text := by
  simp only [skipKey, skipSpace_skipSpace]

namespace Bracket

def opening : Bracket → Char
  | list => '['
  | object => '{'

def closing : Bracket → Char
  | list => ']'
  | object => '}'

inductive Next : Bracket → Bool → List Char → List Char → Prop
  | item {text rest c} : skipSpace text = c :: rest → c ≠ ']' → Next list true text (c :: rest)
  | furtherItem {text start} : skipSpace text = ',' :: start → Next list false text start
  | member {text start} : skipKey text = .ok start → Next object true text start
  | furtherMember {text rest start} : skipSpace text = ',' :: rest → skipKey rest = .ok start →
      Next object false text start

theorem Next.length_le {bracket : Bracket} {text start : List Char}
    (next : bracket.Next true text start) : start.length ≤ text.length := by
  cases next with
  | item found _ =>
      rw [← found]
      exact length_skipSpace_le text
  | member key => exact Nat.le_of_lt (length_skipKey key)

theorem Next.length_lt {bracket : Bracket} {text start : List Char}
    (next : bracket.Next false text start) : start.length < text.length := by
  have spaces := length_skipSpace_le text
  cases next with
  | furtherItem found =>
      rw [found, List.length_cons] at spaces
      omega
  | furtherMember found key =>
      have keyLength := length_skipKey key
      rw [found, List.length_cons] at spaces
      omega

theorem skipOpen_empty {bracket : Bracket} {text after : List Char}
    (ended : skipSpace text = bracket.closing :: after) (fuel : Nat) (brackets : List Bracket) :
    skipOpen (fuel + 1) brackets (bracket.opening :: text) = skipClosed fuel brackets after := by
  cases bracket with
  | list =>
      rw [opening, skipOpen, skipSpace_cons (by decide)]
      simp only [ended, closing]
  | object =>
      rw [opening, skipOpen, skipSpace_cons (by decide)]
      simp only [ended, closing]

theorem skipOpen_next {bracket : Bracket} {text start : List Char} (next : bracket.Next true text start)
    (fuel : Nat) (brackets : List Bracket) :
    skipOpen (fuel + 1) brackets (bracket.opening :: text) =
      skipOpen fuel (bracket :: brackets) start := by
  cases next with
  | item found notEnd =>
      rw [opening, skipOpen, skipSpace_cons (by decide)]
      simp [found, notEnd]
  | member key =>
      obtain ⟨quoted, behind, found, _, _⟩ := eq_cons_of_skipKey key
      rw [← skipKey_skipSpace, found] at key
      rw [opening, skipOpen, skipSpace_cons (by decide)]
      simp [found, key, bind, Except.bind]

theorem skipClosed_end {bracket : Bracket} {text after : List Char}
    (ended : skipSpace text = bracket.closing :: after) (fuel : Nat) (outer : List Bracket) :
    skipClosed (fuel + 1) (bracket :: outer) text = skipClosed fuel outer after := by
  cases bracket with
  | list =>
      rw [skipClosed]
      simp only [ended, closing]
  | object =>
      rw [skipClosed]
      simp only [ended, closing]

theorem skipClosed_next {bracket : Bracket} {text start : List Char} (next : bracket.Next false text start)
    (fuel : Nat) (outer : List Bracket) :
    skipClosed (fuel + 1) (bracket :: outer) text = skipOpen fuel (bracket :: outer) start := by
  cases next with
  | furtherItem found =>
      rw [skipClosed]
      simp only [found]
  | furtherMember found key =>
      rw [skipClosed]
      simp [found, key, bind, Except.bind]

end Bracket

/-- A value stands between two places of a text: whatever brackets are open, and with steps enough for the
text that is left, it is skipped from the one to the other. -/
structure Skips (text rest : List Char) : Prop where
  shorter : rest.length < text.length
  steps : ∀ brackets fuel, text.length < fuel →
    ∃ fuel', rest.length < fuel' ∧ skipOpen fuel brackets text = skipClosed fuel' brackets rest

structure Closes (bracket : Bracket) (text rest : List Char) : Prop where
  shorter : rest.length < text.length
  steps : ∀ outer fuel, text.length < fuel →
    ∃ fuel', rest.length < fuel' ∧ skipClosed fuel (bracket :: outer) text = skipClosed fuel' outer rest

theorem Skips.of_skipSpace {text rest : List Char} (skips : Skips (skipSpace text) rest) :
    Skips text rest := by
  have spaces := length_skipSpace_le text
  constructor
  · exact Nat.lt_of_lt_of_le skips.shorter spaces
  · intro brackets fuel enough
    rw [← skipOpen_skipSpace]
    exact skips.steps brackets fuel (Nat.lt_of_le_of_lt spaces enough)

theorem exists_eq_succ {length fuel : Nat} (enough : length < fuel) :
    ∃ fuel', fuel = fuel' + 1 ∧ length ≤ fuel' := by
  cases fuel with
  | zero => omega
  | succ fuel => exact ⟨fuel, rfl, by omega⟩

theorem Closes.last {bracket : Bracket} {text rest : List Char}
    (ended : skipSpace text = bracket.closing :: rest) : Closes bracket text rest := by
  have spaces := length_skipSpace_le text
  rw [ended, List.length_cons] at spaces
  refine ⟨spaces, fun outer fuel enough => ?_⟩
  obtain ⟨fuel, rfl, enough⟩ := exists_eq_succ enough
  exact ⟨fuel, by omega, Bracket.skipClosed_end ended fuel outer⟩

theorem Closes.next {bracket : Bracket} {text start after rest : List Char}
    (next : bracket.Next false text start) (skips : Skips start after) (closes : Closes bracket after rest) :
    Closes bracket text rest := by
  have startLength := next.length_lt
  refine ⟨closes.shorter.trans (skips.shorter.trans startLength), fun outer fuel enough => ?_⟩
  obtain ⟨fuel, rfl, enough⟩ := exists_eq_succ enough
  obtain ⟨fuel', more, value⟩ := skips.steps (bracket :: outer) fuel (by omega)
  obtain ⟨fuel'', left, others⟩ := closes.steps outer fuel' more
  exact ⟨fuel'', left, by rw [Bracket.skipClosed_next next, value, others]⟩

theorem Skips.empty {bracket : Bracket} {text rest : List Char}
    (ended : skipSpace text = bracket.closing :: rest) : Skips (bracket.opening :: text) rest := by
  have spaces := length_skipSpace_le text
  rw [ended, List.length_cons] at spaces
  refine ⟨Nat.lt_succ_of_lt spaces, fun outer fuel enough => ?_⟩
  obtain ⟨fuel, rfl, enough⟩ := exists_eq_succ enough
  rw [List.length_cons] at enough
  exact ⟨fuel, by omega, Bracket.skipOpen_empty ended fuel outer⟩

theorem Skips.filled {bracket : Bracket} {text start after rest : List Char}
    (next : bracket.Next true text start) (skips : Skips start after) (closes : Closes bracket after rest) :
    Skips (bracket.opening :: text) rest := by
  have startLength := next.length_le
  have shorter := closes.shorter.trans skips.shorter
  refine ⟨Nat.lt_succ_of_lt (Nat.lt_of_lt_of_le shorter startLength), fun outer fuel enough => ?_⟩
  obtain ⟨fuel, rfl, enough⟩ := exists_eq_succ enough
  rw [List.length_cons] at enough
  obtain ⟨fuel', more, value⟩ := skips.steps (bracket :: outer) fuel (by omega)
  obtain ⟨fuel'', left, others⟩ := closes.steps outer fuel' more
  exact ⟨fuel'', left, by rw [Bracket.skipOpen_next next, value, others]⟩

theorem skipOpen_scalar {text rest : List Char} (skipped : skipScalar (skipSpace text) = .ok rest)
    (fuel : Nat) (brackets : List Bracket) :
    skipOpen (fuel + 1) brackets text = skipClosed fuel brackets rest := by
  rw [skipOpen]
  split
  · rename_i found
    rw [found] at skipped
    simp [skipScalar, readScalar, Except.map] at skipped
  · rename_i found
    rw [found] at skipped
    simp [skipScalar, readScalar, Except.map] at skipped
  · simp [skipped, bind, Except.bind]

theorem Skips.scalar {text rest : List Char} (skipped : skipScalar (skipSpace text) = .ok rest) :
    Skips text rest := by
  have shorter := Nat.lt_of_lt_of_le (length_skipScalar skipped) (length_skipSpace_le text)
  refine ⟨shorter, fun outer fuel enough => ?_⟩
  obtain ⟨fuel, rfl, enough⟩ := exists_eq_succ enough
  exact ⟨fuel, by omega, skipOpen_scalar skipped fuel outer⟩

theorem Skips.skipValue {text rest : List Char} (skips : Skips text rest) : skipValue text = .ok rest := by
  obtain ⟨fuel, _, same⟩ := skips.steps [] (text.length + 1) (Nat.lt_succ_self _)
  rw [Json.skipValue, same, skipClosed]

def SkipsFirst (fuel : Nat) : Prop :=
  ∀ brackets text rest, skipOpen fuel brackets text = .ok rest →
    ∃ after fuel', fuel' < fuel ∧ Skips text after ∧ skipClosed fuel' brackets after = .ok rest

def ClosesFirst (fuel : Nat) : Prop :=
  ∀ bracket outer text rest, skipClosed fuel (bracket :: outer) text = .ok rest →
    ∃ after fuel', fuel' < fuel ∧ Closes bracket text after ∧ skipClosed fuel' outer after = .ok rest

theorem skipOpen_cases {fuel : Nat} {brackets : List Bracket} {text rest : List Char}
    (skipped : skipOpen (fuel + 1) brackets text = .ok rest) :
    (∃ after, skipScalar (skipSpace text) = .ok after ∧ skipClosed fuel brackets after = .ok rest) ∨
      ∃ bracket body, skipSpace text = Bracket.opening bracket :: body ∧
        ((∃ after, skipSpace body = bracket.closing :: after ∧
            skipClosed fuel brackets after = .ok rest) ∨
          ∃ start, bracket.Next true body start ∧
            skipOpen fuel (bracket :: brackets) start = .ok rest) := by
  rw [skipOpen] at skipped
  split at skipped
  · rename_i body found
    refine Or.inr ⟨.list, body, found, ?_⟩
    split at skipped
    · simp at skipped
    · rename_i after ended
      exact Or.inl ⟨after, ended, skipped⟩
    · rename_i filled notEnd
      obtain ⟨c, start, shaped⟩ := List.exists_cons_of_ne_nil filled
      rw [shaped] at notEnd skipped
      have visible : c ≠ ']' := by
        rintro rfl
        exact notEnd start rfl
      exact Or.inr ⟨c :: start, .item shaped visible, skipped⟩
  · rename_i body found
    refine Or.inr ⟨.object, body, found, ?_⟩
    split at skipped
    · simp at skipped
    · rename_i after ended
      exact Or.inl ⟨after, ended, skipped⟩
    · obtain ⟨start, key, further⟩ := bind_eq_ok_iff.mp skipped
      rw [skipKey_skipSpace] at key
      exact Or.inr ⟨start, .member key, further⟩
  · obtain ⟨after, scalar, further⟩ := bind_eq_ok_iff.mp skipped
    exact Or.inl ⟨after, scalar, further⟩

theorem skipClosed_cases {fuel : Nat} {bracket : Bracket} {outer : List Bracket} {text rest : List Char}
    (skipped : skipClosed (fuel + 1) (bracket :: outer) text = .ok rest) :
    (∃ after, skipSpace text = bracket.closing :: after ∧ skipClosed fuel outer after = .ok rest) ∨
      ∃ start, bracket.Next false text start ∧ skipOpen fuel (bracket :: outer) start = .ok rest := by
  cases bracket with
  | list =>
      rw [skipClosed] at skipped
      split at skipped
      · simp at skipped
      · rename_i start found
        exact Or.inr ⟨start, .furtherItem found, skipped⟩
      · rename_i after ended
        exact Or.inl ⟨after, ended, skipped⟩
      · simp at skipped
  | object =>
      rw [skipClosed] at skipped
      split at skipped
      · simp at skipped
      · rename_i behind found
        obtain ⟨start, key, further⟩ := bind_eq_ok_iff.mp skipped
        exact Or.inr ⟨start, .furtherMember found key, further⟩
      · rename_i after ended
        exact Or.inl ⟨after, ended, skipped⟩
      · simp at skipped

theorem skipsFirst_and_closesFirst (fuel : Nat) : SkipsFirst fuel ∧ ClosesFirst fuel := by
  -- Together, since a value within brackets leads back to what is left within them, with fewer steps.
  induction fuel using Nat.strongRecOn with
  | ind fuel ih =>
      constructor
      · intro brackets text rest skipped
        cases fuel with
        | zero => simp [skipOpen] at skipped
        | succ fuel =>
            rcases skipOpen_cases skipped with ⟨after, scalar, further⟩ |
              ⟨bracket, body, found, ⟨after, ended, further⟩ | ⟨start, next, further⟩⟩
            · exact ⟨after, fuel, Nat.lt_succ_self fuel, .scalar scalar, further⟩
            · have skips : Skips (skipSpace text) after := found ▸ .empty ended
              exact ⟨after, fuel, Nat.lt_succ_self fuel, skips.of_skipSpace, further⟩
            · obtain ⟨behind, fuel', less, value, further⟩ :=
                (ih fuel (Nat.lt_succ_self fuel)).1 _ _ _ further
              obtain ⟨after, fuel'', less', others, further⟩ := (ih fuel' (by omega)).2 _ _ _ _ further
              have skips : Skips (skipSpace text) after := found ▸ .filled next value others
              exact ⟨after, fuel'', by omega, skips.of_skipSpace, further⟩
      · intro bracket outer text rest skipped
        cases fuel with
        | zero => simp [skipClosed] at skipped
        | succ fuel =>
            rcases skipClosed_cases skipped with ⟨after, ended, further⟩ | ⟨start, next, further⟩
            · exact ⟨after, fuel, Nat.lt_succ_self fuel, .last ended, further⟩
            · obtain ⟨behind, fuel', less, value, further⟩ :=
                (ih fuel (Nat.lt_succ_self fuel)).1 _ _ _ further
              obtain ⟨after, fuel'', less', others, further⟩ := (ih fuel' (by omega)).2 _ _ _ _ further
              exact ⟨after, fuel'', by omega, .next next value others, further⟩

theorem skips_iff {text rest : List Char} : Skips text rest ↔ skipValue text = .ok rest := by
  constructor
  · exact Skips.skipValue
  · intro skipped
    obtain ⟨after, fuel, _, skips, ended⟩ := (skipsFirst_and_closesFirst _).1 [] text rest skipped
    rw [skipClosed] at ended
    obtain rfl := Except.ok.inj ended
    exact skips

end WebTestLint.Json
