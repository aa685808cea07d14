import Mathlib.Data.List.Infix
import Mathlib.Logic.Relation
import WebTestLint.Text.Bytes

/-!
Byte indices into a text, and the loops that move them. Only between two places of a text can a part be
cut out of it. A loop may look at the bytes one by one and skip some of them without asking where a
character ends, so that its index need not be a place at each pass.
-/

namespace WebTestLint

/-- An index between two characters of a text, or at one of its ends. -/
def IsPlace (text : String) (index : Nat) : Prop := (String.Pos.Raw.mk index).IsValid text

/-- The UTF-8 form of a text. -/
def bytes (text : List Char) : List UInt8 := text.flatMap String.utf8EncodeChar

@[simp] theorem bytes_cons (c : Char) (rest : List Char) :
    bytes (c :: rest) = String.utf8EncodeChar c ++ bytes rest := rfl

@[simp] theorem bytes_append (first second : List Char) :
    bytes (first ++ second) = bytes first ++ bytes second := by
  simp [bytes]

theorem bytes_toList (text : String) : bytes text.toList = text.toUTF8.data.toList := by
  rw [bytes, String.toUTF8, ← String.utf8Encode_toList, List.utf8Encode, List.data_toByteArray]

@[simp] theorem length_bytes (text : List Char) : (bytes text).length = byteLength text := by
  induction text with
  | nil => rfl
  | cons c rest ih => simp [ih]

theorem byteLength_eq_zero_iff (text : List Char) : byteLength text = 0 ↔ text = [] := by
  cases text with
  | nil => simp
  | cons c rest =>
      have := c.utf8Size_pos
      simp only [byteLength_cons, reduceCtorEq, iff_false]
      omega

theorem byteLength_lt_append_cons (before : List Char) (c : Char) (rest : List Char) :
    byteLength before < byteLength (before ++ c :: rest) := by
  have := c.utf8Size_pos
  simp only [byteLength_append, byteLength_cons]
  omega

theorem byteLength_toList (text : String) : byteLength text.toList = text.utf8ByteSize := by
  rw [← length_bytes, bytes_toList]
  rfl

theorem dropBytes?_append (before rest : List Char) :
    dropBytes? (byteLength before) (before ++ rest) = some rest :=
  (dropBytes?_eq_some_iff _ _ _).mpr ⟨before, rfl, rfl⟩

theorem isPlace_iff (text : String) (index : Nat) :
    IsPlace text index ↔ ∃ rest, dropBytes? index text.toList = some rest := by
  simp only [IsPlace, String.Pos.Raw.isValid_iff_exists_append, dropBytes?_eq_some_iff]
  constructor
  · rintro ⟨before, rest, rfl, same⟩
    refine ⟨rest.toList, before.toList, String.toList_append, ?_⟩
    rw [byteLength_toList]
    exact (congrArg String.Pos.Raw.byteIdx same).symm
  · rintro ⟨rest, before, whole, rfl⟩
    refine ⟨String.ofList before, String.ofList rest, ?_, ?_⟩
    · rw [← String.toList_inj, whole]
      simp
    · ext
      rw [String.byteIdx_rawEndPos, ← byteLength_toList, String.toList_ofList]

theorem dropBytes?_eq_none_iff (text : String) (index : Nat) :
    dropBytes? index text.toList = none ↔ ¬ IsPlace text index := by
  rw [isPlace_iff, ← Option.ne_none_iff_exists', not_not]

theorem IsPlace.exists_append {text : String} {index : Nat} (place : IsPlace text index) :
    ∃ before rest, text.toList = before ++ rest ∧ byteLength before = index := by
  obtain ⟨rest, found⟩ := (isPlace_iff text index).mp place
  obtain ⟨before, whole, size⟩ := (dropBytes?_eq_some_iff _ _ _).mp found
  exact ⟨before, rest, whole, size⟩

theorem isPlace_of_append {text : String} {before rest : List Char}
    (whole : text.toList = before ++ rest) : IsPlace text (byteLength before) :=
  (isPlace_iff _ _).mpr ⟨rest, by rw [whole, dropBytes?_append]⟩

def slice? (first last : Nat) (text : List Char) : Option (List Char) := do
  let rest ← dropBytes? first text
  let behind ← dropBytes? last text
  if first ≤ last then some (rest.take (rest.length - behind.length)) else none

theorem slice?_append (before segment after : List Char) :
    slice? (byteLength before) (byteLength before + byteLength segment)
      (before ++ (segment ++ after)) = some segment := by
  have behind : dropBytes? (byteLength before + byteLength segment) (before ++ (segment ++ after)) =
      some after := by
    rw [← byteLength_append, ← List.append_assoc, dropBytes?_append]
  simp [slice?, dropBytes?_append, behind]

theorem slice?_append_isNone (before segment after : List Char) :
    (slice? (byteLength before) (byteLength (before ++ segment)) (before ++ segment ++ after)).isNone =
      false := by
  rw [byteLength_append, List.append_assoc, slice?_append]
  rfl

theorem exists_slice?_iff (text : String) (first last : Nat) :
    (∃ segment, slice? first last text.toList = some segment) ↔
      IsPlace text first ∧ IsPlace text last ∧ first ≤ last := by
  simp only [isPlace_iff, slice?, Option.bind_eq_bind, Option.bind_eq_some_iff]
  constructor
  · rintro ⟨segment, rest, start, behind, finish, cut⟩
    refine ⟨⟨rest, start⟩, ⟨behind, finish⟩, ?_⟩
    by_contra reversed
    simp [reversed] at cut
  · rintro ⟨⟨rest, start⟩, ⟨behind, finish⟩, ordered⟩
    exact ⟨_, rest, start, behind, finish, if_pos ordered⟩

theorem drop_bytes_append (before rest : List Char) (more : Nat) :
    (bytes (before ++ rest)).drop (byteLength before + more) = (bytes rest).drop more := by
  rw [bytes_append, ← length_bytes, List.drop_length_add_append]

theorem utf8EncodeChar_of_ascii {c : Char} (ascii : c.toNat < 128) :
    String.utf8EncodeChar c = [UInt8.ofNat c.toNat] := by
  have low : c.val.toNat ≤ 127 := Nat.le_of_lt_succ ascii
  unfold String.utf8EncodeChar
  exact if_pos low

theorem toNat_val_lt (c : Char) : c.val.toNat < 0x110000 := by
  rcases c.valid with low | ⟨_, high⟩
  · exact Nat.lt_trans low (by decide)
  · exact high

theorem high_of_mem {c : Char} (wide : 128 ≤ c.toNat) {byte : UInt8}
    (member : byte ∈ String.utf8EncodeChar c) : 128 ≤ byte.toNat := by
  have bound := toNat_val_lt c
  have wide : ¬ c.val.toNat ≤ 127 := by
    rw [Char.toNat_val]
    omega
  unfold String.utf8EncodeChar at member
  dsimp only at member
  generalize c.val.toNat = code at *
  rw [if_neg wide] at member
  split_ifs at member
  all_goals
    simp only [List.mem_cons, List.not_mem_nil, or_false] at member
    rcases member with rfl | rfl | rfl | rfl <;> simp only [UInt8.toNat_ofNat'] <;> omega

theorem high_of_mem_tail {c : Char} {byte : UInt8} (member : byte ∈ (String.utf8EncodeChar c).tail) :
    128 ≤ byte.toNat := by
  by_cases ascii : c.toNat < 128
  · simp [utf8EncodeChar_of_ascii ascii] at member
  · exact high_of_mem (Nat.le_of_not_lt ascii) (List.mem_of_mem_tail member)

theorem ofNat_toNat_inj {c d : Char} (first : c.toNat < 128) (second : d.toNat < 128) :
    UInt8.ofNat c.toNat = UInt8.ofNat d.toNat ↔ c = d := by
  constructor
  · intro same
    have code := congrArg UInt8.toNat same
    simp only [UInt8.toNat_ofNat'] at code
    exact Char.toNat_inj.mp (by omega)
  · rintro rfl
    rfl

theorem not_prefix_of_high {c : Char} (ascii : c.toNat < 128) (start : List Char) {byte : UInt8}
    (high : 128 ≤ byte.toNat) (rest : List UInt8) : ¬ bytes (c :: start) <+: byte :: rest := by
  rw [bytes_cons, utf8EncodeChar_of_ascii ascii, List.singleton_append, List.cons_prefix_cons]
  rintro ⟨rfl, _⟩
  simp only [UInt8.toNat_ofNat'] at high
  omega

theorem prefix_bytes_iff {start : List Char} (ascii : ∀ c ∈ start, c.toNat < 128) (rest : List Char) :
    bytes start <+: bytes rest ↔ start <+: rest := by
  induction start generalizing rest with
  | nil => simp [bytes]
  | cons c start ih =>
      have first : c.toNat < 128 := ascii c List.mem_cons_self
      have tail := ih fun d member => ascii d (List.mem_cons_of_mem c member)
      cases rest with
      | nil => simp [bytes, utf8EncodeChar_of_ascii first]
      | cons d rest =>
          rw [List.cons_prefix_cons]
          by_cases second : d.toNat < 128
          · rw [bytes_cons, bytes_cons, utf8EncodeChar_of_ascii first, utf8EncodeChar_of_ascii second,
              List.singleton_append, List.singleton_append, List.cons_prefix_cons,
              ofNat_toNat_inj first second, tail]
          · have wide : 128 ≤ d.toNat := Nat.le_of_not_lt second
            have differ : c ≠ d := by
              rintro rfl
              exact second first
            obtain ⟨byte, more, encoded⟩ := List.exists_cons_of_ne_nil (String.utf8EncodeChar_ne_nil (c := d))
            have high := high_of_mem wide (encoded ▸ List.mem_cons_self)
            rw [bytes_cons d, encoded, List.cons_append]
            exact iff_of_false (not_prefix_of_high first start high _) fun same => differ same.1

/-- Whether the bytes from an index on start like a text. The index need not be a place. -/
def BytesStart (text : List Char) (index : Nat) (start : List Char) : Prop :=
  bytes start <+: (bytes text).drop index

instance (text : List Char) (index : Nat) (start : List Char) : Decidable (BytesStart text index start) :=
  inferInstanceAs (Decidable (bytes start <+: (bytes text).drop index))

theorem bytesStart_append_iff {start : List Char} (ascii : ∀ c ∈ start, c.toNat < 128)
    (before rest : List Char) : BytesStart (before ++ rest) (byteLength before) start ↔ start <+: rest := by
  have dropped := drop_bytes_append before rest 0
  rw [Nat.add_zero, List.drop_zero] at dropped
  rw [BytesStart, dropped, prefix_bytes_iff ascii]

theorem not_bytesStart_inside {c : Char} (ascii : c.toNat < 128) (start before : List Char) {d : Char}
    (rest : List Char) {offset : Nat} (behind : 0 < offset) (inside : offset < d.utf8Size) :
    ¬ BytesStart (before ++ d :: rest) (byteLength before + offset) (c :: start) := by
  have bound : offset < (String.utf8EncodeChar d).length := by rwa [String.length_utf8EncodeChar]
  have high : 128 ≤ ((String.utf8EncodeChar d)[offset]).toNat := by
    obtain ⟨index, rfl⟩ := Nat.exists_eq_succ_of_ne_zero (Nat.ne_of_gt behind)
    apply high_of_mem_tail (c := d)
    rw [← List.getElem_tail (by rw [List.length_tail]; omega)]
    exact List.getElem_mem _
  rw [BytesStart, drop_bytes_append, bytes_cons d, List.drop_append_of_le_length (Nat.le_of_lt bound),
    List.drop_eq_getElem_cons bound, List.cons_append]
  exact not_prefix_of_high ascii start high _

/-- What one pass of a loop leads to. It goes wrong where it cuts a text elsewhere than at a place, or
takes one from a count that is zero. -/
inductive Pass (State Result : Type) where
  | again (state : State)
  | done (result : Result)
  | wrong
deriving DecidableEq, Repr

/-- From a state the loop comes to an end with a result, after passes of which none goes wrong. -/
inductive EndsIn {State Result : Type} (pass : State → Pass State Result) : State → Result → Prop
  | done {state result} : pass state = .done result → EndsIn pass state result
  | again {state next result} : pass state = .again next → EndsIn pass next result →
      EndsIn pass state result

namespace EndsIn

variable {State Result : Type} {pass : State → Pass State Result} {state : State} {first second : Result}

theorem unique (left : EndsIn pass state first) (right : EndsIn pass state second) : first = second := by
  induction left with
  | done finished =>
      cases right with
      | done finished' => simpa [finished] using finished'
      | again moved _ => simp [finished] at moved
  | again moved _ ih =>
      cases right with
      | done finished => simp [moved] at finished
      | again moved' ended =>
          obtain rfl := Pass.again.inj (moved.symm.trans moved')
          exact ih ended

theorem stretch {states : Nat → State} {index : Nat} (count : Nat)
    (steps : ∀ offset < count, pass (states (index + offset)) = .again (states (index + offset + 1)))
    (ended : EndsIn pass (states (index + count)) first) : EndsIn pass (states index) first := by
  induction count with
  | zero => exact ended
  | succ count ih =>
      apply ih fun offset below => steps offset (Nat.lt_succ_of_lt below)
      exact again (steps count (Nat.lt_succ_self count)) ended

/-- A loop that looks for ASCII characters at its index gets over the bytes that follow the first one of
a character. -/
theorem rest_of_character (states : Nat → State) {before rest : List Char} {c : Char}
    (skips : ∀ index < byteLength (before ++ c :: rest),
      (∀ d start, d.toNat < 128 → ¬ BytesStart (before ++ c :: rest) index (d :: start)) →
        pass (states index) = .again (states (index + 1)))
    (ended : EndsIn pass (states (byteLength (before ++ [c]))) first) :
    EndsIn pass (states (byteLength before + 1)) first := by
  have := c.utf8Size_pos
  apply stretch (c.utf8Size - 1)
  · intro offset below
    apply skips
    · simp only [byteLength_append, byteLength_cons]
      omega
    · intro d start ascii
      rw [Nat.add_assoc]
      exact not_bytesStart_inside ascii start before rest (by omega) (by omega)
  · have size : byteLength before + 1 + (c.utf8Size - 1) = byteLength (before ++ [c]) := by
      simp only [byteLength_append, byteLength_cons, byteLength_nil]
      omega
    rwa [size]

end EndsIn

def Reaches {State Result : Type} (pass : State → Pass State Result) : State → State → Prop :=
  Relation.ReflTransGen fun state next => pass state = .again next

namespace Reaches

variable {State Result : Type} {pass : State → Pass State Result} {state next first second : State}

theorem again (moved : pass state = .again next) (run : Reaches pass next first) :
    Reaches pass state first :=
  Relation.ReflTransGen.head moved run

theorem invariant {Holds : State → Prop}
    (keeps : ∀ state next, pass state = .again next → Holds state → Holds next)
    (run : Reaches pass first second) (holds : Holds first) : Holds second := by
  induction run with
  | refl => exact holds
  | tail _ moved ih => exact keeps _ _ moved ih

theorem rightUnique (pass : State → Pass State Result) :
    Relator.RightUnique fun state next => pass state = .again next := by
  intro state next other moved moved'
  exact Pass.again.inj (moved.symm.trans moved')

theorem eq_of_done {result : Result} (finished : pass first = .done result)
    (run : Reaches pass first second) : first = second := by
  rcases Relation.ReflTransGen.cases_head run with same | ⟨next, moved, _⟩
  · exact same
  · simp [finished] at moved

theorem unique {result result' : Result} (left : Reaches pass state first)
    (right : Reaches pass state second) (finished : pass first = .done result)
    (finished' : pass second = .done result') : first = second := by
  rcases Relation.ReflTransGen.total_of_right_unique (rightUnique pass) left right with run | run
  · exact eq_of_done finished run
  · exact (eq_of_done finished' run).symm

end Reaches

end WebTestLint
