import WebTestLint.Json.Number

/-!
Reading JSON strings. An escape of four hexadecimal digits stands for a unit of UTF-16, and two such
units may make up one character.
-/

namespace WebTestLint.Json

def unescape? (c : Char) : Option Char :=
  if c = '"' || c = '\\' || c = '/' then some c
  else if c = 'b' then some '\x08'
  else if c = 'f' then some '\x0c'
  else if c = 'n' then some '\n'
  else if c = 'r' then some '\r'
  else if c = 't' then some '\t'
  else none

def hexDigit? (c : Char) : Option Nat :=
  if c.isDigit then some (c.toNat - '0'.toNat)
  else if 'a' ≤ c && c ≤ 'f' then some (c.toNat - 'a'.toNat + 10)
  else if 'A' ≤ c && c ≤ 'F' then some (c.toNat - 'A'.toNat + 10)
  else none

def unit? : List Char → Option (Nat × List Char)
  | a :: b :: c :: d :: rest => do
    pure (((← hexDigit? a) * 16 + (← hexDigit? b)) * 256 + (← hexDigit? c) * 16 + (← hexDigit? d),
      rest)
  | _ => none

/-- The fault of a text that does not start with four hexadecimal digits: either there are not four
bytes left, or the four bytes have been read. -/
def unitFault (text : List Char) : Fault :=
  if byteLength text < 4 then .before .endInString []
  else ⟨.invalidEscape, byteLength text - 4⟩

def isLeading (unit : Nat) : Bool := 0xD800 ≤ unit && unit ≤ 0xDBFF

def isTrailing (unit : Nat) : Bool := 0xDC00 ≤ unit && unit ≤ 0xDFFF

def joinUnits (leading trailing : Nat) : Char :=
  Char.ofNat ((leading - 0xD800) * 0x400 + (trailing - 0xDC00) + 0x10000)

def readTrailing (leading : Nat) (text : List Char) : Reading Char :=
  match text with
  | '\\' :: 'u' :: rest =>
    match unit? rest with
    | some (unit, after) =>
      if isTrailing unit then .ok (joinUnits leading unit, after)
      else .error (.before .loneSurrogate after)
    | none => .error (unitFault rest)
  | [] | ['\\'] => .error (.before .endInString [])
  | '\\' :: rest => .error (.past .unfinishedSurrogatePair rest)
  | _ => .error (.past .unfinishedSurrogatePair text)

def readEscape (text : List Char) : Reading Char :=
  match text with
  | [] => .error (.before .endInString [])
  | 'u' :: rest =>
    match unit? rest with
    | some (unit, after) =>
      if isTrailing unit then .error (.before .loneSurrogate after)
      else if isLeading unit then readTrailing unit after
      else .ok (Char.ofNat unit, after)
    | none => .error (unitFault rest)
  | c :: rest =>
    match unescape? c with
    | some char => .ok (char, rest)
    | none => .error (.past .invalidEscape text)

theorem length_of_unit? {text rest : List Char} {unit : Nat} (found : unit? text = some (unit, rest)) :
    rest.length < text.length := by
  unfold unit? at found
  split at found
  · simp only [Option.bind_eq_bind, Option.bind_eq_some_iff, Option.pure_def, Option.some.injEq,
      Prod.mk.injEq] at found
    obtain ⟨_, _, _, _, _, _, _, _, _, rfl⟩ := found
    simp only [List.length_cons]
    omega
  · simp at found

theorem length_of_readTrailing {leading : Nat} {text rest : List Char} {c : Char}
    (found : readTrailing leading text = .ok (c, rest)) : rest.length < text.length := by
  unfold readTrailing at found
  split at found
  · split at found
    · rename_i unit after read
      have shorter := length_of_unit? read
      split at found
      · simp only [Except.ok.injEq, Prod.mk.injEq] at found
        simp only [List.length_cons, ← found.2]
        omega
      · simp at found
    · simp at found
  all_goals simp at found

theorem length_of_readEscape {text rest : List Char} {c : Char}
    (found : readEscape text = .ok (c, rest)) : rest.length < text.length := by
  unfold readEscape at found
  split at found
  · simp at found
  · split at found
    · rename_i unit after read
      have shorter := length_of_unit? read
      split at found
      · simp at found
      · split at found
        · have := length_of_readTrailing found
          simp only [List.length_cons]
          omega
        · simp only [Except.ok.injEq, Prod.mk.injEq] at found
          simp only [List.length_cons, ← found.2]
          omega
    · simp at found
  · split at found
    · simp only [Except.ok.injEq, Prod.mk.injEq] at found
      simp [← found.2]
    · simp at found

def readBody (text : List Char) : Reading (List Char) :=
  match text with
  | [] => .error (.before .endInString [])
  | '"' :: rest => .ok ([], rest)
  | '\\' :: rest =>
    match _read : readEscape rest with
    | .ok (c, after) => (readBody after).map fun (body, rest) => (c :: body, rest)
    | .error fault => .error fault
  | c :: rest =>
    if c.toNat < 0x20 then .error (.past .controlCharacter text)
    else (readBody rest).map fun (body, rest) => (c :: body, rest)
termination_by text.length
decreasing_by
  · have := length_of_readEscape _read
    simp only [List.length_cons]
    omega
  · simp

def readString (text : List Char) : Reading String :=
  (readBody text).map fun (body, rest) => (String.ofList body, rest)

/-- Skips a string behind its opening quote. Its escapes need not make up characters. -/
def skipString : List Char → Except Fault (List Char)
  | [] => .error (.before .endInString [])
  | '"' :: rest => .ok rest
  | ['\\'] => .error (.before .endInString [])
  | '\\' :: 'u' :: a :: b :: c :: d :: rest =>
    if (unit? [a, b, c, d]).isSome then skipString rest
    else .error (unitFault (a :: b :: c :: d :: rest))
  | '\\' :: 'u' :: rest => .error (unitFault rest)
  | '\\' :: c :: rest =>
    if (unescape? c).isSome then skipString rest else .error (.past .invalidEscape (c :: rest))
  | c :: rest =>
    if c.toNat < 0x20 then .error (.before .controlCharacter (c :: rest)) else skipString rest

end WebTestLint.Json
