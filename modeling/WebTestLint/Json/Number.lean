import WebTestLint.Json.Fault
import WebTestLint.Json.Value

/-!
Reading JSON numbers. Integers of 64 bits are kept as they are. Any other number becomes one of double
precision: its first digits, as many as fit into 64 bits, times a power of ten, each rounded on its own.
-/

namespace WebTestLint.Json

abbrev Reading (α : Type) := Except Fault (α × List Char)

namespace Number

def digit (c : Char) : Nat := c.toNat - '0'.toNat

def startsWithDigit : List Char → Bool
  | c :: _ => c.isDigit
  | [] => false

def accumulate (limit number : Nat) : List Char → Nat × List Char
  | [] => (number, [])
  | c :: rest =>
    if c.isDigit && number * 10 + digit c < limit then
      accumulate limit (number * 10 + digit c) rest
    else (number, c :: rest)

/-- Divides a magnitude by a power of ten. A power past the format's range is divided out in parts. -/
def divideByPower (units exponent : Nat) : Nat :=
  if exponent ≤ 308 then Binary64.div units (Binary64.powerOfTen exponent)
  else if units = 0 then 0
  else divideByPower (Binary64.div units (Binary64.powerOfTen 308)) (exponent - 308)
termination_by exponent
decreasing_by omega

def scale? (significand : Nat) (exponent : Int) : Option Nat :=
  let units := Binary64.ofNat significand
  if exponent < 0 then some (divideByPower units exponent.natAbs)
  else if units = 0 then some 0
  else if 308 < exponent then none
  else
    let scaled := Binary64.mul units (Binary64.powerOfTen exponent.toNat)
    if scaled < Binary64.limit then some scaled else none

def ofParts (negative : Bool) (significand : Nat) (exponent : Int) (rest : List Char) :
    Reading Number :=
  match scale? significand exponent with
  | some units => .ok (.float ⟨negative, units⟩, rest)
  | none => .error (.before .numberOutOfRange rest)

/-- Reads the digits of an exponent. One that does not fit into 32 bits with a sign stands for infinity. -/
def ofExponentDigits (negative : Bool) (significand : Nat) (exponent : Int) (falling : Bool)
    (text : List Char) : Reading Number :=
  match text with
  | [] => .error (.before .endInValue [])
  | c :: _ =>
    if c.isDigit then
      match accumulate (UInt32.size / 2) 0 text with
      | (power, further :: rest) =>
        if further.isDigit then
          if significand != 0 && !falling then .error (.before .numberOutOfRange rest)
          else .ok (.float ⟨negative, 0⟩, rest.dropWhile Char.isDigit)
        else
          ofParts negative significand (if falling then exponent - power else exponent + power)
            (further :: rest)
      | (power, []) =>
        ofParts negative significand (if falling then exponent - power else exponent + power) []
    else .error (.past .invalidNumber text)

def ofExponent (negative : Bool) (significand : Nat) (exponent : Int) :
    List Char → Reading Number
  | '+' :: text => ofExponentDigits negative significand exponent false text
  | '-' :: text => ofExponentDigits negative significand exponent true text
  | text => ofExponentDigits negative significand exponent false text

def ofRest (negative : Bool) (significand : Nat) (exponent : Int) (text : List Char) :
    Reading Number :=
  match text with
  | c :: rest =>
    if c = 'e' || c = 'E' then ofExponent negative significand exponent rest
    else ofParts negative significand exponent text
  | [] => ofParts negative significand exponent []

/-- Reads the digits behind the point. Those that no longer fit are dropped. -/
def ofFraction (negative : Bool) (significand : Nat) (exponent : Int) (text : List Char) :
    Reading Number :=
  let (significand, rest) := accumulate UInt64.size significand text
  let exponent := exponent - (text.length - rest.length : Nat)
  if startsWithDigit text then ofRest negative significand exponent (rest.dropWhile Char.isDigit)
  else if text.isEmpty then .error (.past .endInValue text)
  else .error (.past .invalidNumber text)

def ofInteger (negative : Bool) (significand : Nat) (rest : List Char) : Number × List Char :=
  if !negative then (.natural significand, rest)
  else if 1 ≤ significand && significand ≤ UInt64.size / 2 then (.negative significand, rest)
  else (.float ⟨true, Binary64.ofNat significand⟩, rest)

def read (negative : Bool) (text : List Char) : Reading Number :=
  match text with
  | [] => .error (.before .endInValue [])
  | c :: rest =>
    if !c.isDigit then .error (.past .invalidNumber text)
    else if c = '0' && startsWithDigit rest then .error (.past .invalidNumber rest)
    else
      let (significand, rest) := accumulate UInt64.size 0 text
      let dropped := rest.takeWhile Char.isDigit
      match rest.dropWhile Char.isDigit with
      | '.' :: fraction => ofFraction negative significand dropped.length fraction
      | rest =>
        if !dropped.isEmpty || rest.head? == some 'e' || rest.head? == some 'E' then
          ofRest negative significand dropped.length rest
        else .ok (ofInteger negative significand rest)

end Number

end WebTestLint.Json
