import WebTestLint.Decimal.Shortest
import WebTestLint.Json.Value

/-!
Writing JSON values, on one line without blanks or indented with two spaces for each level. A number
that is not an integer has its shortest digits, in plain notation where its leading digit stands for
10⁻⁵ up to 10¹⁵.
-/

namespace WebTestLint.Json

namespace Number

def plain (digits : List Char) (leading : Int) : List Char :=
  if leading < 0 then ['0', '.'] ++ List.replicate (-leading - 1).toNat '0' ++ digits
  else
    let whole := leading.toNat + 1
    let fraction := digits.drop whole
    digits.take whole ++ List.replicate (whole - digits.length) '0' ++ '.' ::
      (if fraction.isEmpty then ['0'] else fraction)

def scientific (digits : List Char) (leading : Int) : List Char :=
  let sign := if leading < 0 then '-' else '+'
  let fraction := digits.drop 1
  digits.take 1 ++ (if fraction.isEmpty then [] else '.' :: fraction) ++
    ['e', sign] ++ Nat.toDigits 10 leading.natAbs

def magnitude (units : Nat) : List Char :=
  if units = 0 then ['0', '.', '0']
  else
    let decimal := Decimal.shortest units
    let digits := Nat.toDigits 10 decimal.digits
    let leading := decimal.exponent + digits.length - 1
    if -5 ≤ leading && leading ≤ 15 then plain digits leading else scientific digits leading

def write : Number → List Char
  | .natural value => Nat.toDigits 10 value
  | .negative value => '-' :: Nat.toDigits 10 value
  | .float value => (if value.negative then ['-'] else []) ++ magnitude value.units

end Number

def escape (c : Char) : List Char :=
  if c = '"' then ['\\', '"']
  else if c = '\\' then ['\\', '\\']
  else if c = '\x08' then ['\\', 'b']
  else if c = '\x0c' then ['\\', 'f']
  else if c = '\n' then ['\\', 'n']
  else if c = '\r' then ['\\', 'r']
  else if c = '\t' then ['\\', 't']
  else if c.toNat < 0x20 then
    ['\\', 'u', '0', '0', Nat.digitChar (c.toNat / 16), Nat.digitChar (c.toNat % 16)]
  else [c]

def writeString (text : String) : List Char := '"' :: text.toList.flatMap escape ++ ['"']

def lineBreak (indented : Bool) (level : Nat) : List Char :=
  if indented then '\n' :: List.replicate (2 * level) ' ' else []

def colon (indented : Bool) : List Char := if indented then [':', ' '] else [':']

mutual

def write (indented : Bool) (level : Nat) : Value → List Char
  | .null => "null".toList
  | .boolean true => "true".toList
  | .boolean false => "false".toList
  | .number value => value.write
  | .string text => writeString text
  | .array [] => ['[', ']']
  | .array (item :: rest) =>
    '[' :: lineBreak indented (level + 1) ++ write indented (level + 1) item ++
      writeItems indented (level + 1) rest ++ lineBreak indented level ++ [']']
  | .object [] => ['{', '}']
  | .object ((key, value) :: rest) =>
    '{' :: lineBreak indented (level + 1) ++ writeString key ++ colon indented ++
      write indented (level + 1) value ++ writeMembers indented (level + 1) rest ++
      lineBreak indented level ++ ['}']

def writeItems (indented : Bool) (level : Nat) : List Value → List Char
  | [] => []
  | item :: rest =>
    ',' :: lineBreak indented level ++ write indented level item ++ writeItems indented level rest

def writeMembers (indented : Bool) (level : Nat) : List (String × Value) → List Char
  | [] => []
  | (key, value) :: rest =>
    ',' :: lineBreak indented level ++ writeString key ++ colon indented ++
      write indented level value ++ writeMembers indented level rest

end

def Value.compact (value : Value) : String := String.ofList (write false 0 value)

def Value.pretty (value : Value) : String := String.ofList (write true 0 value)

end WebTestLint.Json
