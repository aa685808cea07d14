import WebTestLint.Text.Bytes

/-!
Faults of a JSON text. A fault is found with some of the text still unread, and its position follows
from how much: lines count from one, and the column is the number of bytes since the last line feed.
-/

namespace WebTestLint.Json

inductive Fault.Cause where
  | endInList
  | endInObject
  | endInString
  | endInValue
  | expectedColon
  | expectedListCommaOrEnd
  | expectedObjectCommaOrEnd
  | expectedWord
  | expectedValue
  | invalidEscape
  | invalidNumber
  | numberOutOfRange
  | keyNotString
  | controlCharacter
  | loneSurrogate
  | unfinishedSurrogatePair
  | trailingComma
  | trailingCharacters
  | tooDeep
  | duplicateField (name : String)
  | invalidType (found expected : String)
deriving DecidableEq, Repr

def Fault.Cause.message : Fault.Cause → String
  | .endInList => "EOF while parsing a list"
  | .endInObject => "EOF while parsing an object"
  | .endInString => "EOF while parsing a string"
  | .endInValue => "EOF while parsing a value"
  | .expectedColon => "expected `:`"
  | .expectedListCommaOrEnd => "expected `,` or `]`"
  | .expectedObjectCommaOrEnd => "expected `,` or `\x7d`"
  | .expectedWord => "expected ident"
  | .expectedValue => "expected value"
  | .invalidEscape => "invalid escape"
  | .invalidNumber => "invalid number"
  | .numberOutOfRange => "number out of range"
  | .keyNotString => "key must be a string"
  | .controlCharacter => "control character (\\u0000-\\u001F) found while parsing a string"
  | .loneSurrogate => "lone leading surrogate in hex escape"
  | .unfinishedSurrogatePair => "unexpected end of hex escape"
  | .trailingComma => "trailing comma"
  | .trailingCharacters => "trailing characters"
  | .tooDeep => "recursion limit exceeded"
  | .duplicateField name => "duplicate field `" ++ name ++ "`"
  | .invalidType found expected => "invalid type: " ++ found ++ ", expected " ++ expected

/-- A cause, and how many bytes of the text are past the fault. -/
structure Fault where
  cause : Fault.Cause
  unread : Nat
deriving DecidableEq, Repr

structure Position where
  line : Nat
  column : Nat
deriving DecidableEq, Repr

def Position.advance (position : Position) : Nat → List Char → Position
  | 0, _ => position
  | bytes, [] => { position with column := position.column + bytes }
  | bytes, c :: rest =>
    if bytes < c.utf8Size then { position with column := position.column + bytes }
    else if c = '\n' then advance ⟨position.line + 1, 0⟩ (bytes - c.utf8Size) rest
    else advance { position with column := position.column + c.utf8Size } (bytes - c.utf8Size) rest
termination_by structural _ text => text

namespace Fault

def before (cause : Cause) (rest : List Char) : Fault := ⟨cause, byteLength rest⟩

/-- A fault of the byte in front of which a reader stands, or of the end of the text. -/
def past (cause : Cause) (rest : List Char) : Fault := ⟨cause, byteLength rest - 1⟩

def position (fault : Fault) (text : List Char) : Position :=
  Position.advance ⟨1, 0⟩ (byteLength text - fault.unread) text

end Fault

end WebTestLint.Json
