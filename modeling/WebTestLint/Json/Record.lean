import WebTestLint.Text.Escaped
import WebTestLint.Json.Skip
import WebTestLint.Json.Writer

/-!
Reading where a certain type is expected. A record is an object with known fields, each at most once, or
a list of its fields in order; either may leave some out.
-/

namespace WebTestLint.Json

def Value.describe : Value → String
  | .null => "null"
  | .boolean true => "boolean `true`"
  | .boolean false => "boolean `false`"
  | .number (.float value) => "floating point `" ++ String.ofList (Number.float value).write ++ "`"
  | .number integer => "integer `" ++ String.ofList integer.write ++ "`"
  | .string text => "string " ++ escaped text
  | .array _ => "sequence"
  | .object _ => "map"

/-- The fault of a value of another type. A scalar is read first and may itself be faulty, a list or an
object is not entered. -/
def mismatch (expected : String) (text : List Char) : Fault :=
  match text with
  | '[' :: _ => .before (.invalidType "sequence" expected) text
  | '{' :: _ => .before (.invalidType "map" expected) text
  | _ =>
    match readScalar text with
    | .ok (value, rest) => .before (.invalidType value.describe expected) rest
    | .error fault => fault

def expectString (text : List Char) : Reading String :=
  match skipSpace text with
  | '"' :: rest => readString rest
  | rest => .error (mismatch "a string" rest)

def expectMap (room : Nat) (text : List Char) : Reading Members :=
  match skipSpace text with
  | '{' :: rest => readMembers (readMember (readValue room)) (rest.length + 1) true [] rest
  | rest => .error (mismatch "a map" rest)

structure Field (σ : Type) where
  key : String
  isSet : σ → Bool
  read : σ → List Char → Except Fault (σ × List Char)

/-- The fault of a repeated field lies behind its key, or behind the end of the record if that follows. -/
def duplicate (key : String) (text : List Char) : Fault :=
  match skipSpace text with
  | '}' :: rest => .before (.duplicateField key) rest
  | rest => .before (.duplicateField key) rest

def readField (fields : List (Field σ)) (other : σ → String → List Char → Except Fault (σ × List Char))
    (state : σ) (key : String) (text : List Char) : Except Fault (σ × List Char) := do
  match fields.find? (·.key == key) with
  | some field =>
    if field.isSet state then throw (duplicate key text)
    else field.read state (← readColon text)
  | none => other state key text

def skipField (state : σ) (_ : String) (text : List Char) : Except Fault (σ × List Char) := do
  pure (state, ← skipValue (← readColon text))

def readFields (fields : List (Field σ)) (first : Bool) (state : σ) (text : List Char) :
    Except Fault (σ × List Char) := do
  match fields with
  | [] => pure (state, ← endItems text)
  | field :: fields =>
    match ← nextItem first text with
    | none => pure (state, (skipSpace text).drop 1)
    | some rest =>
      let (state, rest) ← field.read state rest
      readFields fields false state rest

def readRecord (name : String) (fields : List (Field σ)) (empty : σ) (text : List Char) :
    Except Fault (σ × List Char) :=
  match skipSpace text with
  | '{' :: rest => readMembers (readField fields skipField) (rest.length + 1) true empty rest
  | '[' :: rest => readFields fields true empty rest
  | rest => .error (mismatch name rest)

end WebTestLint.Json
