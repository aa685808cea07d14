import WebTestLint.Json.Text

/-!
Reading JSON values. Readers of objects and lists are given a reader for what stands in them, so that
the members of a document can be read each in its own way.
-/

namespace WebTestLint.Json

def isSpace (c : Char) : Bool := c = ' ' || c = '\n' || c = '\t' || c = '\r'

def skipSpace (text : List Char) : List Char := text.dropWhile isSpace

def depthLimit : Nat := 127

def readWord (value : Value) : List Char → List Char → Reading Value
  | [], text => .ok (value, text)
  | _ :: _, [] => .error (.before .endInValue [])
  | letter :: letters, c :: rest =>
    if c = letter then readWord value letters rest else .error (.past .expectedWord (c :: rest))

def readScalar (text : List Char) : Reading Value :=
  match text with
  | [] => .error (.past .endInValue [])
  | 'n' :: rest => readWord .null "ull".toList rest
  | 't' :: rest => readWord (.boolean true) "rue".toList rest
  | 'f' :: rest => readWord (.boolean false) "alse".toList rest
  | '"' :: rest => (readString rest).map fun (text, rest) => (.string text, rest)
  | '-' :: rest => (Number.read true rest).map fun (number, rest) => (.number number, rest)
  | c :: _ =>
    if c.isDigit then (Number.read false text).map fun (number, rest) => (.number number, rest)
    else .error (.past .expectedValue text)

def readColon (text : List Char) : Except Fault (List Char) :=
  match skipSpace text with
  | ':' :: rest => .ok rest
  | [] => .error (.past .endInObject [])
  | rest => .error (.past .expectedColon rest)

def nextItem (first : Bool) (text : List Char) : Except Fault (Option (List Char)) :=
  match skipSpace text with
  | [] => .error (.past .endInList [])
  | ']' :: _ => .ok none
  | c :: rest =>
    if first then .ok (some (c :: rest))
    else if c = ',' then
      match skipSpace rest with
      | [] => .error (.past .endInValue [])
      | ']' :: after => .error (.past .trailingComma (']' :: after))
      | rest => .ok (some rest)
    else .error (.past .expectedListCommaOrEnd (c :: rest))

def endItems (text : List Char) : Except Fault (List Char) :=
  match skipSpace text with
  | ']' :: rest => .ok rest
  | [] => .error (.past .endInList [])
  | ',' :: rest =>
    match skipSpace rest with
    | ']' :: after => .error (.past .trailingComma (']' :: after))
    | rest => .error (.past .trailingCharacters rest)
  | rest => .error (.past .trailingCharacters rest)

def nextKey (first : Bool) (text : List Char) : Except Fault (Option (String × List Char)) :=
  match skipSpace text with
  | [] => .error (.past .endInObject [])
  | '}' :: _ => .ok none
  | c :: rest =>
    if first then
      if c = '"' then (readString rest).map some else .error (.past .keyNotString (c :: rest))
    else if c = ',' then
      match skipSpace rest with
      | [] => .error (.past .endInValue [])
      | '"' :: rest => (readString rest).map some
      | '}' :: after => .error (.past .trailingComma ('}' :: after))
      | rest => .error (.past .keyNotString rest)
    else .error (.past .expectedObjectCommaOrEnd (c :: rest))

def readItems (item : List Char → Reading α) :
    Nat → Bool → List Char → Except Fault (List α × List Char)
  | 0, _, _ => .error (.past .endInList [])
  | fuel + 1, first, text => do
    match ← nextItem first text with
    | none => pure ([], (skipSpace text).drop 1)
    | some rest =>
      let (value, rest) ← item rest
      let (values, rest) ← readItems item fuel false rest
      pure (value :: values, rest)

/-- Reads the members of an object behind its opening bracket. Each key and the text behind it go to
`member` together with what the members before have made. -/
def readMembers (member : σ → String → List Char → Reading σ) :
    Nat → Bool → σ → List Char → Except Fault (σ × List Char)
  | 0, _, _, _ => .error (.past .endInObject [])
  | fuel + 1, first, state, text => do
    match ← nextKey first text with
    | none => pure (state, (skipSpace text).drop 1)
    | some (key, rest) =>
      let (state, rest) ← member state key rest
      readMembers member fuel false state rest

def readMember (value : List Char → Reading Value) (members : Members) (key : String)
    (text : List Char) : Except Fault (Members × List Char) := do
  let (item, rest) ← value (← readColon text)
  pure (members.set key item, rest)

/-- Reads a value in which up to `room` brackets may be open at once. -/
def readValue (room : Nat) (text : List Char) : Reading Value :=
  match skipSpace text, room with
  | '[' :: rest, room + 1 =>
    (readItems (readValue room) (rest.length + 1) true rest).map fun (items, rest) =>
      (.array items, rest)
  | '{' :: rest, room + 1 =>
    (readMembers (readMember (readValue room)) (rest.length + 1) true [] rest).map
      fun (members, rest) => (.object members, rest)
  | '[' :: rest, 0 => .error (.past .tooDeep ('[' :: rest))
  | '{' :: rest, 0 => .error (.past .tooDeep ('{' :: rest))
  | rest, _ => readScalar rest
termination_by structural room

def finish (reading : Reading α) : Except Fault α := do
  let (value, rest) ← reading
  match skipSpace rest with
  | [] => pure value
  | rest => .error (.past .trailingCharacters rest)

def Value.ofText (text : String) : Except Fault Value := finish (readValue depthLimit text.toList)

end WebTestLint.Json
