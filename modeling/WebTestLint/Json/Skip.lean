import WebTestLint.Json.Reader

/-!
Skipping JSON values. A skipped value must be well formed, but its brackets may be nested to any depth,
its numbers may have any size and its strings any escapes.
-/

namespace WebTestLint.Json

def skipExponent (text : List Char) : Except Fault (List Char) :=
  let digits :=
    match text with
    | '+' :: rest => rest
    | '-' :: rest => rest
    | rest => rest
  if Number.startsWithDigit digits then .ok (digits.dropWhile Char.isDigit)
  else .error (.past .invalidNumber digits)

def skipPower : List Char → Except Fault (List Char)
  | c :: rest => if c = 'e' || c = 'E' then skipExponent rest else .ok (c :: rest)
  | [] => .ok []

def skipNumber (text : List Char) : Except Fault (List Char) :=
  match text with
  | [] => .error (.past .invalidNumber [])
  | c :: rest =>
    if !c.isDigit then .error (.past .invalidNumber text)
    else if c = '0' && Number.startsWithDigit rest then .error (.past .invalidNumber rest)
    else
      match text.dropWhile Char.isDigit with
      | '.' :: fraction =>
        if Number.startsWithDigit fraction then skipPower (fraction.dropWhile Char.isDigit)
        else .error (.past .invalidNumber fraction)
      | rest => skipPower rest

def skipScalar (text : List Char) : Except Fault (List Char) :=
  match text with
  | '"' :: rest => skipString rest
  | '-' :: rest => skipNumber rest
  | c :: _ => if c.isDigit then skipNumber text else (readScalar text).map (·.2)
  | [] => .error (.past .endInValue [])

def skipKey (text : List Char) : Except Fault (List Char) :=
  match skipSpace text with
  | '"' :: rest => do readColon (← skipString rest)
  | [] => .error (.past .endInObject [])
  | rest => .error (.past .keyNotString rest)

inductive Bracket where
  | list
  | object
deriving DecidableEq, Repr

mutual

def skipOpen : Nat → List Bracket → List Char → Except Fault (List Char)
  | 0, _, _ => .error (.past .endInValue [])
  | fuel + 1, brackets, text =>
    match skipSpace text with
    | '[' :: rest =>
      match skipSpace rest with
      | [] => .error (.past .endInList [])
      | ']' :: after => skipClosed fuel brackets after
      | rest => skipOpen fuel (.list :: brackets) rest
    | '{' :: rest =>
      match skipSpace rest with
      | [] => .error (.past .endInObject [])
      | '}' :: after => skipClosed fuel brackets after
      | rest => do skipOpen fuel (.object :: brackets) (← skipKey rest)
    | rest => do skipClosed fuel brackets (← skipScalar rest)

def skipClosed : Nat → List Bracket → List Char → Except Fault (List Char)
  | _, [], text => .ok text
  | 0, _ :: _, _ => .error (.past .endInValue [])
  | fuel + 1, .list :: outer, text =>
    match skipSpace text with
    | [] => .error (.past .endInList [])
    | ',' :: rest => skipOpen fuel (.list :: outer) rest
    | ']' :: rest => skipClosed fuel outer rest
    | rest => .error (.past .expectedListCommaOrEnd rest)
  | fuel + 1, .object :: outer, text =>
    match skipSpace text with
    | [] => .error (.past .endInObject [])
    | ',' :: rest => do skipOpen fuel (.object :: outer) (← skipKey rest)
    | '}' :: rest => skipClosed fuel outer rest
    | rest => .error (.past .expectedObjectCommaOrEnd rest)

end

/-- Skips one value. Each bracket, comma and scalar takes at least one character, so the length of the
text bounds the number of steps. -/
def skipValue (text : List Char) : Except Fault (List Char) := skipOpen (text.length + 1) [] text

end WebTestLint.Json
