import WebTestLint.Identifier.Scan
import WebTestLint.Statement.Basic

/-!
Reading statements from lines. Reading never fails: a line that is no statement becomes one that the
checks reject.
-/

namespace WebTestLint

namespace Action

def interactionCommands : List String := ["click", "submit", "wait-for"]

def bareCommands : List String := ["back", "forward", "reload"]

/-- The value behind the identifier of a `set`, without the keyword `to` if it stands as a word. -/
def inputValue (text : List Char) : List Char :=
  let text := trimStart text
  match dropStart? "to".toList text with
  | some [] => []
  | some (c :: rest) => if isBlank c then trim rest else trim text
  | none => trim text

def kindOf (command : String) (arguments : List Char) : Kind :=
  if command ∈ interactionCommands then
    .interaction (String.ofList (Scan.identifier arguments).1)
  else if command = "set" then
    let (identifier, rest) := Scan.identifier arguments
    .input (String.ofList identifier) (String.ofList (inputValue rest))
  else if command = "wait" then .wait (String.ofList arguments)
  else if command ∈ bareCommands then .noArguments
  else .unknown

def ofLine (line : String) : Action :=
  let source := trim line.toList
  let (command, rest) := Scan.word source
  let command := String.ofList command
  let arguments := trim rest
  { source := String.ofList source
    command
    arguments := String.ofList arguments
    kind := kindOf command arguments }

end Action

namespace Assertion

def existenceOperators : List String := ["exists", "not-exists"]

def comparisonOperators : List String := ["is", "is-not", "includes", "excludes", "matches"]

/-- A comparison has a value even if it is empty. An operator that is not known has one only if text
follows it. -/
def takesValue (operator : String) (value : List Char) : Bool :=
  operator ∉ existenceOperators && (!value.isEmpty || operator ∈ comparisonOperators)

def ofLine (line : String) : Assertion :=
  let source := trim line.toList
  let (identifier, rest) := Scan.identifier source
  let (operator, rest) := Scan.word (trimStart rest)
  let operator := String.ofList operator
  let value := trim rest
  { source := String.ofList source
    identifier := String.ofList identifier
    operator
    value? := if takesValue operator value then some (String.ofList value) else none }

end Assertion

end WebTestLint
