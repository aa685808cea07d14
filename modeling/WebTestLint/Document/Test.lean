import WebTestLint.Document.Error
import WebTestLint.Json.Record
import WebTestLint.Statement.Parse
import WebTestLint.Test.Basic

/-!
Test documents: an object with the configuration under `config` and a step under every other key.
-/

namespace WebTestLint

namespace Configuration

structure Draft where
  browser? : Option String
  url? : Option String

def fields : List (Json.Field Draft) :=
  [{ key := "browser"
     isSet := (·.browser?.isSome)
     read := fun draft text => do
      let (browser, rest) ← Json.expectString text
      pure ({ draft with browser? := some browser }, rest) },
   { key := "url"
     isSet := (·.url?.isSome)
     read := fun draft text => do
      let (url, rest) ← Json.expectString text
      pure ({ draft with url? := some url }, rest) }]

def read (text : List Char) : Json.Reading Configuration :=
  (Json.readRecord "struct ConfigDocument" fields ⟨none, none⟩ text).map fun (draft, rest) =>
    (⟨draft.browser?.getD "", draft.url?.getD ""⟩, rest)

end Configuration

namespace Data

/-- The text of a parameter's value. What is no string stands as it is written. -/
def parameterText : Json.Value → String
  | .string text => text
  | value => value.compact

def ofRow (step : String) : String × Json.Value → Except ShapeFault DataSet
  | (row, .object members) =>
    .ok ⟨row, members.map fun (name, value) => (name, parameterText value)⟩
  | (row, _) => .error (.rowNotObject row step)

end Data

namespace Step

structure Draft where
  actions : List String
  assertions : List String
  data? : Option Json.Members

structure Mismatch where
  found : String
  expected : String

def linesOf : Json.Value → Except Mismatch (List String)
  | .array items => items.mapM fun item =>
    match item with
    | .string line => .ok line
    | other => .error ⟨other.describe, "a string"⟩
  | other => .error ⟨other.describe, "a sequence"⟩

def dataOf : Json.Value → Except Mismatch (Option Json.Members)
  | .null => .ok none
  | .object rows => .ok (some rows)
  | other => .error ⟨other.describe, "a map"⟩

def Draft.add (draft : Draft) (member : String × Json.Value) : Except Mismatch Draft := do
  if member.1 = "actions" then pure { draft with actions := ← linesOf member.2 }
  else if member.1 = "assertions" then pure { draft with assertions := ← linesOf member.2 }
  else if member.1 = "data" then pure { draft with data? := ← dataOf member.2 }
  else pure draft

def ofDraft (name : String) (draft : Draft) : Except ShapeFault Step := do
  let data? ← draft.data?.mapM fun rows => rows.mapM (Data.ofRow name)
  pure
    { actions := draft.actions.map Action.ofLine
      assertions := draft.assertions.map Assertion.ofLine
      data? }

def ofMember : String × Json.Value → Except ShapeFault (String × Step)
  | (name, .object members) =>
    match members.foldlM Draft.add ⟨[], [], none⟩ with
    | .ok draft => (ofDraft name draft).map fun step => (name, step)
    | .error mismatch => .error (.stepType name mismatch.found mismatch.expected)
  | (name, _) => .error (.stepNotObject name)

end Step

namespace Test

structure Draft where
  configuration? : Option Configuration
  steps : Json.Members

def fields : List (Json.Field Draft) :=
  [{ key := "config"
     isSet := (·.configuration?.isSome)
     read := fun draft text => do
      let (configuration, rest) ← Configuration.read text
      pure ({ draft with configuration? := some configuration }, rest) }]

def readStep (draft : Draft) (key : String) (text : List Char) :
    Except Json.Fault (Draft × List Char) := do
  let (steps, rest) ← Json.readMember (Json.readValue (Json.depthLimit - 1)) draft.steps key text
  pure ({ draft with steps }, rest)

def read (text : List Char) : Json.Reading Draft :=
  match Json.skipSpace text with
  | '{' :: rest =>
    Json.readMembers (Json.readField fields readStep) (rest.length + 1) true ⟨none, []⟩ rest
  | rest => .error (Json.mismatch "struct TestDocument" rest)

/-- Loads a test document. Without a configuration the test has an empty one. -/
def load (content : String) : Except LoadError Test := do
  let draft ← (Json.finish (read content.toList)).mapError (.ofFault content.toList)
  let steps ← (draft.steps.mapM Step.ofMember).mapError .shape
  pure { configuration := draft.configuration?.getD ⟨"", ""⟩, steps }

end Test

end WebTestLint
