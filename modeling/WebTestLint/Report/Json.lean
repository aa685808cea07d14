import WebTestLint.Report.Basic
import WebTestLint.Json.Writer

/-!
The report for programs: an object with the files and the summary. What a file does not have is left
out.
-/

namespace WebTestLint.Report

def Status.name : Status → String
  | .valid => "valid"
  | .invalid => "invalid"
  | .error => "error"

def kindName : Document.Kind → String
  | .test => "test"
  | .page => "page"

def contextValue (entry : String × String) : Json.Value :=
  .object [("key", .string entry.1), ("value", .string entry.2)]

def listMember (key : String) (items : List Json.Value) : Json.Members :=
  if items.isEmpty then [] else [(key, .array items)]

def textMember (key : String) (text? : Option String) : Json.Members :=
  text?.toList.map fun text => (key, .string text)

def Entry.value (entry : Entry) : Json.Value :=
  .object <|
    [("type", .string entry.layer), ("reason", .string entry.reason),
      ("subject", .string entry.subject)] ++
    listMember "context" (entry.context.map contextValue)

def File.value (file : File) : Json.Value :=
  .object <|
    [("file", .string file.file)] ++ textMember "kind" (file.kind?.map kindName) ++
    [("status", .string file.status.name)] ++ listMember "chain" (file.chain.map Entry.value) ++
    textMember "error" file.error?

def number (value : Nat) : Json.Value := .number (.natural value)

def Summary.value (summary : Summary) : Json.Value :=
  .object
    [("files", number summary.files), ("valid", number summary.valid),
      ("invalid", number summary.invalid), ("load_errors", number summary.loadErrors)]

def value (files : List File) : Json.Value :=
  .object [("files", .array (files.map File.value)), ("summary", (Summary.of files).value)]

def json (files : List File) : String := (value files).pretty

end WebTestLint.Report
