import WebTestLint.Json.Fault

/-!
Why a document does not load: its text is no JSON of the right types, or an entry has the wrong shape.
-/

namespace WebTestLint

inductive ShapeFault where
  | unknownKind
  | stepNotObject (step : String)
  | stepType (step found expected : String)
  | rowNotObject (row step : String)
  | elementNotString (name : String)
deriving DecidableEq, Repr

def ShapeFault.message : ShapeFault → String
  | .unknownKind => "document has neither a \"config\" nor a \"url\" key"
  | .stepNotObject step => "step \"" ++ step ++ "\" must be an object"
  | .stepType step found expected =>
    "step \"" ++ step ++ "\": " ++ (Json.Fault.Cause.invalidType found expected).message
  | .rowNotObject row step =>
    "data set \"" ++ row ++ "\" of step \"" ++ step ++ "\" must be an object"
  | .elementNotString name => "element \"" ++ name ++ "\" must be a string identifier"

inductive LoadError where
  | json (cause : Json.Fault.Cause) (position : Json.Position)
  | shape (fault : ShapeFault)
deriving DecidableEq, Repr

namespace LoadError

def ofFault (text : List Char) (fault : Json.Fault) : LoadError :=
  .json fault.cause (fault.position text)

def detail : LoadError → String
  | json cause position =>
    cause.message ++ " at line " ++ position.line.repr ++ " column " ++ position.column.repr
  | shape fault => fault.message

def message (error : LoadError) : String :=
  match error with
  | json .. => "Invalid JSON: " ++ error.detail
  | shape _ => "Invalid document: " ++ error.detail

/-- The message followed by those of its causes. The fault in a text is a cause of its own. -/
def trace (error : LoadError) : List String :=
  match error with
  | json .. => [error.message, error.detail]
  | shape _ => [error.message]

end LoadError

end WebTestLint
