import WebTestLint.Document.Page
import WebTestLint.Document.Test
import WebTestLint.Page.Check
import WebTestLint.Test.Check

/-!
Linting documents: a document is loaded as a test or as a page and then checked.
-/

namespace WebTestLint.Document

inductive Kind where
  | test
  | page
deriving DecidableEq, Repr

def Kind.detect? : Json.Value → Option Kind
  | .object members =>
    if Json.Members.contains members "config" then some .test
    else if Json.Members.contains members "url" then some .page
    else none
  | _ => none

def kindOf (content : String) : Except LoadError Kind := do
  let value ← (Json.Value.ofText content).mapError (.ofFault content.toList)
  match Kind.detect? value with
  | some kind => pure kind
  | none => throw (.shape .unknownKind)

def lintAs (kind : Kind) (content importName : String) : Except LoadError Verdict :=
  match kind with
  | .test => (Test.load content).map Test.check
  | .page => (Page.load content importName).map Page.check

def lint (kind? : Option Kind) (content importName : String) : Except LoadError (Kind × Verdict) := do
  let kind ← kind?.elim (kindOf content) pure
  let verdict ← lintAs kind content importName
  pure (kind, verdict)

end WebTestLint.Document
