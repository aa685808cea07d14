import WebTestLint.Document.Error
import WebTestLint.Json.Record
import WebTestLint.Page.Basic

/-!
Page documents: an object with the url of a page and, under `elements`, identifiers by name.
-/

namespace WebTestLint.Page

structure Draft where
  url? : Option String
  elements? : Option Json.Members

def fields : List (Json.Field Draft) :=
  [{ key := "url"
     isSet := (·.url?.isSome)
     read := fun draft text => do
      let (url, rest) ← Json.expectString text
      pure ({ draft with url? := some url }, rest) },
   { key := "elements"
     isSet := (·.elements?.isSome)
     read := fun draft text => do
      let (elements, rest) ← Json.expectMap (Json.depthLimit - 2) text
      pure ({ draft with elements? := some elements }, rest) }]

def identifierOf : String × Json.Value → Except ShapeFault (String × String)
  | (name, .string identifier) => .ok (name, identifier)
  | (name, _) => .error (.elementNotString name)

def load (content importName : String) : Except LoadError Page := do
  let draft ← (Json.finish (Json.readRecord "struct PageDocument" fields ⟨none, none⟩
    content.toList)).mapError (.ofFault content.toList)
  let identifiers ← ((draft.elements?.getD []).mapM identifierOf).mapError .shape
  pure { importName, url := draft.url?.getD "", identifiers }

end WebTestLint.Page
