import WebTestLint.Identifier.Descendant
import WebTestLint.Verdict.Basic

/-!
Checks of pages: a page needs a url, and each of its names must stand for an element.
-/

namespace WebTestLint.Page

def failure (page : Page) (reason : Reason) : Failure := .of (.page page) .page reason

def check (page : Page) : Verdict :=
  if (trim page.url.toList).isEmpty then .invalid (page.failure .pageUrlEmpty)
  else
    match page.identifiers.find? fun entry => !Identifier.isTarget entry.2.toList with
    | some (name, identifier) =>
      .invalid (((page.failure .pageInvalidIdentifier).setContext "name" (.text name)).setContext
        "identifier" (.text identifier))
    | none => .valid (.page page)

end WebTestLint.Page
