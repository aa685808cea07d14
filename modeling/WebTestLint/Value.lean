import WebTestLint.Text.Affix
import WebTestLint.Text.Blank
import WebTestLint.Identifier.Descendant
import WebTestLint.Verdict.Basic

/-!
Values: what an input is set to, and what the two sides of an assertion are. A value is an element or
attribute of the page, a `$data` or `$env` parameter, a property of the browser or the page, or a
quoted literal.
-/

namespace WebTestLint.Value

/-- Whether a text ends with a quote that no backslash escapes; `escaped` tells whether one stands
before the text. -/
def closesAtEnd (escaped : Bool) : List Char → Bool
  | [] => false
  | ['"'] => !escaped
  | c :: rest => closesAtEnd (c == '\\' && !escaped) rest

def isLiteral (text : List Char) : Bool :=
  match trim text with
  | '"' :: body => closesAtEnd false body
  | _ => false

def isEnvironment (text : List Char) : Bool :=
  match dropStart? "$env.".toList text with
  | some name => !name.isEmpty && !name.contains '.'
  | none => false

def browserProperties : List String := ["size"]

def pageProperties : List String := ["title", "url"]

def fault? (value : String) : Option Reason :=
  let text := value.toList
  if Identifier.isSingle text || Identifier.isDescendantElement text then none
  else if (Data.parameterName? value).isSome || isEnvironment text || isLiteral text then none
  else
    match dropStart? "$browser.".toList text, dropStart? "$page.".toList text with
    | some property, _ =>
      if String.ofList property ∈ browserProperties then none else some .valuePropertyInvalid
    | none, some property =>
      if String.ofList property ∈ pageProperties then none else some .valuePropertyInvalid
    | none, none => some .valueInvalid

def check (value : String) : Verdict :=
  match fault? value with
  | none => .valid (.value value)
  | some reason => .invalid (.of (.value value) .value reason)

/-- The sides of an assertion may also be attributes below other elements. -/
def checkContent (content : String) : Verdict :=
  if Identifier.isAny content.toList then .valid (.value content) else check content

end WebTestLint.Value
