import WebTestLint.Text.Blank

/-!
The shapes of a single identifier. An element is a quoted selector behind a `$`, with an optional
position: `$".item"`, `$".item":2`, `$".item":first`. An attribute is an element followed by a dot and
a name. A page element is a name behind a `$`, and a page's url is the page's name followed by `.url`.
-/

namespace WebTestLint.Identifier

def isNameChar (c : Char) : Bool := c.isAlphanum || c == '_' || c == '-'

def isName (text : List Char) : Bool := !text.isEmpty && text.all isNameChar

/-- What follows the first unescaped quote. A backslash escapes any character but a line feed. -/
def afterSelector? : List Char → Option (List Char)
  | [] => none
  | '"' :: rest => some rest
  | ['\\'] => none
  | '\\' :: c :: rest => if c = '\n' then none else afterSelector? rest
  | _ :: rest => afterSelector? rest

def suffix? : List Char → Option (List Char)
  | '$' :: '"' :: '"' :: _ => none
  | '$' :: '"' :: body => afterSelector? body
  | _ => none

def isDigits (text : List Char) : Bool := !text.isEmpty && text.all Char.isDigit

def isIndex (text : List Char) : Bool :=
  text == "first".toList || text == "last".toList ||
    match text with
    | '-' :: digits => isDigits digits
    | digits => isDigits digits

def isPosition : List Char → Bool
  | [] => true
  | ':' :: index => isIndex index
  | _ => false

def isElement (text : List Char) : Bool :=
  match suffix? text with
  | some suffix => isPosition suffix
  | none => false

def isProperty : List Char → Bool
  | '.' :: name => isName name
  | _ => false

def isAttribute (text : List Char) : Bool :=
  match suffix? text with
  | some suffix => isPosition (suffix.takeWhile (· != '.')) && isProperty (suffix.dropWhile (· != '.'))
  | none => false

def isPageElement : List Char → Bool
  | '$' :: name => isName name
  | _ => false

def isPageUrl (text : List Char) : Bool :=
  isName (text.takeWhile (· != '.')) && text.dropWhile (· != '.') == ".url".toList

end WebTestLint.Identifier
