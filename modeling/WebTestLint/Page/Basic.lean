/-!
Pages: the url of a page and names for elements on it.
-/

namespace WebTestLint

structure Page where
  importName : String
  url : String
  identifiers : List (String × String)
deriving DecidableEq, Repr

end WebTestLint
