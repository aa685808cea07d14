import WebTestLint.Step.Basic

/-!
Tests: a browser and a url to open in it, and named steps to take there.
-/

namespace WebTestLint

structure Configuration where
  browser : String
  url : String
deriving DecidableEq, Repr

structure Test where
  configuration : Configuration
  steps : List (String × Step)
deriving DecidableEq, Repr

end WebTestLint
