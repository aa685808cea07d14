import WebTestLint.Text.Sorted
import WebTestLint.File.Glob

/-!
Resolving the patterns that a user names. A file stands for itself, a folder for the documents in and
below it, and any other text is a pattern for files.
-/

namespace WebTestLint.File

def documentsBelow (folder : List Char) : List Char := folder ++ "/**/*.json".toList

/-- The files that a pattern stands for, as far as their paths lead to them. A path can be too long. -/
def globPaths (root : Directory) (pattern : List Char) : Except PatternError (List String) :=
  (glob root pattern).map fun found =>
    (found.filter fun candidate => isFile root candidate.path).map fun file => String.ofList file.path

def resolvePattern (root : Directory) (folder : List Char) (pattern : String) :
    Except PatternError (List String) :=
  let path := resolve folder pattern.toList
  match entryAt? root path with
  | some (.file _) => .ok [String.ofList path]
  | some (.folder _) => globPaths root (documentsBelow path)
  | none => globPaths root path

def resolvePatterns (root : Directory) (folder : List Char) (patterns : List String) :
    Except PatternError (List String) :=
  (patterns.mapM (resolvePattern root folder)).map fun paths => sortDistinct paths.flatten

end WebTestLint.File
