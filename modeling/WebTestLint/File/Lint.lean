import WebTestLint.File.Resolve
import WebTestLint.Report.Basic

/-!
Linting files. Every file that the patterns of a user stand for is read, loaded and checked, and each gets
a report of its own.
-/

namespace WebTestLint.File

inductive LintError where
  | unreadable (path : List Char) (cause : PathError)
  | unloadable (path : List Char) (cause : LoadError)
deriving DecidableEq, Repr

def LintError.message : LintError → String
  | unreadable path cause => "Failed to read " ++ String.ofList path ++ ": " ++ cause.message
  | unloadable path cause =>
    "Failed to load " ++ String.ofList path ++ ": " ++ ": ".intercalate cause.trace

def lint (root : Directory) (kind? : Option Document.Kind) (path : List Char) :
    Except LintError (Document.Kind × Verdict) := do
  let content ← (readText root path).mapError (.unreadable path)
  (Document.lint kind? content (String.ofList (stem path))).mapError (.unloadable path)

def report (root : Directory) (kind? : Option Document.Kind) (label : String) (path : List Char) :
    Report.File :=
  match lint root kind? path with
  | .ok (kind, verdict) => .ofVerdict label kind verdict
  | .error error => .ofError label kind? error.message

def reports (root : Directory) (folder : List Char) (kind? : Option Document.Kind)
    (patterns : List String) : Except PatternError (List Report.File) :=
  (resolvePatterns root folder patterns).map fun paths => paths.map fun path =>
    report root kind? (String.ofList (display folder path.toList)) path.toList

end WebTestLint.File
