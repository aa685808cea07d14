import WebTestLint.CommandLine.Arguments
import WebTestLint.File.Lint

/-!
A run of the command line: what it writes and the code that it exits with. Zero says that all documents
are valid, one that some are not or that a pattern has a fault, two that the arguments have one.
-/

namespace WebTestLint.CommandLine

structure Outcome where
  code : Nat
  output : String
  complaint : String
deriving DecidableEq, Repr

def Outcome.ofStop (stop : Stop) : Outcome :=
  if stop.isFault then ⟨2, "", stop.message⟩ else ⟨0, stop.message, ""⟩

def Outcome.ofReports (format : Report.Format) (reports : List Report.File) : Outcome :=
  ⟨if (Report.Summary.of reports).hasFailures then 1 else 0, format.write reports ++ "\n", ""⟩

def Outcome.ofPatternError (error : File.PatternError) : Outcome :=
  ⟨1, "", "Error: " ++ error.message ++ "\n"⟩

def run (root : File.Directory) (folder : List Char) (arguments : List String) : Outcome :=
  match parse arguments with
  | .error stop => .ofStop stop
  | .ok arguments =>
    match File.reports root folder arguments.kind? arguments.targets with
    | .error error => .ofPatternError error
    | .ok reports => .ofReports arguments.format reports

end WebTestLint.CommandLine
