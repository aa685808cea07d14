import WebTestLint.Document.Kind

/-!
Reports: what came of linting each file, and how many files came out which way.
-/

namespace WebTestLint.Report

inductive Status where
  | valid
  | invalid
  | error
deriving DecidableEq, Repr

structure Entry where
  layer : String
  reason : String
  subject : String
  context : List (String × String)
deriving DecidableEq, Repr

def Entry.ofLink (link : Link) : Entry :=
  { layer := link.layer.code
    reason := link.reason.code
    subject := link.subject.describe
    context := link.context.map fun (key, detail) => (key, detail.show) }

def entries (failure : Failure) : List Entry := failure.chain.map Entry.ofLink

structure File where
  file : String
  kind? : Option Document.Kind
  status : Status
  chain : List Entry
  error? : Option String
deriving DecidableEq, Repr

namespace File

def ofVerdict (file : String) (kind : Document.Kind) : Verdict → File
  | .valid _ => ⟨file, some kind, .valid, [], none⟩
  | .invalid failure => ⟨file, some kind, .invalid, entries failure, none⟩

def ofError (file : String) (kind? : Option Document.Kind) (message : String) : File :=
  ⟨file, kind?, .error, [], some message⟩

end File

structure Summary where
  files : Nat
  valid : Nat
  invalid : Nat
  loadErrors : Nat
deriving DecidableEq, Repr

def count (status : Status) (files : List File) : Nat := files.countP (·.status = status)

def Summary.of (files : List File) : Summary :=
  ⟨files.length, count .valid files, count .invalid files, count .error files⟩

def Summary.hasFailures (summary : Summary) : Bool :=
  0 < summary.invalid || 0 < summary.loadErrors

end WebTestLint.Report
