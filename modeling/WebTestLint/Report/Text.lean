import WebTestLint.Report.Basic

/-!
The report for people: a line for each file, one for each link of its failure, indented further at every
link, one for an error, and a summary at the end. Colours are those of a terminal.
-/

namespace WebTestLint.Report

def coloured (start finish : String) (text : String) : String :=
  "\x1b[" ++ start ++ "m" ++ text ++ "\x1b[" ++ finish ++ "m"

def green : String → String := coloured "32" "39"

def red : String → String := coloured "31" "39"

def yellow : String → String := coloured "33" "39"

def dimmed : String → String := coloured "2" "0"

def Status.label : Status → String
  | .valid => green "PASS "
  | .invalid => red "FAIL "
  | .error => red "ERROR"

def Entry.line (entry : Entry) (depth : Nat) : String :=
  String.ofList (List.replicate (2 * (depth + 3)) ' ') ++ dimmed (entry.layer ++ ":") ++ " " ++
    yellow entry.reason ++
    String.join (entry.context.map fun (key, value) => " " ++ dimmed (key ++ "=" ++ value))

def File.lines (file : File) : List String :=
  [file.status.label ++ " " ++ file.file] ++
    file.chain.zipIdx.map (fun (entry, depth) => entry.line depth) ++
    file.error?.toList.map fun message => "      " ++ red "Error:" ++ " " ++ message

def Summary.line (summary : Summary) : String :=
  let noun := if summary.files = 1 then "file" else "files"
  let outOf (part : Nat) := part.repr ++ "/" ++ summary.files.repr ++ " " ++ noun
  if summary.files = 0 then yellow "!" ++ " No files to check"
  else if summary.invalid = 0 && summary.loadErrors = 0 then
    green "✓" ++ " " ++ outOf summary.valid ++ " valid"
  else
    red "✗" ++ " " ++ outOf summary.invalid ++ " invalid" ++
      if 0 < summary.loadErrors then ", " ++ summary.loadErrors.repr ++ " failed to load" else ""

def lines (files : List File) : List String :=
  files.flatMap File.lines ++ (if files.isEmpty then [] else [""]) ++ [(Summary.of files).line]

def text (files : List File) : String := "\n".intercalate (lines files)

end WebTestLint.Report
