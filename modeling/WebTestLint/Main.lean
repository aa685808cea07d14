import WebTestLint.CommandLine.Run

/-!
The program. It surveys the files that its patterns can lead to, reads those that they stand for, and
runs the command line on them.
-/

namespace WebTestLint

open File (Directory Content)

def hasWildcard (part : List Char) : Bool := part.any ['*', '?', '['].contains

def pathOf (place : List String) : String := "/" ++ "/".intercalate place

partial def surveyBelow (tree : Directory) (place : List String) : IO Directory := do
  let folder := (← IO.currentDir) / pathOf place
  let entries ← try folder.readDir catch _ => pure #[]
  entries.foldlM (fun tree entry => do
    let inner := place ++ [entry.fileName]
    if ← entry.path.isDir then surveyBelow (tree.put none inner) inner
    else pure (tree.put (some .binary) inner)) tree

partial def survey (tree : Directory) (place : List String) : List (List Char) → IO Directory
  | [] => surveyBelow tree place
  | part :: parts => do
    if File.isIdle part then survey tree place parts
    else if part = ['.', '.'] then survey tree place.dropLast parts
    else if part = ['*', '*'] then surveyBelow tree place
    else
      let folder := (← IO.currentDir) / pathOf place
      let names ←
        if hasWildcard part then
          try pure ((← folder.readDir).toList.map (·.fileName)) catch _ => pure []
        else pure [String.ofList part]
      names.foldlM (fun tree (name : String) => do
        let path := folder / name
        let inner := place ++ [name]
        if ← path.isDir then survey (tree.put none inner) inner parts
        else if ← path.pathExists then pure (tree.put (some .binary) inner)
        else pure tree) tree

def surveyPattern (folder : List Char) (tree : Directory) (pattern : String) : IO Directory :=
  survey tree [] (File.splitPath (File.resolve folder pattern.toList))

def readFile (tree : Directory) (path : String) : IO Directory := do
  match File.locate tree path.toList with
  | .error _ => pure tree
  | .ok place =>
    let bytes ← try IO.FS.readBinFile path catch _ => return tree
    pure (tree.put ((String.fromUTF8? bytes).map Content.text |>.getD .binary) place)

end WebTestLint

open WebTestLint

def main (arguments : List String) : IO UInt32 := do
  let folder := (← IO.currentDir).toString.toList
  let patterns := ((CommandLine.parse arguments).toOption.map (·.targets)).getD []
  let tree ← patterns.foldlM (surveyPattern folder) .empty
  let paths := (File.resolvePatterns tree folder patterns).toOption.getD []
  let tree ← paths.foldlM readFile tree
  let outcome := CommandLine.run tree folder arguments
  IO.print outcome.output
  IO.eprint outcome.complaint
  return outcome.code.toUInt32
