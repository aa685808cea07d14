import WebTestLint.File.Path
import WebTestLint.File.Pattern

/-!
Finding files by pattern. A part without wildcards is followed as it stands, any other part is compared
with the names in a folder.
-/

namespace WebTestLint.File

structure Found where
  path : List Char
  place : List String
  entry : Entry
deriving DecidableEq, Repr

namespace Found

def name (found : Found) : List Char := (found.place.getLast?.getD "").toList

def child (path : List Char) (place : List String) (name : String) (entry : Entry) : Found :=
  ⟨join path name.toList, place ++ [name], entry⟩

end Found

namespace Directory

def children (path : List Char) (place : List String) : Directory → List Found
  | .empty => []
  | .file name content rest => .child path place name (.file content) :: rest.children path place
  | .folder name inner rest => .child path place name (.folder inner) :: rest.children path place

def descendants (path : List Char) (place : List String) : Directory → List Found
  | .empty => []
  | .file name content rest => .child path place name (.file content) :: rest.descendants path place
  | .folder name inner rest =>
    .child path place name (.folder inner) ::
      inner.descendants (join path name.toList) (place ++ [name]) ++ rest.descendants path place

end Directory

/-- Follows a part that is a name, or a way to stay or go up, which only a folder has. -/
def step (root : Directory) (found : Found) (part : List Char) : Option Found :=
  match found.entry with
  | .file _ => none
  | .folder inner =>
    if isIdle part then some { found with path := join found.path part }
    else if part = ['.', '.'] then
      let place := found.place.dropLast
      ((Entry.folder root).find? place).map fun entry => ⟨join found.path part, place, entry⟩
    else (inner.get? (String.ofList part)).map (.child found.path found.place (String.ofList part))

/-- The ways to stay and go up that a part with wildcards stands for. It must start with a dot. -/
def dots (part : List Token) : List (List Char) :=
  if part.head? = some (.char '.') then [['.'], ['.', '.']].filter (Token.matchesName part) else []

mutual

def expand (root : Directory) : List (List Token) → Found → List Found
  | [], found => [found]
  | part :: parts, found =>
    match Token.literal? part, found.entry with
    | some name, _ => (step root found name).toList.flatMap (expand root parts)
    | none, .file _ => []
    | none, .folder inner =>
      if Token.isAnyFolders part then
        (inner.descendants found.path found.place).flatMap (expandBelow root parts)
      else
        ((inner.children found.path found.place).filter fun child =>
            Token.matchesName part child.name).flatMap (expand root parts) ++
          ((dots part).filterMap (step root found)).flatMap (expand root parts)

/-- What the parts behind `**` lead to from an entry below. At the end of a pattern `**` stands for
folders only. -/
def expandBelow (root : Directory) : List (List Token) → Found → List Found
  | [], found => if found.entry.isFolder then [found] else []
  | part :: parts, found =>
    if Token.isAnyFolders part then expandBelow root parts found
    else if Token.matchesName part found.name then expand root parts found
    else []

end

def patternParts (pattern : List Char) : List (List Char) :=
  let parts := (splitPath pattern).drop 1
  if parts.length ≤ 1 || parts.getLast? != some [] then parts else parts.dropLast

/-- What an absolute pattern stands for. The pattern is read as a whole first, so that a fault anywhere in
it counts. One that ends in a slash stands for folders only. -/
def glob (root : Directory) (pattern : List Char) : Except PatternError (List Found) := do
  let _ ← tokens true pattern
  let parts ← (patternParts pattern).mapM (tokens true)
  let found := expand root parts ⟨['/'], [], .folder root⟩
  if pattern.getLast? = some '/' then pure (found.filter (·.entry.isFolder)) else pure found

end WebTestLint.File
