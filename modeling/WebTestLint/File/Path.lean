import WebTestLint.Text.Bytes
import WebTestLint.File.Directory

/-!
Paths. A path is a text of parts between slashes; an absolute one starts with a slash. An empty part and
a dot stay in a folder and two dots go to the one above it, so that many paths lead to one place.
-/

namespace WebTestLint.File

def splitPath : List Char → List (List Char)
  | [] => [[]]
  | c :: rest =>
    if c = '/' then [] :: splitPath rest
    else
      match splitPath rest with
      | [] => [[c]]
      | part :: parts => (c :: part) :: parts

def isAbsolute (path : List Char) : Bool := path.head? == some '/'

def join (path part : List Char) : List Char :=
  if path.getLast? = some '/' then path ++ part else path ++ '/' :: part

def resolve (folder path : List Char) : List Char :=
  if isAbsolute path then path else join folder path

def isIdle (part : List Char) : Bool := part.isEmpty || part == ['.']

def partsBelow? : List (List Char) → List (List Char) → Option (List (List Char))
  | [], parts => some (parts.dropWhile isIdle)
  | name :: names, parts =>
    match parts.dropWhile isIdle with
    | [] => none
    | part :: parts => if part = name then partsBelow? names parts else none

/-- A path without the folder that it leads through, or the whole path if it does not. -/
def display (folder path : List Char) : List Char :=
  let names := (splitPath folder).filter (!isIdle ·)
  if isAbsolute path && isAbsolute folder then
    match partsBelow? names (splitPath path) with
    | some parts => ['/'].intercalate (parts.reverse.dropWhile isIdle).reverse
    | none => path
  else path

/-- The name of a file without its extension. A dot that the name starts with belongs to the name. -/
def stem (path : List Char) : List Char :=
  let name := ((splitPath path).getLast?).getD []
  let turned := name.reverse.dropWhile (· != '.')
  if turned.length ≤ 1 then name else (turned.drop 1).reverse

inductive PathError where
  | notFound
  | notDirectory
  | isDirectory
  | nameTooLong
  | nullByte
  | notText
deriving DecidableEq, Repr

def PathError.message : PathError → String
  | .notFound => "No such file or directory (os error 2)"
  | .notDirectory => "Not a directory (os error 20)"
  | .isDirectory => "Is a directory (os error 21)"
  | .nameTooLong => "File name too long (os error 36)"
  | .nullByte => "file name contained an unexpected NUL byte"
  | .notText => "stream did not contain valid UTF-8"

def follow (root : Directory) (place : List String) : List (List Char) → Except PathError (List String)
  | [] => .ok place
  | part :: parts =>
    match (Entry.folder root).find? place with
    | some (.folder inner) =>
      if isIdle part then follow root place parts
      else if part = ['.', '.'] then follow root place.dropLast parts
      else if 255 < byteLength part then .error .nameTooLong
      else
        match inner.get? (String.ofList part) with
        | some _ => follow root (place ++ [String.ofList part]) parts
        | none => .error .notFound
    | _ => .error .notDirectory

def locate (root : Directory) (path : List Char) : Except PathError (List String) :=
  if path.contains '\x00' then .error .nullByte
  else if 4096 ≤ byteLength path then .error .nameTooLong
  else follow root [] (splitPath path)

def entryAt? (root : Directory) (path : List Char) : Option Entry :=
  (locate root path).toOption.bind (Entry.folder root).find?

def isFile (root : Directory) (path : List Char) : Bool :=
  match entryAt? root path with
  | some (.file _) => true
  | _ => false

def readText (root : Directory) (path : List Char) : Except PathError String := do
  let place ← locate root path
  match (Entry.folder root).find? place with
  | some (.file (.text content)) => pure content
  | some (.file .binary) => throw .notText
  | some (.folder _) => throw .isDirectory
  | none => throw .notFound

end WebTestLint.File
