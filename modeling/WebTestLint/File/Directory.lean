/-!
Trees of files. A directory lists its entries by name: files with their contents, and folders. Names are
Unicode texts, as are the paths and patterns that are looked up, so that a path is shown as it is. Names of
other bytes are left out, and so are symbolic links and all else that is neither a file nor a folder.
-/

namespace WebTestLint.File

/-- What a file holds: a text, or bytes that are no text in UTF-8. -/
inductive Content where
  | text (text : String)
  | binary
deriving DecidableEq, Repr

inductive Directory where
  | empty
  | file (name : String) (content : Content) (rest : Directory)
  | folder (name : String) (inner rest : Directory)
deriving DecidableEq, Repr

inductive Entry where
  | file (content : Content)
  | folder (inner : Directory)
deriving DecidableEq, Repr

def Entry.isFolder : Entry → Bool
  | .file _ => false
  | .folder _ => true

namespace Directory

def cons (name : String) (entry : Entry) (rest : Directory) : Directory :=
  match entry with
  | .file content => .file name content rest
  | .folder inner => .folder name inner rest

def get? (name : String) : Directory → Option Entry
  | .empty => none
  | .file other content rest => if other = name then some (.file content) else rest.get? name
  | .folder other inner rest => if other = name then some (.folder inner) else rest.get? name

def alter (name : String) (change : Option Entry → Entry) : Directory → Directory
  | .empty => cons name (change none) .empty
  | .file other content rest =>
    if other = name then cons name (change (some (.file content))) rest
    else .file other content (rest.alter name change)
  | .folder other inner rest =>
    if other = name then cons name (change (some (.folder inner))) rest
    else .folder other inner (rest.alter name change)

/-- Puts a file, or without a content a folder, at a place, and makes the folders above it. -/
def put (content? : Option Content) : List String → Directory → Directory
  | [], directory => directory
  | name :: names, directory =>
    directory.alter name fun entry? =>
      match names, content? with
      | [], some content => .file content
      | _, _ =>
        match entry? with
        | some (.folder inner) => .folder (put content? names inner)
        | _ => .folder (put content? names .empty)

end Directory

def Entry.find? : Entry → List String → Option Entry
  | entry, [] => some entry
  | .file _, _ :: _ => none
  | .folder inner, name :: names => (inner.get? name).bind (·.find? names)
termination_by structural _ place => place

end WebTestLint.File
