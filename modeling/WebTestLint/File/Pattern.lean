/-!
Patterns for file names. `?` stands for one character, `*` for any number of them, brackets for one
character of a class or, behind an exclamation mark, for one that is not in it. `**` stands for any
number of folders and must be a part of its own.
-/

namespace WebTestLint.File

inductive Range where
  | single (c : Char)
  | range (low high : Char)
deriving DecidableEq, Repr

inductive Token where
  | char (c : Char)
  | anyChar
  | anyText
  | anyFolders
  | oneOf (ranges : List Range)
  | noneOf (ranges : List Range)
deriving DecidableEq, Repr

inductive PatternError where
  | wildcards
  | recursiveWildcards
  | rangePattern
deriving DecidableEq, Repr

def PatternError.message : PatternError → String
  | .wildcards => "wildcards are either regular `*` or recursive `**`"
  | .recursiveWildcards => "recursive wildcards must form a single path component"
  | .rangePattern => "invalid range pattern"

def ranges : List Char → List Range
  | low :: '-' :: high :: rest => .range low high :: ranges rest
  | c :: rest => .single c :: ranges rest
  | [] => []

/-- Splits a text behind an opening bracket at the one that closes the class. A bracket that the class
starts with belongs to it. -/
def splitClass? : List Char → Option (List Char × List Char)
  | [] => none
  | first :: rest =>
    match rest.dropWhile (· != ']') with
    | [] => none
    | _ :: after => some (first :: rest.takeWhile (· != ']'), after)

theorem length_of_splitClass? {text inner after : List Char}
    (found : splitClass? text = some (inner, after)) : after.length < text.length := by
  unfold splitClass? at found
  split at found
  · simp at found
  · rename_i first rest
    split at found
    · simp at found
    · rename_i bracket tail dropped
      simp only [Option.some.injEq, Prod.mk.injEq] at found
      have shorter := (List.dropWhile_suffix (l := rest) (· != ']')).length_le
      rw [dropped] at shorter
      simp only [List.length_cons, ← found.2] at shorter ⊢
      omega

/-- Reads a pattern; `first` tells whether a part starts here. -/
def tokens (first : Bool) (text : List Char) : Except PatternError (List Token) :=
  match text with
  | [] => .ok []
  | '?' :: rest => (tokens false rest).map (.anyChar :: ·)
  | '*' :: '*' :: '*' :: _ => .error .wildcards
  | ['*', '*'] => if first then .ok [.anyFolders] else .error .recursiveWildcards
  | '*' :: '*' :: c :: rest =>
    if first && c = '/' then (tokens true rest).map (.anyFolders :: ·)
    else .error .recursiveWildcards
  | '*' :: rest => (tokens false rest).map (.anyText :: ·)
  | '[' :: '!' :: rest =>
    match _split : splitClass? rest with
    | some (inner, after) => (tokens false after).map (.noneOf (ranges inner) :: ·)
    | none => .error .rangePattern
  | '[' :: rest =>
    match _split : splitClass? rest with
    | some (inner, after) => (tokens false after).map (.oneOf (ranges inner) :: ·)
    | none => .error .rangePattern
  | c :: rest => (tokens (c = '/') rest).map (.char c :: ·)
termination_by text.length
decreasing_by
  all_goals try simp only [List.length_cons]
  all_goals try omega
  all_goals
    have := length_of_splitClass? _split
    omega

namespace Token

def isAnyFolders (part : List Token) : Bool := part == [.anyFolders]

def literal? (part : List Token) : Option (List Char) :=
  part.mapM fun token =>
    match token with
    | .char c => some c
    | _ => none

def inRange (c : Char) : Range → Bool
  | .single other => c = other
  | .range low high => low ≤ c && c ≤ high

def matchesChar (c : Char) : Token → Bool
  | .char other => c = other
  | .anyChar => true
  | .oneOf ranges => ranges.any (inRange c)
  | .noneOf ranges => !ranges.any (inRange c)
  | .anyText => true
  | .anyFolders => true

def suffixes : List Char → List (List Char)
  | [] => [[]]
  | c :: rest => (c :: rest) :: suffixes rest

def matchesName : List Token → List Char → Bool
  | [], name => name.isEmpty
  | .anyText :: rest, name => (suffixes name).any (matchesName rest)
  | .anyFolders :: rest, name => (suffixes name).any (matchesName rest)
  | _ :: _, [] => false
  | token :: rest, c :: name => token.matchesChar c && matchesName rest name

end Token

end WebTestLint.File
