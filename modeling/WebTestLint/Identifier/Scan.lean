import WebTestLint.Text.Affix
import WebTestLint.Text.Blank
import WebTestLint.Text.Bytes
import WebTestLint.Text.Quoted
import WebTestLint.Identifier.Chain

/-!
Scanners over a statement. Each splits a text into what it reads and what is left, without deciding
whether what it reads is well formed.
-/

namespace WebTestLint.Scan

def blanks (text : List Char) : List Char × List Char :=
  (text.takeWhile isBlank, text.dropWhile isBlank)

def word (text : List Char) : List Char × List Char :=
  (text.takeWhile (!isBlank ·), text.dropWhile (!isBlank ·))

/-- Splits a text just past the `}}` that brings the count of open braces back to zero. -/
def throughClose? (depth : Nat) : List Char → Option (List Char × List Char)
  | [] => none
  | '{' :: '{' :: rest =>
    (throughClose? (depth + 1) rest).map fun (inner, after) => ('{' :: '{' :: inner, after)
  | '}' :: '}' :: rest =>
    if depth ≤ 1 then some (['}', '}'], rest)
    else (throughClose? (depth - 1) rest).map fun (inner, after) => ('}' :: '}' :: inner, after)
  | c :: rest => (throughClose? depth rest).map fun (inner, after) => (c :: inner, after)

/-- Reads the nested form up to the first quote behind its closing braces. -/
def nested? : List Char → Option (List Char × List Char)
  | '$' :: '"' :: '{' :: '{' :: body => do
    let (braces, after) ← throughClose? 1 body
    match after.dropWhile (· != '"') with
    | [] => none
    | quote :: rest =>
      pure ('$' :: '"' :: '{' :: '{' :: braces ++ after.takeWhile (· != '"') ++ [quote], rest)
  | _ => none

def selector? : List Char → Option (List Char × List Char)
  | '$' :: '"' :: body =>
    (scanQuoted? ('"' :: body)).map fun (quoted, after) => ('$' :: quoted, after)
  | text => scanQuoted? text

/-- Reads one link of an identifier: a nested form or a quoted text with what touches it, or else a
word. -/
def link (text : List Char) : List Char × List Char :=
  match nested? text <|> selector? text with
  | some (quoted, after) => (quoted ++ (word after).1, (word after).2)
  | none => word text

theorem word_append (text : List Char) : (word text).1 ++ (word text).2 = text :=
  List.takeWhile_append_dropWhile

theorem blanks_append (text : List Char) : (blanks text).1 ++ (blanks text).2 = text :=
  List.takeWhile_append_dropWhile

theorem throughClose?_append {depth : Nat} {text closed after : List Char}
    (found : throughClose? depth text = some (closed, after)) : text = closed ++ after := by
  fun_induction throughClose? depth text generalizing closed with
  | case1 => simp at found
  | case2 depth rest ih =>
    obtain ⟨⟨inner, after'⟩, found', same⟩ := Option.map_eq_some_iff.mp found
    simp only [Prod.mk.injEq] at same
    obtain ⟨rfl, rfl⟩ := same
    simp [ih found']
  | case3 depth rest _ =>
    simp only [Option.some.injEq, Prod.mk.injEq] at found
    obtain ⟨rfl, rfl⟩ := found
    rfl
  | case4 depth rest _ ih =>
    obtain ⟨⟨inner, after'⟩, found', same⟩ := Option.map_eq_some_iff.mp found
    simp only [Prod.mk.injEq] at same
    obtain ⟨rfl, rfl⟩ := same
    simp [ih found']
  | case5 depth c rest _ _ ih =>
    obtain ⟨⟨inner, after'⟩, found', same⟩ := Option.map_eq_some_iff.mp found
    simp only [Prod.mk.injEq] at same
    obtain ⟨rfl, rfl⟩ := same
    simp [ih found']

theorem nested?_append {text quoted after : List Char}
    (found : nested? text = some (quoted, after)) : text = quoted ++ after := by
  unfold nested? at found
  split at found
  · rename_i body
    simp only [Option.bind_eq_bind, Option.bind_eq_some_iff, Prod.exists] at found
    obtain ⟨braces, tail, closed, found⟩ := found
    have whole := throughClose?_append closed
    split at found
    · simp at found
    · rename_i quote rest dropped
      simp only [Option.pure_def, Option.some.injEq, Prod.mk.injEq] at found
      obtain ⟨rfl, rfl⟩ := found
      have split : tail.takeWhile (· != '"') ++ quote :: rest = tail := by
        rw [← dropped, List.takeWhile_append_dropWhile]
      simp [whole, split]
  · simp at found

theorem selector?_append {text quoted after : List Char}
    (found : selector? text = some (quoted, after)) : text = quoted ++ after := by
  unfold selector? at found
  split at found
  · obtain ⟨⟨quoted', after'⟩, found', same⟩ := Option.map_eq_some_iff.mp found
    simp only [Prod.mk.injEq] at same
    obtain ⟨rfl, rfl⟩ := same
    simp [scanQuoted?_append _ _ _ found']
  · exact scanQuoted?_append _ _ _ found

theorem link_append (text : List Char) : (link text).1 ++ (link text).2 = text := by
  unfold link
  split
  · rename_i quoted after found
    have whole : text = quoted ++ after := by
      cases inNested : nested? text with
      | some pair =>
        rw [inNested] at found
        cases found
        exact nested?_append inNested
      | none =>
        rw [inNested] at found
        exact selector?_append found
    simp [whole, word_append]
  · exact word_append text

theorem length_link_le (text : List Char) : (link text).2.length ≤ text.length := by
  have whole := congrArg List.length (link_append text)
  simp only [List.length_append] at whole
  omega

/-- Reads the links that a joint leads to. A joint with nothing behind it is left. -/
def links (text : List Char) : List Char × List Char :=
  match _found : dropStart? Identifier.joint text with
  | none => ([], text)
  | some below =>
    if (link below).1.isEmpty then ([], text)
    else
      let (further, rest) := links (link below).2
      (Identifier.joint ++ (link below).1 ++ further, rest)
termination_by text.length
decreasing_by
  have linkLength := length_link_le below
  have whole : text.length = 4 + below.length := by
    have joined := congrArg List.length ((dropStart?_eq_some_iff _ _ _).mp _found)
    simp only [Identifier.joint, List.length_append] at joined
    exact joined
  omega

def identifier (text : List Char) : List Char × List Char :=
  let (further, rest) := links (link text).2
  ((link text).1 ++ further, rest)

/-- The byte index that a scanner stops at when it starts at `start`. An index that is not a place in
the text stays as it is. -/
def stop (scan : List Char → List Char × List Char) (text : String) (start : Nat) : Nat :=
  match dropBytes? start text.toList with
  | none => start
  | some rest => start + byteLength (scan rest).1

def stopQuoted? (text : String) (start : Nat) : Option Nat := do
  let rest ← dropBytes? start text.toList
  let (quoted, _) ← scanQuoted? rest
  pure (start + byteLength quoted)

end WebTestLint.Scan
