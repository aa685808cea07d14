/-!
Quoted texts. A quoted text starts with a quote and ends with the next quote that no backslash escapes.
-/

namespace WebTestLint

/-- Splits a text just past its first unescaped quote; `escaped` tells whether a backslash stands
before the text. -/
def throughQuote (escaped : Bool) : List Char → Option (List Char × List Char)
  | [] => none
  | c :: rest =>
    if c = '"' && !escaped then some ([c], rest)
    else (throughQuote (c = '\\' && !escaped) rest).map fun (quoted, after) => (c :: quoted, after)

def scanQuoted? : List Char → Option (List Char × List Char)
  | '"' :: body => (throughQuote false body).map fun (quoted, after) => ('"' :: quoted, after)
  | _ => none

theorem throughQuote_append (escaped : Bool) (text quoted after : List Char)
    (found : throughQuote escaped text = some (quoted, after)) : text = quoted ++ after := by
  induction text generalizing escaped quoted with
  | nil => simp [throughQuote] at found
  | cons c rest ih =>
    simp only [throughQuote] at found
    split at found
    · simp only [Option.some.injEq, Prod.mk.injEq] at found
      simp [← found.1, ← found.2]
    · obtain ⟨⟨quoted', after'⟩, found', same⟩ := Option.map_eq_some_iff.mp found
      simp only [Prod.mk.injEq] at same
      obtain ⟨rfl, rfl⟩ := same
      simp [ih _ _ found']

theorem scanQuoted?_append (text quoted after : List Char)
    (found : scanQuoted? text = some (quoted, after)) : text = quoted ++ after := by
  unfold scanQuoted? at found
  split at found
  · obtain ⟨⟨quoted', after'⟩, found', same⟩ := Option.map_eq_some_iff.mp found
    simp only [Prod.mk.injEq] at same
    obtain ⟨rfl, rfl⟩ := same
    simp [throughQuote_append _ _ _ _ found']
  · simp at found

end WebTestLint
