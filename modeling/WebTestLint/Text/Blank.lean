/-!
Blanks are the characters with the Unicode property White_Space. Words are separated by blanks,
and trimming removes them from either end of a text.
-/

namespace WebTestLint

/-- The ranges of code points with the property White_Space, in order. -/
def blankRanges : List (Nat × Nat) :=
  [(0x09, 0x0D), (0x20, 0x20), (0x85, 0x85), (0xA0, 0xA0), (0x1680, 0x1680), (0x2000, 0x200A),
    (0x2028, 0x2029), (0x202F, 0x202F), (0x205F, 0x205F), (0x3000, 0x3000)]

def isBlank (c : Char) : Bool :=
  blankRanges.any fun range => range.1 ≤ c.toNat && c.toNat ≤ range.2

def trimStart (text : List Char) : List Char := text.dropWhile isBlank

def trimEnd : List Char → List Char
  | [] => []
  | c :: rest =>
    match trimEnd rest with
    | [] => if isBlank c then [] else [c]
    | kept => c :: kept

def trim (text : List Char) : List Char := trimEnd (trimStart text)

theorem isBlank_of_isWhitespace (c : Char) (white : c.isWhitespace = true) : isBlank c = true := by
  simp only [Char.isWhitespace, Bool.or_eq_true, decide_eq_true_eq] at white
  rcases white with ((rfl | rfl) | rfl) | rfl <;> decide

theorem trimEnd_eq_nil_iff (text : List Char) : trimEnd text = [] ↔ ∀ c ∈ text, isBlank c = true := by
  induction text with
  | nil => simp [trimEnd]
  | cons c rest ih =>
    cases kept : trimEnd rest with
    | nil =>
      have blankRest := ih.mp kept
      by_cases blank : isBlank c = true
      · simpa [trimEnd, kept, blank] using blankRest
      · simp [trimEnd, kept, blank]
    | cons head tail =>
      have notBlank : ¬∀ x ∈ rest, isBlank x = true := by
        rw [← ih, kept]
        simp
      simp [trimEnd, kept]
      exact fun _ => by simpa using notBlank

theorem trimEnd_append (text : List Char) :
    ∃ blanks, (∀ c ∈ blanks, isBlank c = true) ∧ text = trimEnd text ++ blanks := by
  induction text with
  | nil => exact ⟨[], by simp, rfl⟩
  | cons c rest ih =>
    obtain ⟨blanks, allBlank, same⟩ := ih
    cases kept : trimEnd rest with
    | nil =>
      rw [kept] at same
      by_cases blank : isBlank c = true
      · refine ⟨c :: rest, ?_, by simp [trimEnd, kept, blank]⟩
        intro x member
        rcases List.mem_cons.mp member with rfl | member
        · exact blank
        · exact allBlank x (by simpa [same] using member)
      · exact ⟨rest, by simpa [same] using allBlank, by simp [trimEnd, kept, blank]⟩
    | cons head tail =>
      refine ⟨blanks, allBlank, ?_⟩
      simp only [trimEnd, kept, List.cons_append, List.cons.injEq, true_and]
      simpa [kept] using same

end WebTestLint
