import WebTestLint.Proofs.Walk

/-!
Names that are read as patterns. A name with wildcards does not stand for itself alone: either it does not
match itself, or one of its characters can be another.
-/

namespace WebTestLint.File

namespace Token

def isMany : Token → Bool
  | .anyText | .anyFolders => true
  | _ => false

def isFixed : Token → Bool
  | .char _ | .oneOf _ | .noneOf _ => true
  | _ => false

theorem matchesName_cons_of_isMany {token : Token} (many : token.isMany = true) (part : List Token)
    (name : List Char) :
    matchesName (token :: part) name = true ↔ ∃ rest, rest <:+ name ∧ matchesName part rest = true := by
  cases token <;> simp [isMany] at many <;> simp [matchesName, mem_suffixes_iff]

theorem matchesName_cons_of_not_isMany {token : Token} (one : token.isMany = false) (part : List Token)
    (name : List Char) :
    matchesName (token :: part) name = true ↔
      ∃ c rest, name = c :: rest ∧ token.matchesChar c = true ∧ matchesName part rest = true := by
  cases token <;> simp [isMany] at one <;> cases name <;> simp [matchesName]

theorem length_le_or_exists_free {part : List Token} {name : List Char}
    (matched : matchesName part name = true) :
    name.length ≤ part.countP isFixed ∨
      ∃ front c back, name = front ++ c :: back ∧ ∀ d, matchesName part (front ++ d :: back) = true := by
  induction part generalizing name with
  | nil =>
      obtain rfl : name = [] := by simpa [matchesName, List.isEmpty_iff] using matched
      exact .inl (Nat.zero_le _)
  | cons token part ih =>
      by_cases many : token.isMany = true
      · replace matched := (matchesName_cons_of_isMany many _ _).mp matched
        obtain ⟨rest, ⟨taken, rfl⟩, matched⟩ := matched
        cases taken with
        | nil =>
            rcases ih matched with few | ⟨front, c, back, rfl, free⟩
            · exact .inl (Nat.le_trans few (by simp [List.countP_cons]))
            · exact .inr ⟨front, c, back, rfl, fun d =>
                (matchesName_cons_of_isMany many _ _).mpr ⟨_, List.suffix_rfl, free d⟩⟩
        | cons c taken =>
            exact .inr ⟨[], c, taken ++ rest, rfl, fun d =>
              (matchesName_cons_of_isMany many _ _).mpr ⟨rest, ⟨d :: taken, rfl⟩, matched⟩⟩
      · have one : token.isMany = false := by simpa using many
        obtain ⟨c, rest, rfl, admits, matched⟩ := (matchesName_cons_of_not_isMany one _ _).mp matched
        by_cases fixed : token.isFixed = true
        · rcases ih matched with few | ⟨front, c', back, rfl, free⟩
          · exact .inl (by simpa [List.countP_cons, fixed] using few)
          · exact .inr ⟨c :: front, c', back, rfl, fun d =>
              (matchesName_cons_of_not_isMany one _ _).mpr ⟨c, _, rfl, admits, free d⟩⟩
        · refine .inr ⟨[], c, rest, rfl, fun d => ?_⟩
          refine (matchesName_cons_of_not_isMany one _ _).mpr ⟨d, rest, rfl, ?_, matched⟩
          cases token <;> simp_all [isMany, isFixed, matchesChar]

end Token

/-- What `tokens` reads fixes no more characters than the text has, and fewer if one has a meaning. -/
def IsReading (text : List Char) (part : List Token) : Prop :=
  part.countP Token.isFixed ≤ text.length ∧
    (IsLiteral text ∨ part.countP Token.isFixed < text.length ∧ Token.literal? part = none)

theorem IsReading.cons_wild {text rest : List Char} {token : Token} {part : List Token}
    (reading : IsReading rest part) (wild : ∀ c, token ≠ .char c)
    (shorter : rest.length + (if token.isFixed then 1 else 0) < text.length) :
    IsReading text (token :: part) := by
  have fewer := reading.1
  have none : Token.literal? (token :: part) = none := by
    cases token with
    | char c => exact absurd rfl (wild c)
    | _ => rfl
  have fixed : (token :: part).countP Token.isFixed < text.length := by
    rw [List.countP_cons]
    omega
  exact ⟨fixed.le, .inr ⟨fixed, none⟩⟩

theorem IsReading.cons_char {c : Char} {rest : List Char} {part : List Token}
    (reading : IsReading rest part) (plain : ¬ IsWildcard c) : IsReading (c :: rest) (.char c :: part) := by
  obtain ⟨fewer, literal | ⟨fixed, none⟩⟩ := reading
  · exact ⟨by simpa [List.countP_cons, Token.isFixed] using fewer,
      .inl (List.forall_mem_cons.mpr ⟨plain, literal⟩)⟩
  · refine ⟨by simpa [List.countP_cons, Token.isFixed] using fewer,
      .inr ⟨by simpa [List.countP_cons, Token.isFixed] using fixed, ?_⟩⟩
    rw [Token.literal?, List.mapM_cons, ← Token.literal?, none]
    rfl

theorem isReading_of_tokens {first : Bool} {text : List Char} {part : List Token}
    (read : tokens first text = .ok part) : IsReading text part := by
  fun_induction tokens first text generalizing part
  case case1 =>
    obtain rfl := Except.ok.inj read
    exact ⟨Nat.le_refl _, .inl (by simp [IsLiteral])⟩
  case case4 =>
    obtain rfl := Except.ok.inj read
    exact ⟨by decide, .inr (by decide)⟩
  case case2 rest ih =>
    obtain ⟨part, below, rfl⟩ := map_eq_ok_iff.mp read
    exact (ih below).cons_wild (by simp) (by simp [Token.isFixed])
  case case6 c rest _ _ ih =>
    obtain ⟨part, below, rfl⟩ := map_eq_ok_iff.mp read
    exact (ih below).cons_wild (by simp) (by simp [Token.isFixed]; omega)
  case case8 rest _ _ _ ih =>
    obtain ⟨part, below, rfl⟩ := map_eq_ok_iff.mp read
    exact (ih below).cons_wild (by simp) (by simp [Token.isFixed])
  case case9 rest inner after split ih =>
    obtain ⟨part, below, rfl⟩ := map_eq_ok_iff.mp read
    have shorter := length_of_splitClass? split
    exact (ih below).cons_wild (by simp) (by simp [Token.isFixed]; omega)
  case case11 rest _ inner after split ih =>
    obtain ⟨part, below, rfl⟩ := map_eq_ok_iff.mp read
    have shorter := length_of_splitClass? split
    exact (ih below).cons_wild (by simp) (by simp [Token.isFixed]; omega)
  case case13 c rest question _ _ _ star _ bracket ih =>
    obtain ⟨part, below, rfl⟩ := map_eq_ok_iff.mp read
    refine (ih below).cons_char ?_
    rintro (is | is | is)
    · exact star is
    · exact question is
    · exact bracket is
  all_goals simp at read

theorem isName_of_letter {text : List Char} {letter : Char} (lower : letter ∈ ['x', 'y'])
    (inside : letter ∈ text) (slashless : '/' ∉ text) (unbroken : '\x00' ∉ text)
    (short : byteLength text ≤ 255) : IsName (String.ofList text) := by
  have other : letter ≠ '.' := by
    rintro rfl
    simp at lower
  constructor
  all_goals rw [String.toList_ofList]
  · rw [← Bool.not_eq_true, isIdle_iff]
    rintro (rfl | rfl)
    · simp at inside
    · exact other (by simpa using inside)
  · rintro rfl
    exact other (by simpa using inside)
  · exact slashless
  · exact unbroken
  · exact short

theorem exists_other_of_matchesName {name : String} (proper : IsName name)
    (wild : ¬ IsLiteral name.toList) {part : List Token} (read : tokens true name.toList = .ok part)
    (matched : Token.matchesName part name.toList = true) :
    ∃ other, IsName other ∧ other ≠ name ∧ Token.matchesName part other.toList = true := by
  obtain ⟨fewer, _⟩ := (isReading_of_tokens read).2.resolve_left wild
  obtain ⟨front, c, back, whole, free⟩ :=
    (Token.length_le_or_exists_free matched).resolve_left (Nat.not_le.mpr fewer)
  obtain ⟨d, lower, different⟩ : ∃ d ∈ ['x', 'y'], d ≠ c := by
    by_cases same : c = 'x'
    · exact ⟨'y', by simp, by simp [same]⟩
    · exact ⟨'x', by simp, Ne.symm same⟩
  have kept {other : Char} (listed : other ∈ front ++ d :: back) : other = d ∨ other ∈ name.toList := by
    rw [whole]
    simp only [List.mem_append, List.mem_cons] at listed ⊢
    tauto
  have proper : IsName (String.ofList (front ++ d :: back)) := by
    refine isName_of_letter lower (by simp) ?_ ?_ ?_
    · intro slash
      rcases kept slash with rfl | slash
      · simp at lower
      · exact proper.slashless slash
    · intro null
      rcases kept null with rfl | null
      · simp at lower
      · exact proper.unbroken null
    · have short := proper.short
      have width : d.utf8Size = 1 := by
        rcases List.mem_pair.mp lower with rfl | rfl <;> decide
      have positive := c.utf8Size_pos
      simp only [whole, byteLength_append, byteLength_cons] at short ⊢
      omega
  refine ⟨_, proper, ?_, by simpa only [String.toList_ofList] using free d⟩
  intro same
  have texts := congrArg String.toList same
  rw [String.toList_ofList, whole] at texts
  exact different (List.cons.inj (List.append_cancel_left texts)).1

end WebTestLint.File
