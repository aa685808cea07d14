import Mathlib.Data.List.Infix
import WebTestLint.File.Resolve
import WebTestLint.Proofs.Places

/-!
Walking a tree by a pattern. What a pattern finds stands where its path leads, a pattern without wildcards
goes where its text goes, and `**` reaches everything below.
-/

namespace WebTestLint.File

variable {root : Directory}

theorem follow_join (tree : root.IsTree) {path part : List Char} {place : List String}
    (leads : follow root [] (splitPath path) = .ok place) (slashless : '/' ∉ part) :
    follow root [] (splitPath (join path part)) = follow root place [part] := by
  unfold join
  split
  · rename_i slashed
    obtain ⟨front, rfl⟩ : ∃ front, path = front ++ ['/'] := by
      simpa using List.getLast?_eq_some_iff.mp slashed
    have inner : splitPath (front ++ ['/']) = splitPath front ++ [[]] := splitPath_append front []
    rw [inner, follow_append] at leads
    obtain ⟨before, followed, stayed⟩ := bind_eq_ok_iff.mp leads
    obtain ⟨_, next, _, moves, rest⟩ := (follow_cons_eq_ok_iff tree _ _ _ _).mp stayed
    obtain rfl : next = place := Except.ok.inj rest
    obtain rfl : before = next := by
      generalize empty : ([] : List Char) = part at moves
      cases moves with
      | stay => rfl
      | up => simp at empty
      | enter _ proper => exact absurd empty.symm proper.ne_nil
    rw [List.append_assoc, List.singleton_append, splitPath_append, follow_append, followed,
      splitPath_of_slashless slashless]
    rfl
  · rw [splitPath_append, follow_append, leads, splitPath_of_slashless slashless]
    rfl

namespace Found

/-- The path of what was found leads to where it stands. -/
structure Stands (root : Directory) (found : Found) : Prop where
  reached : (Entry.folder root).find? found.place = some found.entry
  leads : follow root [] (splitPath found.path) = .ok found.place
  unbroken : '\x00' ∉ found.path
  absolute : isAbsolute found.path = true

theorem stands_root (root : Directory) : Stands root ⟨['/'], [], .folder root⟩ :=
  ⟨Entry.find?_nil _, rfl, by simp, rfl⟩

variable {found : Found}

theorem Stands.isName (stands : found.Stands root) (tree : root.IsTree) :
    ∀ name ∈ found.place, IsName name :=
  (tree.of_find? stands.reached).1

theorem Stands.isTree (stands : found.Stands root) (tree : root.IsTree) : found.entry.IsTree :=
  (tree.of_find? stands.reached).2

theorem Stands.locate_eq (stands : found.Stands root) (short : byteLength found.path < 4096) :
    locate root found.path = .ok found.place :=
  locate_eq_ok_iff.mpr ⟨stands.unbroken, short, stands.leads⟩

theorem Stands.isFile_iff (stands : found.Stands root) :
    isFile root found.path = true ↔
      byteLength found.path < 4096 ∧ ∃ content, found.entry = .file content := by
  simp only [File.isFile_iff, entryAt?_eq_some_iff]
  constructor
  · rintro ⟨content, place, located, reached⟩
    have short := (locate_eq_ok_iff.mp located).2.1
    obtain rfl := Except.ok.inj ((stands.locate_eq short).symm.trans located)
    exact ⟨short, content, Option.some.inj (stands.reached.symm.trans reached)⟩
  · rintro ⟨short, content, file⟩
    exact ⟨content, _, stands.locate_eq short, file ▸ stands.reached⟩

end Found

section

variable {found next : Found} {part : List Char}

theorem step_eq_some_iff (tree : root.IsTree) (stands : found.Stands root) :
    step root found part = some next ↔
      ∃ inner, found.entry = .folder inner ∧ Moves inner found.place part next.place ∧
        next.path = join found.path part ∧
        (Entry.folder root).find? next.place = some next.entry := by
  obtain ⟨path, place, entry⟩ := found
  obtain ⟨path', place', entry'⟩ := next
  have reached : (Entry.folder root).find? place = some entry := stands.reached
  cases entry with
  | file content => simp [step]
  | folder inner =>
      have below : inner.IsTree := stands.isTree tree
      constructor
      · intro stepped
        refine ⟨inner, rfl, ?_⟩
        simp only [step] at stepped
        split at stepped
        · rename_i idle
          obtain ⟨rfl, rfl, rfl⟩ := Found.mk.inj (Option.some.inj stepped)
          exact ⟨.stay idle, rfl, reached⟩
        · split at stepped
          · rename_i up
            obtain ⟨found, above, same⟩ := Option.map_eq_some_iff.mp stepped
            obtain ⟨rfl, rfl, rfl⟩ := Found.mk.inj same
            subst up
            exact ⟨.up, rfl, above⟩
          · obtain ⟨found, got, same⟩ := Option.map_eq_some_iff.mp stepped
            obtain ⟨rfl, rfl, rfl⟩ := Found.mk.inj same
            have enter : Moves inner place (String.ofList part).toList _ :=
              .enter got (below.of_get? got).1
            rw [String.toList_ofList] at enter
            exact ⟨enter, by rw [String.toList_ofList], (Entry.find?_concat reached _).trans got⟩
      · rintro ⟨inner', folder, moves, joined, reached'⟩
        obtain rfl : inner = inner' := by simpa using folder
        obtain rfl : path' = join path part := joined
        dsimp only at reached' moves
        cases moves with
        | stay idle =>
            obtain rfl := Option.some.inj (reached.symm.trans reached')
            simp [step, idle]
        | up => simp [step, isIdle, reached']
        | enter got proper =>
            rw [Entry.find?_concat reached, got] at reached'
            obtain rfl := Option.some.inj reached'
            simp [step, proper.notIdle, proper.notUp, got, Found.child]

theorem Found.Stands.step (stands : found.Stands root) (tree : root.IsTree)
    (stepped : step root found part = some next) : next.Stands root := by
  obtain ⟨inner, folder, moves, path, reached⟩ := (step_eq_some_iff tree stands).mp stepped
  refine ⟨reached, ?_, ?_, path ▸ isAbsolute_join stands.absolute part⟩
  · rw [path, follow_join tree stands.leads moves.isPart.1]
    exact (follow_cons_eq_ok_iff tree _ _ _ _).mpr ⟨inner, _, folder ▸ stands.reached, moves, rfl⟩
  · rw [path]
    intro broken
    rcases exists_of_mem_join broken with before | slash | inside
    · exact stands.unbroken before
    · simp at slash
    · exact moves.isPart.2 inside

theorem Found.Stands.child (stands : found.Stands root) (tree : root.IsTree) {inner : Directory}
    (folder : found.entry = .folder inner) {name : String} {entry : Entry}
    (got : inner.get? name = some entry) : (Found.child found.path found.place name entry).Stands root := by
  have below : inner.IsTree := by simpa [folder, Entry.IsTree] using stands.isTree tree
  have stepped : File.step root found name.toList =
      some (Found.child found.path found.place name entry) :=
    (step_eq_some_iff tree stands).mpr ⟨inner, folder, .enter got (below.of_get? got).1, rfl,
      (Entry.find?_concat (folder ▸ stands.reached) _).trans got⟩
  exact stands.step tree stepped

end

theorem mem_expand_cons_iff {part : List Token} (wild : Token.literal? part = none)
    (proper : Token.isAnyFolders part = false) (parts : List (List Token)) {start : Found}
    {inner : Directory} (folder : start.entry = .folder inner) (found : Found) :
    found ∈ expand root (part :: parts) start ↔
      (∃ child ∈ inner.children start.path start.place, Token.matchesName part child.name = true ∧
        found ∈ expand root parts child) ∨
      ∃ dot ∈ dots part, ∃ next, step root start dot = some next ∧ found ∈ expand root parts next := by
  rw [expand.eq_def]
  simp only [wild, folder, proper, Bool.false_eq_true, if_false, List.mem_append, List.mem_flatMap,
    List.mem_filter, List.mem_filterMap, and_assoc]
  constructor
  · rintro (reached | ⟨next, ⟨dot, listed, stepped⟩, reached⟩)
    · exact .inl reached
    · exact .inr ⟨dot, listed, next, stepped, reached⟩
  · rintro (reached | ⟨dot, listed, next, stepped, reached⟩)
    · exact .inl reached
    · exact .inr ⟨next, ⟨dot, listed, stepped⟩, reached⟩

namespace Directory

@[simp] theorem get?_cons (name : String) (entry : Entry) (rest : Directory) (other : String) :
    (cons name entry rest).get? other = if name = other then some entry else rest.get? other := by
  cases entry <;> rfl

theorem exists_get?_cons_iff {name : String} {rest : Directory} (fresh : name ∉ rest.names)
    (entry : Entry) (P : String → Entry → Prop) :
    (∃ other found, (cons name entry rest).get? other = some found ∧ P other found) ↔
      P name entry ∨ ∃ other found, rest.get? other = some found ∧ P other found := by
  simp only [get?_cons]
  constructor
  · rintro ⟨other, found, got, holds⟩
    by_cases same : name = other
    · obtain rfl : entry = found := by simpa [same] using got
      exact .inl (same ▸ holds)
    · exact .inr ⟨other, found, by simpa [same] using got, holds⟩
  · rintro (holds | ⟨other, found, got, holds⟩)
    · exact ⟨name, entry, by simp, holds⟩
    · have different : name ≠ other := by
        rintro rfl
        exact fresh (mem_names_of_get? got)
      exact ⟨other, found, by simpa [different] using got, holds⟩

theorem mem_children_iff {directory : Directory} (tree : directory.IsTree) (path : List Char)
    (place : List String) (found : Found) :
    found ∈ directory.children path place ↔
      ∃ name entry, directory.get? name = some entry ∧ found = .child path place name entry := by
  induction directory with
  | empty => simp [children, get?]
  | file name content rest ih =>
      obtain ⟨_, fresh, tree⟩ := tree
      rw [children, List.mem_cons, ih tree]
      exact (exists_get?_cons_iff fresh (.file content) fun name entry =>
        found = .child path place name entry).symm
  | folder name inner rest _ ih =>
      obtain ⟨_, fresh, _, tree⟩ := tree
      rw [children, List.mem_cons, ih tree]
      exact (exists_get?_cons_iff fresh (.folder inner) fun name entry =>
        found = .child path place name entry).symm

end Directory

def Found.below (path : List Char) (place names : List String) (entry : Entry) : Found :=
  ⟨names.foldl (fun path name => join path name.toList) path, place ++ names, entry⟩

theorem Found.below_cons (path : List Char) (place : List String) (name : String) (names : List String)
    (entry : Entry) :
    below path place (name :: names) entry = below (join path name.toList) (place ++ [name]) names entry := by
  simp [below]

def Found.IsWithin (found : Found) (path : List Char) (place : List String) (name : String)
    (entry : Entry) : Prop :=
  ∃ names last, entry.find? names = some last ∧ found = .below path place (name :: names) last

theorem Directory.mem_descendants_iff {directory : Directory} (tree : directory.IsTree)
    (path : List Char) (place : List String) (found : Found) :
    found ∈ directory.descendants path place ↔
      ∃ name entry, directory.get? name = some entry ∧ found.IsWithin path place name entry := by
  induction directory generalizing path place with
  | empty => simp [descendants, get?]
  | file name content rest ih =>
      obtain ⟨_, fresh, tree⟩ := tree
      have alone : found = .child path place name (.file content) ↔
          found.IsWithin path place name (.file content) := by
        constructor
        · rintro rfl
          exact ⟨[], _, Entry.find?_nil _, rfl⟩
        · rintro ⟨names, last, reached, rfl⟩
          cases names with
          | nil =>
              obtain rfl : Entry.file content = last := by simpa using reached
              rfl
          | cons => simp [Entry.find?] at reached
      rw [descendants, List.mem_cons, ih tree, alone]
      exact (exists_get?_cons_iff fresh (.file content) (found.IsWithin path place)).symm
  | folder name inner rest ihInner ih =>
      obtain ⟨_, fresh, inside, tree⟩ := tree
      have below : found = .child path place name (.folder inner) ∨
            found ∈ inner.descendants (join path name.toList) (place ++ [name]) ↔
          found.IsWithin path place name (.folder inner) := by
        rw [ihInner inside]
        constructor
        · rintro (rfl | ⟨next, entry, got, names, last, reached, rfl⟩)
          · exact ⟨[], _, Entry.find?_nil _, rfl⟩
          · exact ⟨next :: names, last, Option.bind_eq_some_iff.mpr ⟨entry, got, reached⟩,
              (Found.below_cons _ _ _ _ _).symm⟩
        · rintro ⟨names, last, reached, rfl⟩
          cases names with
          | nil =>
              obtain rfl : Entry.folder inner = last := by simpa using reached
              exact .inl rfl
          | cons next names =>
              obtain ⟨entry, got, reached⟩ := Option.bind_eq_some_iff.mp reached
              exact .inr ⟨next, entry, got, names, last, reached, Found.below_cons _ _ _ _ _⟩
      rw [descendants, List.cons_append, List.mem_cons, List.mem_append, ← or_assoc, below, ih tree]
      exact (exists_get?_cons_iff fresh (.folder inner) (found.IsWithin path place)).symm

theorem exists_suffix_of_mem_expandBelow {parts : List (List Token)} {start found : Found}
    (listed : found ∈ expandBelow root parts start) :
    ∃ rest, rest <:+ parts ∧ found ∈ expand root rest start := by
  induction parts with
  | nil =>
      rw [expandBelow.eq_def] at listed
      simp only at listed
      split at listed
      · exact ⟨[], List.nil_suffix, by rwa [expand.eq_def]⟩
      · simp at listed
  | cons part parts ih =>
      rw [expandBelow.eq_def] at listed
      simp only at listed
      split at listed
      · obtain ⟨rest, suffix, listed⟩ := ih listed
        exact ⟨rest, suffix.trans (List.suffix_cons part parts), listed⟩
      · split at listed
        · exact ⟨parts, List.suffix_cons part parts, listed⟩
        · simp at listed

section

variable {P : Found → Prop} (stands : ∀ found, P found → found.Stands root)
  (child : ∀ (found : Found) (inner : Directory) (name : String) (entry : Entry), P found →
    found.entry = .folder inner → inner.get? name = some entry →
      P (.child found.path found.place name entry))

include stands child

theorem Found.below_invariant {found : Found} (holds : P found) {names : List String} {last : Entry}
    (reached : (Entry.folder root).find? (found.place ++ names) = some last) :
    P (.below found.path found.place names last) := by
  induction names generalizing found with
  | nil =>
      obtain rfl : found.entry = last := by simpa [(stands _ holds).reached] using reached
      simpa [Found.below] using holds
  | cons name names ih =>
      have shape : found.place ++ name :: names = (found.place ++ [name]) ++ names := by simp
      have whole := reached
      rw [Entry.find?_append, (stands _ holds).reached] at reached
      cases folder : found.entry with
      | file content => simp [folder, Entry.find?] at reached
      | folder inner =>
          simp only [folder, Option.bind_some, Entry.find?] at reached
          obtain ⟨entry, got, _⟩ := Option.bind_eq_some_iff.mp reached
          rw [shape] at whole
          rw [below_cons]
          exact ih (child found inner name entry holds folder got) whole

theorem Found.descendants_invariant (tree : root.IsTree) {start : Found} (holds : P start)
    {inner : Directory} (folder : start.entry = .folder inner) {found : Found}
    (listed : found ∈ inner.descendants start.path start.place) : P found := by
  have inside : inner.IsTree := by simpa [folder, Entry.IsTree] using (stands _ holds).isTree tree
  obtain ⟨name, entry, got, names, last, reached, rfl⟩ :=
    (Directory.mem_descendants_iff inside _ _ _).mp listed
  refine below_invariant stands child holds ?_
  rw [Entry.find?_append, (stands _ holds).reached, folder, Option.bind_some]
  exact Option.bind_eq_some_iff.mpr ⟨entry, got, reached⟩

/-- What holds of the start and stays true in each step holds of all that a pattern leads to. -/
theorem Found.expand_invariant (tree : root.IsTree) {parts : List (List Token)}
    (turn : ∀ part ∈ parts, ∀ text, (Token.literal? part = some text ∨ text ∈ dots part) →
      ∀ found next, P found → step root found text = some next → P next)
    {start found : Found} (holds : P start) (listed : found ∈ expand root parts start) : P found := by
  -- The parts behind `**` are tried at each depth, so that a part can be passed over.
  generalize size : parts.length = count
  induction count using Nat.strong_induction_on generalizing parts start with
  | _ count ih =>
      cases parts with
      | nil =>
          obtain rfl : found = start := by simpa [expand.eq_def] using listed
          exact holds
      | cons part parts =>
          have later {rest : List (List Token)} (suffix : rest <:+ parts) {next : Found} (holds : P next)
              (listed : found ∈ expand root rest next) : P found := by
            have shorter := suffix.length_le
            refine ih rest.length (by simp at size; omega) ?_ holds listed rfl
            exact fun part listed => turn part (List.mem_cons_of_mem _ (suffix.mem listed))
          cases read : Token.literal? part with
          | some text =>
              rw [expand.eq_def] at listed
              simp only [read, List.mem_flatMap, Option.mem_toList] at listed
              obtain ⟨next, stepped, listed⟩ := listed
              have holds := turn part List.mem_cons_self text (.inl read) start next holds stepped
              exact later List.suffix_rfl holds listed
          | none =>
              cases folder : start.entry with
              | file content =>
                  rw [expand.eq_def] at listed
                  simp [read, folder] at listed
              | folder inner =>
                  by_cases many : Token.isAnyFolders part = true
                  · rw [expand.eq_def] at listed
                    simp only [read, folder, many, if_true, List.mem_flatMap] at listed
                    obtain ⟨next, below, listed⟩ := listed
                    have holds := descendants_invariant stands child tree holds folder below
                    obtain ⟨rest, suffix, listed⟩ := exists_suffix_of_mem_expandBelow listed
                    exact later suffix holds listed
                  · have bounded : Token.isAnyFolders part = false := by simpa using many
                    rcases (mem_expand_cons_iff read bounded parts folder found).mp listed with
                      ⟨next, inside, _, listed⟩ | ⟨dot, turns, next, stepped, listed⟩
                    · have tree' : inner.IsTree := by
                        simpa [folder, Entry.IsTree] using (stands _ holds).isTree tree
                      obtain ⟨name, entry, got, rfl⟩ :=
                        (Directory.mem_children_iff tree' _ _ _).mp inside
                      exact later List.suffix_rfl (child start inner name entry holds folder got) listed
                    · have holds := turn part List.mem_cons_self dot (.inr turns) start next holds stepped
                      exact later List.suffix_rfl holds listed

end

theorem Found.Stands.below (tree : root.IsTree) {found : Found} (stands : found.Stands root)
    {names : List String} {last : Entry}
    (reached : (Entry.folder root).find? (found.place ++ names) = some last) :
    (Found.below found.path found.place names last).Stands root :=
  below_invariant (fun _ stands => stands)
    (fun _ _ _ _ stands folder got => stands.child tree folder got) stands reached

theorem glob_eq_ok_iff (pattern : List Char) (found : List Found) :
    glob root pattern = .ok found ↔
      ∃ whole parts, tokens true pattern = .ok whole ∧
        (patternParts pattern).mapM (tokens true) = .ok parts ∧
        (if pattern.getLast? = some '/' then
            (expand root parts ⟨['/'], [], .folder root⟩).filter (·.entry.isFolder)
          else expand root parts ⟨['/'], [], .folder root⟩) = found := by
  simp only [glob, bind_eq_ok_iff]
  constructor
  · rintro ⟨whole, read, parts, each, same⟩
    refine ⟨whole, parts, read, each, ?_⟩
    split at same <;> simp_all [pure, Except.pure]
  · rintro ⟨whole, parts, read, each, rfl⟩
    refine ⟨whole, read, parts, each, ?_⟩
    split <;> rfl

theorem documentsBelow_eq (path : List Char) :
    documentsBelow path = path ++ '/' :: "**/*.json".toList := rfl

theorem getLast?_documentsBelow (path : List Char) : (documentsBelow path).getLast? ≠ some '/' := by
  rw [documentsBelow, List.getLast?_append_of_ne_nil _ (by decide)]
  decide

def IsWildcard (c : Char) : Prop := c = '*' ∨ c = '?' ∨ c = '['

instance (c : Char) : Decidable (IsWildcard c) :=
  inferInstanceAs (Decidable (c = '*' ∨ c = '?' ∨ c = '['))

def IsLiteral (text : List Char) : Prop := ∀ c ∈ text, ¬ IsWildcard c

instance (text : List Char) : Decidable (IsLiteral text) :=
  List.decidableBAll (¬ IsWildcard ·) text

def literal (text : List Char) : List Token := text.map .char

theorem tokens_cons_of_not_isWildcard (first : Bool) {c : Char} (plain : ¬ IsWildcard c)
    (rest : List Char) : tokens first (c :: rest) = (tokens (c = '/') rest).map (.char c :: ·) := by
  have plain : c ≠ '*' ∧ c ≠ '?' ∧ c ≠ '[' := by simpa [IsWildcard] using plain
  rw [tokens] <;> simp [plain]

theorem tokens_literal_append (first : Bool) {text : List Char} (plain : IsLiteral text)
    (rest : List Char) :
    tokens first (text ++ '/' :: rest) = (tokens true rest).map (literal (text ++ ['/']) ++ ·) := by
  induction text generalizing first with
  | nil => exact tokens_cons_of_not_isWildcard first (by decide) rest
  | cons c text ih =>
      obtain ⟨other, plain⟩ := List.forall_mem_cons.mp plain
      rw [List.cons_append, tokens_cons_of_not_isWildcard first other, ih _ plain]
      cases tokens true rest <;> rfl

theorem tokens_literal (first : Bool) {text : List Char} (plain : IsLiteral text) :
    tokens first text = .ok (literal text) := by
  induction text generalizing first with
  | nil => rw [tokens]; rfl
  | cons c text ih =>
      obtain ⟨other, plain⟩ := List.forall_mem_cons.mp plain
      rw [tokens_cons_of_not_isWildcard first other, ih _ plain]
      rfl

@[simp] theorem Token.literal?_literal (text : List Char) : literal? (literal text) = some text := by
  induction text with
  | nil => rfl
  | cons c text ih =>
      rw [literal, List.map_cons, ← literal, literal?, List.mapM_cons, ← literal?, ih]
      rfl

theorem Token.eq_literal_of_literal? {part : List Token} {text : List Char}
    (read : literal? part = some text) : part = literal text := by
  induction part generalizing text with
  | nil =>
      obtain rfl : [] = text := Option.some.inj read
      rfl
  | cons token part ih =>
      cases token with
      | char c =>
          rw [literal?, List.mapM_cons, ← literal?] at read
          obtain ⟨rest, below, rfl⟩ : ∃ rest, literal? part = some rest ∧ c :: rest = text := by
            cases below : literal? part <;> simp_all
          rw [ih below, literal, literal, List.map_cons]
      | _ => simp [literal?] at read

theorem Token.mem_suffixes_iff (text rest : List Char) : rest ∈ suffixes text ↔ rest <:+ text := by
  induction text with
  | nil => simp [suffixes]
  | cons c text ih => rw [suffixes, List.mem_cons, ih, List.suffix_cons_iff]

theorem Token.matchesName_literal_iff (text name : List Char) :
    matchesName (literal text) name = true ↔ name = text := by
  induction text generalizing name with
  | nil => simp [literal, matchesName, List.isEmpty_iff]
  | cons c text ih =>
      cases name with
      | nil => simp [literal, matchesName]
      | cons d name =>
          have step : matchesName (literal (c :: text)) (d :: name) =
              (decide (d = c) && matchesName (literal text) name) := rfl
          simp [step, ih]

theorem Token.matchesName_anyText_iff (suffix name : List Char) :
    matchesName (.anyText :: literal suffix) name = true ↔ suffix <:+ name := by
  simp only [matchesName, List.any_eq_true, mem_suffixes_iff, matchesName_literal_iff]
  constructor
  · rintro ⟨_, ending, rfl⟩
    exact ending
  · exact fun ending => ⟨_, ending, rfl⟩

theorem expand_literal (tree : root.IsTree) {parts : List (List Char)} {found : Found}
    (stands : found.Stands root) {place : List String}
    (followed : follow root found.place parts = .ok place) :
    ∃ next : Found, next.Stands root ∧ next.place = place ∧ next.path = parts.foldl join found.path ∧
      ∀ more, expand root (parts.map literal ++ more) found = expand root more next := by
  induction parts generalizing found with
  | nil => exact ⟨found, stands, Except.ok.inj followed, rfl, fun _ => rfl⟩
  | cons part parts ih =>
      obtain ⟨inner, place', reached, moves, followed⟩ :=
        (follow_cons_eq_ok_iff tree _ _ _ _).mp followed
      obtain ⟨entry, reached'⟩ := moves.exists_find? reached
      have stepped : step root found part = some ⟨join found.path part, place', entry⟩ :=
        (step_eq_some_iff tree stands).mpr
          ⟨inner, Option.some.inj (stands.reached.symm.trans reached), moves, rfl, reached'⟩
      obtain ⟨next, stands, ended, path, expanded⟩ := ih (stands.step tree stepped) followed
      refine ⟨next, stands, ended, path, fun more => ?_⟩
      rw [← expanded, List.map_cons, List.cons_append, expand.eq_def]
      simp [stepped]

end WebTestLint.File
