import WebTestLint.File.Path
import WebTestLint.Proofs.Skipping

/-!
Places and the paths that lead to them. In a tree whose names are names of files, each place has a plainly
written path, and no absolute path to the place is shorter.
-/

namespace WebTestLint.File

theorem isIdle_iff (part : List Char) : isIdle part = true ↔ part = [] ∨ part = ['.'] := by
  simp [isIdle, List.isEmpty_iff]

structure IsName (name : String) : Prop where
  notIdle : isIdle name.toList = false
  notUp : name.toList ≠ ['.', '.']
  slashless : '/' ∉ name.toList
  unbroken : '\x00' ∉ name.toList
  short : byteLength name.toList ≤ 255

instance (name : String) : Decidable (IsName name) :=
  decidable_of_iff (isIdle name.toList = false ∧ name.toList ≠ ['.', '.'] ∧ '/' ∉ name.toList ∧
      '\x00' ∉ name.toList ∧ byteLength name.toList ≤ 255)
    ⟨fun ⟨notIdle, notUp, slashless, unbroken, short⟩ => ⟨notIdle, notUp, slashless, unbroken, short⟩,
      fun ⟨notIdle, notUp, slashless, unbroken, short⟩ => ⟨notIdle, notUp, slashless, unbroken, short⟩⟩

theorem IsName.ne_nil {name : String} (proper : IsName name) : name.toList ≠ [] := by
  intro empty
  have idle := proper.notIdle
  simp [empty, isIdle] at idle

namespace Directory

def names : Directory → List String
  | .empty => []
  | .file name _ rest => name :: rest.names
  | .folder name _ rest => name :: rest.names

/-- All entries have names, and no two of a folder have the same. -/
def IsTree : Directory → Prop
  | .empty => True
  | .file name _ rest => IsName name ∧ name ∉ rest.names ∧ rest.IsTree
  | .folder name inner rest => IsName name ∧ name ∉ rest.names ∧ inner.IsTree ∧ rest.IsTree

instance decidableIsTree : (directory : Directory) → Decidable directory.IsTree
  | .empty => isTrue trivial
  | .file name _ rest =>
    have := decidableIsTree rest
    inferInstanceAs (Decidable (IsName name ∧ name ∉ rest.names ∧ rest.IsTree))
  | .folder name inner rest =>
    have := decidableIsTree inner
    have := decidableIsTree rest
    inferInstanceAs (Decidable (IsName name ∧ name ∉ rest.names ∧ inner.IsTree ∧ rest.IsTree))

variable {directory : Directory} {name : String} {entry : Entry}

theorem mem_names_of_get? (found : directory.get? name = some entry) : name ∈ directory.names := by
  induction directory with
  | empty => simp [get?] at found
  | file other _ rest ih =>
      by_cases same : other = name
      · simp [names, same]
      · exact List.mem_cons_of_mem _ (ih (by simpa [get?, same] using found))
  | folder other _ rest _ ih =>
      by_cases same : other = name
      · simp [names, same]
      · exact List.mem_cons_of_mem _ (ih (by simpa [get?, same] using found))

end Directory

def Entry.IsTree : Entry → Prop
  | .file _ => True
  | .folder inner => inner.IsTree

namespace Directory

variable {directory : Directory} {name : String} {entry : Entry}

theorem IsTree.of_get? (tree : directory.IsTree) (found : directory.get? name = some entry) :
    IsName name ∧ entry.IsTree := by
  induction directory with
  | empty => simp [get?] at found
  | file other content rest ih =>
      obtain ⟨proper, _, below⟩ := tree
      by_cases same : other = name
      · obtain rfl : Entry.file content = entry := by simpa [get?, same] using found
        exact ⟨same ▸ proper, trivial⟩
      · exact ih below (by simpa [get?, same] using found)
  | folder other inner rest _ ih =>
      obtain ⟨proper, _, inside, below⟩ := tree
      by_cases same : other = name
      · obtain rfl : Entry.folder inner = entry := by simpa [get?, same] using found
        exact ⟨same ▸ proper, inside⟩
      · exact ih below (by simpa [get?, same] using found)

theorem isTree_cons_iff (name : String) (entry : Entry) (rest : Directory) :
    (cons name entry rest).IsTree ↔ IsName name ∧ name ∉ rest.names ∧ entry.IsTree ∧ rest.IsTree := by
  cases entry with
  | file content => simp [cons, IsTree, Entry.IsTree]
  | folder inner => rfl

theorem mem_names_alter_iff (name : String) (change : Option Entry → Entry) (directory : Directory)
    (other : String) :
    other ∈ (directory.alter name change).names ↔ other = name ∨ other ∈ directory.names := by
  have names_cons (name : String) (entry : Entry) (rest : Directory) :
      (cons name entry rest).names = name :: rest.names := by
    cases entry <;> rfl
  induction directory with
  | empty => simp [alter, names_cons, names]
  | file first _ rest ih =>
      by_cases same : first = name <;> simp [alter, same, names_cons, names, ih]
      tauto
  | folder first _ rest _ ih =>
      by_cases same : first = name <;> simp [alter, same, names_cons, names, ih]
      tauto

theorem IsTree.alter (tree : directory.IsTree) (proper : IsName name) {change : Option Entry → Entry}
    (kept : ∀ entry?, (∀ entry, entry? = some entry → entry.IsTree) → (change entry?).IsTree) :
    (directory.alter name change).IsTree := by
  induction directory with
  | empty => exact (isTree_cons_iff _ _ _).mpr ⟨proper, by simp [names], kept none (by simp), trivial⟩
  | file first content rest ih =>
      obtain ⟨proper', fresh, below⟩ := tree
      rw [Directory.alter]
      split
      · rename_i same
        exact (isTree_cons_iff _ _ _).mpr
          ⟨proper, same ▸ fresh, kept _ (by simp [Entry.IsTree]), below⟩
      · rename_i different
        refine ⟨proper', ?_, ih below⟩
        simp [mem_names_alter_iff, different, fresh]
  | folder first inner rest _ ih =>
      obtain ⟨proper', fresh, inside, below⟩ := tree
      rw [Directory.alter]
      split
      · rename_i same
        exact (isTree_cons_iff _ _ _).mpr
          ⟨proper, same ▸ fresh, kept _ (by simpa [Entry.IsTree] using inside), below⟩
      · rename_i different
        refine ⟨proper', ?_, inside, ih below⟩
        simp [mem_names_alter_iff, different, fresh]

theorem IsTree.put (content? : Option Content) {place : List String}
    (proper : ∀ name ∈ place, IsName name) (tree : directory.IsTree) :
    (put content? place directory).IsTree := by
  induction place generalizing directory with
  | nil => exact tree
  | cons name names ih =>
      obtain ⟨first, others⟩ := List.forall_mem_cons.mp proper
      refine tree.alter first fun entry? kept => ?_
      split
      · trivial
      · split
        · exact ih others (kept _ rfl)
        · exact ih others trivial

end Directory

namespace Entry

@[simp] theorem find?_nil (entry : Entry) : entry.find? [] = some entry := by
  cases entry <;> rfl

theorem find?_append (entry : Entry) (first second : List String) :
    entry.find? (first ++ second) = (entry.find? first).bind (·.find? second) := by
  induction first generalizing entry with
  | nil => simp
  | cons name names ih =>
      cases entry with
      | file content => rfl
      | folder inner =>
          simp only [List.cons_append, find?]
          cases inner.get? name with
          | none => rfl
          | some next => exact ih next

theorem find?_concat {entry : Entry} {place : List String} {inner : Directory}
    (found : entry.find? place = some (.folder inner)) (name : String) :
    entry.find? (place ++ [name]) = inner.get? name := by
  rw [find?_append, found]
  change (inner.get? name).bind (·.find? []) = _
  cases inner.get? name <;> simp

theorem IsTree.of_find? {entry found : Entry} {place : List String} (tree : entry.IsTree)
    (reached : entry.find? place = some found) : (∀ name ∈ place, IsName name) ∧ found.IsTree := by
  induction place generalizing entry with
  | nil =>
      obtain rfl : entry = found := by simpa using reached
      exact ⟨by simp, tree⟩
  | cons name names ih =>
      cases entry with
      | file content => simp [find?] at reached
      | folder inner =>
          obtain ⟨next, got, below⟩ := Option.bind_eq_some_iff.mp reached
          obtain ⟨proper, tree⟩ := Directory.IsTree.of_get? tree got
          obtain ⟨others, tree⟩ := ih tree below
          exact ⟨List.forall_mem_cons.mpr ⟨proper, others⟩, tree⟩

end Entry

theorem Directory.IsTree.of_find? {root : Directory} {place : List String} {entry : Entry}
    (tree : root.IsTree) (reached : (Entry.folder root).find? place = some entry) :
    (∀ name ∈ place, IsName name) ∧ entry.IsTree :=
  Entry.IsTree.of_find? (show (Entry.folder root).IsTree from tree) reached

theorem utf8Size_slash : '/'.utf8Size = 1 := by decide

theorem exists_of_isAbsolute {path : List Char} (absolute : isAbsolute path = true) :
    ∃ rest, path = '/' :: rest := by
  cases path with
  | nil => simp [isAbsolute] at absolute
  | cons c rest => exact ⟨rest, by simpa [isAbsolute] using absolute⟩

theorem splitPath_ne_nil (path : List Char) : splitPath path ≠ [] := by
  cases path with
  | nil => simp [splitPath]
  | cons c rest =>
      rw [splitPath]
      split
      · simp
      · split <;> simp

theorem splitPath_of_slashless {part : List Char} (slashless : '/' ∉ part) : splitPath part = [part] := by
  induction part with
  | nil => rfl
  | cons c rest ih =>
      obtain ⟨other, slashless⟩ := List.ne_and_not_mem_of_not_mem_cons slashless
      simp [splitPath, ih slashless, Ne.symm other]

theorem splitPath_append (path rest : List Char) :
    splitPath (path ++ '/' :: rest) = splitPath path ++ splitPath rest := by
  induction path with
  | nil => simp [splitPath]
  | cons c path ih =>
      simp only [List.cons_append, splitPath]
      split
      · rw [ih, List.cons_append]
      · rw [ih]
        cases parts : splitPath path with
        | nil => exact absurd parts (splitPath_ne_nil path)
        | cons part parts => rfl

theorem mem_of_mem_splitPath {path part : List Char} (listed : part ∈ splitPath path) {c : Char}
    (inside : c ∈ part) : c ∈ path := by
  induction path generalizing part with
  | nil =>
      obtain rfl : part = [] := by simpa [splitPath] using listed
      simp at inside
  | cons d rest ih =>
      rw [splitPath] at listed
      split at listed
      · rcases List.mem_cons.mp listed with rfl | later
        · simp at inside
        · exact List.mem_cons_of_mem _ (ih later inside)
      · split at listed
        · rename_i none
          exact absurd none (splitPath_ne_nil rest)
        · rename_i first parts split
          rcases List.mem_cons.mp listed with rfl | later
          · rcases List.mem_cons.mp inside with rfl | inside
            · exact List.mem_cons_self
            · exact List.mem_cons_of_mem _ (ih (split ▸ List.mem_cons_self) inside)
          · exact List.mem_cons_of_mem _ (ih (split ▸ List.mem_cons_of_mem _ later) inside)

def written (place : List String) : List Char := place.flatMap fun name => '/' :: name.toList

@[simp] theorem written_append (first second : List String) :
    written (first ++ second) = written first ++ written second := List.flatMap_append

theorem splitPath_written {place : List String} (names : ∀ name ∈ place, IsName name) :
    splitPath (written place) = [] :: place.map String.toList := by
  induction place using List.reverseRecOn with
  | nil => rfl
  | append_singleton place name ih =>
      have last : IsName name := names name (by simp)
      have shape : written (place ++ [name]) = written place ++ '/' :: name.toList := by
        simp [written]
      rw [shape, splitPath_append, ih fun other listed => names other (by simp [listed]),
        splitPath_of_slashless last.slashless]
      simp

theorem join_written {place : List String} (names : ∀ name ∈ place, IsName name) (part : List Char) :
    join (written place) part = written place ++ '/' :: part := by
  rw [join, if_neg]
  intro slashed
  induction place using List.reverseRecOn with
  | nil => simp [written] at slashed
  | append_singleton place name _ =>
      have last : IsName name := names name (by simp)
      have shape : written (place ++ [name]) = (written place ++ ['/']) ++ name.toList := by
        simp [written]
      rw [shape, List.getLast?_append_of_ne_nil _ last.ne_nil] at slashed
      exact last.slashless (List.mem_of_getLast? slashed)

theorem splitPath_slash_cons (path : List Char) : splitPath ('/' :: path) = [] :: splitPath path := by
  simp [splitPath]

theorem flatMap_splitPath (path : List Char) :
    ((splitPath path).flatMap fun part => '/' :: part) = '/' :: path := by
  induction path with
  | nil => rfl
  | cons c rest ih =>
      rw [splitPath]
      split
      · rename_i slash
        simp [ih, slash]
      · split
        · rename_i none
          exact absurd none (splitPath_ne_nil rest)
        · rename_i part parts split
          simpa [split] using ih

theorem exists_of_mem_join {path part : List Char} {c : Char} (listed : c ∈ join path part) :
    c ∈ path ∨ c = '/' ∨ c ∈ part := by
  unfold join at listed
  split at listed
  · rcases List.mem_append.mp listed with before | inside
    · exact .inl before
    · exact .inr (.inr inside)
  · rcases List.mem_append.mp listed with before | inside
    · exact .inl before
    · exact .inr (List.mem_cons.mp inside)

theorem byteLength_join_le (path part : List Char) :
    byteLength (join path part) ≤ byteLength path + 1 + byteLength part := by
  unfold join
  split <;> simp only [byteLength_append, byteLength_cons, utf8Size_slash] <;> omega

theorem isAbsolute_join {path : List Char} (absolute : isAbsolute path = true) (part : List Char) :
    isAbsolute (join path part) = true := by
  obtain ⟨rest, rfl⟩ := exists_of_isAbsolute absolute
  unfold join
  split <;> rfl

theorem isAbsolute_resolve {folder : List Char} (absolute : isAbsolute folder = true) (path : List Char) :
    isAbsolute (resolve folder path) = true := by
  unfold resolve
  split
  · assumption
  · exact isAbsolute_join absolute path

inductive Moves (inner : Directory) (place : List String) : List Char → List String → Prop
  | stay {part : List Char} : isIdle part = true → Moves inner place part place
  | up : Moves inner place ['.', '.'] place.dropLast
  | enter {name : String} {entry : Entry} : inner.get? name = some entry → IsName name →
      Moves inner place name.toList (place ++ [name])

variable {root : Directory}

theorem follow_append (root : Directory) (place : List String) (first second : List (List Char)) :
    follow root place (first ++ second) =
      (follow root place first).bind fun next => follow root next second := by
  induction first generalizing place with
  | nil => rfl
  | cons part parts ih =>
      simp only [List.cons_append, follow]
      split
      · split
        · exact ih _
        · split
          · exact ih _
          · split
            · rfl
            · split
              · exact ih _
              · rfl
      · rfl

theorem follow_cons_eq_ok_iff (tree : root.IsTree) (place : List String) (part : List Char)
    (parts : List (List Char)) (last : List String) :
    follow root place (part :: parts) = .ok last ↔
      ∃ inner next, (Entry.folder root).find? place = some (.folder inner) ∧
        Moves inner place part next ∧ follow root next parts = .ok last := by
  have below {inner : Directory} (reached : (Entry.folder root).find? place = some (.folder inner)) :
      inner.IsTree := (tree.of_find? reached).2
  constructor
  · intro followed
    rw [follow] at followed
    split at followed
    · rename_i inner reached
      split at followed
      · rename_i idle
        exact ⟨inner, place, reached, .stay idle, followed⟩
      · split at followed
        · rename_i up
          subst up
          exact ⟨inner, _, reached, .up, followed⟩
        · split at followed
          · simp at followed
          · split at followed
            · rename_i entry got
              have proper := ((below reached).of_get? got).1
              have enter : Moves inner place (String.ofList part).toList _ := .enter got proper
              rw [String.toList_ofList] at enter
              exact ⟨inner, _, reached, enter, followed⟩
            · simp at followed
    · simp at followed
  · rintro ⟨inner, next, reached, moves, followed⟩
    rw [follow, reached]
    cases moves with
    | stay idle => simpa [idle] using followed
    | up => simpa [isIdle] using followed
    | enter got proper =>
        have short : ¬ 255 < byteLength (String.toList _) := Nat.not_lt.mpr proper.short
        simpa [proper.notIdle, proper.notUp, short, got] using followed

theorem Moves.isPart {inner : Directory} {place next : List String} {part : List Char}
    (moves : Moves inner place part next) : '/' ∉ part ∧ '\x00' ∉ part := by
  cases moves with
  | stay idle => rcases (isIdle_iff part).mp idle with rfl | rfl <;> simp
  | up => simp
  | enter _ proper => exact ⟨proper.slashless, proper.unbroken⟩

theorem Moves.exists_find? {inner : Directory} {place next : List String} {part : List Char}
    (moves : Moves inner place part next)
    (reached : (Entry.folder root).find? place = some (.folder inner)) :
    ∃ entry, (Entry.folder root).find? next = some entry := by
  cases moves with
  | stay => exact ⟨_, reached⟩
  | up =>
      rcases place.eq_nil_or_concat' with rfl | ⟨front, name, rfl⟩
      · exact ⟨_, reached⟩
      · rw [Entry.find?_append] at reached
        obtain ⟨entry, before, _⟩ := Option.bind_eq_some_iff.mp reached
        exact ⟨entry, by simpa using before⟩
  | enter got => exact ⟨_, (Entry.find?_concat reached _).trans got⟩

theorem Moves.byteLength_le {inner : Directory} {place next : List String} {part : List Char}
    (moves : Moves inner place part next) :
    byteLength (written next) ≤ byteLength (written place) + (byteLength part + 1) := by
  cases moves with
  | stay => omega
  | up =>
      rcases place.eq_nil_or_concat' with rfl | ⟨front, name, rfl⟩
      · simp [written]
      · simp only [List.dropLast_concat, written_append, byteLength_append]
        omega
  | enter => simp [written, byteLength_append, utf8Size_slash]; omega

theorem follow_eq_ok {place last : List String} {parts : List (List Char)} (tree : root.IsTree)
    (followed : follow root place parts = .ok last)
    (reached : ∃ entry, (Entry.folder root).find? place = some entry) :
    (∃ entry, (Entry.folder root).find? last = some entry) ∧
      byteLength (written last) ≤
        byteLength (written place) + byteLength (parts.flatMap fun part => '/' :: part) := by
  induction parts generalizing place with
  | nil =>
      obtain rfl : place = last := Except.ok.inj followed
      exact ⟨reached, by simp⟩
  | cons part parts ih =>
      obtain ⟨inner, next, reached, moves, followed⟩ := (follow_cons_eq_ok_iff tree _ _ _ _).mp followed
      obtain ⟨found, shorter⟩ := ih followed (moves.exists_find? reached)
      have first := moves.byteLength_le
      refine ⟨found, ?_⟩
      rw [List.flatMap_cons, byteLength_append, byteLength_cons, utf8Size_slash]
      omega

theorem follow_names (tree : root.IsTree) {place below : List String} {entry : Entry}
    (reached : (Entry.folder root).find? (place ++ below) = some entry) :
    follow root place (below.map String.toList) = .ok (place ++ below) := by
  induction below generalizing place with
  | nil => simp [follow]
  | cons name names ih =>
      have whole := reached
      rw [Entry.find?_append] at reached
      obtain ⟨found, before, below⟩ := Option.bind_eq_some_iff.mp reached
      cases found with
      | file content => simp [Entry.find?] at below
      | folder inner =>
          obtain ⟨next, got, _⟩ := Option.bind_eq_some_iff.mp below
          have proper := ((tree.of_find? before).2.of_get? got).1
          have shape : place ++ name :: names = (place ++ [name]) ++ names := by simp
          rw [shape] at whole ⊢
          exact (follow_cons_eq_ok_iff tree _ _ _ _).mpr ⟨inner, _, before, .enter got proper, ih whole⟩

theorem locate_eq_ok_iff {path : List Char} {place : List String} :
    locate root path = .ok place ↔
      '\x00' ∉ path ∧ byteLength path < 4096 ∧ follow root [] (splitPath path) = .ok place := by
  unfold locate
  split
  · rename_i broken
    simp at broken
    simp [broken]
  · rename_i unbroken
    split
    · simp; omega
    · simp_all

theorem entryAt?_eq_some_iff {path : List Char} {entry : Entry} :
    entryAt? root path = some entry ↔
      ∃ place, locate root path = .ok place ∧ (Entry.folder root).find? place = some entry := by
  rw [entryAt?, Option.bind_eq_some_iff]
  cases locate root path <;> simp [Except.toOption]

theorem isFile_iff (root : Directory) (path : List Char) :
    isFile root path = true ↔ ∃ content, entryAt? root path = some (.file content) := by
  unfold isFile
  split
  · rename_i content found
    simp [found]
  · rename_i other
    constructor
    · intro impossible
      simp at impossible
    · rintro ⟨content, found⟩
      exact absurd found (other content)

theorem byteLength_written_le (tree : root.IsTree) {path : List Char} {place : List String}
    (absolute : isAbsolute path = true) (located : locate root path = .ok place) :
    byteLength (written place) ≤ byteLength path := by
  obtain ⟨_, _, followed⟩ := locate_eq_ok_iff.mp located
  obtain ⟨rest, rfl⟩ := exists_of_isAbsolute absolute
  rw [splitPath_slash_cons] at followed
  replace followed : follow root [] (splitPath rest) = .ok place := followed
  have shorter := (follow_eq_ok tree followed ⟨_, Entry.find?_nil _⟩).2
  rw [flatMap_splitPath] at shorter
  simpa [written] using shorter

/-- No two paths lead to one file. -/
def AreDistinct (root : Directory) (paths : List String) : Prop :=
  ∀ first ∈ paths, ∀ second ∈ paths,
    locate root first.toList = locate root second.toList → first = second

/-- The plain path leads to its place. -/
theorem locate_written (tree : root.IsTree) {place : List String} {entry : Entry}
    (reached : (Entry.folder root).find? place = some entry) (short : byteLength (written place) < 4096) :
    locate root (written place) = .ok place := by
  obtain ⟨names, _⟩ := tree.of_find? reached
  refine locate_eq_ok_iff.mpr ⟨?_, short, ?_⟩
  · intro broken
    obtain ⟨name, listed, inside⟩ := List.mem_flatMap.mp broken
    rcases List.mem_cons.mp inside with slash | inside
    · simp at slash
    · exact (names name listed).unbroken inside
  · rw [splitPath_written names]
    have followed : follow root [] (place.map String.toList) = .ok place := follow_names tree reached
    exact followed

end WebTestLint.File
