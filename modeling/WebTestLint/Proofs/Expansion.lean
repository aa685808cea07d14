import WebTestLint.Proofs.Union
import WebTestLint.Proofs.Wildcard

/-!
The documents of a folder. A folder is expanded by a pattern that starts with the path to it, so that the
pattern stands for the documents below the folder only if the path has no wildcards.
-/

namespace WebTestLint.File

def extension : List Char := ".json".toList

def NamesDocument (below : List String) : Prop :=
  ∃ name, below.getLast? = some name ∧ extension <:+ name.toList

structure IsDocument (root : Directory) (place below : List String) : Prop where
  named : NamesDocument below
  isFile : ∃ content, (Entry.folder root).find? (place ++ below) = some (.file content)

def documentName : List Token := .anyText :: literal extension

theorem matchesName_documentName_iff (name : List Char) :
    Token.matchesName documentName name = true ↔ extension <:+ name :=
  Token.matchesName_anyText_iff _ _

theorem mem_expandBelow_documentName_iff (root : Directory) (start found : Found) :
    found ∈ expandBelow root [documentName] start ↔ extension <:+ start.name ∧ found = start := by
  have proper : Token.isAnyFolders documentName = false := by decide
  have done : expand root [] start = [start] := by rw [expand.eq_def]
  rw [expandBelow.eq_def]
  simp only [proper, done, ← matchesName_documentName_iff]
  by_cases ends : Token.matchesName documentName start.name = true <;> simp [ends]

theorem Found.name_below (path : List Char) (place : List String) (name : String) (names : List String)
    (entry : Entry) :
    extension <:+ (below path place (name :: names) entry).name ↔ NamesDocument (name :: names) := by
  obtain ⟨last, ends⟩ : ∃ last, (name :: names).getLast? = some last := by
    simp [List.getLast?_cons]
  have same : (below path place (name :: names) entry).name = last.toList := by
    simp [Found.name, below, List.getLast?_append, ends]
  simp [same, NamesDocument, ends]

variable {root : Directory}

theorem mem_expand_documents_iff (tree : root.IsTree) {start : Found} (stands : start.Stands root)
    {inner : Directory} (folder : start.entry = .folder inner) (found : Found) :
    found ∈ expand root [[.anyFolders], documentName] start ↔
      ∃ below entry, NamesDocument below ∧
        (Entry.folder root).find? (start.place ++ below) = some entry ∧
        found = .below start.path start.place below entry := by
  have inside : inner.IsTree := by simpa [folder, Entry.IsTree] using stands.isTree tree
  have expanded : expand root [[.anyFolders], documentName] start =
      (inner.descendants start.path start.place).flatMap (expandBelow root [documentName]) := by
    have wild : Token.literal? [.anyFolders] = none := rfl
    rw [expand.eq_def]
    simp only [wild, folder]
    rfl
  have shifted (below : List String) :
      (Entry.folder root).find? (start.place ++ below) = (Entry.folder inner).find? below := by
    rw [Entry.find?_append, stands.reached, folder]
    rfl
  simp only [expanded, List.mem_flatMap, mem_expandBelow_documentName_iff,
    Directory.mem_descendants_iff inside, shifted]
  constructor
  · rintro ⟨_, ⟨name, entry, got, names, last, reached, rfl⟩, ends, rfl⟩
    exact ⟨name :: names, last, (Found.name_below _ _ _ _ _).mp ends,
      Option.bind_eq_some_iff.mpr ⟨entry, got, reached⟩, rfl⟩
  · rintro ⟨below, last, named, reached, rfl⟩
    cases below with
    | nil =>
        obtain ⟨_, none, _⟩ := named
        simp at none
    | cons name names =>
        obtain ⟨entry, got, reached⟩ := Option.bind_eq_some_iff.mp reached
        exact ⟨_, ⟨name, entry, got, names, last, reached, rfl⟩,
          (Found.name_below _ _ _ _ _).mpr named, rfl⟩

theorem byteLength_foldl_join_le (path : List Char) (parts : List (List Char)) :
    byteLength (parts.foldl join path) ≤
      byteLength path + byteLength (parts.flatMap fun part => '/' :: part) := by
  induction parts generalizing path with
  | nil => simp
  | cons part parts ih =>
      have first := byteLength_join_le path part
      have later := ih (join path part)
      simp only [List.foldl_cons, List.flatMap_cons, byteLength_append, byteLength_cons, utf8Size_slash]
      omega

theorem byteLength_below_le (path : List Char) (place below : List String) (entry : Entry) :
    byteLength (Found.below path place below entry).path ≤ byteLength path + byteLength (written below) := by
  have longer := byteLength_foldl_join_le path (below.map String.toList)
  simpa [Found.below, written, List.foldl_map, List.flatMap_map] using longer

theorem patternParts_documentsBelow (rest : List Char) :
    patternParts (documentsBelow ('/' :: rest)) = splitPath rest ++ ["**".toList, "*.json".toList] := by
  have last : splitPath "**/*.json".toList = ["**".toList, "*.json".toList] := by decide
  have parts : (splitPath (documentsBelow ('/' :: rest))).drop 1 =
      splitPath rest ++ ["**".toList, "*.json".toList] := by
    rw [documentsBelow_eq, splitPath_append, splitPath_slash_cons, last]
    rfl
  simp only [patternParts, parts]
  rw [if_pos]
  simp

theorem mapM_tokens_append {parts more : List (List Char)} {read : List (List Token)}
    (plain : ∀ part ∈ parts, IsLiteral part) (each : more.mapM (tokens true) = .ok read) :
    (parts ++ more).mapM (tokens true) = .ok (parts.map literal ++ read) := by
  induction parts with
  | nil => exact each
  | cons part parts ih =>
      obtain ⟨first, others⟩ := List.forall_mem_cons.mp plain
      rw [List.cons_append, List.mapM_cons, tokens_literal true first, ih others]
      rfl

theorem glob_documentsBelow (tree : root.IsTree) {path : List Char} {place : List String}
    (absolute : isAbsolute path = true) (plain : IsLiteral path) (located : locate root path = .ok place) :
    ∃ start : Found, start.Stands root ∧ start.place = place ∧ byteLength start.path ≤ byteLength path ∧
      glob root (documentsBelow path) = .ok (expand root [[.anyFolders], documentName] start) := by
  obtain ⟨_, _, followed⟩ := locate_eq_ok_iff.mp located
  obtain ⟨rest, rfl⟩ := exists_of_isAbsolute absolute
  rw [splitPath_slash_cons] at followed
  replace followed : follow root [] (splitPath rest) = .ok place := followed
  have plainParts : ∀ part ∈ splitPath rest, IsLiteral part := fun part listed c inside =>
    plain c (List.mem_cons_of_mem _ (mem_of_mem_splitPath listed inside))
  obtain ⟨start, stands, ended, path, expanded⟩ :=
    expand_literal tree (Found.stands_root root) followed
  refine ⟨start, stands, ended, ?_, ?_⟩
  · have whole := flatMap_splitPath rest
    obtain ⟨part, parts, split⟩ := List.exists_cons_of_ne_nil (splitPath_ne_nil rest)
    have first : join ['/'] part = '/' :: part := rfl
    have longer := byteLength_foldl_join_le ('/' :: part) parts
    rw [split, List.flatMap_cons] at whole
    rw [path, split, List.foldl_cons, first, ← whole, byteLength_append]
    exact longer
  · have wholeTokens : tokens true (documentsBelow ('/' :: rest)) =
        .ok (literal ('/' :: rest ++ ['/']) ++ (.anyFolders :: documentName)) := by
      have folders : tokens true "**/*.json".toList = .ok (.anyFolders :: documentName) := by
        decide +kernel
      rw [documentsBelow_eq, tokens_literal_append true plain, folders]
      rfl
    have partTokens : (patternParts (documentsBelow ('/' :: rest))).mapM (tokens true) =
        .ok ((splitPath rest).map literal ++ [[.anyFolders], documentName]) := by
      rw [patternParts_documentsBelow]
      exact mapM_tokens_append plainParts (by decide +kernel)
    refine (glob_eq_ok_iff _ _).mpr ⟨_, _, wholeTokens, partTokens, ?_⟩
    rw [if_neg (getLast?_documentsBelow _), expanded]

/-- Paths stand for the documents below a place: each leads to one of them, no two to the same, and one
leads to each document that is `reached`. -/
structure Expands (root : Directory) (place : List String) (reached : List String → Prop)
    (paths : List String) : Prop where
  sound : ∀ path ∈ paths, ∃ below, IsDocument root place below ∧
    locate root path.toList = .ok (place ++ below)
  unique : AreDistinct root paths
  complete : ∀ below, IsDocument root place below → reached below →
    ∃ path ∈ paths, locate root path.toList = .ok (place ++ below)

theorem resolvePatterns_folder_eq_ok_iff {folder : List Char} {pattern : String} {inner : Directory}
    (reached : entryAt? root (resolve folder pattern.toList) = some (.folder inner)) (paths : List String) :
    resolvePatterns root folder [pattern] = .ok paths ↔
      ∃ found, glob root (documentsBelow (resolve folder pattern.toList)) = .ok found ∧
        paths = sortDistinct ((found.filter fun candidate => isFile root candidate.path).map
          fun file => String.ofList file.path) := by
  simp only [resolvePatterns, List.mapM_cons, List.mapM_nil, resolvePattern, reached, globPaths]
  cases glob root (documentsBelow (resolve folder pattern.toList)) with
  | error fault => simp [Except.map, bind, Except.bind]
  | ok found => simp [Except.map, bind, Except.bind, pure, Except.pure, eq_comm]

theorem mem_sortDistinct_files_iff (found : List Found) (path : String) :
    path ∈ sortDistinct ((found.filter fun candidate => isFile root candidate.path).map
        fun file => String.ofList file.path) ↔
      ∃ candidate ∈ found, isFile root candidate.path = true ∧ path = String.ofList candidate.path := by
  rw [mem_sortDistinct]
  simp only [List.mem_map, List.mem_filter, and_assoc, eq_comm]

theorem expands_of_isLiteral (tree : root.IsTree) {folder : List Char} (absolute : isAbsolute folder = true)
    {pattern : String} (plain : IsLiteral (resolve folder pattern.toList)) {place : List String}
    (located : locate root (resolve folder pattern.toList) = .ok place) {inner : Directory}
    (reached : (Entry.folder root).find? place = some (.folder inner)) :
    ∃ paths, resolvePatterns root folder [pattern] = .ok paths ∧
      Expands root place (fun below =>
        byteLength (resolve folder pattern.toList) + byteLength (written below) < 4096) paths := by
  have entry : entryAt? root (resolve folder pattern.toList) = some (.folder inner) := by
    simp [entryAt?, located, Except.toOption, reached]
  obtain ⟨start, stands, rfl, shorter, globbed⟩ :=
    glob_documentsBelow tree (isAbsolute_resolve absolute _) plain located
  have resolved := (resolvePatterns_folder_eq_ok_iff entry _).mpr ⟨_, globbed, rfl⟩
  generalize same : sortDistinct _ = paths at resolved
  have folder : start.entry = .folder inner := Option.some.inj (stands.reached.symm.trans reached)
  let pathTo (below : List String) : List Char :=
    below.foldl (fun path name => join path name.toList) start.path
  have leads (path : String) : path ∈ paths ↔ ∃ below, IsDocument root start.place below ∧
      byteLength (pathTo below) < 4096 ∧ path = String.ofList (pathTo below) := by
    rw [← same, mem_sortDistinct_files_iff]
    simp only [mem_expand_documents_iff tree stands folder]
    constructor
    · rintro ⟨_, ⟨below, entry, named, reached, rfl⟩, file, rfl⟩
      obtain ⟨short, content, rfl⟩ := (stands.below tree reached).isFile_iff.mp file
      exact ⟨below, ⟨named, content, reached⟩, short, rfl⟩
    · rintro ⟨below, ⟨named, content, reached⟩, short, rfl⟩
      exact ⟨_, ⟨below, _, named, reached, rfl⟩,
        (stands.below tree reached).isFile_iff.mpr ⟨short, content, rfl⟩, rfl⟩
  have located {below : List String} (document : IsDocument root start.place below)
      (short : byteLength (pathTo below) < 4096) :
      locate root (String.ofList (pathTo below)).toList = .ok (start.place ++ below) := by
    obtain ⟨_, content, reached⟩ := document
    rw [String.toList_ofList]
    exact (stands.below tree reached).locate_eq short
  refine ⟨paths, resolved, ?_, ?_, ?_⟩
  · intro path among
    obtain ⟨below, document, short, rfl⟩ := (leads path).mp among
    exact ⟨below, document, located document short⟩
  · intro first among second among' leadsSame
    obtain ⟨below, document, short, rfl⟩ := (leads first).mp among
    obtain ⟨below', document', short', rfl⟩ := (leads second).mp among'
    rw [located document short, located document' short'] at leadsSame
    obtain rfl := List.append_cancel_left (Except.ok.inj leadsSame)
    rfl
  · intro below document short
    have longer := byteLength_below_le start.path start.place below start.entry
    have short : byteLength (pathTo below) < 4096 := by
      refine Nat.lt_of_le_of_lt longer ?_
      omega
    exact ⟨_, (leads _).mpr ⟨below, document, short, rfl⟩, located document short⟩

section

variable {name : String} {inner : Directory}

theorem locate_name (tree : root.IsTree) (got : root.get? name = some (.folder inner)) :
    locate root ('/' :: name.toList) = .ok [name] := by
  have proper := (tree.of_get? got).1
  have reached : (Entry.folder root).find? [name] = some (.folder inner) := by
    simp [Entry.find?, got]
  have shape : written [name] = '/' :: name.toList := by simp [written]
  have short := proper.short
  rw [← shape]
  refine locate_written tree reached ?_
  rw [shape, byteLength_cons, utf8Size_slash]
  omega

theorem resolve_name (proper : IsName name) : resolve ['/'] name.toList = '/' :: name.toList := by
  have relative : isAbsolute name.toList = false := by
    rw [isAbsolute, beq_eq_false_iff_ne]
    intro slash
    exact proper.slashless (List.mem_of_head? slash)
  rw [resolve, relative]
  rfl

theorem glob_name {found : List Found} (proper : IsName name)
    (globbed : glob root (documentsBelow ('/' :: name.toList)) = .ok found) :
    ∃ part, tokens true name.toList = .ok part ∧
      found = expand root [part, [.anyFolders], documentName] ⟨['/'], [], .folder root⟩ := by
  have parts := patternParts_documentsBelow name.toList
  rw [splitPath_of_slashless proper.slashless] at parts
  have known : ["**".toList, "*.json".toList].mapM (tokens true) =
      .ok [[.anyFolders], documentName] := by
    decide +kernel
  obtain ⟨_, read, _, each, rfl⟩ := (glob_eq_ok_iff _ _).mp globbed
  rw [parts] at each
  obtain ⟨part, rest, first, others, rfl⟩ := List.forall₂_cons_left_iff.mp ((mapM_eq_ok_iff _ _ _).mp each)
  obtain rfl := Except.ok.inj (known.symm.trans ((mapM_eq_ok_iff _ _ _).mpr others))
  exact ⟨part, first, if_neg (getLast?_documentsBelow _)⟩

theorem expand_anyFolders_twice (parts : List (List Token)) {start : Found}
    (folder : start.entry = .folder inner) :
    expand root ([.anyFolders] :: [.anyFolders] :: parts) start =
      expand root ([.anyFolders] :: parts) start := by
  have wild : Token.literal? [.anyFolders] = none := rfl
  have proper : Token.isAnyFolders [.anyFolders] = true := rfl
  have skipped : expandBelow root ([.anyFolders] :: parts) = expandBelow root parts := by
    funext found
    rw [expandBelow.eq_def]
    simp only [proper, if_true]
  rw [expand.eq_def, expand.eq_def root ([.anyFolders] :: parts)]
  simp only [wild, folder, proper, if_true, skipped]

theorem glob_of_resolvePatterns_name (tree : root.IsTree) (got : root.get? name = some (.folder inner))
    {paths : List String} (resolved : resolvePatterns root ['/'] [name] = .ok paths) :
    ∃ found, glob root (documentsBelow ('/' :: name.toList)) = .ok found ∧
      ∀ path, path ∈ paths ↔ ∃ candidate ∈ found, isFile root candidate.path = true ∧
        path = String.ofList candidate.path := by
  have named := resolve_name (tree.of_get? got).1
  have entry : entryAt? root (resolve ['/'] name.toList) = some (.folder inner) := by
    rw [named, entryAt?, locate_name tree got]
    simp [Except.toOption, Entry.find?, got]
  obtain ⟨found, globbed, rfl⟩ := (resolvePatterns_folder_eq_ok_iff entry _).mp resolved
  exact ⟨found, named ▸ globbed, mem_sortDistinct_files_iff found⟩

theorem not_expands_of_mem (tree : root.IsTree) (got : root.get? name = some (.folder inner))
    {reached : List String → Prop} {start : Found} (stands : start.Stands root)
    (bare : byteLength start.path ≤ 1024) {below : List String}
    (away : (start.place ++ below).head? ≠ some name) (short : byteLength (written below) ≤ 1024)
    {content : Content} (document : (Entry.folder root).find? (start.place ++ below) = some (.file content))
    (listed : ∀ found, glob root (documentsBelow ('/' :: name.toList)) = .ok found →
      Found.below start.path start.place below (.file content) ∈ found) :
    ¬ ∃ paths, resolvePatterns root ['/'] [name] = .ok paths ∧ Expands root [name] reached paths := by
  rintro ⟨paths, resolved, expands⟩
  obtain ⟨found, globbed, among⟩ := glob_of_resolvePatterns_name tree got resolved
  have stands := stands.below tree document
  have short : byteLength (Found.below start.path start.place below (.file content)).path < 4096 := by
    have longer := byteLength_below_le start.path start.place below (.file content)
    omega
  have isFile := stands.isFile_iff.mpr ⟨short, content, rfl⟩
  obtain ⟨others, _, located⟩ :=
    expands.sound _ ((among _).mpr ⟨_, listed found globbed, isFile, rfl⟩)
  rw [String.toList_ofList, stands.locate_eq short] at located
  have same : start.place ++ below = [name] ++ others := Except.ok.inj located
  exact away (by simp [same])

/-- In some tree the folder of this name at the root does not stand for the documents below it. -/
def IsMisread (name : String) : Prop :=
  ∃ root inner, root.IsTree ∧ root.get? name = some (.folder inner) ∧
    ¬ ∃ paths, resolvePatterns root ['/'] [name] = .ok paths ∧
      Expands root [name] (fun below =>
        byteLength ('/' :: name.toList) + byteLength (written below) < 4096) paths

def document : Content := .text ""

def loneDocument : Directory := .file "x.json" document .empty

theorem namesDocument_x : NamesDocument ["x.json"] := ⟨"x.json", rfl, by decide⟩

theorem ne_x_of_not_isLiteral (wild : ¬ IsLiteral name.toList) : name ≠ "x.json" := by
  rintro rfl
  exact wild (by decide)

def documentBeside (name : String) : Directory := .folder name .empty loneDocument

theorem get?_documentBeside (name : String) :
    (documentBeside name).get? name = some (.folder .empty) := by
  simp [documentBeside, Directory.get?]

theorem isTree_documentBeside (proper : IsName name) (wild : ¬ IsLiteral name.toList) :
    (documentBeside name).IsTree := by
  refine ⟨proper, ?_, trivial, by decide⟩
  intro listed
  exact ne_x_of_not_isLiteral wild (by simpa [loneDocument, Directory.names] using listed)

theorem isMisread_of_leads_back (proper : IsName name) (wild : ¬ IsLiteral name.toList) {start : Found}
    (stands : start.Stands (documentBeside name)) (bare : byteLength start.path ≤ 1024)
    (atRoot : start.place = [])
    (listed : ∀ found, glob (documentBeside name) (documentsBelow ('/' :: name.toList)) = .ok found →
      expand (documentBeside name) [[.anyFolders], documentName] start ⊆ found) : IsMisread name := by
  have tree := isTree_documentBeside proper wild
  have other := ne_x_of_not_isLiteral wild
  have folder : start.entry = .folder (documentBeside name) := by
    have reached := stands.reached
    rw [atRoot, Entry.find?_nil] at reached
    exact (Option.some.inj reached).symm
  have reached : (Entry.folder (documentBeside name)).find? (start.place ++ ["x.json"]) =
      some (.file document) := by
    simp [atRoot, documentBeside, loneDocument, Entry.find?, Directory.get?, other]
  refine ⟨_, _, tree, get?_documentBeside name, not_expands_of_mem tree (get?_documentBeside name) stands
    bare ?_ (by decide : byteLength (written ["x.json"]) ≤ 1024) reached ?_⟩
  · simpa [atRoot] using Ne.symm other
  · intro found globbed
    exact listed found globbed ((mem_expand_documents_iff tree stands folder _).mpr
      ⟨_, _, namesDocument_x, reached, rfl⟩)

theorem isMisread_of_matchesName_other (proper : IsName name) {other : String} (proper' : IsName other)
    (different : other ≠ name) {part : List Token} (read : tokens true name.toList = .ok part)
    (wild : Token.literal? part = none) (bounded : Token.isAnyFolders part = false)
    (matched : Token.matchesName part other.toList = true) : IsMisread name := by
  let root : Directory := .folder name .empty (.folder other loneDocument .empty)
  have tree : root.IsTree := by
    refine ⟨proper, ?_, trivial, proper', ?_, by decide, trivial⟩
    · simpa [Directory.names] using Ne.symm different
    · simp [Directory.names]
  have got : root.get? name = some (.folder .empty) := by simp [root, Directory.get?]
  have got' : root.get? other = some (.folder loneDocument) := by
    simp [root, Directory.get?, Ne.symm different]
  have stands := (Found.stands_root root).child tree rfl got'
  have reached : (Entry.folder root).find? [other, "x.json"] = some (.file document) := by
    simp [Entry.find?, got', loneDocument, Directory.get?]
  have short : byteLength (join ['/'] other.toList) ≤ 1024 := by
    have longer := byteLength_join_le ['/'] other.toList
    have bound := proper'.short
    simp only [byteLength_cons, byteLength_nil, utf8Size_slash] at longer
    omega
  refine ⟨root, _, tree, got, not_expands_of_mem tree got stands short ?_
    (by decide : byteLength (written ["x.json"]) ≤ 1024) reached ?_⟩
  · simpa [Found.child] using different
  · intro found globbed
    obtain ⟨part', read', rfl⟩ := glob_name proper globbed
    obtain rfl := Except.ok.inj (read.symm.trans read')
    refine (mem_expand_cons_iff wild bounded _ rfl _).mpr (.inl ⟨_,
      (Directory.mem_children_iff tree _ _ _).mpr ⟨other, _, got', rfl⟩, ?_, ?_⟩)
    · simpa [Found.name, Found.child] using matched
    · exact (mem_expand_documents_iff tree stands rfl _).mpr ⟨_, _, namesDocument_x, reached, rfl⟩

theorem isMisread_of_not_matchesName (proper : IsName name) {part : List Token}
    (read : tokens true name.toList = .ok part) (wild : Token.literal? part = none)
    (bounded : Token.isAnyFolders part = false) (kept : dots part = [])
    (other : ¬ Token.matchesName part name.toList = true) : IsMisread name := by
  let root : Directory := .folder name loneDocument .empty
  have tree : root.IsTree := ⟨proper, by simp [Directory.names], by decide, trivial⟩
  have got : root.get? name = some (.folder loneDocument) := by simp [root, Directory.get?]
  have inside : IsDocument root [name] ["x.json"] :=
    ⟨namesDocument_x, document, by simp [Entry.find?, got, loneDocument, Directory.get?]⟩
  have short : byteLength ('/' :: name.toList) + byteLength (written ["x.json"]) < 4096 := by
    have bound := proper.short
    have width : byteLength (written ["x.json"]) = 7 := by decide
    rw [width, byteLength_cons, utf8Size_slash]
    omega
  refine ⟨root, _, tree, got, ?_⟩
  rintro ⟨paths, resolved, expands⟩
  obtain ⟨path, listed, _⟩ := expands.complete _ inside short
  obtain ⟨found, globbed, among⟩ := glob_of_resolvePatterns_name tree got resolved
  obtain ⟨candidate, found, _⟩ := (among path).mp listed
  obtain ⟨part', read', rfl⟩ := glob_name proper globbed
  obtain rfl := Except.ok.inj (read.symm.trans read')
  rcases (mem_expand_cons_iff wild bounded _ rfl _).mp found with ⟨child, member, matched, _⟩ | ⟨_, dot, _⟩
  · obtain ⟨name', entry, got', rfl⟩ := (Directory.mem_children_iff tree _ _ _).mp member
    obtain rfl : name = name' := by
      by_contra different
      simp [root, Directory.get?, different] at got'
    exact other (by simpa [Found.name, Found.child] using matched)
  · simp [kept] at dot

theorem exists_step_of_mem_dots {root : Directory} {part : List Token} {dot : List Char}
    (listed : dot ∈ dots part) :
    ∃ next : Found, step root ⟨['/'], [], .folder root⟩ dot = some next ∧ next.Stands root ∧
      next.place = [] ∧ byteLength next.path ≤ 1024 := by
  have either : dot = ['.'] ∨ dot = ['.', '.'] := by
    unfold dots at listed
    split at listed
    · simpa using (List.mem_filter.mp listed).1
    · simp at listed
  rcases either with rfl | rfl
  · refine ⟨⟨"/.".toList, [], .folder root⟩, rfl, ⟨Entry.find?_nil _, rfl, by simp, rfl⟩, rfl, ?_⟩
    exact (by decide : byteLength "/.".toList ≤ 1024)
  · refine ⟨⟨"/..".toList, [], .folder root⟩, rfl, ⟨Entry.find?_nil _, rfl, by simp, rfl⟩, rfl, ?_⟩
    exact (by decide : byteLength "/..".toList ≤ 1024)

theorem isMisread_of_not_isLiteral (proper : IsName name) (wild : ¬ IsLiteral name.toList) :
    IsMisread name := by
  have tree := isTree_documentBeside proper wild
  have beside := get?_documentBeside name
  cases read : tokens true name.toList with
  | error fault =>
      refine ⟨_, _, tree, beside, ?_⟩
      rintro ⟨paths, resolved, _⟩
      obtain ⟨found, globbed, _⟩ := glob_of_resolvePatterns_name tree beside resolved
      obtain ⟨part, read', _⟩ := glob_name proper globbed
      exact absurd (read.symm.trans read') (by simp)
  | ok part =>
      have none := ((isReading_of_tokens read).2.resolve_left wild).2
      by_cases unbounded : Token.isAnyFolders part = true
      · refine isMisread_of_leads_back proper wild (Found.stands_root _) (by decide : 1 ≤ 1024) rfl ?_
        intro found globbed
        obtain ⟨part', read', rfl⟩ := glob_name proper globbed
        obtain rfl := Except.ok.inj (read.symm.trans read')
        obtain rfl : part = [.anyFolders] := by simpa [Token.isAnyFolders] using unbounded
        rw [expand_anyFolders_twice _ rfl]
        exact List.Subset.refl _
      · have bounded : Token.isAnyFolders part = false := by simpa using unbounded
        cases turns : dots part with
        | cons dot rest =>
            have listed : dot ∈ dots part := by simp [turns]
            obtain ⟨next, stepped, stands, atRoot, bare⟩ := exists_step_of_mem_dots listed
            refine isMisread_of_leads_back proper wild stands bare atRoot ?_
            intro found globbed candidate among
            obtain ⟨part', read', rfl⟩ := glob_name proper globbed
            obtain rfl := Except.ok.inj (read.symm.trans read')
            exact (mem_expand_cons_iff none bounded _ rfl _).mpr (.inr ⟨dot, listed, next, stepped, among⟩)
        | nil =>
            by_cases matched : Token.matchesName part name.toList = true
            · obtain ⟨other, proper', different, matched'⟩ :=
                exists_other_of_matchesName proper wild read matched
              exact isMisread_of_matchesName_other proper proper' different read none bounded matched'
            · exact isMisread_of_not_matchesName proper read none bounded turns matched

end

theorem isMisread_iff {name : String} (proper : IsName name) :
    IsMisread name ↔ ¬ IsLiteral name.toList := by
  refine ⟨?_, isMisread_of_not_isLiteral proper⟩
  rintro ⟨root, inner, tree, got, misread⟩ plain
  have reached : (Entry.folder root).find? [name] = some (.folder inner) := by
    simp [Entry.find?, got]
  have located := locate_name tree got
  have named := resolve_name proper
  rw [← named] at located
  have literal : IsLiteral (resolve ['/'] name.toList) := by
    rw [named]
    exact List.forall_mem_cons.mpr ⟨by decide, plain⟩
  have expands := expands_of_isLiteral tree rfl literal located reached
  rw [named] at expands
  exact misread expands

/-- A folder stands for the documents below it where its path has no wildcards, as far as their paths are
not too long. Only there: a folder is misread, in some tree, just if its name has wildcards. -/
theorem folder_expands (tree : root.IsTree) {folder : List Char} (absolute : isAbsolute folder = true)
    {pattern : String} {place : List String}
    (located : locate root (resolve folder pattern.toList) = .ok place) {inner : Directory}
    (reached : (Entry.folder root).find? place = some (.folder inner)) :
    (IsLiteral (resolve folder pattern.toList) →
      ∃ paths, resolvePatterns root folder [pattern] = .ok paths ∧
        Expands root place (fun below =>
          byteLength (resolve folder pattern.toList) + byteLength (written below) < 4096) paths) ∧
    ∀ name, IsName name → (IsMisread name ↔ ¬ IsLiteral name.toList) :=
  ⟨fun plain => expands_of_isLiteral tree absolute plain located reached, fun _ => isMisread_iff⟩

def testsTree : Directory :=
  .folder "tests" (.file "a.json" document (.folder "nested" (.file "b.json" document .empty)
    (.file "notes.txt" document .empty))) loneDocument

theorem folder_expands_tests :
    Expands testsTree ["tests"] (fun below => byteLength "/tests".toList + byteLength (written below) < 4096)
        ["/tests/a.json", "/tests/nested/b.json"] ∧
      IsMisread "a[b]" ∧ ¬ IsMisread "tests" := by
  have tree : testsTree.IsTree := by decide
  have located : locate testsTree (resolve ['/'] "tests".toList) = .ok ["tests"] := by decide +kernel
  obtain ⟨expansion, misread⟩ := folder_expands tree rfl located rfl
  refine ⟨?_, (misread "a[b]" (by decide)).mpr (by decide), ?_⟩
  · obtain ⟨paths, resolved, expands⟩ := expansion (by decide)
    have same : resolvePatterns testsTree ['/'] ["tests"] =
        .ok ["/tests/a.json", "/tests/nested/b.json"] := by
      decide +kernel
    obtain rfl := Except.ok.inj (same.symm.trans resolved)
    exact expands
  · intro other
    exact (misread "tests" (by decide)).mp other (by decide)

def bracketTree : Directory := .folder "a[b]" loneDocument .empty

theorem folder_not_expanded_bracketed :
    bracketTree.IsTree ∧ entryAt? bracketTree "/a[b]".toList = some (.folder loneDocument) ∧
      IsDocument bracketTree ["a[b]"] ["x.json"] ∧
      resolvePatterns bracketTree ['/'] ["a[b]"] = .ok [] ∧
      ¬ ∃ paths, resolvePatterns bracketTree ['/'] ["a[b]"] = .ok paths ∧
        Expands bracketTree ["a[b]"] (fun _ => True) paths := by
  have inside : IsDocument bracketTree ["a[b]"] ["x.json"] := ⟨namesDocument_x, document, rfl⟩
  have nothing : resolvePatterns bracketTree ['/'] ["a[b]"] = .ok [] := by decide +kernel
  refine ⟨by decide, by decide +kernel, inside, nothing, ?_⟩
  rintro ⟨paths, resolved, expands⟩
  obtain rfl := Except.ok.inj (nothing.symm.trans resolved)
  obtain ⟨path, listed, _⟩ := expands.complete _ inside trivial
  simp at listed

end WebTestLint.File
