import Mathlib.Data.List.Dedup
import WebTestLint.Proofs.Union
import WebTestLint.Proofs.Walk

/-!
Files and the paths to them. Paths are told apart by their texts, so that a file has one path among those
that patterns stand for only if no two of them are spellings of one place.
-/

namespace WebTestLint.File

def moved (place : List String) (part : List Char) : List String :=
  if isIdle part then place
  else if part = ['.', '.'] then place.dropLast
  else place ++ [String.ofList part]

/-- The place that a path is a spelling of. -/
def destination (path : List Char) : List String := (splitPath path).foldl moved []

def turns (part : List Char) : Bool :=
  match tokens true part with
  | .ok read => !(dots read).isEmpty
  | .error _ => false

/-- A pattern that leads nowhere twice; where it names a file, no part is empty. -/
structure IsPlain (root : Directory) (path : List Char) : Prop where
  straight : ∀ part ∈ splitPath path, turns part = false
  filled : isFile root path = true → [] ∉ (splitPath path).drop 1

variable {root : Directory}

theorem Moves.eq_moved {inner : Directory} {place next : List String} {part : List Char}
    (moves : Moves inner place part next) : next = moved place part := by
  cases moves with
  | stay idle => simp [moved, idle]
  | up => simp [moved, isIdle]
  | enter _ proper => simp [moved, proper.notIdle, proper.notUp]

theorem eq_foldl_moved_of_follow (tree : root.IsTree) {place last : List String}
    {parts : List (List Char)} (followed : follow root place parts = .ok last) :
    last = parts.foldl moved place := by
  induction parts generalizing place with
  | nil => exact (Except.ok.inj followed).symm
  | cons part parts ih =>
      obtain ⟨_, next, _, moves, followed⟩ := (follow_cons_eq_ok_iff tree _ _ _ _).mp followed
      rw [List.foldl_cons, ← moves.eq_moved]
      exact ih followed

theorem eq_destination_of_locate (tree : root.IsTree) {path : List Char} {place : List String}
    (located : locate root path = .ok place) : place = destination path :=
  eq_foldl_moved_of_follow tree (locate_eq_ok_iff.mp located).2.2

theorem locate_of_isFile (tree : root.IsTree) {path : List Char} (file : isFile root path = true) :
    locate root path = .ok (destination path) ∧
      ∃ content, (Entry.folder root).find? (destination path) = some (.file content) := by
  obtain ⟨content, reached⟩ := (isFile_iff _ _).mp file
  obtain ⟨place, located, reached⟩ := entryAt?_eq_some_iff.mp reached
  obtain rfl := eq_destination_of_locate tree located
  exact ⟨located, content, reached⟩

theorem glob_eq_ok {pattern : List Char} {found : List Found} (globbed : glob root pattern = .ok found) :
    ∃ parts, (∀ part ∈ parts, ∃ text ∈ splitPath pattern, tokens true text = .ok part) ∧
      ∀ candidate ∈ found, candidate ∈ expand root parts ⟨['/'], [], .folder root⟩ := by
  obtain ⟨_, parts, _, each, rfl⟩ := (glob_eq_ok_iff _ _).mp globbed
  refine ⟨parts, ?_, ?_⟩
  · intro part listed
    obtain ⟨text, among, read⟩ := exists_of_forall₂ ((mapM_eq_ok_iff _ _ _).mp each) listed
    refine ⟨text, ?_, read⟩
    unfold patternParts at among
    dsimp only at among
    split at among
    · exact List.mem_of_mem_drop among
    · exact List.mem_of_mem_drop (List.mem_of_mem_dropLast among)
  · intro candidate listed
    split at listed
    · exact (List.mem_filter.mp listed).1
    · exact listed

theorem exists_found_of_mem_globPaths {pattern : List Char} {paths : List String}
    (globbed : globPaths root pattern = .ok paths) {path : String} (listed : path ∈ paths) :
    ∃ found candidate, glob root pattern = .ok found ∧ candidate ∈ found ∧
      isFile root candidate.path = true ∧ path = String.ofList candidate.path := by
  obtain ⟨found, read, rfl⟩ := map_eq_ok_iff.mp globbed
  obtain ⟨candidate, kept, rfl⟩ := List.mem_map.mp listed
  obtain ⟨among, file⟩ := List.mem_filter.mp kept
  exact ⟨found, candidate, read, among, file, rfl⟩

theorem stands_of_mem_glob (tree : root.IsTree) {pattern : List Char} {found : List Found}
    (globbed : glob root pattern = .ok found) {candidate : Found} (listed : candidate ∈ found) :
    candidate.Stands root := by
  obtain ⟨parts, _, expanded⟩ := glob_eq_ok globbed
  exact Found.expand_invariant (fun _ stands => stands)
    (fun _ _ _ _ stands folder got => stands.child tree folder got) tree
    (fun _ _ _ _ _ _ stands stepped => stands.step tree stepped) (Found.stands_root root)
    (expanded candidate listed)

structure Found.IsPlain (root : Directory) (found : Found) : Prop where
  stands : found.Stands root
  plain : found.path = written found.place ∨
    found.path = written found.place ++ ['/'] ∧ ∃ inner, found.entry = .folder inner

namespace Found.IsPlain

variable {found next : Found}

theorem join_eq (plain : found.IsPlain root) (tree : root.IsTree) (part : List Char) :
    join found.path part = written found.place ++ '/' :: part := by
  rcases plain.plain with same | ⟨same, _⟩
  · rw [same, join_written (plain.stands.isName tree)]
  · simp [same, join]

theorem child (plain : found.IsPlain root) (tree : root.IsTree) {inner : Directory}
    (folder : found.entry = .folder inner) {name : String} {entry : Entry}
    (got : inner.get? name = some entry) :
    (Found.child found.path found.place name entry).IsPlain root := by
  refine ⟨plain.stands.child tree folder got, .inl ?_⟩
  simp [Found.child, plain.join_eq tree, written]

theorem turn (plain : found.IsPlain root) (tree : root.IsTree) {part : List Token} (kept : dots part = [])
    {text : List Char} (way : Token.literal? part = some text ∨ text ∈ dots part)
    (stepped : step root found text = some next) : next.IsPlain root := by
  obtain ⟨inner, folder, moves, path, reached⟩ := (step_eq_some_iff tree plain.stands).mp stepped
  have read : part = literal text := by
    rcases way with read | turned
    · exact Token.eq_literal_of_literal? read
    · simp [kept] at turned
  subst read
  refine ⟨plain.stands.step tree stepped, ?_⟩
  rw [path, plain.join_eq tree]
  generalize place : next.place = ended at moves
  cases moves with
  | stay idle =>
      rcases (isIdle_iff text).mp idle with rfl | rfl
      · have same : next.entry = found.entry := by
          rw [place, plain.stands.reached] at reached
          exact (Option.some.inj reached).symm
        exact .inr ⟨by simp, inner, same.trans folder⟩
      · exact absurd kept (by decide)
  | up => exact absurd kept (by decide)
  | enter => exact .inl (by simp [written])

end Found.IsPlain

theorem eq_written_of_mem_globPaths (tree : root.IsTree) {pattern : List Char}
    (straight : ∀ part ∈ splitPath pattern, turns part = false) {paths : List String}
    (globbed : globPaths root pattern = .ok paths) {path : String} (listed : path ∈ paths) :
    path.toList = written (destination path.toList) := by
  obtain ⟨found, candidate, globbed, among, file, rfl⟩ := exists_found_of_mem_globPaths globbed listed
  obtain ⟨parts, read, expanded⟩ := glob_eq_ok globbed
  have kept : ∀ part ∈ parts, dots part = [] := by
    intro part listed
    obtain ⟨text, among, read⟩ := read part listed
    have plain := straight text among
    rw [turns, read] at plain
    simpa using plain
  have start : Found.IsPlain root ⟨['/'], [], .folder root⟩ :=
    ⟨Found.stands_root root, .inr ⟨rfl, root, rfl⟩⟩
  have plain : candidate.IsPlain root :=
    Found.expand_invariant (fun _ plain => plain.stands)
      (fun _ _ _ _ plain folder got => plain.child tree folder got) tree
      (fun part listed _ way _ _ plain stepped => plain.turn tree (kept part listed) way stepped) start
      (expanded candidate among)
  obtain ⟨short, content, entry⟩ := plain.stands.isFile_iff.mp file
  have placed := eq_destination_of_locate tree (plain.stands.locate_eq short)
  rw [String.toList_ofList, ← placed]
  rcases plain.plain with same | ⟨_, inner, folder⟩
  · exact same
  · simp [entry] at folder

theorem foldl_moved_of_straight {parts : List (List Char)}
    (straight : ∀ part ∈ parts, part ≠ [] ∧ turns part = false) (place : List String) :
    parts.foldl moved place = place ++ parts.map String.ofList := by
  induction parts generalizing place with
  | nil => simp
  | cons part parts ih =>
      obtain ⟨⟨filled, kept⟩, straight⟩ := List.forall_mem_cons.mp straight
      have stay : turns ['.'] = true := by decide +kernel
      have leave : turns ['.', '.'] = true := by decide +kernel
      have proper : isIdle part = false := by
        rw [← Bool.not_eq_true, isIdle_iff]
        rintro (rfl | rfl)
        · exact filled rfl
        · simp [stay] at kept
      have notUp : part ≠ ['.', '.'] := by
        rintro rfl
        simp [leave] at kept
      rw [List.foldl_cons, ih straight]
      simp [moved, proper, notUp]

theorem eq_written_of_isPlain {path : List Char} (absolute : isAbsolute path = true)
    (plain : IsPlain root path) (file : isFile root path = true) : path = written (destination path) := by
  obtain ⟨rest, rfl⟩ := exists_of_isAbsolute absolute
  have straight : ∀ part ∈ splitPath rest, part ≠ [] ∧ turns part = false := by
    intro part listed
    have filled := plain.filled file
    have kept := plain.straight part
    rw [splitPath_slash_cons] at filled kept
    refine ⟨?_, kept (List.mem_cons_of_mem _ listed)⟩
    rintro rfl
    exact filled listed
  have placed : destination ('/' :: rest) = (splitPath rest).map String.ofList := by
    rw [destination, splitPath_slash_cons, List.foldl_cons]
    exact foldl_moved_of_straight straight []
  rw [placed, written, List.flatMap_map]
  simp only [String.toList_ofList]
  exact (flatMap_splitPath rest).symm

theorem eq_written_of_mem_resolvePattern (tree : root.IsTree) {folder : List Char}
    (absolute : isAbsolute folder = true) {pattern : String}
    (plain : IsPlain root (resolve folder pattern.toList)) {paths : List String}
    (resolved : resolvePattern root folder pattern = .ok paths) {path : String} (listed : path ∈ paths) :
    path.toList = written (destination path.toList) := by
  unfold resolvePattern at resolved
  dsimp only at resolved
  split at resolved
  · rename_i content found
    obtain rfl := Except.ok.inj resolved
    obtain rfl := List.mem_singleton.mp listed
    rw [String.toList_ofList]
    exact eq_written_of_isPlain (isAbsolute_resolve absolute _) plain
      ((isFile_iff _ _).mpr ⟨content, found⟩)
  · refine eq_written_of_mem_globPaths tree ?_ resolved listed
    have last : ∀ part ∈ splitPath "**/*.json".toList, turns part = false := by decide +kernel
    rw [documentsBelow_eq, splitPath_append]
    intro part listed
    rcases List.mem_append.mp listed with before | after
    · exact plain.straight part before
    · exact last part after
  · exact eq_written_of_mem_globPaths tree plain.straight resolved listed

theorem isAbsolute_of_mem_resolvePattern (tree : root.IsTree) {folder : List Char}
    (absolute : isAbsolute folder = true) {pattern : String} {paths : List String}
    (resolved : resolvePattern root folder pattern = .ok paths) {path : String} (listed : path ∈ paths) :
    isAbsolute path.toList = true := by
  have globbed {pattern : List Char} (globbed : globPaths root pattern = .ok paths) :
      isAbsolute path.toList = true := by
    obtain ⟨found, candidate, globbed, among, _, rfl⟩ := exists_found_of_mem_globPaths globbed listed
    rw [String.toList_ofList]
    exact (stands_of_mem_glob tree globbed among).absolute
  unfold resolvePattern at resolved
  dsimp only at resolved
  split at resolved
  · obtain rfl := Except.ok.inj resolved
    obtain rfl := List.mem_singleton.mp listed
    rw [String.toList_ofList]
    exact isAbsolute_resolve absolute _
  · exact globbed resolved
  · exact globbed resolved

section

variable {folder : List Char} {patterns paths : List String}

theorem areDistinct_iff_nodup (tree : root.IsTree)
    (resolved : resolvePatterns root folder patterns = .ok paths) :
    AreDistinct root paths ↔ (paths.map fun path => destination path.toList).Nodup := by
  have distinct : paths.Nodup := (pairwise_paths resolved).imp fun less => ne_of_lt less
  rw [List.nodup_map_iff_inj_on distinct]
  have located {path : String} (listed : path ∈ paths) :
      locate root path.toList = .ok (destination path.toList) :=
    (locate_of_isFile tree (isFile_of_mem_paths resolved listed)).1
  constructor
  · intro each first listed second listed' same
    exact each first listed second listed' (by rw [located listed, located listed', same])
  · intro each first listed second listed' same
    rw [located listed, located listed'] at same
    exact each first listed second listed' (Except.ok.inj same)

theorem areDistinct_of_isPlain (tree : root.IsTree) (absolute : isAbsolute folder = true)
    (resolved : resolvePatterns root folder patterns = .ok paths)
    (plain : ∀ pattern ∈ patterns, IsPlain root (resolve folder pattern.toList)) :
    AreDistinct root paths := by
  have spelled {path : String} (listed : path ∈ paths) :
      path.toList = written (destination path.toList) := by
    obtain ⟨pattern, named, texts, each, among⟩ := (mem_paths_iff resolved path).mp listed
    exact eq_written_of_mem_resolvePattern tree absolute (plain pattern named) each among
  intro first listed second listed' same
  rw [(locate_of_isFile tree (isFile_of_mem_paths resolved listed)).1,
    (locate_of_isFile tree (isFile_of_mem_paths resolved listed')).1] at same
  have texts : first.toList = second.toList := by
    rw [spelled listed, spelled listed', Except.ok.inj same]
  exact String.toList_inj.mp texts

theorem not_areDistinct_of_ne_written (tree : root.IsTree) (absolute : isAbsolute folder = true)
    (resolved : resolvePatterns root folder patterns = .ok paths) {path : String} (listed : path ∈ paths)
    (other : path.toList ≠ written (destination path.toList)) :
    ∃ both, resolvePatterns root folder (String.ofList (written (destination path.toList)) :: patterns) =
      .ok both ∧ ¬ AreDistinct root both := by
  obtain ⟨located, content, reached⟩ := locate_of_isFile tree (isFile_of_mem_paths resolved listed)
  obtain ⟨pattern, named, texts, each, among⟩ := (mem_paths_iff resolved path).mp listed
  have rooted := isAbsolute_of_mem_resolvePattern tree absolute each among
  generalize place : destination path.toList = ended at located reached other ⊢
  have located' : locate root (written ended) = .ok ended := by
    refine locate_written tree reached ?_
    exact Nat.lt_of_le_of_lt (byteLength_written_le tree rooted located) (locate_eq_ok_iff.mp located).2.1
  have start : isAbsolute (written ended) = true := by
    cases ended with
    | nil => simp at reached
    | cons name names => rfl
  have plain : resolvePattern root folder (String.ofList (written ended)) =
      .ok [String.ofList (written ended)] := by
    have entry : entryAt? root (written ended) = some (.file content) :=
      entryAt?_eq_some_iff.mpr ⟨ended, located', reached⟩
    simp only [resolvePattern, String.toList_ofList, resolve, start, if_true, entry]
  obtain ⟨both, resolved'⟩ : ∃ both, resolvePatterns root folder
      (String.ofList (written ended) :: patterns) = .ok both := by
    rw [exists_resolvePatterns_iff, List.forall_mem_cons]
    exact ⟨⟨_, plain⟩, (exists_resolvePatterns_iff patterns).mp ⟨paths, resolved⟩⟩
  refine ⟨both, resolved', fun distinct => other ?_⟩
  have first : path ∈ both :=
    (mem_paths_iff resolved' path).mpr ⟨pattern, List.mem_cons_of_mem _ named, texts, each, among⟩
  have second : String.ofList (written ended) ∈ both :=
    (mem_paths_iff resolved' _).mpr ⟨_, List.mem_cons_self, _, plain, List.mem_singleton_self _⟩
  have same := distinct path first _ second (by rw [located, String.toList_ofList, located'])
  rw [same, String.toList_ofList]

def fileCount (root : Directory) (paths : List String) : Nat :=
  (paths.map fun path => locate root path.toList).dedup.length

theorem length_eq_fileCount_iff (distinct : paths.Nodup) :
    paths.length = fileCount root paths ↔ AreDistinct root paths := by
  have nodup := List.nodup_map_iff_inj_on (f := fun path => locate root path.toList) distinct
  unfold AreDistinct
  rw [← nodup, fileCount]
  constructor
  · intro same
    have whole := (List.dedup_sublist (paths.map fun path => locate root path.toList)).eq_of_length
      (by rw [← same, List.length_map])
    exact List.dedup_eq_self.mp whole
  · intro nodup
    rw [List.dedup_eq_self.mpr nodup, List.length_map]

/-- Each file is linted and counted once just if no two of the paths are spellings of one place, as is the
case where all patterns are plain. -/
theorem files_linted_once (tree : root.IsTree) (absolute : isAbsolute folder = true)
    (resolved : resolvePatterns root folder patterns = .ok paths) (kind? : Option Document.Kind) :
    (∃ files, reports root folder kind? patterns = .ok files ∧
      ((Report.Summary.of files).files = fileCount root paths ↔ AreDistinct root paths)) ∧
    (AreDistinct root paths ↔ (paths.map fun path => destination path.toList).Nodup) ∧
    ((∀ pattern ∈ patterns, IsPlain root (resolve folder pattern.toList)) → AreDistinct root paths) ∧
    ∀ path ∈ paths, path.toList ≠ written (destination path.toList) →
      ∃ both, resolvePatterns root folder
          (String.ofList (written (destination path.toList)) :: patterns) = .ok both ∧
        ¬ AreDistinct root both := by
  refine ⟨?_, areDistinct_iff_nodup tree resolved, areDistinct_of_isPlain tree absolute resolved,
    fun path => not_areDistinct_of_ne_written tree absolute resolved⟩
  have distinct : paths.Nodup := (pairwise_paths resolved).imp fun less => ne_of_lt less
  have made : reports root folder kind? patterns = .ok (paths.map fun path =>
      report root kind? (String.ofList (display folder path.toList)) path.toList) := by
    rw [reports, resolved]
    rfl
  refine ⟨_, made, ?_⟩
  rw [← length_eq_fileCount_iff distinct]
  simp [Report.Summary.of]

end

theorem files_linted_once_small :
    AreDistinct smallTree ["/a.json", "/b/é.json", "/z.json"] ∧
      ∃ both, resolvePatterns smallTree ['/'] ["/a.json", "b/../a.json"] = .ok both ∧
        ¬ AreDistinct smallTree both := by
  have tree : smallTree.IsTree := by decide
  constructor
  · have resolved : resolvePatterns smallTree ['/'] ["b//", "*.json", "a.json"] =
        .ok ["/a.json", "/b/é.json", "/z.json"] := by
      decide +kernel
    refine (files_linted_once tree rfl resolved none).2.2.1 ?_
    intro pattern listed
    simp only [List.mem_cons, List.not_mem_nil, or_false] at listed
    rcases listed with rfl | rfl | rfl
    · exact ⟨by decide +kernel, by decide +kernel⟩
    · exact ⟨by decide +kernel, by decide +kernel⟩
    · exact ⟨by decide +kernel, by decide +kernel⟩
  · have resolved : resolvePatterns smallTree ['/'] ["b/../a.json"] = .ok ["/b/../a.json"] := by
      decide +kernel
    have twice := (files_linted_once tree rfl resolved none).2.2.2 "/b/../a.json" (by simp) (by decide +kernel)
    have spelled : String.ofList (written (destination "/b/../a.json".toList)) = "/a.json" := by
      decide +kernel
    rw [spelled] at twice
    exact twice

def loneFile : Directory := .file "a.json" .binary .empty

theorem file_linted_twice_dotted :
    loneFile.IsTree ∧ resolvePatterns loneFile ['/'] ["a.json", "./a.json"] = .ok ["/./a.json", "/a.json"] ∧
      locate loneFile "/./a.json".toList = .ok ["a.json"] ∧
      locate loneFile "/a.json".toList = .ok ["a.json"] ∧
      ¬ AreDistinct loneFile ["/./a.json", "/a.json"] ∧
      (reports loneFile ['/'] none ["a.json", "./a.json"]).map (fun files =>
        (Report.Summary.of files).files) = .ok 2 := by
  have dotted : locate loneFile "/./a.json".toList = .ok ["a.json"] := by decide +kernel
  have plain : locate loneFile "/a.json".toList = .ok ["a.json"] := by decide +kernel
  have resolved : resolvePatterns loneFile ['/'] ["a.json", "./a.json"] = .ok ["/./a.json", "/a.json"] := by
    decide +kernel
  refine ⟨by decide, resolved, dotted, plain, ?_, by rw [reports, resolved]; rfl⟩
  intro distinct
  exact absurd (distinct "/./a.json" (by simp) "/a.json" (by simp) (dotted.trans plain.symm)) (by decide)

end WebTestLint.File
