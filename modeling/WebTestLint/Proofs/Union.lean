import Mathlib.Data.String.Basic
import WebTestLint.Proofs.Offsets
import WebTestLint.Proofs.Outcome
import WebTestLint.Proofs.Places

/-!
Resolving several patterns. The paths of a list of patterns are those of its patterns, each once and in
the order of their bytes, so that neither the order of the patterns nor a pattern given twice matters.
-/

namespace WebTestLint

theorem utf8EncodeChar_append_lt {c d : Char} (less : c < d) (rest rest' : List UInt8) :
    String.utf8EncodeChar c ++ rest < String.utf8EncodeChar d ++ rest' := by
  have less : c.val.toNat < d.val.toNat := UInt32.lt_iff_toNat_lt.mp less
  have bound := toNat_val_lt d
  -- Characters of the same width differ in a six-bit digit first, others in the lead byte.
  unfold String.utf8EncodeChar
  dsimp only
  generalize c.val.toNat = code at *
  generalize d.val.toNat = code' at *
  have second (code : Nat) : code / 4096 = code / 64 / 64 := by omega
  have third (code : Nat) : code / 262144 = code / 64 / 64 / 64 := by omega
  have digit (code : Nat) : (code % 64 + 128) % 2 ^ 8 = code % 64 + 128 := by omega
  split_ifs
  all_goals
    simp only [List.cons_append, List.nil_append, List.cons_lt_cons_iff, UInt8.lt_iff_toNat_lt,
      ← UInt8.toNat_inj, UInt8.toNat_ofNat', digit, second, third]
    omega

theorem bytes_lt_of_lt {first second : String} (less : first < second) :
    bytes first.toList < bytes second.toList := by
  replace less := String.lt_iff_toList_lt.mp less
  generalize first.toList = text at less ⊢
  generalize second.toList = other at less ⊢
  induction less with
  | @nil c rest =>
      rw [bytes_cons]
      cases encoded : String.utf8EncodeChar c with
      | nil => simp at encoded
      | cons byte others => exact List.nil_lt_cons _ _
  | rel less => exact utf8EncodeChar_append_lt less _ _
  | cons _ ih => simpa only [bytes_cons] using List.append_left_lt ih

theorem eq_of_pairwise_of_mem_iff {first second : List String} (ordered : first.Pairwise (· < ·))
    (ordered' : second.Pairwise (· < ·)) (same : ∀ text, text ∈ first ↔ text ∈ second) :
    first = second := by
  have perm : first.Perm second := (List.perm_ext_iff_of_nodup
    (ordered.imp fun less => ne_of_lt less) (ordered'.imp fun less => ne_of_lt less)).mpr same
  exact perm.eq_of_pairwise (fun _ _ _ _ less more => (lt_asymm less more).elim) ordered ordered'

namespace File

variable {root : Directory} {folder : List Char}

theorem isFile_of_mem_globPaths {pattern : List Char} {paths : List String}
    (found : globPaths root pattern = .ok paths) {path : String} (listed : path ∈ paths) :
    isFile root path.toList = true := by
  obtain ⟨candidates, _, rfl⟩ := map_eq_ok_iff.mp found
  obtain ⟨candidate, kept, rfl⟩ := List.mem_map.mp listed
  simpa using (List.mem_filter.mp kept).2

theorem isFile_of_mem_resolvePattern {pattern : String} {paths : List String}
    (resolved : resolvePattern root folder pattern = .ok paths) {path : String} (listed : path ∈ paths) :
    isFile root path.toList = true := by
  unfold resolvePattern at resolved
  dsimp only at resolved
  split at resolved
  · rename_i content found
    obtain rfl := Except.ok.inj resolved
    obtain rfl := List.mem_singleton.mp listed
    rw [String.toList_ofList]
    exact (isFile_iff _ _).mpr ⟨content, found⟩
  · exact isFile_of_mem_globPaths resolved listed
  · exact isFile_of_mem_globPaths resolved listed

theorem isFile_of_mem_paths {patterns paths : List String}
    (resolved : resolvePatterns root folder patterns = .ok paths) {path : String} (listed : path ∈ paths) :
    isFile root path.toList = true := by
  obtain ⟨_, _, _, each, among⟩ := (mem_paths_iff resolved path).mp listed
  exact isFile_of_mem_resolvePattern each among

theorem exists_resolvePatterns_iff (patterns : List String) :
    (∃ paths, resolvePatterns root folder patterns = .ok paths) ↔
      ∀ pattern ∈ patterns, ∃ texts, resolvePattern root folder pattern = .ok texts := by
  rw [← exists_mapM_eq_ok_iff]
  constructor
  · rintro ⟨_, resolved⟩
    obtain ⟨found, each, _⟩ := map_eq_ok_iff.mp resolved
    exact ⟨found, each⟩
  · rintro ⟨found, each⟩
    exact ⟨_, map_eq_ok_iff.mpr ⟨found, each, rfl⟩⟩

theorem mem_paths_iff_single {patterns paths : List String}
    (resolved : resolvePatterns root folder patterns = .ok paths) (path : String) :
    path ∈ paths ↔ ∃ pattern ∈ patterns, ∃ single,
      resolvePatterns root folder [pattern] = .ok single ∧ path ∈ single := by
  rw [mem_paths_iff resolved]
  constructor
  · rintro ⟨pattern, listed, texts, each, among⟩
    obtain ⟨single, alone⟩ : ∃ single, resolvePatterns root folder [pattern] = .ok single :=
      (exists_resolvePatterns_iff _).mpr (by simpa using ⟨texts, each⟩)
    refine ⟨pattern, listed, single, alone, (mem_paths_iff alone path).mpr ?_⟩
    exact ⟨pattern, List.mem_singleton_self _, texts, each, among⟩
  · rintro ⟨pattern, listed, single, alone, among⟩
    obtain ⟨_, same, texts, each, among⟩ := (mem_paths_iff alone path).mp among
    obtain rfl := List.mem_singleton.mp same
    exact ⟨_, listed, texts, each, among⟩

theorem resolvePatterns_of_mem_iff {patterns others paths : List String}
    (same : ∀ pattern, pattern ∈ others ↔ pattern ∈ patterns)
    (resolved : resolvePatterns root folder patterns = .ok paths) :
    resolvePatterns root folder others = .ok paths := by
  have each := (exists_resolvePatterns_iff patterns).mp ⟨paths, resolved⟩
  obtain ⟨paths', resolved'⟩ := (exists_resolvePatterns_iff others).mpr fun pattern listed =>
    each pattern ((same pattern).mp listed)
  have equal : paths' = paths := by
    refine eq_of_pairwise_of_mem_iff (pairwise_paths resolved') (pairwise_paths resolved) fun path => ?_
    simp only [mem_paths_iff resolved', mem_paths_iff resolved, same]
  rw [resolved', equal]

theorem subset_paths {patterns others paths paths' : List String} (more : patterns ⊆ others)
    (resolved : resolvePatterns root folder patterns = .ok paths)
    (resolved' : resolvePatterns root folder others = .ok paths') : paths ⊆ paths' := by
  intro path listed
  obtain ⟨pattern, named, found⟩ := (mem_paths_iff resolved path).mp listed
  exact (mem_paths_iff resolved' path).mpr ⟨pattern, more named, found⟩

/-- A list of patterns resolves if each pattern does, to the files that one of them stands for. -/
theorem resolvePatterns_is_union (root : Directory) (folder : List Char) (patterns : List String) :
    ((∃ paths, resolvePatterns root folder patterns = .ok paths) ↔
      ∀ pattern ∈ patterns, ∃ single, resolvePatterns root folder [pattern] = .ok single) ∧
    (∀ paths, resolvePatterns root folder patterns = .ok paths →
      paths.Pairwise (fun first second => bytes first.toList < bytes second.toList) ∧
      (∀ path ∈ paths, ∃ content, entryAt? root path.toList = some (.file content)) ∧
      ∀ path, path ∈ paths ↔ ∃ pattern ∈ patterns, ∃ single,
        resolvePatterns root folder [pattern] = .ok single ∧ path ∈ single) ∧
    (∀ others, (∀ pattern, pattern ∈ others ↔ pattern ∈ patterns) →
      (resolvePatterns root folder others).toOption = (resolvePatterns root folder patterns).toOption) ∧
    ∀ others paths paths', patterns ⊆ others → resolvePatterns root folder patterns = .ok paths →
      resolvePatterns root folder others = .ok paths' → paths ⊆ paths' := by
  refine ⟨?_, ?_, ?_, ?_⟩
  · simp only [exists_resolvePatterns_iff, List.forall_mem_singleton]
  · intro paths resolved
    refine ⟨(pairwise_paths resolved).imp bytes_lt_of_lt, ?_, mem_paths_iff_single resolved⟩
    exact fun path listed => (isFile_iff _ _).mp (isFile_of_mem_paths resolved listed)
  · intro others same
    cases resolved : resolvePatterns root folder patterns with
    | ok paths => rw [resolvePatterns_of_mem_iff same resolved]
    | error fault =>
        cases resolved' : resolvePatterns root folder others with
        | error => rfl
        | ok paths =>
            have impossible := resolvePatterns_of_mem_iff (fun pattern => (same pattern).symm) resolved'
            simp [resolved] at impossible
  · exact fun others paths paths' more => subset_paths more

def smallTree : Directory :=
  .file "a.json" .binary (.folder "b" (.file "é.json" .binary .empty) (.file "z.json" .binary .empty))

theorem resolvePatterns_is_union_overlapping :
    resolvePatterns smallTree "/".toList ["b", "*.json", "/b/../a.json", "a.json", "?"] =
        .ok ["/a.json", "/b/../a.json", "/b/é.json", "/z.json"] ∧
      (resolvePatterns smallTree "/".toList ["?", "a.json", "b", "*.json", "b", "/b/../a.json"]).toOption =
        some ["/a.json", "/b/../a.json", "/b/é.json", "/z.json"] ∧
      ¬ ∃ paths, resolvePatterns smallTree "/".toList ["a.json", "[", "b"] = .ok paths := by
  have resolved : resolvePatterns smallTree "/".toList ["b", "*.json", "/b/../a.json", "a.json", "?"] =
      .ok ["/a.json", "/b/../a.json", "/b/é.json", "/z.json"] := by
    decide +kernel
  refine ⟨resolved, ?_, ?_⟩
  · have same := (resolvePatterns_is_union smallTree "/".toList
      ["b", "*.json", "/b/../a.json", "a.json", "?"]).2.2.1
    rw [same ["?", "a.json", "b", "*.json", "b", "/b/../a.json"] (by simp; grind), resolved]
    rfl
  · rw [(resolvePatterns_is_union smallTree _ _).1]
    intro each
    obtain ⟨single, resolved⟩ := each "[" (by simp)
    have failed : resolvePatterns smallTree "/".toList ["["] = .error .rangePattern := by
      decide +kernel
    exact absurd (failed.symm.trans resolved) (by simp)

end File

end WebTestLint
