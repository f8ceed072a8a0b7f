import FrontToc.Proofs.Locations
import Mathlib.Data.List.Nodup

/-!
# Temporary files

A temporary file is new, and its path names it. Among the names that are tried for it one is free, for a
tree has not so many entries. So beside a file a temporary file can be made, if only its path is not too
long.
-/
namespace FrontToc

open Text

namespace FileTree

theorem mem_temporaryName {c : Char} {n : Nat} (member : c ∈ temporaryName n) :
    c ∈ ".tmp".toList ∨ c.isDigit = true := by
  simp only [temporaryName, padZeros, List.mem_append, List.mem_replicate] at member
  rcases member with fixed | ⟨-, zero⟩ | digit
  · exact .inl fixed
  · exact .inr (zero ▸ rfl)
  · exact .inr (Nat.isDigit_of_mem_toDigits (by decide) (by decide) digit)

theorem temporaryName_injective {m n : Nat} (same : temporaryName m = temporaryName n) : m = n := by
  have padded : padZeros 6 (decimal m) = padZeros 6 (decimal n) := List.append_cancel_left same
  calc
    m = Nat.ofDigitChars 10 (padZeros 6 (decimal m)) 0 := by
      rw [ofDigitChars_padZeros, decimal, Nat.ofDigitChars_ten_toDigits]
    _ = Nat.ofDigitChars 10 (padZeros 6 (decimal n)) 0 := by rw [padded]
    _ = n := by rw [ofDigitChars_padZeros, decimal, Nat.ofDigitChars_ten_toDigits]

theorem pathFault?_eq_none {p : Path} :
    pathFault? p = none ↔ '\x00' ∉ p ∧ p ≠ [] ∧ byteLength p ≤ maxPathLength := by
  rw [pathFault?]
  split
  · next null => simp_all
  · split
    · next empty => simp_all
    · split
      · next long => simp [Nat.not_le.mpr long]
      · next null empty short =>
        simp_all

theorem pathFault?_eq_nameTooLong {p : Path} {fault : FileFault} (null : '\x00' ∉ p) (some_char : p ≠ [])
    (found : pathFault? p = some fault) : fault = .nameTooLong := by
  have no_null : ¬p.any (· = '\x00') := by simpa using null
  rw [pathFault?, if_neg no_null, if_neg (by simpa using some_char)] at found
  split at found
  · cases found
    rfl
  · cases found

/-- The directory of a path that names something is where the name stands. -/
theorem Names.locate_directory {t : FileTree} {p : Path} {dir : Location} {name : List Char}
    (names : t.Names p dir name) : t.locate p.directory = .ok dir := by
  obtain ⟨front, split_last, first⟩ := names.front
  obtain ⟨kept, idle, idle', rfl, pieces_eq, all_idle, absolute, some_char, text⟩ :=
    Path.directory_of_pieces split_last names.named
  have no_fault : pathFault? p.directory = none := by
    obtain ⟨null, -, short⟩ := pathFault?_eq_none.mp names.no_fault
    refine pathFault?_eq_none.mpr ⟨?_, some_char, ?_⟩
    · rcases text with dot | ⟨rest, path_eq⟩
      · rw [dot]
        decide
      · exact fun member => null (path_eq ▸ List.mem_append_left _ member)
    · rcases text with dot | ⟨rest, path_eq⟩
      · rw [dot]
        decide
      · rw [← path_eq, byteLength_append] at short
        omega
  have start : t.start p.directory = t.start p := by rw [start, start, absolute]
  rw [FileTree.locate, no_fault, start, pieces_eq]
  exact follow_append_idle (fun piece member => all_idle piece (List.mem_append_left _ member)) idle'
    (fun piece member => all_idle piece (List.mem_append_right _ member)) names.directory first

/-- The path of a temporary file in a directory can only be too long. -/
theorem target_join_temporaryName {t : FileTree} {p : Path} {dir : Location} (found : t.locate p = .ok dir)
    (directory : t.kindAt? dir = some .directory) (n : Nat) :
    t.Names (p.join (temporaryName n)) dir (temporaryName n) ∨
      t.target (p.join (temporaryName n)) = .error .nameTooLong := by
  rw [locate] at found
  split at found
  · cases found
  · next no_fault =>
    obtain ⟨null, some_char, -⟩ := pathFault?_eq_none.mp no_fault
    have no_slash : '/' ∉ temporaryName n := fun member => absurd (mem_temporaryName member) (by decide)
    obtain ⟨front, idle, joined, alone, all_idle⟩ := p.pieces_join some_char no_slash
    have first : t.follow (t.start (p.join (temporaryName n))) front = .ok dir := by
      rw [start, Path.isAbsolute_join some_char, ← start]
      rw [alone] at found
      simpa using follow_append_idle all_idle [] (by simp) directory found
    have not_up : temporaryName n ≠ ['.', '.'] := by simp [temporaryName]
    have not_dot : temporaryName n ≠ ['.'] := by simp [temporaryName]
    cases fault? : pathFault? (p.join (temporaryName n)) with
    | some fault =>
      have null : '\x00' ∉ p.join (temporaryName n) := by
        intro member
        rcases Path.mem_join member with member | slash | member
        · exact null member
        · exact absurd slash (by decide)
        · exact absurd (mem_temporaryName member) (by decide)
      cases pathFault?_eq_nameTooLong null (Path.join_ne_nil some_char _) fault?
      rw [target, fault?]
      exact .inr rfl
    | none =>
      by_cases short : byteLength (temporaryName n) ≤ maxNameLength
      · exact .inl ⟨fault?, ⟨front, joined, first⟩, directory, rfl, not_up, short⟩
      · rw [target_of_pieces fault? joined rfl first directory, if_neg (by simp [not_dot, not_up]),
          if_pos (Nat.not_le.mp short)]
        exact .inr rfl

theorem freeName?_eq_some {t : FileTree} {dir : Location} {fuel n : Nat} {name : List Char}
    (found : t.freeName? dir fuel n = some name) :
    (∃ k, name = temporaryName k) ∧ t.kindAt? (dir ++ [name]) = none := by
  induction fuel generalizing n with
  | zero => cases found
  | succ fuel ih =>
    rw [freeName?] at found
    split at found
    · exact ih found
    · next free =>
      cases found
      exact ⟨⟨n, rfl⟩, kindAt?_eq_none.mpr (by simpa using free)⟩

/-- A temporary file is new, and its path names it. -/
theorem createTemporary_eq_ok {t t' : FileTree} {p temporary : Path}
    (made : t.createTemporary p = .ok (temporary, t')) :
    ∃ dir name, t.Names temporary dir name ∧ t.kindAt? (dir ++ [name]) = none ∧
      t' = t.insert (dir ++ [name])
        (.file { bytes := .empty, permissions := temporaryPermissions }) := by
  rw [createTemporary] at made
  split at made
  · cases made
  · next dir found =>
    split at made
    · next directory =>
      split at made
      · cases made
      · next name free =>
        split at made
        · cases made
        · next place allowed =>
          cases made
          obtain ⟨⟨n, rfl⟩, free⟩ := freeName?_eq_some free
          rcases target_join_temporaryName found (kindAt?_eq_directory.mpr directory) n with names | long
          · exact ⟨dir, temporaryName n, names, free, rfl⟩
          · rw [long] at allowed
            cases allowed
    · cases made

theorem freeName?_eq_none {t : FileTree} {dir : Location} {fuel n : Nat}
    (none_left : t.freeName? dir fuel n = none) {k : Nat} (low : n ≤ k) (high : k < n + fuel) :
    (t.get? (dir ++ [temporaryName k])).isSome := by
  induction fuel generalizing n with
  | zero => omega
  | succ fuel ih =>
    rw [freeName?] at none_left
    split at none_left
    · next taken =>
      by_cases same : k = n
      · exact same ▸ taken
      · exact ih none_left (by omega) (by omega)
    · cases none_left

/-- A tree has too few entries to hold as many names as are tried. -/
theorem exists_freeName? (t : FileTree) (dir : Location) :
    ∃ name, t.freeName? dir (t.entries.size + 1) 0 = some name := by
  cases found : t.freeName? dir (t.entries.size + 1) 0 with
  | some name => exact ⟨name, rfl⟩
  | none =>
    let tried := (List.range (t.entries.size + 1)).map fun n => dir ++ [temporaryName n]
    have distinct : tried.Nodup := by
      refine List.Nodup.map_on ?_ List.nodup_range
      intro m _ n _ same
      exact temporaryName_injective (List.singleton_inj.mp (List.append_cancel_left same))
    have taken : tried ⊆ t.entries.keys := by
      intro loc member
      obtain ⟨n, below, rfl⟩ := List.mem_map.mp member
      have there := freeName?_eq_none found (Nat.zero_le n) (by simpa using below)
      rw [get?, if_neg (by simp)] at there
      exact Std.ExtTreeMap.mem_keys.mpr (Std.ExtTreeMap.mem_iff_isSome_getElem?.mpr there)
    have count := distinct.length_le_of_subset taken
    rw [List.length_map, List.length_range, Std.ExtTreeMap.length_keys] at count
    omega

/-- Beside a file a temporary file can be made, if only its path is not too long. -/
theorem createTemporary_directory {t : FileTree} {p : Path} {dir : Location} {name : List Char}
    (names : t.Names p dir name) :
    (∃ made, t.createTemporary p.directory = .ok made) ∨
      t.createTemporary p.directory = .error .nameTooLong := by
  obtain ⟨new, free⟩ := exists_freeName? t dir
  obtain ⟨⟨n, rfl⟩, -⟩ := freeName?_eq_some free
  rw [createTemporary, names.locate_directory]
  simp only [kindAt?_eq_directory.mp names.directory, free]
  rcases target_join_temporaryName names.locate_directory names.directory n with allowed | long
  · rw [allowed.target]
    exact .inl ⟨_, rfl⟩
  · rw [long]
    exact .inr rfl

/-- The first free name depends only on which places are taken. -/
theorem freeName?_unique {t t' : FileTree} (same : t.SameKinds t') {dir : Location}
    {fuel fuel' n : Nat} {a b : List Char} (found : t.freeName? dir fuel n = some a)
    (found' : t'.freeName? dir fuel' n = some b) : a = b := by
  induction fuel generalizing n fuel' with
  | zero => cases found
  | succ fuel ih =>
    cases fuel' with
    | zero => cases found'
    | succ fuel' =>
      rw [freeName?] at found found'
      rw [← isSome_kindAt?, same.kindAt?, isSome_kindAt?] at found'
      split at found
      · next taken =>
        rw [if_pos taken] at found'
        exact ih found found'
      · next free =>
        rw [if_neg free] at found'
        cases found
        cases found'
        rfl

/-- A file that a path leads to can be replaced: a temporary file can be made beside it. -/
def CanReplace (t : FileTree) (p : Path) : Prop :=
  ∀ loc, t.locate p = .ok loc → t.kindAt? loc = some .file →
    ∃ made, t.createTemporary p.directory = .ok made

/-- Whether a file can be replaced does not depend on what the files hold. -/
theorem SameKinds.canReplace {t t' : FileTree} (same : t.SameKinds t') (tree : t.IsTree) {p : Path}
    (can : t.CanReplace p) : t'.CanReplace p := by
  intro loc found file
  have found_before := same.symm.extends.locate found
  have file_before := (same.kindAt? loc).symm.trans file
  obtain ⟨made, writable⟩ := can loc found_before file_before
  obtain ⟨dir, name, -, names⟩ := names_of_file tree found_before file_before
  have names' := same.extends.names names
  obtain ⟨new, free⟩ := exists_freeName? t dir
  obtain ⟨new', free'⟩ := exists_freeName? t' dir
  cases freeName?_unique same free free'
  obtain ⟨⟨n, rfl⟩, -⟩ := freeName?_eq_some free
  rw [createTemporary, names.locate_directory] at writable
  simp only [kindAt?_eq_directory.mp names.directory, free] at writable
  rw [createTemporary, names'.locate_directory]
  simp only [kindAt?_eq_directory.mp names'.directory, free']
  rcases target_join_temporaryName names.locate_directory names.directory n with allowed | long
  · rw [(same.extends.names allowed).target]
    exact ⟨_, rfl⟩
  · rw [long] at writable
    cases writable

end FileTree

end FrontToc
