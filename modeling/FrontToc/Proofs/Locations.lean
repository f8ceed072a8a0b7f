import FrontToc.Files.Tree
import FrontToc.Host.Machine
import FrontToc.Proofs.Paths
import Mathlib.Data.List.Basic

/-!
# Where paths lead

A path that leads to a file ends in the name of the file, in the directory that its other pieces lead to.
It leads there in every tree that has the same directories and files and maybe more, so also while a
temporary file is there.
-/
namespace FrontToc

open Text

namespace FileTree

/-- What lies below something lies in a directory. -/
def IsTree (t : FileTree) : Prop :=
  ∀ loc name, (t.get? (loc ++ [name])).isSome → t.get? loc = some .directory

/-- The kind of what lies at a location. -/
def kindAt? (t : FileTree) (loc : Location) : Option EntryKind :=
  (t.get? loc).map OnMachine.kindOf

theorem isSome_kindAt? (t : FileTree) (loc : Location) : (t.kindAt? loc).isSome = (t.get? loc).isSome :=
  Option.isSome_map

theorem kindAt?_eq_none {t : FileTree} {loc : Location} : t.kindAt? loc = none ↔ t.get? loc = none :=
  Option.map_eq_none_iff

theorem kindAt?_eq_directory {t : FileTree} {loc : Location} :
    t.kindAt? loc = some .directory ↔ t.get? loc = some .directory := by
  rw [kindAt?]
  rcases t.get? loc with _ | _ | _ <;> simp [OnMachine.kindOf]

theorem kindAt?_eq_file {t : FileTree} {loc : Location} :
    t.kindAt? loc = some .file ↔ ∃ f, t.get? loc = some (.file f) := by
  rw [kindAt?]
  rcases t.get? loc with _ | _ | _ <;> simp [OnMachine.kindOf]

theorem IsTree.kindAt?_dropLast {t : FileTree} (tree : t.IsTree) {loc : Location}
    (directory : t.kindAt? loc = some .directory) : t.kindAt? loc.dropLast = some .directory := by
  rcases List.eq_nil_or_concat' loc with rfl | ⟨above, name, rfl⟩
  · exact directory
  · rw [List.dropLast_concat, kindAt?_eq_directory]
    refine tree above name ?_
    rw [kindAt?_eq_directory.mp directory]
    rfl

theorem isTree_empty (workingDirectory : Location) : IsTree { entries := ∅, workingDirectory } := by
  intro loc name there
  simp [get?] at there

/-- A file may be put into any directory. -/
theorem isTree_insert_file {t : FileTree} (tree : t.IsTree) {dir : Location}
    (directory : t.get? dir = some .directory) {name : List Char}
    (place : t.get? (dir ++ [name]) ≠ some .directory) (f : File) :
    (t.insert (dir ++ [name]) (.file f)).IsTree := by
  intro loc new there
  have other : loc ≠ dir ++ [name] := by
    rintro rfl
    rw [get?_insert _ _ (by simp), if_neg (by simp)] at there
    exact place (tree _ _ there)
  rw [get?_insert _ _ (by simp), if_neg other]
  rw [get?_insert _ _ (by simp)] at there
  split at there
  · next same =>
    rw [(List.append_inj' same rfl).1]
    exact directory
  · exact tree loc new there

theorem isTree_single (name : List Char) (f : File) :
    (FileTree.insert { entries := ∅, workingDirectory := [] } [name] (.file f)).IsTree := by
  rw [← List.nil_append [name]]
  exact isTree_insert_file (isTree_empty []) rfl (by simp [get?]) f

/-- Whether one piece of a path leads from a directory to a place. -/
inductive Leads (t : FileTree) (here : Location) (piece : List Char) : Location → Prop where
  | idle : Path.isIdle piece = true → Leads t here piece here
  | up : piece = ['.', '.'] → Leads t here piece here.dropLast
  | down : Path.isIdle piece = false → piece ≠ ['.', '.'] → byteLength piece ≤ maxNameLength →
      (t.kindAt? (here ++ [piece])).isSome → Leads t here piece (here ++ [piece])

theorem follow_cons_eq_ok {t : FileTree} {here loc : Location} {piece : List Char}
    {rest : List (List Char)} :
    t.follow here (piece :: rest) = .ok loc ↔
      t.kindAt? here = some .directory ∧
        ∃ next, t.Leads here piece next ∧ t.follow next rest = .ok loc := by
  constructor
  · intro found
    rw [follow] at found
    split at found
    · cases found
    · cases found
    · next directory =>
      refine ⟨kindAt?_eq_directory.mpr directory, ?_⟩
      split at found
      · next idle => exact ⟨here, .idle idle, found⟩
      · next named =>
        split at found
        · next up => exact ⟨here.dropLast, .up up, found⟩
        · next other =>
          split at found
          · cases found
          · next short =>
            split at found
            · cases found
            · next e entry =>
              refine ⟨here ++ [piece], .down (by simpa using named) other (by omega) ?_, found⟩
              rw [isSome_kindAt?, entry]
              rfl
  · rintro ⟨directory, next, leads, found⟩
    rw [follow, kindAt?_eq_directory.mp directory]
    cases leads with
    | idle idle => simp only [idle, ↓reduceIte, found]
    | up up =>
      subst up
      simpa [Path.isIdle] using found
    | down named other short there =>
      rw [isSome_kindAt?] at there
      obtain ⟨e, entry⟩ := Option.isSome_iff_exists.mp there
      simp only [named, other, Nat.not_lt.mpr short, entry, ↓reduceIte, Bool.false_eq_true, found]

theorem follow_append {t : FileTree} {here : Location} {front rest : List (List Char)} {loc : Location} :
    t.follow here (front ++ rest) = .ok loc ↔
      ∃ middle, t.follow here front = .ok middle ∧ t.follow middle rest = .ok loc := by
  induction front generalizing here with
  | nil => simp [follow]
  | cons piece front ih =>
    simp only [List.cons_append, follow_cons_eq_ok, ih]
    constructor
    · rintro ⟨directory, next, leads, middle, first, second⟩
      exact ⟨middle, ⟨directory, next, leads, first⟩, second⟩
    · rintro ⟨middle, ⟨directory, next, leads, first⟩, second⟩
      exact ⟨directory, next, leads, middle, first, second⟩

theorem follow_idle {t : FileTree} {here loc : Location} {idle : List (List Char)}
    (all_idle : ∀ piece ∈ idle, Path.isIdle piece = true) (found : t.follow here idle = .ok loc) :
    loc = here := by
  induction idle with
  | nil =>
    cases found
    rfl
  | cons piece idle ih =>
    obtain ⟨-, next, leads, found⟩ := follow_cons_eq_ok.mp found
    have piece_idle := all_idle piece List.mem_cons_self
    cases leads with
    | idle => exact ih (fun piece member => all_idle piece (List.mem_cons_of_mem _ member)) found
    | up up =>
      subst up
      cases piece_idle
    | down named =>
      rw [piece_idle] at named
      cases named

theorem follow_idle_of_directory {t : FileTree} {here : Location} {idle : List (List Char)}
    (all_idle : ∀ piece ∈ idle, Path.isIdle piece = true) (directory : t.kindAt? here = some .directory) :
    t.follow here idle = .ok here := by
  induction idle with
  | nil => rfl
  | cons piece idle ih =>
    exact follow_cons_eq_ok.mpr ⟨directory, here, .idle (all_idle piece List.mem_cons_self),
      ih fun piece member => all_idle piece (List.mem_cons_of_mem _ member)⟩

/-- Idle pieces at the end of a path make no difference to what directory it leads to. -/
theorem follow_append_idle {t : FileTree} {here dir : Location} {front idle : List (List Char)}
    (all_idle : ∀ piece ∈ idle, Path.isIdle piece = true) (idle' : List (List Char))
    (all_idle' : ∀ piece ∈ idle', Path.isIdle piece = true)
    (directory : t.kindAt? dir = some .directory) (found : t.follow here (front ++ idle) = .ok dir) :
    t.follow here (front ++ idle') = .ok dir := by
  obtain ⟨middle, first, second⟩ := follow_append.mp found
  cases follow_idle all_idle second
  exact follow_append.mpr ⟨dir, first, follow_idle_of_directory all_idle' directory⟩

/-- The last piece of a path that leads to a file is its name. -/
theorem follow_concat_file {t : FileTree} (tree : t.IsTree) {here loc : Location} {front : List (List Char)}
    {last : List Char} (found : t.follow here (front ++ [last]) = .ok loc) (file : t.kindAt? loc = some .file) :
    ∃ dir, t.follow here front = .ok dir ∧ t.kindAt? dir = some .directory ∧ loc = dir ++ [last] ∧
      Path.isIdle last = false ∧ last ≠ ['.', '.'] ∧ byteLength last ≤ maxNameLength := by
  obtain ⟨dir, first, second⟩ := follow_append.mp found
  obtain ⟨directory, next, leads, same⟩ := follow_cons_eq_ok.mp second
  cases same
  refine ⟨dir, first, directory, ?_⟩
  cases leads with
  | idle => rw [directory] at file; cases file
  | up =>
    rw [tree.kindAt?_dropLast directory] at file
    cases file
  | down named other short => exact ⟨rfl, named, other, short⟩

theorem target_of_pieces {t : FileTree} {p : Path} {front : List (List Char)} {last : List Char}
    {dir : Location} (no_fault : pathFault? p = none) (split_last : p.pieces = front ++ [last])
    (some_char : last.isEmpty = false) (first : t.follow (t.start p) front = .ok dir)
    (directory : t.kindAt? dir = some .directory) :
    t.target p =
      if last = ['.'] ∨ last = ['.', '.'] then .ok .onTheWay
      else if maxNameLength < byteLength last then .error .nameTooLong
      else .ok (.name (dir ++ [last]) false) := by
  simp [target, no_fault, split_last, some_char, first, kindAt?_eq_directory.mp directory]

/-- A path whose last piece is a name in a directory. -/
structure Names (t : FileTree) (p : Path) (dir : Location) (name : List Char) : Prop where
  no_fault : pathFault? p = none
  front : ∃ front, p.pieces = front ++ [name] ∧ t.follow (t.start p) front = .ok dir
  directory : t.kindAt? dir = some .directory
  named : Path.isIdle name = false
  not_up : name ≠ ['.', '.']
  short : byteLength name ≤ maxNameLength

/-- A path that leads to a file names it. -/
theorem names_of_file {t : FileTree} (tree : t.IsTree) {p : Path} {loc : Location}
    (found : t.locate p = .ok loc) (file : t.kindAt? loc = some .file) :
    ∃ dir name, loc = dir ++ [name] ∧ t.Names p dir name := by
  rw [locate] at found
  split at found
  · cases found
  · next no_fault =>
    rcases List.eq_nil_or_concat' p.pieces with none_left | ⟨front, last, split_last⟩
    · exact absurd none_left p.pieces_ne_nil
    · rw [split_last] at found
      obtain ⟨dir, first, directory, same, named, not_up, short⟩ := follow_concat_file tree found file
      exact ⟨dir, last, same, no_fault, ⟨front, split_last, first⟩, directory, named, not_up, short⟩

namespace Names

variable {t : FileTree} {p : Path} {dir : Location} {name : List Char}

theorem locate (names : t.Names p dir name) (there : (t.kindAt? (dir ++ [name])).isSome) :
    t.locate p = .ok (dir ++ [name]) := by
  obtain ⟨front, split_last, first⟩ := names.front
  rw [FileTree.locate, names.no_fault, split_last]
  refine follow_append.mpr ⟨dir, first, follow_cons_eq_ok.mpr ⟨names.directory, dir ++ [name], ?_, rfl⟩⟩
  exact .down names.named names.not_up names.short there

theorem target (names : t.Names p dir name) : t.target p = .ok (.name (dir ++ [name]) false) := by
  obtain ⟨front, split_last, first⟩ := names.front
  have some_char : name.isEmpty = false := by
    have named := names.named
    simp only [Path.isIdle, Bool.or_eq_false_iff] at named
    exact named.1
  have not_dot : name ≠ ['.'] := by
    rintro rfl
    cases names.named
  rw [target_of_pieces names.no_fault split_last some_char first names.directory,
    if_neg (by simp [not_dot, names.not_up]), if_neg (Nat.not_lt.mpr names.short)]

end Names

/-- A tree with the directories and files of another, maybe with other bytes, and maybe with more. -/
structure Extends (t t' : FileTree) : Prop where
  workingDirectory : t'.workingDirectory = t.workingDirectory
  kindAt? : ∀ loc k, t.kindAt? loc = some k → t'.kindAt? loc = some k

namespace Extends

variable {t t' : FileTree}

theorem leads (ext : t.Extends t') {here next : Location} {piece : List Char}
    (leads : t.Leads here piece next) : t'.Leads here piece next := by
  cases leads with
  | idle idle => exact .idle idle
  | up up => exact .up up
  | down named not_up short there =>
    obtain ⟨k, there⟩ := Option.isSome_iff_exists.mp there
    exact .down named not_up short (by rw [ext.kindAt? _ k there]; rfl)

theorem follow (ext : t.Extends t') {here loc : Location} {ps : List (List Char)}
    (found : t.follow here ps = .ok loc) : t'.follow here ps = .ok loc := by
  induction ps generalizing here with
  | nil => simpa [FileTree.follow] using found
  | cons piece rest ih =>
    obtain ⟨directory, next, leads, found⟩ := follow_cons_eq_ok.mp found
    exact follow_cons_eq_ok.mpr ⟨ext.kindAt? _ _ directory, next, ext.leads leads, ih found⟩

theorem names (ext : t.Extends t') {p : Path} {dir : Location} {name : List Char}
    (names : t.Names p dir name) : t'.Names p dir name where
  no_fault := names.no_fault
  front := by
    obtain ⟨front, split_last, first⟩ := names.front
    have start : t'.start p = t.start p := by rw [start, start, ext.workingDirectory]
    exact ⟨front, split_last, start ▸ ext.follow first⟩
  directory := ext.kindAt? _ _ names.directory
  named := names.named
  not_up := names.not_up
  short := names.short

theorem locate (ext : t.Extends t') {p : Path} {loc : Location} (found : t.locate p = .ok loc) :
    t'.locate p = .ok loc := by
  rw [FileTree.locate] at found ⊢
  split at found
  · cases found
  · next no_fault =>
    have start : t'.start p = t.start p := by rw [start, start, ext.workingDirectory]
    rw [start]
    exact ext.follow found

end Extends

theorem extends_insert_file {t : FileTree} {loc : Location} (below : loc ≠ [])
    (place : t.kindAt? loc ≠ some .directory) (f : File) : t.Extends (t.insert loc (.file f)) where
  workingDirectory := rfl
  kindAt? l k there := by
    rw [kindAt?, get?_insert t _ below]
    split
    · next same =>
      subst same
      cases k with
      | file => rfl
      | directory => exact absurd there place
    · exact there

/-- Two trees with the same directories and files, maybe with other bytes or permission bits. -/
structure SameKinds (t t' : FileTree) : Prop where
  workingDirectory : t'.workingDirectory = t.workingDirectory
  kindAt? : ∀ loc, t'.kindAt? loc = t.kindAt? loc

namespace SameKinds

variable {t t' : FileTree}

theorem refl (t : FileTree) : t.SameKinds t :=
  ⟨rfl, fun _ => rfl⟩

theorem trans {t'' : FileTree} (first : t.SameKinds t') (second : t'.SameKinds t'') : t.SameKinds t'' :=
  ⟨second.workingDirectory.trans first.workingDirectory,
    fun loc => (second.kindAt? loc).trans (first.kindAt? loc)⟩

theorem symm (same : t.SameKinds t') : t'.SameKinds t :=
  ⟨same.workingDirectory.symm, fun loc => (same.kindAt? loc).symm⟩

theorem «extends» (same : t.SameKinds t') : t.Extends t' :=
  ⟨same.workingDirectory, fun loc _ there => (same.kindAt? loc).trans there⟩

theorem isTree (same : t.SameKinds t') (tree : t.IsTree) : t'.IsTree := by
  intro loc name there
  rw [← isSome_kindAt?, same.kindAt?, isSome_kindAt?] at there
  rw [← kindAt?_eq_directory, same.kindAt?, kindAt?_eq_directory]
  exact tree loc name there

end SameKinds

theorem sameKinds_insert_file {t : FileTree} {loc : Location} {f : File}
    (file : t.get? loc = some (.file f)) (g : File) : t.SameKinds (t.insert loc (.file g)) where
  workingDirectory := rfl
  kindAt? l := by
    have below : loc ≠ [] := by
      rintro rfl
      cases file
    rw [kindAt?, get?_insert t _ below]
    split
    · next same =>
      subst same
      rw [kindAt?_eq_file.mpr ⟨f, file⟩]
      rfl
    · rfl

end FileTree

end FrontToc
