import FrontToc.Proofs.TemporaryFiles
import FrontToc.Proofs.MachineRuns

/-!
# Replacing a file

A text put in the place of a file goes through a temporary file, of which nothing is left in the end: the
file has the new bytes and its old permission bits, and all else is as it was. Only the making of the
temporary file can fail.
-/
namespace FrontToc

namespace FileTree

variable {t : FileTree}

theorem get?_insert_name (dir : Location) (name : List Char) (e : Entry) :
    (t.insert (dir ++ [name]) e).get? (dir ++ [name]) = some e := by
  rw [get?_insert t e (by simp), if_pos rfl]

theorem insert_insert (loc : Location) (e e' : Entry) : (t.insert loc e).insert loc e' = t.insert loc e' := by
  have same : (t.entries.insert loc e).insert loc e' = t.entries.insert loc e' := by
    refine Std.ExtTreeMap.ext_getElem? fun l => ?_
    simp only [Std.ExtTreeMap.getElem?_insert]
    split <;> rfl
  rw [insert, insert, insert, same]

theorem erase_insert {loc : Location} (below : loc ≠ []) (free : t.get? loc = none) (e : Entry) :
    (t.insert loc e).erase loc = t := by
  have same : (t.entries.insert loc e).erase loc = t.entries := by
    refine Std.ExtTreeMap.ext_getElem? fun l => ?_
    simp only [Std.ExtTreeMap.getElem?_erase, Std.ExtTreeMap.getElem?_insert]
    split
    · next here =>
      rw [get?, if_neg below] at free
      rw [← Std.LawfulEqCmp.eq_of_compare here, free]
    · rfl
  rw [insert, erase, same]

theorem lookup?_of_locate {p : Path} {loc : Location} {e : Entry} (found : t.locate p = .ok loc)
    (entry : t.get? loc = some e) : t.lookup? p = some (loc, e) := by
  rw [lookup?, found]
  simp [entry]

theorem permissions?_of_file {p : Path} {loc : Location} {f : File} (found : t.locate p = .ok loc)
    (file : t.get? loc = some (.file f)) : t.permissions? p = some f.permissions := by
  rw [permissions?, lookup?_of_locate found file]
  rfl

namespace Names

variable {p : Path} {dir : Location} {name : List Char} (names : t.Names p dir name)

include names

theorem locate_file {f : File} (file : t.get? (dir ++ [name]) = some (.file f)) :
    t.locate p = .ok (dir ++ [name]) :=
  names.locate (by rw [kindAt?_eq_file.mpr ⟨f, file⟩]; rfl)

theorem write {f : File} (file : t.get? (dir ++ [name]) = some (.file f)) (bytes : ByteArray) :
    t.write p bytes = .ok (t.insert (dir ++ [name]) (.file { f with bytes })) := by
  simp only [FileTree.write, names.target, file]

theorem setPermissions {f : File} (file : t.get? (dir ++ [name]) = some (.file f)) (bits : Nat) :
    t.setPermissions p bits = .ok (t.insert (dir ++ [name]) (.file { f with permissions := bits })) := by
  simp only [FileTree.setPermissions, names.locate_file file, file]

/-- A file can be moved to the place of another. -/
theorem rename {q : Path} {loc : Location} {f g : File} (file : t.get? (dir ++ [name]) = some (.file f))
    (source : t.lookup? q = some (loc, .file g)) :
    t.rename q p = .ok ((t.erase loc).insert (dir ++ [name]) (.file g)) := by
  simp only [FileTree.rename, source, names.target, file]

/-- A path names the same while there is a file at a place that was free. -/
theorem insert_free {loc : Location} (free : t.kindAt? loc = none) (g : File) :
    (t.insert loc (.file g)).Names p dir name := by
  refine (extends_insert_file ?_ (by simp [free]) g).names names
  rintro rfl
  cases free

/-! What can be done to a file that was put at a free place, by the path that names it. -/

variable (free : t.kindAt? (dir ++ [name]) = none)

include free

theorem write_new (g : File) (bytes : ByteArray) :
    (t.insert (dir ++ [name]) (.file g)).write p bytes =
      .ok (t.insert (dir ++ [name]) (.file { g with bytes })) := by
  rw [(names.insert_free free g).write (get?_insert_name dir name _), insert_insert]

theorem setPermissions_new (g : File) (bits : Nat) :
    (t.insert (dir ++ [name]) (.file g)).setPermissions p bits =
      .ok (t.insert (dir ++ [name]) (.file { g with permissions := bits })) := by
  rw [(names.insert_free free g).setPermissions (get?_insert_name dir name _), insert_insert]

theorem lookup?_new (g : File) :
    (t.insert (dir ++ [name]) (.file g)).lookup? p = some (dir ++ [name], .file g) :=
  lookup?_of_locate ((names.insert_free free g).locate_file (get?_insert_name dir name _))
    (get?_insert_name dir name _)

theorem remove_new (g : File) : (t.insert (dir ++ [name]) (.file g)).remove p = t := by
  rw [remove, names.lookup?_new free]
  exact erase_insert (by simp) (kindAt?_eq_none.mp free) _

end Names

end FileTree

open FileTree

section

variable {machine : Machine} {temporary : Path} {dir : Location} {name : List Char}

/-- Filling the temporary file and giving it the permission bits cannot fail. -/
theorem runOn_moveInto (names : machine.tree.Names temporary dir name)
    (free : machine.tree.kindAt? (dir ++ [name]) = none) (p : Path) (text : List Char) (g : File) :
    let held := fun g => machine.tree.insert (dir ++ [name]) (.file g)
    let filled := { g with bytes := textBytes text }
    let ready := { filled with permissions := ((held filled).permissions? p).getD filled.permissions }
    runOn (moveInto p temporary text) { machine with tree := held g } =
      match (held ready).rename temporary p with
      | .ok tree => (.ok (), { machine with tree })
      | .error fault => (.error (.file p fault), { machine with tree := held ready }) := by
  intro held filled ready
  have wrote : (held g).write temporary (textBytes text) = .ok (held filled) :=
    names.write_new free g _
  have gave (bits : Nat) :
      (held filled).setPermissions temporary bits = .ok (held { filled with permissions := bits }) :=
    names.setPermissions_new free filled bits
  rw [moveInto, runOn_bind, runOn_write, wrote]
  simp only [runOn_bind, runOn_permissions]
  cases known : (held filled).permissions? p with
  | none =>
    have same : ready = filled := by simp only [ready, known, Option.getD_none]
    rw [same]
    exact runOn_rename _ _ _
  | some bits =>
    have same : ready = { filled with permissions := bits } := by
      simp only [ready, known, Option.getD_some]
    rw [same]
    simp only [runOn_bind, runOn_setPermissions, gave]
    exact runOn_rename _ _ _

/-- If the file cannot be moved to its place the temporary file is gone again. -/
theorem runOn_replaceText_of_names (names : machine.tree.Names temporary dir name)
    (free : machine.tree.kindAt? (dir ++ [name]) = none) {p : Path}
    (made : machine.tree.createTemporary p.directory = .ok (temporary,
      machine.tree.insert (dir ++ [name])
        (.file { bytes := .empty, permissions := temporaryPermissions })))
    (text : List Char) :
    let held := fun g => machine.tree.insert (dir ++ [name]) (.file g)
    let filled : File := { bytes := textBytes text, permissions := temporaryPermissions }
    let ready := { filled with permissions := ((held filled).permissions? p).getD filled.permissions }
    runOn (replaceText p text) machine =
      match (held ready).rename temporary p with
      | .ok tree => (.ok (), { machine with tree })
      | .error fault => (.error (.file p fault), machine) := by
  intro held filled ready
  have removed : (held ready).remove temporary = machine.tree := names.remove_new free ready
  have moved : runOn (moveInto p temporary text)
      { machine with tree := held { bytes := .empty, permissions := temporaryPermissions } } =
        match (held ready).rename temporary p with
        | .ok tree => (.ok (), { machine with tree })
        | .error fault => (.error (.file p fault), { machine with tree := held ready }) :=
    runOn_moveInto names free p text _
  rw [replaceText, runOn_bind, runOn_createTemporary, made]
  simp only [runOn_tryCatch]
  rw [moved]
  cases (held ready).rename temporary p with
  | ok tree => rfl
  | error fault =>
    simp only [runOn_bind, runOn_remove]
    rw [removed]
    rfl

end

/-- A text put in the place of a file changes the bytes of this file and nothing else. Where no temporary
file can be made nothing changes. -/
theorem runOn_replaceText_file (machine : Machine) (tree : machine.tree.IsTree) {p : Path}
    {loc : Location} {f : File} (found : machine.tree.locate p = .ok loc)
    (file : machine.tree.get? loc = some (.file f)) (text : List Char) :
    runOn (replaceText p text) machine =
      match machine.tree.createTemporary p.directory with
      | .ok _ =>
        (.ok (), { machine with tree := machine.tree.insert loc (.file { f with bytes := textBytes text }) })
      | .error fault => (.error (.file p.directory fault), machine) := by
  cases made : machine.tree.createTemporary p.directory with
  | error fault => rw [replaceText, runOn_bind, runOn_createTemporary, made]
  | ok result =>
    obtain ⟨temporary, after⟩ := result
    obtain ⟨place, new, new_names, free, rfl⟩ := createTemporary_eq_ok made
    obtain ⟨dir, name, rfl, names⟩ := names_of_file tree found (kindAt?_eq_file.mpr ⟨f, file⟩)
    have other : dir ++ [name] ≠ place ++ [new] := by
      intro same
      rw [← same, kindAt?_eq_none, file] at free
      cases free
    have still (g : File) :
        (machine.tree.insert (place ++ [new]) (.file g)).get? (dir ++ [name]) = some (.file f) := by
      rw [get?_insert _ _ (by simp), if_neg other, file]
    have moved (g : File) :
        (machine.tree.insert (place ++ [new]) (.file g)).rename temporary p =
          .ok (machine.tree.insert (dir ++ [name]) (.file g)) := by
      rw [(names.insert_free free g).rename (still g) (new_names.lookup?_new free g),
        erase_insert (by simp) (kindAt?_eq_none.mp free)]
    rw [runOn_replaceText_of_names new_names free made, moved,
      permissions?_of_file ((names.insert_free free _).locate_file (still _)) (still _)]
    rfl

end FrontToc
