import FrontToc.Error
import FrontToc.Files.Path
import FrontToc.Text.Digits
import FrontToc.Text.Lines
import Std.Data.ExtTreeMap

/-!
Trees of files and directories: what a path leads to, and the changes that a program can ask for.
There are no links in a tree, so that each place has one location.
-/
namespace FrontToc

open Text

structure File where
  bytes : ByteArray
  permissions : Nat

inductive Entry where
  | file (f : File)
  | directory

/-- A place in a tree: the names on the way down to it. The root has none. -/
abbrev Location := List (List Char)

/-- The files and directories of a machine below its root, and where relative paths start. -/
structure FileTree where
  entries : Std.ExtTreeMap Location Entry
  workingDirectory : Location

namespace FileTree

/-- What lies at a location. The root is a directory. -/
def get? (t : FileTree) (loc : Location) : Option Entry :=
  if loc = [] then some .directory else t.entries[loc]?

/-- The longest name, in bytes. -/
def maxNameLength : Nat := 255

/-- The longest path, in bytes. -/
def maxPathLength : Nat := 4095

/-- The location that pieces of a path lead to. Every piece but the last has to end in a directory,
and every name has to be there. -/
def follow (t : FileTree) : Location → List (List Char) → Except FileFault Location
  | here, [] => .ok here
  | here, piece :: rest =>
    match t.get? here with
    | none => .error .notFound
    | some (.file _) => .error .notDirectory
    | some .directory =>
      if Path.isIdle piece then follow t here rest
      else if piece = ['.', '.'] then follow t here.dropLast rest
      else if maxNameLength < byteLength piece then .error .nameTooLong
      else
        match t.get? (here ++ [piece]) with
        | none => .error .notFound
        | some _ => follow t (here ++ [piece]) rest

def start (t : FileTree) (p : Path) : Location :=
  if p.isAbsolute then [] else t.workingDirectory

def pathFault? (p : Path) : Option FileFault :=
  if p.any (· = '\x00') then some .nullInPath
  else if p.isEmpty then some .notFound
  else if maxPathLength < byteLength p then some .nameTooLong
  else none

def locate (t : FileTree) (p : Path) : Except FileFault Location :=
  match pathFault? p with
  | some fault => .error fault
  | none => t.follow (t.start p) p.pieces

def lookup? (t : FileTree) (p : Path) : Option (Location × Entry) :=
  match t.locate p with
  | .error _ => none
  | .ok loc => (t.get? loc).map fun e => (loc, e)

/-- The last name of a path whose other names lead to a directory: a name in it, with or without a slash
behind, which only directories take; or a directory on the way, named by a dot, two dots or the root's
slash. -/
inductive Target where
  | name (loc : Location) (slash : Bool)
  | onTheWay
deriving DecidableEq, Repr

def target (t : FileTree) (p : Path) : Except FileFault Target :=
  match pathFault? p with
  | some fault => .error fault
  | none =>
    let ps := p.pieces.reverse
    match ps.dropWhile List.isEmpty with
    | [] => .ok .onTheWay
    | last :: above =>
      match t.follow (t.start p) above.reverse with
      | .error fault => .error fault
      | .ok loc =>
        match t.get? loc with
        | some .directory =>
          if last = ['.'] ∨ last = ['.', '.'] then .ok .onTheWay
          else if maxNameLength < byteLength last then .error .nameTooLong
          else .ok (.name (loc ++ [last]) ((ps.head?.getD []).isEmpty))
        | _ => .error .notDirectory

def insert (t : FileTree) (loc : Location) (e : Entry) : FileTree :=
  { t with entries := t.entries.insert loc e }

def erase (t : FileTree) (loc : Location) : FileTree :=
  { t with entries := t.entries.erase loc }

theorem get?_insert (t : FileTree) (e : Entry) {loc : Location} (below : loc ≠ []) (l : Location) :
    (t.insert loc e).get? l = if l = loc then some e else t.get? l := by
  by_cases same : l = loc
  · subst same
    simp [insert, get?, below]
  · have other : compare loc l ≠ .eq := fun h => same (Std.LawfulEqCmp.eq_of_compare h).symm
    simp [insert, get?, same, Std.ExtTreeMap.getElem?_insert, other]

def read (t : FileTree) (p : Path) : Except FileFault ByteArray :=
  match t.locate p with
  | .error fault => .error fault
  | .ok loc =>
    match t.get? loc with
    | some (.file f) => .ok f.bytes
    | _ => .error .isDirectory

def directoryPermissions : Nat := 0o755

/-- The permission bits of files that are made by writing them. -/
def newFilePermissions : Nat := 0o644

def temporaryPermissions : Nat := 0o600

def permissions? (t : FileTree) (p : Path) : Option Nat :=
  (t.lookup? p).map fun (_, e) =>
    match e with
    | .file f => f.permissions
    | .directory => directoryPermissions

def setPermissions (t : FileTree) (p : Path) (bits : Nat) : Except FileFault FileTree :=
  match t.locate p with
  | .error fault => .error fault
  | .ok loc =>
    match t.get? loc with
    | some (.file f) => .ok (t.insert loc (.file { f with permissions := bits }))
    | _ => .ok t

/-- Writes a file: one that is there gets new bytes, else it is made. -/
def write (t : FileTree) (p : Path) (bytes : ByteArray) : Except FileFault FileTree :=
  match t.target p with
  | .error fault => .error fault
  | .ok .onTheWay => .error .isDirectory
  | .ok (.name _ true) => .error .isDirectory
  | .ok (.name loc false) =>
    match t.get? loc with
    | some .directory => .error .isDirectory
    | some (.file f) => .ok (t.insert loc (.file { f with bytes }))
    | none => .ok (t.insert loc (.file { bytes, permissions := newFilePermissions }))

def temporaryName (n : Nat) : List Char :=
  ".tmp".toList ++ padZeros 6 (decimal n)

/-- The first free name for a temporary file in a directory, among `fuel` names from the `n`-th on. -/
def freeName? (t : FileTree) (directory : Location) : (fuel n : Nat) → Option (List Char)
  | 0, _ => none
  | fuel + 1, n =>
    if (t.get? (directory ++ [temporaryName n])).isSome then freeName? t directory fuel (n + 1)
    else some (temporaryName n)

/-- Makes an empty file with a name of its own in a directory, which has to be there. Gives the path
of the file, too, which must not be too long. A tree has too few entries to hold all the names tried. -/
def createTemporary (t : FileTree) (p : Path) : Except FileFault (Path × FileTree) :=
  match t.locate p with
  | .error fault => .error fault
  | .ok loc =>
    match t.get? loc with
    | some .directory =>
      match t.freeName? loc (t.entries.size + 1) 0 with
      | none => .error .alreadyExists
      | some name =>
        match t.target (p.join name) with
        | .error fault => .error fault
        | .ok _ =>
          .ok (p.join name,
            t.insert (loc ++ [name])
              (.file { bytes := .empty, permissions := temporaryPermissions }))
    | _ => .error .notDirectory

def createDirectory (t : FileTree) (p : Path) : Except FileFault FileTree :=
  match t.target p with
  | .error fault => .error fault
  | .ok .onTheWay => .error .alreadyExists
  | .ok (.name loc _) =>
    if (t.get? loc).isSome then .error .alreadyExists else .ok (t.insert loc .directory)

/-- Moves a file to another place. A file in that place is replaced, a directory is not. -/
def rename (t : FileTree) (source destination : Path) : Except FileFault FileTree :=
  match t.lookup? source with
  | some (loc, .file f) =>
    match t.target destination with
    | .error fault => .error fault
    | .ok .onTheWay => .error .busy
    | .ok (.name _ true) => .error .notDirectory
    | .ok (.name place false) =>
      match t.get? place with
      | some .directory => .error .isDirectory
      | _ => .ok ((t.erase loc).insert place (.file f))
  | some (_, .directory) => .error .isDirectory
  | none => .error .notFound

/-- Removes the file that a path leads to; where there is none, nothing happens. -/
def remove (t : FileTree) (p : Path) : FileTree :=
  match t.lookup? p with
  | some (loc, .file _) => t.erase loc
  | _ => t

/-- Everything below the directory that a path leads to: the names on the way down to each entry. -/
def below (t : FileTree) (p : Path) : List Location :=
  match t.lookup? p with
  | some (loc, .directory) =>
    (t.entries.toList.filterMap fun (l, _) => loc.isPrefixOf? l).filter (!·.isEmpty)
  | _ => []

end FileTree

end FrontToc
