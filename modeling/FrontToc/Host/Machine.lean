import FrontToc.Files.Tree
import FrontToc.Host

/-!
A machine as far as a run can see it: its files, and what the run has said.
-/
namespace FrontToc

/-- The files of a machine and what has been said on it, in order. -/
structure Machine where
  tree : FileTree
  said : List Output := []

abbrev OnMachine := StateM Machine

namespace OnMachine

def ask {α : Type} (question : FileTree → α) : OnMachine α :=
  fun machine => (question machine.tree, machine)

/-- Changes the files, or leaves them as they are if that cannot be done. -/
def change (act : FileTree → Except FileFault FileTree) : OnMachine (Except FileFault Unit) :=
  fun machine =>
    match act machine.tree with
    | .error fault => (.error fault, machine)
    | .ok tree => (.ok (), { machine with tree })

def createTemporary (path : Path) : OnMachine (Except FileFault Path) :=
  fun machine =>
    match machine.tree.createTemporary path with
    | .error fault => (.error fault, machine)
    | .ok (temporary, tree) => (.ok temporary, { machine with tree })

def kindOf : Entry → EntryKind
  | .file _ => .file
  | .directory => .directory

instance : Host OnMachine where
  kind? path := ask fun tree => (tree.lookup? path).map fun (_, e) => kindOf e
  below path := ask fun tree => tree.below path
  read path := ask fun tree => tree.read path
  permissions? path := ask fun tree => tree.permissions? path
  createTemporary := createTemporary
  write path bytes := change fun tree => tree.write path bytes
  setPermissions path bits := change fun tree => tree.setPermissions path bits
  rename source destination := change fun tree => tree.rename source destination
  remove path := fun machine => ((), { machine with tree := machine.tree.remove path })
  createDirectory path := change fun tree => tree.createDirectory path
  say output := fun machine => ((), { machine with said := machine.said ++ [output] })

end OnMachine

end FrontToc
