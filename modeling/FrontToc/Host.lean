import FrontToc.Event
import FrontToc.Files.Path

/-!
What a run needs from the machine it runs on: the calls on files, and a way to say something.
-/
namespace FrontToc

inductive EntryKind where
  | file
  | directory
deriving DecidableEq, Repr

/-- Something a run says. A remark is shown however little is to be told. -/
inductive Output where
  | result (text : List Char)
  | remark (text : List Char)
  | event (e : Event)
deriving DecidableEq, Repr

/-- The calls on a machine. A call on a path that cannot be done tells the fault. What is `below` a
directory is given by the names on the way down, in any order, and a temporary file by its path. -/
class Host (m : Type → Type) where
  kind? : Path → m (Option EntryKind)
  below : Path → m (List (List (List Char)))
  read : Path → m (Except FileFault ByteArray)
  permissions? : Path → m (Option Nat)
  createTemporary : Path → m (Except FileFault Path)
  write : Path → ByteArray → m (Except FileFault Unit)
  setPermissions : Path → Nat → m (Except FileFault Unit)
  rename : Path → Path → m (Except FileFault Unit)
  remove : Path → m Unit
  createDirectory : Path → m (Except FileFault Unit)
  say : Output → m Unit

namespace Host

variable {m : Type → Type} [Host m]

def tell (e : Event) : m Unit :=
  say (.event e)

variable [Monad m]

/-- A call on a path, as a step that fails with the error for that path. -/
def onPath {α : Type} (path : Path) (call : m (Except FileFault α)) : ExceptT Error m α :=
  ExceptT.mk do return (← call).mapError (Error.file path)

def isFile (path : Path) : m Bool :=
  return (← kind? path) = some .file

def isDirectory (path : Path) : m Bool :=
  return (← kind? path) = some .directory

end Host

end FrontToc
