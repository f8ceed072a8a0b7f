import FrontToc.Config
import FrontToc.Host
import FrontToc.Text.Blank
import FrontToc.Text.Lines

/-!
Where the files of a batch come from: a list, or a walk of a directory, which finds the files below it
whose names have an extension.

Root and extension are read as pieces between slashes. The pieces of the root are followed one by one
from the working directory, or from the root of all files. Below the place they lead to, a name matches
if it ends in a dot and the first piece of the extension; further pieces, if there are any, are followed
from there.
-/
namespace FrontToc

open Text

/-- A choice of files: all below `root` whose name ends in a dot and `extension`, or those of a list. -/
inductive FileSource where
  | walk (root extension : List Char)
  | list (paths : List (List Char))
deriving DecidableEq, Repr

namespace FileSource

/-- The files below a directory; dots in front of the extension do not count. -/
def below (root extension : List Char) : FileSource :=
  .walk root (Config.bareExtension extension)

/-- The files that a text lists, one path a line. Blanks around a path and blank lines do not count. -/
def ofList (text : List Char) : FileSource :=
  .list (((lines text).map trim).filter (!·.isEmpty))

def ofVariable (name : List Char) (value : Option (List Char)) : Except Error FileSource :=
  match value with
  | some text => .ok (ofList text)
  | none => .error (.missingOutputFileList name)

end FileSource

namespace Walk

variable {m : Type → Type} [Monad m] [Host m]

/-- The path of `name` below `here`. Paths do not start with the dot that stands for the working
directory. -/
def step (here : Path) (name : List Char) : Path :=
  if here = ['.'] then name else here.join name

/-- Whether a piece leads from a path to something. A dot and two dots lead on from directories. -/
def leadsOn (here : Path) (piece : List Char) : m Bool := do
  if piece = ['.'] ∨ piece = ['.', '.'] then Host.isDirectory here
  else return (← Host.kind? (step here piece)).isSome

def follow? : (here : Path) → List (List Char) → m (Option Path)
  | here, [] => return some here
  | here, piece :: rest => do
    if ← leadsOn here piece then follow? (step here piece) rest else return none

/-- The path of what lies below `base` at the names on the way down. -/
def descend (base : Path) (names : List (List Char)) : Path :=
  names.foldl step base

def endsWith (ending : List Char) (names : List (List Char)) : Bool :=
  match names.getLast? with
  | some name => ending.isSuffixOf name
  | none => false

def followAll (pieces : List (List Char)) : List Path → m (List Path)
  | [] => return []
  | path :: rest => do
    let found ← follow? path pieces
    return found.toList ++ (← followAll pieces rest)

def keepFiles : List Path → m (List Path)
  | [] => return []
  | path :: rest => do
    let isFile ← Host.isFile path
    let others ← keepFiles rest
    return if isFile then path :: others else others

/-- The path that the pieces of a root are followed from, and these pieces. -/
def start (root : Path) : Path × List (List Char) :=
  match root.pieces with
  | [] :: rest => (['/'], rest)
  | pieces => (['.'], pieces)

def candidates (root : Path) (extension : List Char) : m (List Path) := do
  let (here, pieces) := start root
  match ← follow? here pieces with
  | none => return []
  | some base =>
    let names ← Host.below base
    match splitOnChar '/' extension with
    | [] => return []
    | first :: more =>
      followAll more ((names.filter (endsWith ('.' :: first))).map (descend base))

/-- The files below a root whose names have an extension, ordered by their paths. -/
def files (root : Path) (extension : List Char) : ExceptT Error m (List Path) := do
  if ← (Host.isDirectory root : m Bool) then
    let matching ← (candidates root extension : m (List Path))
    let found ← (keepFiles matching : m (List Path))
    (Host.tell (.filesFound found.length extension root) : m Unit)
    return found.mergeSort Path.le
  else throw (.file root .noSuchRoot)

end Walk

def FileSource.paths {m : Type → Type} [Monad m] [Host m] :
    FileSource → ExceptT Error m (List Path)
  | .walk root extension => Walk.files root extension
  | .list paths => return paths

end FrontToc
