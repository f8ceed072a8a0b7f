import FrontToc.Host

/-!
Texts in files: reading one, and putting one in the place of another so that a reader sees the old
text or the new one, never a part.
-/
namespace FrontToc

variable {m : Type → Type} [Monad m] [Host m]

/-- The text of a file, which has to be UTF-8. -/
def readText (path : Path) : ExceptT Error m (List Char) := do
  let bytes ← Host.onPath path (Host.read path)
  match String.fromUTF8? bytes with
  | some text => return text.toList
  | none => throw (.file path .notText)

def textBytes (text : List Char) : ByteArray :=
  (String.ofList text).toUTF8

/-- Fills a temporary file with a text, gives it the permission bits of what is at `path` and moves it
there. -/
def moveInto (path temporary : Path) (text : List Char) : ExceptT Error m Unit := do
  Host.onPath temporary (Host.write temporary (textBytes text))
  match ← (Host.permissions? path : m (Option Nat)) with
  | some bits => Host.onPath temporary (Host.setPermissions temporary bits)
  | none => pure ()
  Host.onPath path (Host.rename temporary path)

/-- Replaces the file at `path`, or makes it: the text is written to a temporary file in the same
directory, which then takes the place. If a step fails the temporary file is removed. -/
def replaceText (path : Path) (text : List Char) : ExceptT Error m Unit := do
  let temporary ← Host.onPath path.directory (Host.createTemporary path.directory)
  try moveInto path temporary text
  catch e =>
    (Host.remove temporary : m Unit)
    throw e

/-- Makes a directory, and first those above it that are not there; `fuel` bounds their number. -/
def createDirectoriesUpTo : (fuel : Nat) → Path → m (Except FileFault Unit)
  | 0, _ => return .ok ()
  | fuel + 1, path => do
    if path.isEmpty then return .ok ()
    match ← Host.createDirectory path, path.parent? with
    | .ok (), _ => return .ok ()
    | .error .notFound, none => return .error .notFound
    | .error .notFound, some above =>
      match ← createDirectoriesUpTo fuel above with
      | .error fault => return .error fault
      | .ok () => unlessThere path (← Host.createDirectory path)
    | made, _ => unlessThere path made
where
  -- a directory that could not be made is no fault if it is there
  unlessThere (path : Path) (made : Except FileFault Unit) : m (Except FileFault Unit) := do
    match made with
    | .ok () => return .ok ()
    | .error fault => if ← Host.isDirectory path then return .ok () else return .error fault

def createDirectories (path : Path) : m (Except FileFault Unit) :=
  createDirectoriesUpTo (path.length + 1) path

end FrontToc
