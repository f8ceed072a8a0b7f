import FrontToc.Config
import FrontToc.Files.Text

/-!
The configuration file: the one that is named, else the usual one in the working directory, else
none, and then the defaults hold.
-/
namespace FrontToc.Config

variable {m : Type → Type} [Monad m] [Host m]

def usualFile : Path :=
  "posthead.toml".toList

/-- The configuration file to read: the named one, be it there or not, or the usual one if it is
there. -/
def resolve (named : Option Path) : m (Option Path) :=
  match named with
  | some path => return some path
  | none => return if ← Host.isFile usualFile then some usualFile else none

def ofFile (path : Path) : ExceptT Error m Config := do
  match ofToml (← readText path) with
  | .error fault => throw (.config (.inFile path fault))
  | .ok config =>
    (Host.tell (.configLoaded path) : m Unit)
    return config

def load (named : Option Path) : ExceptT Error m Config := do
  match ← (resolve named : m (Option Path)) with
  | some path => ofFile path
  | none =>
    (Host.tell .noConfigFile : m Unit)
    return {}

def sayLine (line : List Char) : m Unit :=
  Host.say (.result (line ++ ['\n']))

/-- Tells which configuration file is read, and whether it is missing. -/
def sayPath (named : Option Path) : m Unit := do
  match ← resolve named with
  | none =>
    sayLine ("(none: no ".toList ++ usualFile
      ++ " in the working directory, using defaults)".toList)
  | some path =>
    sayLine path
    if (← Host.kind? path).isNone then
      Host.say (.remark
        "(file does not exist; run `posthead config init` to create it)\n".toList)

def sayCurrent (named : Option Path) : ExceptT Error m Unit := do
  let config ← load named
  (Host.say (.result config.toToml) : m Unit)

/-- Writes a file that holds the defaults, with the directories above it, and gives its path. A file
that is there is replaced only by force. -/
def writeDefaults (file : Option Path) (force : Bool) : ExceptT Error m Path := do
  let path := file.getD usualFile
  if (← (Host.kind? path : m (Option EntryKind))).isSome && !force then
    throw (.config (.fileExists path))
  match path.parent? with
  | none => pure ()
  | some [] => pure ()
  | some directory => Host.onPath directory (createDirectories directory)
  Host.onPath path (Host.write path (textBytes ({} : Config).toToml))
  (sayLine ("Config file created at ".toList ++ path) : m Unit)
  return path

end FrontToc.Config
