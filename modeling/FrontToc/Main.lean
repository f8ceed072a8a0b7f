import FrontToc.CommandLine.Program

/-!
The program on the machine it runs on: the calls that a run makes, and the command line.
-/
namespace FrontToc

/-- A run on this machine. How much is to be told goes with it. -/
abbrev OnThisMachine := ReaderT Nat IO

namespace OnThisMachine

def callName (p : Path) : String :=
  String.ofList p

def entry (p : Path) : IO.FS.DirEntry where
  root := "."
  fileName := callName p

/-- The number of a fault, which some calls give with a minus sign. -/
def faultNumber (code : UInt32) : Nat :=
  min code.toNat (-code).toNat

def fault (code : UInt32) (details : String) : FileFault :=
  match faultNumber code with
  | 2 => .notFound
  | 16 => .busy
  | 17 => .alreadyExists
  | 20 => .notDirectory
  | 21 => .isDirectory
  | 36 => .nameTooLong
  | n => .reported s!"{details} (os error {n})".toList

def faultOf : IO.Error → FileFault
  | .alreadyExists _ code details => fault code details
  | .otherError code details => fault code details
  | .resourceBusy code details => fault code details
  | .resourceVanished code details => fault code details
  | .unsupportedOperation code details => fault code details
  | .hardwareFault code details => fault code details
  | .unsatisfiedConstraints code details => fault code details
  | .illegalOperation code details => fault code details
  | .protocolError code details => fault code details
  | .timeExpired code details => fault code details
  | .interrupted _ code details => fault code details
  | .noFileOrDirectory _ code details => fault code details
  | .invalidArgument _ code details => fault code details
  | .permissionDenied _ code details => fault code details
  | .resourceExhausted _ code details => fault code details
  | .inappropriateType _ code details => fault code details
  | .noSuchThing _ code details => fault code details
  | .unexpectedEof => .reported "unexpected end of file".toList
  | .userError text => .reported text.toList

/-- A call whose errors are faults. A path with a null character and an empty one are not handed on. -/
def call {α : Type} (p : Path) (act : IO α) : OnThisMachine (Except FileFault α) := do
  if p.any (· = '\x00') then return .error .nullInPath
  if p.isEmpty then return .error .notFound
  try return .ok (← act)
  catch e => return .error (faultOf e)

def kind? (p : Path) : OnThisMachine (Option EntryKind) := do
  match ← call p (entry p).path.metadata with
  | .error _ => return none
  | .ok found =>
    match found.type with
    | .dir => return some .directory
    | .file => return some .file
    | _ => return none

/-- The names on the way down to everything below a directory. -/
partial def below (p : Path) : OnThisMachine (List (List (List Char))) := do
  match ← call p (entry p).path.readDir with
  | .error _ => return []
  | .ok children =>
    let mut found := []
    for child in children do
      let name := child.fileName.toList
      found := [name] :: found
      if (← kind? (p.join name)) = some .directory then
        found := (← below (p.join name)).map (name :: ·) ++ found
    return found

def rightsOfBits (n : Nat) : IO.AccessRight where
  read := n / 4 % 2 = 1
  write := n / 2 % 2 = 1
  execution := n % 2 = 1

def rights (bits : Nat) : IO.FileRight where
  user := rightsOfBits (bits / 64)
  group := rightsOfBits (bits / 8)
  other := rightsOfBits bits

def ownerOnly : Nat := 0o600

/-- The permission bits taken for those of a file that is there. The system does not tell them. -/
def assumedPermissions : Nat := 0o644

def createTemporaryUpTo (directory : Path) : (fuel : Nat) → OnThisMachine (Except FileFault Path)
  | 0 => return .error .alreadyExists
  | fuel + 1 => do
    let name := ".tmp".toList ++ Text.padZeros 6 (Text.decimal (← IO.rand 0 999999))
    let path := directory.join name
    match ← call path (discard (IO.FS.Handle.mk (callName path) .writeNew)) with
    | .ok () =>
      match ← call path (IO.setAccessRights (callName path) (rights ownerOnly)) with
      | .ok () => return .ok path
      | .error fault => return .error fault
    | .error .alreadyExists => createTemporaryUpTo directory fuel
    | .error fault => return .error fault

/-- Says something: the result on the standard output, the rest beside it. -/
def say (output : Output) : OnThisMachine Unit := do
  let out ← IO.getStdout
  let err ← IO.getStderr
  out.putStr (String.ofList output.resultText)
  out.flush
  err.putStr (String.ofList (output.toldText (← read)))

instance : Host OnThisMachine where
  kind? := kind?
  below := below
  read p := call p (IO.FS.readBinFile (callName p))
  permissions? p := return (← kind? p).map fun _ => assumedPermissions
  createTemporary p := createTemporaryUpTo p 100
  write p bytes := call p (IO.FS.writeBinFile (callName p) bytes)
  setPermissions p bits := call p (IO.setAccessRights (callName p) (rights bits))
  rename source destination :=
    call destination (IO.FS.rename (callName source) (callName destination))
  remove p := discard (call p (IO.FS.removeFile (callName p)))
  createDirectory p := call p (IO.FS.createDir (callName p))
  say := say

end OnThisMachine

end FrontToc

open FrontToc in
def main (args : List String) : IO UInt32 := do
  let out ← IO.getStdout
  let err ← IO.getStderr
  let listed ← IO.getEnv (String.ofList outputFilesVariable)
  match CommandLine.parse (listed.map String.toList) (args.map String.toList) with
  | .error .helpAsked => out.putStr helpText
  | .error .versionAsked => out.putStr versionText
  | .error fault =>
    err.putStr ("error: " ++ fault.message ++ "\n\n" ++ helpText)
    return fault.exitCode.toUInt32
  | .ok invocation =>
    let run : ExceptT Error OnThisMachine Unit := invocation.start IdSupply.counted
    let outcome ← run.run.run invocation.verbosity
    match outcome with
    | .ok () => pure ()
    | .error e => err.putStr e.report
    return (exitCode outcome).toUInt32
  return 0
