import FrontToc.Batch.Run
import FrontToc.Config.File

/-!
Carrying out a command.
-/
namespace FrontToc

variable {m : Type → Type} [Monad m] [Host m]

def outputFilesVariable : List Char :=
  "QUARTO_PROJECT_OUTPUT_FILES".toList

/-- The text that a file would have after its transformation. -/
def renderFile (ids : IdSupply) (flags : TransformFlags) (config : Config) (file : Path) :
    ExceptT Error m (List Char) := do
  let mode ← ExceptT.mk (return flags.mode config.headings)
  let old ← readText file
  match ← transformText ids mode old with
  | .rewritten new => return new
  | .unchanged reason =>
    (Host.tell (.leftUnchanged file reason) : m Unit)
    return old

def sayReport (dryRun : Bool) (report : BatchReport) : m Unit :=
  let name := if dryRun then "posthead (dry run): " else "posthead: "
  Host.say (.result (name ++ report.text ++ "\n").toList)

def ConfigAction.run (named : Option Path) : ConfigAction → ExceptT Error m Unit
  | .path => (Config.sayPath named : m Unit)
  | .show => Config.sayCurrent named
  | .init file force => do
    let _ ← Config.writeDefaults file force

/-- Carries out a command. The configuration is read first; what the command line says about root,
extension and headings comes before it. -/
def Command.run (ids : IdSupply) (named : Option Path) : Command → ExceptT Error m Unit
  | .config action => action.run named
  | .walk root extension flags dryRun => do
    let config ← Config.load named
    let source := FileSource.below (root.getD config.root) (extension.getD config.extension)
    let mode ← ExceptT.mk (return flags.mode config.headings)
    let report ← runBatch ids mode dryRun source
    (sayReport dryRun report : m Unit)
  | .postRender outputFiles flags dryRun => do
    let config ← Config.load named
    let source ← ExceptT.mk (return FileSource.ofVariable outputFilesVariable outputFiles)
    let mode ← ExceptT.mk (return flags.mode config.headings)
    let report ← runBatch ids mode dryRun source
    (sayReport dryRun report : m Unit)
  | .print file flags => do
    let config ← Config.load named
    let text ← renderFile ids flags config file
    (Host.say (.result text) : m Unit)

def Invocation.run (ids : IdSupply) (invocation : Invocation) : ExceptT Error m Unit :=
  invocation.command.run ids invocation.config

end FrontToc
