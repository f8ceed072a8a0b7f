import FrontToc.CommandLine.Parse
import FrontToc.CommandLine.Run

/-!
The program: what it answers to a command line beside the command's own work.
-/
namespace FrontToc

def versionText : String :=
  "posthead 0.1.0\n"

def helpText : String :=
  "Inject a headings array into the YAML front matter of markdown posts\n\n"
    ++ "Usage: posthead [OPTIONS] <COMMAND>\n\n"
    ++ "Commands:\n"
    ++ "  walk [ROOT]     Transform every post below a directory\n"
    ++ "                  [--extension <EXTENSION>] [--dry-run]\n"
    ++ "  post-render     Transform the files that a Quarto project lists\n"
    ++ "                  [--output-files <OUTPUT_FILES>] [--dry-run]\n"
    ++ "  print <FILE>    Print one file as it would be transformed\n"
    ++ "  config path     Show the config file that would be loaded\n"
    ++ "  config show     Print the effective configuration as TOML\n"
    ++ "  config init     Write a default configuration file\n"
    ++ "                  [--file <FILE>] [--force]\n"
    ++ "  help            Print this message\n\n"
    ++ "Options of walk, post-render and print:\n"
    ++ "  --toc-markers             Take headings from a BEGIN_TOC/END_TOC comment\n"
    ++ "  --min-depth <MIN_DEPTH>   Shallowest heading level to include\n"
    ++ "  --max-depth <MAX_DEPTH>   Deepest heading level to include\n"
    ++ "  --dedupe-slugs            Suffix repeated slugs with -1, -2, ...\n\n"
    ++ "Options:\n"
    ++ "  -c, --config <CONFIG>  Configuration file path\n"
    ++ "  -v, --verbose...       Increase log verbosity (-v info, -vv debug, -vvv trace)\n"
    ++ "  -h, --help             Print help\n"
    ++ "  -V, --version          Print version\n"

/-- An error as the program ends with it: what it is and, where there is more to say, its cause. -/
def Error.report (e : Error) : String :=
  "Error: " ++ e.message ++ "\n" ++
    match e.cause? with
    | some cause => "\nCaused by:\n    " ++ cause ++ "\n"
    | none => ""

def CommandLine.UsageFault.exitCode (fault : UsageFault) : Nat :=
  if fault.isFailure then 2 else 0

def exitCode (outcome : Except Error Unit) : Nat :=
  match outcome with
  | .ok () => 0
  | .error _ => 1

def Invocation.start {m : Type → Type} [Monad m] [Host m] (ids : IdSupply)
    (invocation : Invocation) : ExceptT Error m Unit := do
  (Host.tell (.starting invocation.command) : m Unit)
  invocation.run ids

namespace Output

def resultText : Output → List Char
  | .result text => text
  | _ => []

def remarkText : Output → List Char
  | .remark text => text
  | _ => []

/-- What an output adds to what is told beside the result, when `verbosity` is asked for. -/
def toldText (verbosity : Nat) : Output → List Char
  | .result _ => []
  | .remark text => text
  | .event e => if e.level.isToldAt verbosity then e.line.toList ++ ['\n'] else []

def event? : Output → Option Event
  | .event e => some e
  | _ => none

end Output

end FrontToc
