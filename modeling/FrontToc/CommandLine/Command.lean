import FrontToc.Text.Printable
import FrontToc.Transform

/-!
Commands: what a command line asks for.
-/
namespace FrontToc

open Text

inductive ConfigAction where
  | path
  | show
  | init (file : Option (List Char)) (force : Bool)
deriving DecidableEq, Repr

inductive Command where
  | walk (root extension : Option (List Char)) (flags : TransformFlags) (dryRun : Bool)
  | postRender (outputFiles : Option (List Char)) (flags : TransformFlags) (dryRun : Bool)
  | print (file : List Char) (flags : TransformFlags)
  | config (action : ConfigAction)
deriving DecidableEq, Repr

/-- A command with what holds for all of them: the configuration file to read, and how much to tell, 0
for warnings and errors only. -/
structure Invocation where
  config : Option (List Char)
  verbosity : Nat
  command : Command
deriving DecidableEq, Repr

namespace Command

/-- A record in words: its name and, in braces, its fields. -/
def recordText (name : String) (fields : List (String × String)) : String :=
  name ++ " \x7b " ++ ", ".intercalate (fields.map fun (key, value) => key ++ ": " ++ value) ++ " \x7d"

def optionText {α : Type} (text : α → String) : Option α → String
  | some a => "Some(" ++ text a ++ ")"
  | none => "None"

def boolText (b : Bool) : String :=
  if b then "true" else "false"

def stringText (s : List Char) : String :=
  String.ofList (quoted s)

def pathText (s : List Char) : String :=
  String.ofList (quotedPath s)

def flagsText (flags : TransformFlags) : String :=
  recordText "TransformArgs"
    [("toc_markers", boolText flags.tocMarkers),
     ("min_depth", optionText (fun d => toString d.toNat) flags.minDepth),
     ("max_depth", optionText (fun d => toString d.toNat) flags.maxDepth),
     ("dedupe_slugs", boolText flags.dedupeSlugs)]

def actionText : ConfigAction → String
  | .path => "Path"
  | .show => "Show"
  | .init file force =>
    recordText "Init" [("file", optionText stringText file), ("force", boolText force)]

/-- A command as told at its start: every choice by its name. -/
def text : Command → String
  | .walk root extension flags dryRun =>
    recordText "Walk"
      [("root", optionText pathText root), ("extension", optionText stringText extension),
       ("transform", flagsText flags), ("dry_run", boolText dryRun)]
  | .postRender outputFiles flags dryRun =>
    recordText "PostRender"
      [("output_files", optionText stringText outputFiles), ("transform", flagsText flags),
       ("dry_run", boolText dryRun)]
  | .print file flags => recordText "Print" [("file", pathText file), ("transform", flagsText flags)]
  | .config action => recordText "Config" [("action", actionText action)]

end Command

end FrontToc
