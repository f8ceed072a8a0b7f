import FrontToc.Text.Digits

/-!
The words of a command line: the subcommands, their options and their operands.
-/
namespace FrontToc.CommandLine

open Text

inductive Subcommand where
  | top
  | walk
  | postRender
  | print
  | config
  | configPath
  | configShow
  | configInit
  | help
deriving DecidableEq, Repr

/-- Something that a subcommand can be given: an option or an operand. -/
inductive Parameter where
  | config
  | verbose
  | help
  | version
  | root
  | extension
  | outputFiles
  | document
  | tocMarkers
  | minDepth
  | maxDepth
  | dedupeSlugs
  | dryRun
  | file
  | force
deriving DecidableEq, Repr

/-- What is wrong with a command line, or what it asks for instead of a command. An empty path counts as
a missing value. -/
inductive UsageFault where
  | helpAsked
  | versionAsked
  | unknownArgument
  | unknownSubcommand
  | missingSubcommand
  | nothingGiven
  | missingOperand
  | missingValue
  | invalidDepth
  | needlessValue
  | repeated
deriving DecidableEq, Repr

namespace UsageFault

/-- Asking for help or version is no failure. -/
def isFailure : UsageFault → Bool
  | .helpAsked => false
  | .versionAsked => false
  | _ => true

def message : UsageFault → String
  | .helpAsked => "help asked for"
  | .versionAsked => "version asked for"
  | .unknownArgument => "unexpected argument"
  | .unknownSubcommand => "unrecognized subcommand"
  | .missingSubcommand => "a subcommand is required"
  | .nothingGiven => "a subcommand is required"
  | .missingOperand => "a required argument is missing"
  | .missingValue => "an option has no value"
  | .invalidDepth => "a depth is not in 1..=6"
  | .needlessValue => "an option takes no value"
  | .repeated => "an option is used more than once"

end UsageFault

namespace Subcommand

def name : Subcommand → List Char
  | .top => "posthead".toList
  | .walk => "walk".toList
  | .postRender => "post-render".toList
  | .print => "print".toList
  | .config => "config".toList
  | .configPath => "path".toList
  | .configShow => "show".toList
  | .configInit => "init".toList
  | .help => "help".toList

def children : Subcommand → List Subcommand
  | .top => [.walk, .postRender, .print, .config, .help]
  | .config => [.configPath, .configShow, .configInit, .help]
  | _ => []

def child? (c : Subcommand) (name : List Char) : Option Subcommand :=
  c.children.find? (·.name = name)

def commonOptions : List Parameter :=
  [.config, .verbose, .help]

def transformOptions : List Parameter :=
  [.tocMarkers, .minDepth, .maxDepth, .dedupeSlugs]

def options : Subcommand → List Parameter
  | .top => .version :: commonOptions
  | .walk => commonOptions ++ transformOptions ++ [.extension, .dryRun]
  | .postRender => commonOptions ++ transformOptions ++ [.outputFiles, .dryRun]
  | .print => commonOptions ++ transformOptions
  | .configInit => commonOptions ++ [.file, .force]
  | _ => commonOptions

/-- The operand of a subcommand, and whether it has to be given. -/
def operand? : Subcommand → Option (Parameter × Bool)
  | .walk => some (.root, false)
  | .print => some (.document, true)
  | _ => none

end Subcommand

namespace Parameter

def long? : Parameter → Option (List Char)
  | .config => some "config".toList
  | .verbose => some "verbose".toList
  | .help => some "help".toList
  | .version => some "version".toList
  | .extension => some "extension".toList
  | .outputFiles => some "output-files".toList
  | .tocMarkers => some "toc-markers".toList
  | .minDepth => some "min-depth".toList
  | .maxDepth => some "max-depth".toList
  | .dedupeSlugs => some "dedupe-slugs".toList
  | .dryRun => some "dry-run".toList
  | .file => some "file".toList
  | .force => some "force".toList
  | .root => none
  | .document => none

def short? : Parameter → Option Char
  | .config => some 'c'
  | .verbose => some 'v'
  | .help => some 'h'
  | .version => some 'V'
  | _ => none

def takesValue : Parameter → Bool
  | .config => true
  | .extension => true
  | .outputFiles => true
  | .minDepth => true
  | .maxDepth => true
  | .file => true
  | _ => false

/-- A depth on a command line: a number from 1 to 6; a plus sign and leading zeros are allowed. -/
def readDepth? (value : List Char) : Option UInt8 :=
  ((readByte? value).filter fun n => 1 ≤ n && n ≤ 6).map Nat.toUInt8

def valueFault? (p : Parameter) (value : List Char) : Option UsageFault :=
  match p with
  | .root => if value.isEmpty then some .missingValue else none
  | .document => if value.isEmpty then some .missingValue else none
  | .minDepth => if (readDepth? value).isNone then some .invalidDepth else none
  | .maxDepth => if (readDepth? value).isNone then some .invalidDepth else none
  | _ => none

end Parameter

end FrontToc.CommandLine
