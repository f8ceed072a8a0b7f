import FrontToc.CommandLine.Command
import FrontToc.Text.Printable
import FrontToc.Transform

/-!
Events: what a run has to tell beside its result. Each has a level, the part of the program that it
comes from, and a text.
-/
namespace FrontToc

open Text

inductive Level where
  | debug
  | info
  | warn
  | error
deriving DecidableEq, Repr

def Level.isToldAt (verbosity : Nat) : Level → Bool
  | .debug => 2 ≤ verbosity
  | .info => 1 ≤ verbosity
  | .warn => true
  | .error => true

def Level.label : Level → String
  | .debug => "DEBUG"
  | .info => "INFO"
  | .warn => "WARN"
  | .error => "ERROR"

/-- Something that happened in a run. A fence that is not closed is told with the byte at which its
block starts. -/
inductive Event where
  | starting (command : Command)
  | unclosedFrontMatter
  | unclosedFence (offset : Nat)
  | headingsFound (count : Nat)
  | injecting (headings blocks : Nat)
  | injectingMarkers (headings : Nat)
  | rowSkipped (row : List Char) (fault : TocMarkers.RowFault)
  | skipping (path : List Char) (reason : SkipReason)
  | alreadyCurrent (path : List Char)
  | wouldReplace (path : List Char)
  | replaced (path : List Char)
  | failed (path : List Char) (error : Error)
  | leftUnchanged (path : List Char) (reason : SkipReason)
  | filesFound (count : Nat) (extension root : List Char)
  | noConfigFile
  | configLoaded (path : List Char)
deriving DecidableEq, Repr

namespace Event

def level : Event → Level
  | .starting _ => .debug
  | .unclosedFrontMatter => .debug
  | .unclosedFence _ => .debug
  | .headingsFound _ => .debug
  | .injecting _ _ => .debug
  | .injectingMarkers _ => .debug
  | .rowSkipped _ _ => .warn
  | .skipping _ _ => .info
  | .alreadyCurrent _ => .debug
  | .wouldReplace _ => .info
  | .replaced _ => .info
  | .failed _ _ => .error
  | .leftUnchanged _ _ => .warn
  | .filesFound _ _ _ => .debug
  | .noConfigFile => .debug
  | .configLoaded _ => .debug

/-- The part of the program that an event comes from, as shown. -/
def origin : Event → String
  | .starting _ => "posthead"
  | .unclosedFrontMatter => "posthead_content::markdown::frontmatter"
  | .unclosedFence _ => "posthead_content::markdown::fence"
  | .headingsFound _ => "posthead_content::markdown::headings"
  | .injecting _ _ => "posthead_content::inject"
  | .injectingMarkers _ => "posthead_content::inject"
  | .rowSkipped _ _ => "posthead_content::markdown::toc_markers"
  | .skipping _ _ => "posthead_cli::batch"
  | .alreadyCurrent _ => "posthead_cli::batch"
  | .wouldReplace _ => "posthead_cli::batch"
  | .replaced _ => "posthead_cli::batch"
  | .failed _ _ => "posthead_cli::batch"
  | .leftUnchanged _ _ => "posthead_cli::commands"
  | .filesFound _ _ _ => "posthead_cli::batch"
  | .noConfigFile => "posthead_cli::config"
  | .configLoaded _ => "posthead_cli::config"

def text : Event → String
  | .starting command => "Starting posthead command=" ++ command.text
  | .unclosedFrontMatter => "Front matter opening delimiter found but no closing delimiter"
  | .unclosedFence offset => s!"Unterminated code fence at byte {offset}; shielding to end of text"
  | .headingsFound count => s!"Found {count} headings"
  | .injecting headings blocks => s!"Injecting {headings} headings ({blocks} code blocks shielded)"
  | .injectingMarkers headings => s!"Injecting {headings} headings from TOC markers"
  | .rowSkipped row .notThreeFields =>
    "Skipping TOC row without three fields: " ++ String.ofList (quoted row)
  | .rowSkipped row .invalidDepth =>
    "Skipping TOC row with invalid depth: " ++ String.ofList (quoted row)
  | .skipping path reason => "Skipping " ++ String.ofList path ++ ": " ++ reason.message
  | .alreadyCurrent path => String.ofList path ++ " is already current"
  | .wouldReplace path => "Would rewrite " ++ String.ofList path
  | .replaced path => "Rewrote " ++ String.ofList path
  | .failed path error => "Failed to process " ++ String.ofList path ++ ": " ++ error.message
  | .leftUnchanged path reason => String.ofList path ++ " left unchanged: " ++ reason.message
  | .filesFound count extension root =>
    s!"Found {count} ." ++ String.ofList extension ++ " files under " ++ String.ofList root
  | .noConfigFile => "No config file found; using defaults"
  | .configLoaded path => "Loaded config from " ++ String.ofList path

/-- An event as a line: level, origin and text. -/
def line (e : Event) : String :=
  e.level.label ++ " " ++ e.origin ++ ": " ++ e.text

end Event

/-- The byte at which the block starts that runs to the end of a text, if there is one. -/
def openBlockOffset? (ps : List Piece) : Option Nat :=
  match ps.getLast? with
  | some (.block _) => some (byteLength (ps.dropLast.flatMap Piece.text))
  | _ => none

def frontMatterEvents (content : List Char) : List Event :=
  if hasUnclosedFrontMatter content then [.unclosedFrontMatter] else []

def TocMarkers.Block.events (b : TocMarkers.Block) : List Event :=
  b.skipped.map fun (row, fault) => .rowSkipped row fault

/-- The events of a transformation, in order. -/
def Mode.events (mode : Mode) (ids : IdSupply) (content : List Char) : List Event :=
  frontMatterEvents content ++
    match extractFrontMatter content with
    | .error _ => []
    | .ok none => []
    | .ok (some front) =>
      match mode with
      | .headings options =>
        let shielded := shield ids front.body
        let listed := (extractHeadings shielded.text options).length
        (openBlockOffset? (pieces front.body)).toList.map Event.unclosedFence
          ++ [.headingsFound listed, .injecting listed shielded.blocks.length]
      | .tocMarkers =>
        match TocMarkers.parse? front.body with
        | none => []
        | some toc => toc.events ++ [.injectingMarkers toc.headings.length]

end FrontToc
