import FrontToc.Error
import FrontToc.Text.Blank
import FrontToc.Text.Lines
import FrontToc.Yaml.Read

/-!
Front matter: a block of YAML at the start of a document, between two lines that are exactly three
hyphens.
-/
namespace FrontToc

open Text

def delimiter : List Char :=
  ['-', '-', '-']

/-- Whether a line is the delimiter, its ending apart. -/
def isDelimiterLine (line : List Char) : Bool :=
  trimLineEnd line = delimiter

/-- A document cut at its front matter: the text between the two delimiter lines, the place after the
closing hyphens in bytes from the start of the document, and the text from there on. -/
structure FrontMatterSplit where
  block : List Char
  endOffset : Nat
  body : List Char
deriving DecidableEq, Repr

/-- Cuts a document at its front matter, if its first line and a later one are delimiters. -/
def splitFrontMatter? (content : List Char) : Option FrontMatterSplit :=
  match splitLines content with
  | [] => none
  | first :: rest =>
    if isDelimiterLine first then
      let inside := rest.takeWhile fun line => !isDelimiterLine line
      match rest.drop inside.length with
      | [] => none
      | closing :: after =>
        some
          { block := inside.flatten
            endOffset := byteLength (first ++ inside.flatten ++ delimiter)
            body := lineEnd closing ++ after.flatten }
    else none

/-- Whether a document starts like front matter but the block is never closed. -/
def hasUnclosedFrontMatter (content : List Char) : Bool :=
  (splitLines content).head?.any isDelimiterLine && (splitFrontMatter? content).isNone

/-- A kind of value, with its article. -/
def Yaml.Value.kind : Yaml.Value → String
  | .null => "null"
  | .bool _ => "a boolean"
  | .int _ => "a number"
  | .float _ => "a number"
  | .str _ => "a string"
  | .seq _ => "a sequence"
  | .map _ => "a mapping"
  | .tagged _ _ => "a tagged value"

/-- The mapping that a front matter block holds. A block without a value is an empty mapping. -/
def readFrontMatter (block : List Char) : Except FrontMatterFault Yaml.Mapping :=
  if isBlankText block then .ok []
  else match Yaml.read? block with
    | none => .error .invalidYaml
    | some (.map entries) => .ok entries
    | some .null => .ok []
    | some value => .error (.notMapping value.kind)

structure FrontMatter where
  mapping : Yaml.Mapping
  endOffset : Nat
  body : List Char

def extractFrontMatter (content : List Char) : Except Error (Option FrontMatter) :=
  match splitFrontMatter? content with
  | none => .ok none
  | some split =>
    match readFrontMatter split.block with
    | .error fault => .error (.malformedFrontMatter fault)
    | .ok mapping => .ok (some { mapping, endOffset := split.endOffset, body := split.body })

end FrontToc
