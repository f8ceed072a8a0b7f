import FrontToc.FrontMatter
import FrontToc.Yaml.Write

/-!
Documents with a table of contents: the entry `headings` is put last into the front matter, the YAML
loses the blank lines that are not part of a text, and the body follows after one blank line.
-/
namespace FrontToc

open Text

def headingsKey : List Char :=
  "headings".toList

def Heading.toValue (h : Heading) : Yaml.Value :=
  .map
    [ (.str "title".toList, .str h.title),
      (.str "slug".toList, .str h.slug),
      (.str "depth".toList, .int h.depth) ]

/-- The mapping with `headings` as its last entry instead of every entry it had under that key, with
or without a tag on it. -/
def setHeadings (mapping : Yaml.Mapping) (headings : List Heading) : Yaml.Mapping :=
  mapping.filter (fun entry => entry.1.text? ≠ some headingsKey)
    ++ [(.str headingsKey, .seq (headings.map Heading.toValue))]

/-- Characters that may follow the bar or angle bracket of a block scalar. -/
def isBlockHint (c : Char) : Bool :=
  c.isDigit || c = '+' || c = '-'

/-- Whether a line ends like the head of a block scalar: a bar or an angle bracket, at the start of
the line or after a colon or hyphen and a space, and then only digits and signs. -/
def endsInBlockHead (content : List Char) : Bool :=
  match content.reverse.dropWhile isBlockHint with
  | c :: before =>
    (c = '|' || c = '>') &&
      match before with
      | [] => true
      | s :: m :: _ => s = ' ' && (m = ':' || m = '-')
      | [_] => false
  | [] => false

/-- A line without line feeds and carriage returns at its end. -/
def chompLine (line : List Char) : List Char :=
  trimEndWhile (fun c => c = '\n' || c = '\r') line

def indentation (content : List Char) : Nat :=
  (content.takeWhile (· = ' ')).length

/-- The lines that remain when blank ones outside of block scalars go. `parent` is the indentation of
the head of the block scalar that the lines are in, if any. -/
def collapseFrom (parent : Option Nat) : List (List Char) → List (List Char)
  | [] => []
  | line :: rest =>
    let content := chompLine line
    if parent.any fun p => isBlankText content || p < indentation content then
      line :: collapseFrom parent rest
    else if isBlankText content then collapseFrom none rest
    else
      line :: collapseFrom
        (if endsInBlockHead (trimEnd content) then some (indentation content) else none) rest

/-- YAML without the blank lines that are not part of a text. -/
def collapseBlankLines (yaml : List Char) : List Char :=
  (collapseFrom none (splitLines yaml)).flatten

def toYaml (mapping : Yaml.Mapping) : Except Error (List Char) :=
  match Yaml.write? mapping with
  | none => .error .unwritableYaml
  | some yaml => .ok (collapseBlankLines yaml)

def stripLeadingBlankLines (body : List Char) : List Char :=
  ((splitLines body).dropWhile isBlankText).flatten

/-- A document: front matter with the headings, a blank line, and the body. -/
def renderDocument (mapping : Yaml.Mapping) (headings : List Heading) (body : List Char) :
    Except Error (List Char) :=
  match toYaml (setHeadings mapping headings) with
  | .error e => .error e
  | .ok yaml =>
    .ok (delimiter ++ '\n' :: yaml ++ delimiter ++ '\n' :: '\n' :: stripLeadingBlankLines body)

end FrontToc
