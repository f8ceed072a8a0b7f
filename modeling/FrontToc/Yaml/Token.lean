import FrontToc.Yaml.Chars

/-!
Tokens of a YAML text, and the place in the text up to which tokens have been read.
-/
namespace FrontToc.Yaml

/-- A tag as written. A character that is given by bytes which are no UTF-8 is `none`. -/
abbrev TagText := List (Option Char)

/-- The marks and texts that a document is made of. The start and end of a block collection are not
written but follow from the indentation. -/
inductive Token where
  | version (major minor : Nat)
  | tagHandle (handle : List Char) (expansion : TagText)
  | documentStart
  | documentEnd
  | blockSequenceStart
  | blockMappingStart
  | blockEnd
  | flowSequenceStart
  | flowSequenceEnd
  | flowMappingStart
  | flowMappingEnd
  | blockEntry
  | flowEntry
  | key
  | value
  | alias (name : List Char)
  | anchor (name : List Char)
  | tag (handle : List Char) (suffix : TagText)
  | scalar (plain : Bool) (text : List Char)
deriving DecidableEq, Repr

/-- The text still to be read, and where it begins. -/
structure Cursor where
  rest : List Char
  line : Nat
  column : Nat
deriving DecidableEq, Repr

namespace Cursor

def skip (c : Cursor) (n : Nat) : Cursor :=
  { c with rest := c.rest.drop n, column := c.column + n }

def moveTo (c : Cursor) (rest : List Char) : Cursor :=
  { c with rest, column := c.column + (c.rest.length - rest.length) }

def skipBreak (c : Cursor) : Cursor :=
  match c.rest with
  | b :: rest => if isBreak b then { rest, line := c.line + 1, column := 0 } else c
  | [] => c

/-- Whether a line starts here that marks a document limit: three times `mark`, and then a gap. -/
def atDocumentMark (c : Cursor) (mark : Char) : Bool :=
  c.column = 0 &&
    match c.rest with
    | x :: y :: z :: rest => x = mark && y = mark && z = mark && atGap rest
    | _ => false

def atDocumentLimit (c : Cursor) : Bool :=
  c.atDocumentMark '-' || c.atDocumentMark '.'

def skipLineTail (c : Cursor) : Cursor :=
  let rest := c.rest.dropWhile isSpace
  match rest with
  | '#' :: _ => c.moveTo (rest.dropWhile fun x => !isBreak x)
  | _ => c.moveTo rest

def atLineEnd (c : Cursor) : Bool :=
  match c.rest with
  | [] => true
  | x :: _ => isBreak x

end Cursor

/-- Space read inside a scalar, which counts only if more text follows: spaces and tabs, or line breaks,
the last first. It is `escaped` if the first break of all was, and then that one is left out. -/
inductive Gap where
  | none
  | spaces (reversed : List Char)
  | breaks (escaped : Bool) (reversed : List Char)
deriving DecidableEq, Repr

namespace Gap

/-- The text of a gap: spaces stay, a single line feed becomes a space, and of several breaks the first
is left out if it is a line feed. -/
def text : Gap → List Char
  | .none => []
  | .spaces reversed => reversed.reverse
  | .breaks true reversed => reversed.reverse
  | .breaks false reversed =>
    match reversed.reverse with
    | ['\n'] => [' ']
    | '\n' :: more => more
    | all => all

/-- The gap with a space or tab more. Spaces around line breaks do not count. -/
def addSpace (c : Char) : Gap → Gap
  | .none => .spaces [c]
  | .spaces reversed => .spaces (c :: reversed)
  | gap => gap

def addBreak (c : Char) : Gap → Gap
  | .breaks escaped reversed => .breaks escaped (c :: reversed)
  | _ => .breaks false [c]

def hasBreak : Gap → Bool
  | .breaks _ _ => true
  | _ => false

end Gap

end FrontToc.Yaml
