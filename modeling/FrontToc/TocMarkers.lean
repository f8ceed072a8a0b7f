import FrontToc.Heading
import FrontToc.Text.Blank
import FrontToc.Text.Digits
import FrontToc.Text.Lines
import FrontToc.Text.Search

/-!
Tables of contents in a comment: between a line `BEGIN_TOC` and a line `END_TOC` each row gives
title, slug and depth of a heading, parted by bars. The comment is taken out of the text.
-/
namespace FrontToc.TocMarkers

open Text

def commentStart : List Char := "<!--".toList

def commentEnd : List Char := "-->".toList

def firstLine : List Char := "BEGIN_TOC".toList

def lastLine : List Char := "END_TOC".toList

inductive RowFault where
  | notThreeFields
  | invalidDepth
deriving DecidableEq, Repr

def parseRow (row : List Char) : Except RowFault Heading :=
  match splitOnChar '|' row with
  | [title, slug, depth] =>
    match readByte? (trim depth) with
    | some d =>
      if 1 ≤ d ∧ d ≤ maxHeadingDepth then
        .ok { title := trimWhile (fun c => c = '-' || c = ' ') title, slug := trim slug, depth := d }
      else .error .invalidDepth
    | none => .error .invalidDepth
  | _ => .error .notThreeFields

/-- A table of contents found in a comment: the lines between the first and the last, and the text after
the comment. -/
structure Block where
  rows : List (List Char)
  rest : List Char
deriving DecidableEq, Repr

/-- The headings of the rows that give one, in order. -/
def Block.headings (b : Block) : List Heading :=
  b.rows.filterMap fun row => (parseRow row).toOption

/-- The rows that give no heading, with the reason, in order. -/
def Block.skipped (b : Block) : List (List Char × RowFault) :=
  b.rows.filterMap fun row =>
    match parseRow row with
    | .ok _ => none
    | .error fault => some (row, fault)

/-- The lines of a comment that are not blank, without blanks at their ends. -/
def commentLines (inner : List Char) : List (List Char) :=
  ((lines inner).map trim).filter (!·.isEmpty)

/-- The lines between the markers, if the first and the last line are markers. -/
def rows? (ls : List (List Char)) : Option (List (List Char)) :=
  match ls with
  | first :: second :: more =>
    if first = firstLine ∧ (second :: more).getLast? = some lastLine then
      some (second :: more).dropLast
    else none
  | _ => none

def parse? (text : List Char) : Option Block :=
  match splitAtFirst? commentStart text with
  | none => none
  | some (_, afterStart) =>
    match splitAtFirst? commentEnd afterStart with
    | none => none
    | some (inner, rest) => (rows? (commentLines inner)).map fun rows => { rows, rest }

end FrontToc.TocMarkers
