import FrontToc.Slug
import FrontToc.Text.Lines

/-!
Headings: entries of a table of contents, the options that choose them, and the lines of a text that
give them. A heading line has one to six hashes, spaces or tabs, and a title, which may end in an anchor
of the form `\x7b#id\x7d` set off by spaces or tabs. Every heading takes part in the choice of anchors,
also one that the options leave out, so the anchors agree with those of the whole page.
-/
namespace FrontToc

open Text

def maxHeadingDepth : Nat := 6

/-- One entry of a table of contents. The slug is the anchor to link to; depth 1 is the outermost. -/
structure Heading where
  title : List Char
  slug : List Char
  depth : Nat
deriving DecidableEq, Repr

structure HeadingOptions where
  minDepth : UInt8 := 1
  maxDepth : UInt8 := 6
  duplicateSlugs : DuplicateSlugs := .keep
deriving DecidableEq, Repr

namespace HeadingOptions

inductive Fault where
  | outOfRange (minDepth maxDepth : UInt8)
  | reversed (minDepth maxDepth : UInt8)
deriving DecidableEq, Repr

def Fault.message : Fault → String
  | .outOfRange lo hi =>
    s!"heading depths must lie within 1..={maxHeadingDepth} (got {lo.toNat}..={hi.toNat})"
  | .reversed lo hi => s!"min_depth ({lo.toNat}) must not exceed max_depth ({hi.toNat})"

/-- The first fault of the options: the depths have to satisfy `1 ≤ minDepth ≤ maxDepth ≤ 6`. -/
def fault? (o : HeadingOptions) : Option Fault :=
  if o.minDepth < 1 ∨ maxHeadingDepth < o.maxDepth.toNat then some (.outOfRange o.minDepth o.maxDepth)
  else if o.maxDepth < o.minDepth then some (.reversed o.minDepth o.maxDepth)
  else none

def includes (o : HeadingOptions) (depth : Nat) : Bool :=
  o.minDepth.toNat ≤ depth && depth ≤ o.maxDepth.toNat

end HeadingOptions

structure HeadingLine where
  depth : Nat
  title : List Char
  anchor : Option (List Char)
deriving DecidableEq, Repr

namespace HeadingLine

/-- Spaces and tabs, which set off the parts of a heading line. -/
def isGap (c : Char) : Bool :=
  c = ' ' || c = '\t'

/-- The id of an anchor that fills `s`: an opening brace and a hash, an id that holds no closing
brace and is not empty, the closing brace, and spaces or tabs up to the end. -/
def bracedId? : List Char → Option (List Char)
  | '\x7b' :: '#' :: s =>
    let id := s.takeWhile (· ≠ '\x7d')
    match s.drop id.length with
    | _ :: tail => if !id.isEmpty && tail.all isGap then some id else none
    | [] => none
  | _ => none

/-- The id of an anchor with the spaces or tabs before it, one at least. -/
def anchorAfterGap? (s : List Char) : Option (List Char) :=
  match s with
  | c :: _ => if isGap c then bracedId? (s.dropWhile isGap) else none
  | [] => none

/-- Splits the text of a heading at the first place where an anchor fills the rest. A line feed is
allowed inside the anchor only. -/
def splitAnchor? : List Char → Option (List Char × Option (List Char))
  | [] => some ([], none)
  | c :: cs =>
    match anchorAfterGap? (c :: cs) with
    | some id => some ([], some id)
    | none =>
      if c = '\n' then none
      else (splitAnchor? cs).map fun (title, anchor) => (c :: title, anchor)

/-- Takes a line apart; `none` for a line that is no heading and for a heading without a title. -/
def parse? (line : List Char) : Option HeadingLine :=
  let hashes := line.takeWhile (· = '#')
  let afterHashes := line.drop hashes.length
  let text := afterHashes.dropWhile isGap
  if 1 ≤ hashes.length ∧ hashes.length ≤ maxHeadingDepth ∧ text.length < afterHashes.length then
    match splitAnchor? text with
    | none => none
    | some (title, anchor) =>
      if (trim title).isEmpty then none
      else some { depth := hashes.length, title := trim title, anchor }
  else none

end HeadingLine

/-- The anchor of a heading line, and the ids taken after it. -/
def Slugger.anchor (s : Slugger) (line : HeadingLine) : List Char × Slugger :=
  match line.anchor with
  | some id => s.reserve id
  | none => s.slug line.title

/-- The headings of the given lines, in order, when `s` holds the ids taken before them. -/
def headingsFrom (s : Slugger) : List HeadingLine → List Heading
  | [] => []
  | line :: rest =>
    let (slug, s') := s.anchor line
    { title := line.title, slug, depth := line.depth } :: headingsFrom s' rest

def headingLines (text : List Char) : List HeadingLine :=
  (lines text).filterMap HeadingLine.parse?

def extractHeadings (text : List Char) (options : HeadingOptions) : List Heading :=
  (headingsFrom (Slugger.new options.duplicateSlugs) (headingLines text)).filter
    fun h => options.includes h.depth

end FrontToc
