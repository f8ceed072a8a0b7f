import FrontToc.Text.Blank
import FrontToc.Text.Lines

/-!
Fenced code blocks. A fence is a line of at most three spaces and three or more backticks or tildes.
A block runs from an opening fence to the first later line that holds at least as many of the same
character and no other text, or to the end of the text.
-/
namespace FrontToc

open Text

/-- The fence that opened a block. -/
structure Fence where
  marker : Char
  length : Nat
deriving DecidableEq, Repr

namespace Fence

/-- The line without its indentation, if that is at most three spaces. -/
def unindent? (line : List Char) : Option (List Char) :=
  let rest := line.dropWhile (· = ' ')
  if line.length - rest.length ≤ 3 then some rest else none

/-- The fence that a line opens. The text after backticks may hold no further backtick. -/
def opening? (line : List Char) : Option Fence :=
  match unindent? line with
  | some (c :: rest) =>
    let run := (c :: rest).takeWhile (· = c)
    let info := (c :: rest).drop run.length
    if (c = '\x60' ∨ c = '~') ∧ 3 ≤ run.length ∧ ¬(c = '\x60' ∧ '\x60' ∈ info) then
      some { marker := c, length := run.length }
    else none
  | _ => none

def closes (fence : Fence) (line : List Char) : Bool :=
  match unindent? line with
  | none => false
  | some rest =>
    let run := rest.takeWhile (· = fence.marker)
    fence.length ≤ run.length && isBlankText (rest.drop run.length)

end Fence

/-- A stretch of a text: a line outside every block, or a block. The line ending after a closing
fence is no part of the block and stands for itself. -/
inductive Piece where
  | outside (text : List Char)
  | block (text : List Char)
deriving DecidableEq, Repr

def Piece.text : Piece → List Char
  | .outside t => t
  | .block t => t

/-- The pieces of the given lines. `inside` is the open fence, if there is one, with the text of its
block so far. -/
def piecesFrom : (inside : Option (Fence × List Char)) → List (List Char) → List Piece
  | none, [] => []
  | some (_, block), [] => [.block block]
  | none, line :: rest =>
    match Fence.opening? (trimLineEnd line) with
    | some fence => piecesFrom (some (fence, line)) rest
    | none => .outside line :: piecesFrom none rest
  | some (fence, block), line :: rest =>
    if fence.closes (trimLineEnd line) then
      .block (block ++ trimLineEnd line) :: .outside (lineEnd line) :: piecesFrom none rest
    else piecesFrom (some (fence, block ++ line)) rest

def pieces (text : List Char) : List Piece :=
  piecesFrom none (splitLines text)

end FrontToc
