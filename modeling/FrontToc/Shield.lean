import FrontToc.Fence
import FrontToc.Text.Digits
import FrontToc.Text.Search

/-!
Shielding: each fenced block of a text is replaced by a placeholder, so that its lines cannot be
taken for headings, and put back afterwards. Placeholders are drawn from a supply of ids; one that
occurs in the text is passed over.
-/
namespace FrontToc

open Text

def placeholderStart : List Char :=
  "CODE_BLOCK_".toList

/-- An endless supply of ids for placeholders. -/
abbrev IdSupply := Nat → List Char

/-- Ids of 32 hexadecimal digits, counted up from zero. -/
def IdSupply.counted : IdSupply :=
  fun n => padZeros 32 (hexDigits n)

def IdSupply.placeholder (ids : IdSupply) (n : Nat) : List Char :=
  placeholderStart ++ ids n

/-- The number of the first id from `n` on whose placeholder does not occur in `text`. After `fuel`
ids that occur the search ends: a text has no room for more placeholders than it has characters. -/
def IdSupply.fresh (ids : IdSupply) (text : List Char) : (fuel n : Nat) → Nat
  | 0, n => n
  | fuel + 1, n => if occursIn (ids.placeholder n) text then fresh ids text fuel (n + 1) else n

/-- A text whose blocks are replaced by placeholders; `blocks` holds each with the block it stands for,
in the order of the text. -/
structure Shielded where
  text : List Char
  blocks : List (List Char × List Char)
deriving DecidableEq, Repr

namespace Shielded

/-- Pieces with a placeholder for each block, drawn from the `n`-th id on and avoiding `source`. -/
def draw (ids : IdSupply) (source : List Char) : (n : Nat) → List Piece → List (Piece × List Char)
  | _, [] => []
  | n, .outside t :: rest => (.outside t, t) :: draw ids source n rest
  | n, .block t :: rest =>
    let k := ids.fresh source source.length n
    (.block t, ids.placeholder k) :: draw ids source (k + 1) rest

def blockOf? : Piece × List Char → Option (List Char × List Char)
  | (.outside _, _) => none
  | (.block t, placeholder) => some (placeholder, t)

/-- Puts the blocks back into any text that holds their placeholders, one block after the other. -/
def restore (s : Shielded) (text : List Char) : List Char :=
  s.blocks.foldl (fun t (placeholder, block) => replaceAll placeholder block t) text

end Shielded

def shield (ids : IdSupply) (text : List Char) : Shielded :=
  let drawn := Shielded.draw ids text 0 (pieces text)
  { text := drawn.flatMap (·.2), blocks := drawn.filterMap Shielded.blockOf? }

end FrontToc
