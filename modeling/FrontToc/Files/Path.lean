import FrontToc.Text.Search

/-!
Paths, as they are written. What a path leads to is for the file tree to say; here is what its text
tells alone.
-/
namespace FrontToc

open Text

/-- A path: names with slashes between them. -/
abbrev Path := List Char

namespace Path

def pieces (p : Path) : List (List Char) :=
  splitOnChar '/' p

def isAbsolute (p : Path) : Bool :=
  p.head? == some '/'

def join (p : Path) (name : List Char) : Path :=
  if p.isEmpty || p.getLast? == some '/' then p ++ name else p ++ '/' :: name

/-- Whether a piece leads nowhere: two slashes in a row, or a dot between slashes. -/
def isIdle (piece : List Char) : Bool :=
  piece.isEmpty || piece == ['.']

def dropIdleEnd (ps : List (List Char)) : List (List Char) :=
  (ps.reverse.dropWhile isIdle).reverse

/-- Pieces with slashes between them. A single empty piece is the root. -/
def ofPieces (ps : List (List Char)) : Path :=
  if ps = [[]] then ['/'] else List.intercalate ['/'] ps

/-- A path without its last name. A leading dot counts as a name if there is no other. -/
def parent? (p : Path) : Option Path :=
  match pieces p with
  | [] => none
  | first :: rest =>
    if p.isEmpty then none
    else
      let start := if isIdle first then [first] else []
      match dropIdleEnd (if isIdle first then rest else first :: rest) with
      | [] => if first.isEmpty then none else some []
      | names => some (ofPieces (start ++ dropIdleEnd names.dropLast))

/-- The directory that a path names a file in. A path of one name is in the working directory. -/
def directory (p : Path) : Path :=
  match parent? p with
  | none => ['.']
  | some [] => ['.']
  | some d => d

/-- The place of a name among others: the way up comes first, then names by their characters. -/
def nameKey (piece : List Char) : List Nat :=
  if piece = ['.', '.'] then [2] else 3 :: piece.map Char.toNat

/-- The names of a path in a form that can be compared. Idle pieces do not count, except for a root
or a dot that the path starts with. -/
def key (p : Path) : List (List Nat) :=
  match pieces p with
  | [] => []
  | first :: rest =>
    let start :=
      if p.isEmpty then [] else if first.isEmpty then [[0]] else if first = ['.'] then [[1]]
      else [nameKey first]
    start ++ (rest.filter fun piece => !isIdle piece).map nameKey

def le (p q : Path) : Bool :=
  (compare p.key q.key).isLE

end Path

end FrontToc
