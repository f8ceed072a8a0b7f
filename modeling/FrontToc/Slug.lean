import FrontToc.Text.Alphanumeric
import FrontToc.Text.Blank
import FrontToc.Text.Digits
import FrontToc.Text.LowerCase

/-!
Slugs: the anchor text derived from a heading title. A slug is lower case, holds letters, digits,
underscores and hyphens only, and neither starts nor ends with a hyphen. A `Slugger` remembers the ids
handed out in one document and how many suffixes it has tried for each, so that in `suffix` mode no
derived slug repeats an earlier id.
-/
namespace FrontToc

open Text

/-- Characters of a title that take part in its slug: a letter, digit, underscore or hyphen is kept
and a blank parts words. -/
def Slug.keeps (c : Char) : Bool :=
  isAlphanumeric c || c = '_' || c = '-' || isBlank c

/-- The slug of a title: its lower case without punctuation, each run of blanks turned into one
hyphen, without hyphens at the ends. -/
def slugify (title : List Char) : List Char :=
  trimWhile (· = '-') <|
    List.intercalate ['-'] (words ((lowerCase title).filter Slug.keeps))

/-- What to do when two headings of one document have the same slug: leave the slugs equal, or tell
repeats apart by a numbered suffix. -/
inductive DuplicateSlugs where
  | keep
  | suffix
deriving DecidableEq, Repr

/-- The ids of one document. `counts` holds each id that is taken, with the number of suffixes tried
for it; of two entries for one id the first counts. -/
structure Slugger where
  mode : DuplicateSlugs
  counts : List (List Char × Nat)
deriving DecidableEq, Repr

namespace Slugger

def new (mode : DuplicateSlugs) : Slugger :=
  { mode, counts := [] }

def taken (s : Slugger) (id : List Char) : Bool :=
  (s.counts.lookup id).isSome

def suffixed (base : List Char) (k : Nat) : List Char :=
  base ++ '-' :: decimal k

/-- The first number above `k` whose suffix is free, within `fuel` tries. -/
def freeSuffix (s : Slugger) (base : List Char) : (fuel k : Nat) → Nat
  | 0, k => k + 1
  | fuel + 1, k => if s.taken (suffixed base (k + 1)) then freeSuffix s base fuel (k + 1) else k + 1

/-- A free id for `base`: `base` itself, or else the next suffix that no id has. As many tries as
there are ids are enough, and one more finds a free one. -/
def unique (s : Slugger) (base : List Char) : List Char × Slugger :=
  match s.counts.lookup base with
  | none => (base, { s with counts := (base, 0) :: s.counts })
  | some k =>
    let k' := s.freeSuffix base s.counts.length k
    let id := suffixed base k'
    (id, { s with counts := (id, 0) :: (base, k') :: s.counts })

def slug (s : Slugger) (title : List Char) : List Char × Slugger :=
  match s.mode with
  | .keep => (slugify title, s)
  | .suffix => s.unique (slugify title)

/-- Takes an id that the document gives itself. It is never changed, and an id that is taken already
keeps its count. -/
def reserve (s : Slugger) (id : List Char) : List Char × Slugger :=
  match s.mode with
  | .keep => (id, s)
  | .suffix => (id, if s.taken id then s else { s with counts := (id, 0) :: s.counts })

end Slugger

end FrontToc
