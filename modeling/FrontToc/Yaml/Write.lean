import FrontToc.Number.Shortest
import FrontToc.Yaml.Style

/-!
Writing a mapping as YAML in block style. Entries and items stand on lines of their own, a sequence
in a mapping is not indented, and only empty collections are written in brackets.
-/
namespace FrontToc.Yaml

open Text

/-- Floating point numbers with up to sixteen digits before the point, or four zeros after it, are
written in full. -/
def floatLayout : Binary64.Layout where
  leastPoint := -5
  mostPoint := 16

def floatText (x : Binary64) : List Char :=
  if x.isNaN then ".nan".toList
  else if x.isInfinite then if x.isNegative then "-.inf".toList else ".inf".toList
  else Binary64.finiteText floatLayout x

def intText (n : Int) : List Char :=
  (if n < 0 then ['-'] else []) ++ decimal n.natAbs

namespace Tag

def fullText (t : Tag) : List Char :=
  match t.name with
  | '!' :: _ => t.name
  | name => '!' :: name

def isSafeChar (c : Char) : Bool :=
  isNameChar c || c ∈ ";/?:@&=+$,.~*'()[]".toList

def escapeChar (c : Char) : List Char :=
  if isSafeChar c then [c]
  else (String.utf8EncodeChar c).flatMap fun b => '%' :: padZeros 2 (upperHexDigits b.toNat)

/-- A tag as written. The lone exclamation mark has to stand between angle brackets. -/
def written (t : Tag) : List Char :=
  match t.fullText with
  | [c] => ['!', '<'] ++ escapeChar c ++ ['>']
  | s => '!' :: (s.drop 1).flatMap escapeChar

end Tag

/-- The longest key, in bytes with its tag, that is written before a colon in one line. -/
def longestSimpleKey : Nat := 128

/-- A value that fits into one line, as written, and its length without quotes and escapes. -/
def inlineText? : Value → Option (List Char × Nat)
  | .null => some ("null".toList, 4)
  | .bool b => let s := (if b then "true" else "false").toList; some (s, s.length)
  | .int n => some (intText n, (intText n).length)
  | .float x => some (floatText x, (floatText x).length)
  | .str s => if s.any Style.isLineBreak then none else some (stringText 0 s, byteLength s)
  | .seq [] => some (['[', ']'], 0)
  | .map [] => some (['\x7b', '\x7d'], 0)
  | .seq _ => none
  | .map _ => none
  | .tagged t v =>
    (inlineText? v).map fun (s, n) => (t.written ++ ' ' :: s, byteLength t.fullText + n)

def simpleKey? (key : Value) : Option (List Char) :=
  match inlineText? key with
  | some (s, n) => if n ≤ longestSimpleKey then some s else none
  | none => none

def endLine (s : List Char) : List Char :=
  if s.getLast?.any Style.isLineBreak then s else s ++ ['\n']

def scalarText (indent : Nat) : Value → List Char
  | .null => "null".toList
  | .bool b => (if b then "true" else "false").toList
  | .int n => intText n
  | .float x => floatText x
  | .str s => stringText indent s
  | _ => []

/-- What comes before the first member of a collection: a space if it goes on in the line of its mark,
else a new line. -/
def memberLead (compact : Bool) (indent : Nat) : List Char :=
  if compact then [' '] else '\n' :: spaces indent

mutual

/-- The text of a value after a hyphen, a question mark or a colon, to the end of its last line.
`indent` is the indentation of the collection it belongs to, and `compact` says whether a collection
may begin in the line of the mark. -/
def nodeText (indent : Nat) (inMapping compact : Bool) : Value → List Char
  | .tagged t v => ' ' :: t.written ++ nodeText indent inMapping false v
  | .seq [] => [' ', '[', ']', '\n']
  | .seq (item :: items) =>
    let inner := if inMapping && !compact then indent else indent + 2
    memberLead compact inner ++ '-' :: nodeText inner false true item ++ itemsText inner items
  | .map [] => [' ', '\x7b', '\x7d', '\n']
  | .map entries => entriesText (indent + 2) (memberLead compact (indent + 2)) entries
  | v => ' ' :: endLine (scalarText (indent + 2) v)

def itemsText (indent : Nat) : List Value → List Char
  | [] => []
  | item :: items =>
    spaces indent ++ '-' :: nodeText indent false true item ++ itemsText indent items

/-- Entries of a mapping, each on lines of its own; `lead` comes before the first. A key that does not
fit before a colon is written after a question mark. -/
def entriesText (indent : Nat) (lead : List Char) : List (Value × Value) → List Char
  | [] => []
  | (key, value) :: entries =>
    let entry := match simpleKey? key with
      | some s => s ++ ':' :: nodeText indent true false value
      | none =>
        '?' :: nodeText indent true true key ++ spaces indent
          ++ ':' :: nodeText indent true true value
    lead ++ entry ++ entriesText indent (spaces indent) entries

end

namespace Value

def isTagged : Value → Bool
  | .tagged _ _ => true
  | _ => false

/-- Whether a key can begin a mapping of one entry that has no tag. -/
def beginsSoleEntry : Value → Bool
  | .tagged _ _ => false
  | .map [_] => false
  | _ => true

mutual

/-- Whether a value can be written. It cannot if a tag follows on a tag, or if the only key of a
mapping without a tag is tagged or again a mapping of one entry; `bare` says that no tag is before
the value. -/
def isWritable (bare : Bool) : Value → Bool
  | .tagged _ v => !v.isTagged && isWritable false v
  | .seq items => areWritable items
  | .map [(k, v)] => (!bare || k.beginsSoleEntry) && isWritable true k && isWritable true v
  | .map entries => entriesWritable entries
  | _ => true

def areWritable : List Value → Bool
  | [] => true
  | v :: rest => isWritable true v && areWritable rest

def entriesWritable : List (Value × Value) → Bool
  | [] => true
  | (k, v) :: rest => isWritable true k && isWritable true v && entriesWritable rest

end

end Value

def Mapping.text (m : Mapping) : List Char :=
  if m.isEmpty then ['\x7b', '\x7d', '\n'] else entriesText 0 [] m

def write? (m : Mapping) : Option (List Char) :=
  if Value.isWritable true (.map m) then some m.text else none

end FrontToc.Yaml
