import FrontToc.Text.Digits
import FrontToc.Text.Lines
import FrontToc.Yaml.Chars
import FrontToc.Yaml.Plain

/-!
How a scalar is written: without quotes where that reads back as the same string, else in single
quotes, in double quotes with escapes, or as the indented lines of a literal.
-/
namespace FrontToc.Yaml

open Text

inductive Style where
  | plain
  | single
  | double
  | literal
deriving DecidableEq, Repr

namespace Style

def isLineBreak (c : Char) : Bool :=
  isBreak c || c = '\r' || c = '\x85'

def isPlainChar (c : Char) : Bool :=
  let n := c.toNat
  n = 0x0A || (0x20 ≤ n && n ≤ 0x7E) || (0xA0 ≤ n && n ≤ 0xFFFD && n ≠ 0xFEFF) || 0x10000 ≤ n

def beforeGap : List Char → Bool
  | [] => true
  | c :: _ => isSpace c || isLineBreak c

/-- Whether some neighbours in `s` satisfy `p` and `q`. -/
def hasPair (p q : Char → Bool) : List Char → Bool
  | c :: d :: rest => (p c && q d) || hasPair p q (d :: rest)
  | _ => false

/-- Whether a mark inside `s` would end a text without quotes: a colon before a gap or a hash after
one. -/
def hasInnerMark : (previous : Char) → List Char → Bool
  | _, [] => false
  | previous, c :: rest =>
    (c = ':' && beforeGap rest) || (c = '#' && (isSpace previous || isLineBreak previous))
      || hasInnerMark c rest

/-- Whether `s` starts or goes on like something else than a text without quotes. -/
def hasMark (s : List Char) : Bool :=
  match s with
  | [] => false
  | c :: rest =>
    (s.take 3 = ['-', '-', '-'] || s.take 3 = ['.', '.', '.'])
      || c ∈ "#,[]\x7b\x7d&*!|>'\"%@\x60".toList
      || ((c = '?' || c = ':' || c = '-') && beforeGap rest)
      || hasInnerMark c rest

def atEnds (p : Char → Bool) (s : List Char) : Bool :=
  s.head?.any p || s.getLast?.any p

/-- Whether every character may stand outside double quotes, and no line ends in a space. -/
def isTidy (s : List Char) : Bool :=
  s.all isPlainChar && !hasPair (· = ' ') isLineBreak s

def allowsPlain (s : List Char) : Bool :=
  isTidy s && !s.any isLineBreak && !atEnds (· = ' ') s && !hasMark s

def allowsSingle (s : List Char) : Bool :=
  isTidy s && !hasPair isLineBreak (· = ' ') s

def allowsLiteral (s : List Char) : Bool :=
  isTidy s && !s.isEmpty && s.getLast? ≠ some ' '

/-- Whether `s` without quotes would be taken for something else than a string: by this library's
reader, or by one that ignores case or takes digits after a zero for a number. -/
def isAmbiguous (s : List Char) : Bool :=
  let low := s.map Char.toLower
  Plain.isOther s || Plain.isNull low || (Plain.bool? low).isSome || Plain.hasLeadingZero s

/-- The style of a string. A string with a line feed is written as a literal if it can be. -/
def ofString (s : List Char) : Style :=
  if '\n' ∈ s then if allowsLiteral s then .literal else .double
  else if allowsPlain s && !isAmbiguous s then .plain
  else if allowsSingle s then .single
  else .double

end Style

def spaces (n : Nat) : List Char :=
  List.replicate n ' '

def escapeLetter? (c : Char) : Option Char :=
  match c with
  | '\x00' => some '0'
  | '\x07' => some 'a'
  | '\x08' => some 'b'
  | '\t' => some 't'
  | '\n' => some 'n'
  | '\x0b' => some 'v'
  | '\x0c' => some 'f'
  | '\r' => some 'r'
  | '\x1b' => some 'e'
  | '"' => some '"'
  | '\\' => some '\\'
  | '\x85' => some 'N'
  | '\xa0' => some '_'
  | '\u2028' => some 'L'
  | '\u2029' => some 'P'
  | _ => none

def doubleChar (c : Char) : List Char :=
  if Style.isPlainChar c && !Style.isLineBreak c && c ≠ '"' && c ≠ '\\' then [c]
  else match escapeLetter? c with
    | some letter => ['\\', letter]
    | none =>
      let digits := upperHexDigits c.toNat
      if c.toNat ≤ 0xFF then '\\' :: 'x' :: padZeros 2 digits
      else if c.toNat ≤ 0xFFFF then '\\' :: 'u' :: padZeros 4 digits
      else '\\' :: 'U' :: padZeros 8 digits

def doubleText (s : List Char) : List Char :=
  '"' :: s.flatMap doubleChar ++ ['"']

/-- The inside of single quotes and the closing quote; after line breaks the text is indented. -/
def singleBody (indent : Nat) (atStart : Bool) : List Char → List Char
  | [] => (if atStart then spaces indent else []) ++ ['\'']
  | c :: rest =>
    if Style.isLineBreak c then c :: singleBody indent true rest
    else if c = ' ' then c :: singleBody indent atStart rest
    else
      (if atStart then spaces indent else []) ++ (if c = '\'' then ['\'', '\''] else [c])
        ++ singleBody indent false rest

def singleText (indent : Nat) (s : List Char) : List Char :=
  '\'' :: singleBody indent false s

/-- The lines of a literal; every line that is not empty is indented. -/
def literalBody (indent : Nat) (atStart : Bool) : List Char → List Char
  | [] => []
  | c :: rest =>
    if Style.isLineBreak c then c :: literalBody indent true rest
    else (if atStart then spaces indent else []) ++ c :: literalBody indent false rest

/-- The sign for the line breaks at the end: none is `-`, one is nothing, and more are `+`. -/
def chompText (s : List Char) : List Char :=
  match s.reverse with
  | [] => ['-']
  | last :: before =>
    if !Style.isLineBreak last then ['-']
    else match before with
      | [] => ['+']
      | c :: _ => if Style.isLineBreak c then ['+'] else []

/-- The first line of a literal. A text that starts with a space or a line break needs its indentation
told. -/
def literalHead (s : List Char) : List Char :=
  '|' :: (if s.head?.any fun c => c = ' ' || Style.isLineBreak c then ['2'] else []) ++ chompText s

def literalText (indent : Nat) (s : List Char) : List Char :=
  literalHead s ++ '\n' :: literalBody indent true s

def stringText (indent : Nat) (s : List Char) : List Char :=
  match Style.ofString s with
  | .plain => s
  | .single => singleText indent s
  | .double => doubleText s
  | .literal => literalText indent s

end FrontToc.Yaml
