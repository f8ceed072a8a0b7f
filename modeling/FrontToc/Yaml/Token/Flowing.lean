import FrontToc.Yaml.Token

/-!
Scalars that flow over lines: without quotes, in single quotes and in double quotes. In all three a
gap with line breaks is folded.
-/
namespace FrontToc.Yaml.Token

structure Read where
  text : List Char
  cursor : Cursor
deriving DecidableEq, Repr

/-- A scalar without quotes. It ends before a colon that a gap follows, a comment, a document limit, a
line that is not indented to `least`, and within flow collections before their marks. `text` holds
what has been read, the last character first. The answer also says whether a line break was read
after the text. -/
def plainFrom (flow : Bool) (least : Nat) (line column : Nat) (text : List Char) (gap : Gap) :
    List Char → Option (Read × Bool)
  | [] => some (⟨text.reverse, ⟨[], line, column⟩⟩, gap.hasBreak)
  | c :: rest =>
    if isSpace c then
      if gap.hasBreak && column < least && c = '\t' then none
      else plainFrom flow least line (column + 1) text (gap.addSpace c) rest
    else if isBreak c then plainFrom flow least (line + 1) 0 text (gap.addBreak c) rest
    else
      let here : Cursor := ⟨c :: rest, line, column⟩
      let stopsAfterGap := gap ≠ .none ∧
        ((!flow && gap.hasBreak && column < least) || here.atDocumentLimit || c = '#')
      let endsKey := c = ':' && atGap rest
      let endsInFlow := flow && c ∈ [',', '[', ']', '\x7b', '\x7d']
      let unexpectedColon := flow && c = ':' &&
        match rest with
        | d :: _ => d ∈ [',', '?', '[', ']', '\x7b', '\x7d']
        | [] => false
      if stopsAfterGap then some (⟨text.reverse, here⟩, gap.hasBreak)
      else if unexpectedColon then none
      else if endsKey || endsInFlow then some (⟨text.reverse, here⟩, gap.hasBreak)
      else plainFrom flow least line (column + 1) (c :: gap.text.reverse ++ text) .none rest

/-- A scalar in single quotes, after the opening quote. A quote is written twice inside. -/
def singleFrom (line column : Nat) (text : List Char) (gap : Gap) : List Char → Option Read
  | [] => none
  | '\'' :: '\'' :: rest =>
    singleFrom line (column + 2) ('\'' :: gap.text.reverse ++ text) .none rest
  | '\'' :: rest => some ⟨text.reverse ++ gap.text, ⟨rest, line, column + 1⟩⟩
  | c :: rest =>
    if isSpace c then singleFrom line (column + 1) text (gap.addSpace c) rest
    else if isBreak c then singleFrom (line + 1) 0 text (gap.addBreak c) rest
    else if (Cursor.mk (c :: rest) line column).atDocumentLimit then none
    else singleFrom line (column + 1) (c :: gap.text.reverse ++ text) .none rest

/-- How far an escape in double quotes has been read: after the backslash, or in a number that has
`left + 1` digits to come. -/
inductive Escape where
  | none
  | opened
  | hex (left bits : Nat)
deriving DecidableEq, Repr

def escaped? : Char → Option Char
  | '0' => some '\x00'
  | 'a' => some '\x07'
  | 'b' => some '\x08'
  | 't' => some '\t'
  | '\t' => some '\t'
  | 'n' => some '\n'
  | 'v' => some '\x0b'
  | 'f' => some '\x0c'
  | 'r' => some '\r'
  | 'e' => some '\x1b'
  | ' ' => some ' '
  | '"' => some '"'
  | '/' => some '/'
  | '\\' => some '\\'
  | 'N' => some '\x85'
  | '_' => some '\xa0'
  | 'L' => some '\u2028'
  | 'P' => some '\u2029'
  | _ => none

/-- The number of hexadecimal digits after a letter, less one. -/
def hexDigitsAfter? : Char → Option Nat
  | 'x' => some 1
  | 'u' => some 3
  | 'U' => some 7
  | _ => none

def hexValue? (c : Char) : Option Nat :=
  if '0' ≤ c ∧ c ≤ '9' then some (c.toNat - 48)
  else if 'a' ≤ c ∧ c ≤ 'f' then some (c.toNat - 87)
  else if 'A' ≤ c ∧ c ≤ 'F' then some (c.toNat - 55)
  else none

def charOf? (n : Nat) : Option Char :=
  if n.isValidChar then some (Char.ofNat n) else none

/-- A scalar in double quotes, after the opening quote. An escaped line break is left out together
with the spaces after it. -/
def doubleFrom (line column : Nat) (text : List Char) (gap : Gap) (esc : Escape) :
    List Char → Option Read
  | [] => none
  | c :: rest =>
    match esc with
    | .hex left bits =>
      match hexValue? c with
      | none => none
      | some d =>
        match left with
        | left + 1 => doubleFrom line (column + 1) text gap (.hex left (bits * 16 + d)) rest
        | 0 =>
          match charOf? (bits * 16 + d) with
          | none => none
          | some x => doubleFrom line (column + 1) (x :: text) .none .none rest
    | .opened =>
      if isBreak c then doubleFrom (line + 1) 0 text (.breaks true []) .none rest
      else match escaped? c, hexDigitsAfter? c with
        | some x, _ => doubleFrom line (column + 1) (x :: text) .none .none rest
        | none, some left => doubleFrom line (column + 1) text .none (.hex left 0) rest
        | none, none => none
    | .none =>
      if c = '"' then some ⟨text.reverse ++ gap.text, ⟨rest, line, column + 1⟩⟩
      else if isSpace c then doubleFrom line (column + 1) text (gap.addSpace c) .none rest
      else if isBreak c then doubleFrom (line + 1) 0 text (gap.addBreak c) .none rest
      else if (Cursor.mk (c :: rest) line column).atDocumentLimit then none
      else if c = '\\' then
        doubleFrom line (column + 1) (gap.text.reverse ++ text) .none .opened rest
      else doubleFrom line (column + 1) (c :: gap.text.reverse ++ text) .none .none rest

def readPlain (flow : Bool) (least : Nat) (c : Cursor) : Option (Read × Bool) :=
  plainFrom flow least c.line c.column [] .none c.rest

def readSingle (c : Cursor) : Option Read :=
  singleFrom c.line (c.column + 1) [] .none (c.rest.drop 1)

def readDouble (c : Cursor) : Option Read :=
  doubleFrom c.line (c.column + 1) [] .none .none (c.rest.drop 1)

end FrontToc.Yaml.Token
