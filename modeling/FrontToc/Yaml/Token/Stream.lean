import FrontToc.Yaml.Token.Block
import FrontToc.Yaml.Token.Mark

/-!
The tokens of a whole text. Outside flow collections the indentation opens and closes block
collections. That a text was a mapping key shows only at the colon after it, so every token carries
a mark that can still be set later.
-/
namespace FrontToc.Yaml.Token

/-- What stands before a token because of a colon found later: it begins a key, and maybe a block
mapping. -/
inductive KeyMark where
  | none
  | key
  | firstKey
deriving DecidableEq, Repr

structure Lexeme where
  token : Token
  mark : KeyMark := .none
deriving DecidableEq, Repr

def Lexeme.tokens (l : Lexeme) : List Token :=
  match l.mark with
  | .none => [l.token]
  | .key => [.key, l.token]
  | .firstKey => [.blockMappingStart, .key, l.token]

/-- A token that begins a key if a colon comes soon enough, by the number of its lexeme. If it is
`required` the text is wrong without the colon. -/
structure KeyCandidate where
  index : Nat
  line : Nat
  column : Nat
  required : Bool
deriving DecidableEq, Repr

/-- The longest distance between the start of a key and its colon in one line. -/
def longestKey : Nat := 1024

/-- The state of reading tokens. The columns of the open block collections are in `indents`, the
innermost first, and in `outer` the candidates of the levels outside, the nearest first. -/
structure Scan where
  cursor : Cursor
  lexemes : Array Lexeme
  indents : List Nat
  candidate : Option KeyCandidate
  outer : List (Option KeyCandidate)
  keyAllowed : Bool
deriving Repr

namespace Scan

def start (text : List Char) : Scan :=
  { cursor := ⟨text, 0, 0⟩, lexemes := #[], indents := [], candidate := none, outer := []
    keyAllowed := true }

def inFlow (s : Scan) : Bool :=
  !s.outer.isEmpty

/-- One more than the column of the innermost block collection; zero outside of all. -/
def leastIndent (s : Scan) : Nat :=
  match s.indents with
  | [] => 0
  | i :: _ => i + 1

def push (s : Scan) (token : Token) (cursor : Cursor) : Scan :=
  { s with lexemes := s.lexemes.push { token }, cursor }

/-- Skips spaces, comments and line breaks up to the next token. A tab is space only where no key may
begin. A line break outside flow collections allows a key. -/
def skipSpace (inFlow keyAllowed comment : Bool) (line column : Nat) : List Char → Cursor × Bool
  | [] => (⟨[], line, column⟩, keyAllowed)
  | c :: rest =>
    if isBreak c then skipSpace inFlow (keyAllowed || !inFlow) false (line + 1) 0 rest
    else if comment then skipSpace inFlow keyAllowed true line (column + 1) rest
    else if c = byteOrderMark && column = 0 then
      skipSpace inFlow keyAllowed false line (column + 1) rest
    else if c = ' ' || (c = '\t' && (inFlow || !keyAllowed)) then
      skipSpace inFlow keyAllowed false line (column + 1) rest
    else if c = '#' then skipSpace inFlow keyAllowed true line (column + 1) rest
    else (⟨c :: rest, line, column⟩, keyAllowed)

/-- Gives a candidate up once its line has ended or the key would be too long. -/
def KeyCandidate.expire (at_ : Cursor) : Option KeyCandidate → Option (Option KeyCandidate)
  | none => some none
  | some k =>
    if k.line < at_.line || k.column + longestKey < at_.column then
      if k.required then none else some none
    else some (some k)

def expireKeys (s : Scan) : Option Scan := do
  let candidate ← KeyCandidate.expire s.cursor s.candidate
  let outer ← s.outer.mapM (KeyCandidate.expire s.cursor)
  return { s with candidate, outer }

def dropKey (s : Scan) : Option Scan :=
  match s.candidate with
  | some k => if k.required then none else some { s with candidate := none }
  | none => some s

/-- Notes that the next token may begin a key. A token at the column of the innermost block
collection has to. -/
def saveKey (s : Scan) : Option Scan :=
  if s.keyAllowed then
    (s.dropKey).map fun s =>
      { s with
        candidate := some
          { index := s.lexemes.size, line := s.cursor.line, column := s.cursor.column
            required := !s.inFlow && s.indents.head? = some s.cursor.column } }
  else some s

/-- The open block collections and the ones that a text at `column` closes. -/
def splitIndents (column : Nat) : List Nat → Nat × List Nat
  | [] => (0, [])
  | i :: rest =>
    if column < i then
      let (n, kept) := splitIndents column rest
      (n + 1, kept)
    else (0, i :: rest)

def pushEnds (s : Scan) : Nat → Scan
  | 0 => s
  | n + 1 => pushEnds (s.push .blockEnd s.cursor) n

def unindent (s : Scan) (column : Nat) : Scan :=
  if s.inFlow then s
  else
    let (n, kept) := splitIndents column s.indents
    { s.pushEnds n with indents := kept }

def unindentAll (s : Scan) : Scan :=
  if s.inFlow then s else { s.pushEnds s.indents.length with indents := [] }

def indent (s : Scan) (column : Nat) (token : Token) : Scan :=
  if !s.inFlow && s.leastIndent ≤ column then
    { s.push token s.cursor with indents := column :: s.indents }
  else s

/-- A document limit or directive: it ends every block collection. -/
def limit (s : Scan) (token : Token) (cursor : Cursor) : Option Scan :=
  (s.unindentAll.dropKey).map fun s => { s.push token cursor with keyAllowed := false }

def openFlow (s : Scan) (token : Token) : Option Scan :=
  (s.saveKey).map fun s =>
    { s.push token (s.cursor.skip 1) with
      candidate := none, outer := s.candidate :: s.outer, keyAllowed := true }

def closeFlow (s : Scan) (token : Token) : Option Scan :=
  (s.dropKey).map fun s =>
    let s' := { s.push token (s.cursor.skip 1) with keyAllowed := false }
    match s.outer with
    | [] => s'
    | candidate :: outer => { s' with candidate, outer }

def flowEntry (s : Scan) : Option Scan :=
  (s.dropKey).map fun s => { s.push .flowEntry (s.cursor.skip 1) with keyAllowed := true }

def blockEntry (s : Scan) : Option Scan :=
  if !s.inFlow && !s.keyAllowed then none
  else
    ((s.indent s.cursor.column .blockSequenceStart).dropKey).map fun s =>
      { s.push .blockEntry (s.cursor.skip 1) with keyAllowed := true }

def explicitKey (s : Scan) : Option Scan :=
  if !s.inFlow && !s.keyAllowed then none
  else
    ((s.indent s.cursor.column .blockMappingStart).dropKey).map fun s =>
      { s.push .key (s.cursor.skip 1) with keyAllowed := !s.inFlow }

/-- A colon before a value. If a candidate is open it becomes the key. -/
def valueMark (s : Scan) : Option Scan :=
  match s.candidate with
  | some k =>
    let opens := !s.inFlow && s.leastIndent ≤ k.column
    let mark := if opens then KeyMark.firstKey else .key
    let s := { s with
      lexemes := s.lexemes.modify k.index fun l => { l with mark }
      indents := if opens then k.column :: s.indents else s.indents
      candidate := none, keyAllowed := false }
    some (s.push .value (s.cursor.skip 1))
  | none =>
    if !s.inFlow && !s.keyAllowed then none
    else
      let s := s.indent s.cursor.column .blockMappingStart
      some { s.push .value (s.cursor.skip 1) with keyAllowed := !s.inFlow }

def node (s : Scan) (read : Cursor → Option Marked) : Option Scan := do
  let s ← s.saveKey
  let found ← read s.cursor
  return { s.push found.token found.cursor with keyAllowed := false }

/-- A plain scalar. If a line break was read after it, a key may begin there. -/
def plain (s : Scan) : Option Scan := do
  let s ← s.saveKey
  let (found, broke) ← readPlain s.inFlow s.leastIndent s.cursor
  return { s.push (.scalar true found.text) found.cursor with keyAllowed := broke }

def block (s : Scan) (folded : Bool) : Option Scan := do
  let s ← s.dropKey
  let found ← readBlock folded s.leastIndent s.cursor
  return { s.push (.scalar false found.text) found.cursor with keyAllowed := true }

def quotedToken (read : Cursor → Option Read) (c : Cursor) : Option Marked :=
  (read c).map fun r => ⟨.scalar false r.text, r.cursor⟩

def nameToken (token : List Char → Token) (c : Cursor) : Option Marked :=
  (readName c).map fun (name, end_) => ⟨token name, end_⟩

def isMark (c : Char) : Bool :=
  c ∈ "-?:,[]\x7b\x7d#&*!|>'\"%@\x60".toList

/-- Whether a plain scalar can begin with `c` before `rest`. Of the marks, a hyphen can before text,
and so can a question mark and a colon outside flow collections. -/
def startsPlain (inFlow : Bool) (c : Char) (rest : List Char) : Bool :=
  (!isSpace c && !isMark c) || (c = '-' && !rest.head?.any isSpace)
    || (!inFlow && (c = '?' || c = ':') && !atGap rest)

def dispatch (s : Scan) (c : Char) (rest : List Char) : Option Scan :=
  if s.cursor.column = 0 && c = '%' then
    match s.unindentAll.dropKey with
    | none => none
    | some s => (readDirective s.cursor).map fun found =>
        { s.push found.token found.cursor with keyAllowed := false }
  else if s.cursor.atDocumentMark '-' then s.limit .documentStart (s.cursor.skip 3)
  else if s.cursor.atDocumentMark '.' then s.limit .documentEnd (s.cursor.skip 3)
  else if c = '[' then s.openFlow .flowSequenceStart
  else if c = '\x7b' then s.openFlow .flowMappingStart
  else if c = ']' then s.closeFlow .flowSequenceEnd
  else if c = '\x7d' then s.closeFlow .flowMappingEnd
  else if c = ',' then s.flowEntry
  else if c = '-' && atGap rest then s.blockEntry
  else if c = '?' && (s.inFlow || atGap rest) then s.explicitKey
  else if c = ':' && (s.inFlow || atGap rest) then s.valueMark
  else if c = '*' then s.node (nameToken .alias)
  else if c = '&' then s.node (nameToken .anchor)
  else if c = '!' then s.node (readTag s.inFlow)
  else if c = '|' && !s.inFlow then s.block false
  else if c = '>' && !s.inFlow then s.block true
  else if c = '\'' then s.node (quotedToken readSingle)
  else if c = '"' then s.node (quotedToken readDouble)
  else if startsPlain s.inFlow c rest then s.plain
  else none

/-- The state at the next token: space is skipped, old candidates are given up, and block collections
are closed that the column does not belong to. -/
def advance (s : Scan) : Option Scan :=
  let (cursor, keyAllowed) :=
    skipSpace s.inFlow s.keyAllowed false s.cursor.line s.cursor.column s.cursor.rest
  (expireKeys { s with cursor, keyAllowed }).map fun s => s.unindent s.cursor.column

/-- Reads tokens to the end of the text. Each takes a character at least, so `fuel` need not be more
than the length of the text and one. -/
def run : (fuel : Nat) → Scan → Option Scan
  | 0, _ => none
  | fuel + 1, s =>
    match s.advance with
    | none => none
    | some s =>
      match s.cursor.rest with
      | [] => s.unindentAll.dropKey
      | c :: rest => (s.dispatch c rest).bind (run fuel)

end Scan

def ofText? (text : List Char) : Option (List Token) :=
  ((Scan.start text).run (text.length + 1)).map fun s => s.lexemes.toList.flatMap Lexeme.tokens

end FrontToc.Yaml.Token
