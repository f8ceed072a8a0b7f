import FrontToc.Text.Digits

/-!
Writing strings in TOML: in the first form that shows the text with the fewest escapes.
-/
namespace FrontToc.Toml

open Text

inductive StringForm where
  | basic
  | literal
  | multilineBasic
  | multilineLiteral
deriving DecidableEq, Repr

namespace StringForm

def needsCode (c : Char) : Bool :=
  c ≠ '\t' && c ≠ '\n' && (c.toNat < 0x20 || c.toNat = 0x7F)

/-- The length of the longest run of `c`; `run` is the length of the run before the text. -/
def longestRun (c : Char) (run : Nat) : List Char → Nat
  | [] => run
  | d :: rest => if d = c then longestRun c (run + 1) rest else max run (longestRun c 0 rest)

/-- The form of a string: double quotes if nothing has to be escaped, single quotes, and the same
over several lines; and where none of them shows the text as it is, double quotes with escapes. -/
def ofString (s : List Char) : StringForm :=
  let codes := s.any needsCode
  let escapes := '\\' ∈ s
  let breaks := '\n' ∈ s
  let doubles := longestRun '"' 0 s
  let singles := longestRun '\'' 0 s
  if !codes && !escapes && doubles = 0 && !breaks then .basic
  else if !codes && singles = 0 && !breaks then .literal
  else if !codes && !escapes && doubles ≤ 2 then .multilineBasic
  else if !codes && singles ≤ 2 then .multilineLiteral
  else if breaks then .multilineBasic
  else .basic

end StringForm

/-- An escape for a character, if it has to be written as one; a quote is treated apart. -/
def escape? (multiline : Bool) (c : Char) : Option (List Char) :=
  match c with
  | '\x08' => some ['\\', 'b']
  | '\t' => some ['\\', 't']
  | '\n' => if multiline then none else some ['\\', 'n']
  | '\x0c' => some ['\\', 'f']
  | '\r' => some ['\\', 'r']
  | '\\' => some ['\\', '\\']
  | _ =>
    if StringForm.needsCode c then some ('\\' :: 'u' :: padZeros 4 (upperHexDigits c.toNat)) else none

/-- The inside of double quotes; `run` counts the quotes right before the text. Over several lines
two quotes may follow on each other. -/
def basicBody (multiline : Bool) (run : Nat) : List Char → List Char
  | [] => []
  | c :: rest =>
    if c = '"' then
      if run < (if multiline then 2 else 0) then '"' :: basicBody multiline (run + 1) rest
      else '\\' :: '"' :: basicBody multiline 0 rest
    else match escape? multiline c with
      | some e => e ++ basicBody multiline 0 rest
      | none => c :: basicBody multiline 0 rest

/-- A string as written. A text with line breaks starts on a line of its own. -/
def stringText (s : List Char) : List Char :=
  let lead := if '\n' ∈ s then ['\n'] else []
  match StringForm.ofString s with
  | .basic => '"' :: basicBody false 0 s ++ ['"']
  | .literal => '\'' :: s ++ ['\'']
  | .multilineBasic => ['"', '"', '"'] ++ lead ++ basicBody true 0 s ++ ['"', '"', '"']
  | .multilineLiteral => ['\'', '\'', '\''] ++ lead ++ s ++ ['\'', '\'', '\'']

end FrontToc.Toml
