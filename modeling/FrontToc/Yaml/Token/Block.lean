import FrontToc.Yaml.Token.Flowing

/-!
Block scalars: the lines below a bar (literal) or an angle bracket (folded) that are indented deeper
than what the scalar belongs to.
-/
namespace FrontToc.Yaml.Token

/-- What becomes of the line breaks at the end of a block scalar: none is kept, the first, or all. -/
inductive Chomp where
  | strip
  | clip
  | keep
deriving DecidableEq, Repr

/-- A line of the text and the break that ends it; only the last line of all may have none. -/
structure PhysicalLine where
  content : List Char
  ending : Option Char
deriving DecidableEq, Repr

def physicalLines : List Char → List PhysicalLine
  | [] => []
  | c :: cs =>
    if isBreak c then ⟨[], some c⟩ :: physicalLines cs
    else match physicalLines cs with
      | [] => [⟨[c], none⟩]
      | l :: ls => ⟨c :: l.content, l.ending⟩ :: ls

def PhysicalLine.join (ls : List PhysicalLine) : List Char :=
  ls.flatMap fun l => l.content ++ l.ending.toList

def leadingSpaces (s : List Char) : Nat :=
  (s.takeWhile (· = ' ')).length

/-- The indentation of a block scalar: that of its first line with text, but not less than `least` or
than a line of spaces before it. A tab is no indentation. -/
def blockIndent? : (least : Nat) → List PhysicalLine → Option Nat
  | least, [] => some least
  | least, l :: ls =>
    let n := leadingSpaces l.content
    let after := l.content.drop n
    if after.head? = some '\t' then none
    else if after.isEmpty && l.ending.isSome then blockIndent? (max least n) ls
    else some (max least n)

inductive BlockLine where
  | blank (ending : Char)
  | text (content : List Char) (ending : Option Char)
deriving DecidableEq, Repr

/-- The lines that belong to a block scalar of this indentation, and those after it, the first without
the `column` spaces that were read as its indentation. -/
structure BlockLines where
  inside : List BlockLine
  after : List PhysicalLine
  column : Nat
deriving DecidableEq, Repr

def blockLines? (indent : Nat) : List PhysicalLine → Option BlockLines
  | [] => some ⟨[], [], 0⟩
  | l :: ls =>
    let n := min indent (leadingSpaces l.content)
    let content := l.content.drop n
    if n < indent && content.head? = some '\t' then none
    else match content, l.ending with
      | [], some b => (blockLines? indent ls).map fun r => { r with inside := .blank b :: r.inside }
      | [], none => some ⟨[], [], n⟩
      | c :: cs, ending =>
        if n < indent then some ⟨[], ⟨c :: cs, ending⟩ :: ls, n⟩
        else (blockLines? indent ls).map fun r =>
          { r with inside := .text (c :: cs) ending :: r.inside }

/-- The text of a block scalar. `ending` is the break of the last line with text, `blanks` the breaks
of the blank lines after it. In a folded scalar a line feed between two lines that do not start with
space becomes a space, or nothing if blank lines follow it. -/
def joinBlock (folded : Bool) (chomp : Chomp) (ending blanks : List Char) (afterSpace : Bool) :
    List BlockLine → List Char
  | [] =>
    match chomp with
    | .strip => []
    | .clip => ending
    | .keep => ending ++ blanks
  | .blank b :: ls => joinBlock folded chomp ending (blanks ++ [b]) afterSpace ls
  | .text content ending' :: ls =>
    let startsWithSpace := content.head?.any isSpace
    let between :=
      if folded && ending = ['\n'] && !afterSpace && !startsWithSpace then
        if blanks.isEmpty then [' '] else blanks
      else ending ++ blanks
    between ++ content ++ joinBlock folded chomp ending'.toList [] startsWithSpace ls

def indentDigit? (c : Char) : Option Nat :=
  if '1' ≤ c ∧ c ≤ '9' then some (c.toNat - 48) else none

def chompSign? : Char → Option Chomp
  | '+' => some .keep
  | '-' => some .strip
  | _ => none

/-- The head of a block scalar after its first mark: a sign and a digit, both optional, in either
order, and what follows them. The digit 0 is not allowed. -/
def blockHead? (s : List Char) : Option (Chomp × Option Nat × List Char) :=
  let digitAfter (chomp : Chomp) (s : List Char) : Option (Chomp × Option Nat × List Char) :=
    match s with
    | '0' :: _ => none
    | c :: rest =>
      match indentDigit? c with
      | some n => some (chomp, some n, rest)
      | none => some (chomp, none, s)
    | [] => some (chomp, none, s)
  match s with
  | c :: rest =>
    match chompSign? c with
    | some chomp => digitAfter chomp rest
    | none =>
      match digitAfter .clip s with
      | some (.clip, some n, d :: tail) =>
        match chompSign? d with
        | some chomp => some (chomp, some n, tail)
        | none => some (.clip, some n, d :: tail)
      | head => head
  | [] => some (.clip, none, [])

/-- The block scalar whose first mark is at the cursor. `least` is one more than the indentation of
what it belongs to. -/
def readBlock (folded : Bool) (least : Nat) (c : Cursor) : Option Read :=
  match blockHead? (c.rest.drop 1) with
  | none => none
  | some (chomp, digit, rest) =>
    let headEnd := (c.moveTo rest).skipLineTail
    if headEnd.atLineEnd then
      let start := headEnd.skipBreak
      let ls := physicalLines start.rest
      let indent? := match digit with
        | some n => some (least - 1 + n)
        | none => blockIndent? (max least 1) ls
      match indent? with
      | none => none
      | some indent =>
        match blockLines? indent ls with
        | none => none
        | some found =>
          some
            { text := joinBlock folded chomp [] [] false found.inside
              cursor :=
                { rest := PhysicalLine.join found.after
                  line := start.line + (ls.length - found.after.length)
                  column := found.column } }
    else none

end FrontToc.Yaml.Token
