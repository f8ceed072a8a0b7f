import FrontToc.Text.Digits
import FrontToc.Toml.Value

/-!
TOML values without parts: strings in four notations, numbers, truth values, dates and times.
-/
namespace FrontToc.Toml

open Text

def isSpace (c : Char) : Bool :=
  c = ' ' || c = '\t'

/-- Whether `c` may stand in a comment or a string: every character but the control characters; a tab
may. -/
def isTextChar (c : Char) : Bool :=
  c = '\t' || (0x20 ≤ c.toNat && c.toNat ≠ 0x7F)

/-- How far an escape has been read: just after the backslash, in a code point with `left + 1` digits to
come, or in the space before or after an escaped line break. -/
inductive Escape where
  | outside
  | opened
  | hex (left bits : Nat)
  | beforeBreak
  | afterBreak
deriving DecidableEq, Repr

def escaped? : Char → Option Char
  | 'b' => some '\x08'
  | 't' => some '\t'
  | 'n' => some '\n'
  | 'f' => some '\x0c'
  | 'r' => some '\r'
  | 'e' => some '\x1b'
  | '"' => some '"'
  | '\\' => some '\\'
  | _ => none

/-- The number of digits after a letter, less one. -/
def hexDigitsAfter? : Char → Option Nat
  | 'x' => some 1
  | 'u' => some 3
  | 'U' => some 7
  | _ => none

def charOf? (n : Nat) : Option Char :=
  if n.isValidChar then some (Char.ofNat n) else none

/-- One step of an escape: the state after `c`, and the character if one is complete. -/
def Escape.step (multiline : Bool) (esc : Escape) (c : Char) : Option (Escape × Option Char) :=
  match esc with
  | .opened =>
    match escaped? c, hexDigitsAfter? c with
    | some x, _ => some (.outside, some x)
    | none, some left => some (.hex left 0, none)
    | none, none =>
      if !multiline then none
      else if isSpace c then some (.beforeBreak, none)
      else if c = '\n' then some (.afterBreak, none)
      else none
  | .hex left bits =>
    match digitValue? 16 c with
    | none => none
    | some d =>
      match left with
      | left + 1 => some (.hex left (bits * 16 + d), none)
      | 0 => (charOf? (bits * 16 + d)).map fun x => (.outside, some x)
  | .beforeBreak =>
    if isSpace c then some (.beforeBreak, none)
    else if c = '\n' then some (.afterBreak, none)
    else none
  | .afterBreak => some (.afterBreak, none)
  | .outside => none

def basicFrom (esc : Escape) (text : List Char) : List Char → Option (List Char × List Char)
  | [] => none
  | c :: rest =>
    if esc = .outside then
      if c = '"' then some (text.reverse, rest)
      else if c = '\\' then basicFrom .opened text rest
      else if isTextChar c then basicFrom .outside (c :: text) rest
      else none
    else
      match esc.step false c with
      | some (esc, x?) => basicFrom esc (x?.toList ++ text) rest
      | none => none

/-- What follows three quotes, if `s` starts with them; up to two more quotes belong to the text. -/
def closing? (quote : Char) (s : List Char) : Option (List Char × List Char) :=
  let run := s.takeWhile (· = quote)
  if run.length < 3 then none
  else
    let extra := min (run.length - 3) 2
    some (List.replicate extra quote, s.drop (3 + extra))

def multilineBasicFrom (esc : Escape) (text : List Char) :
    List Char → Option (List Char × List Char)
  | [] => none
  | '\r' :: '\n' :: rest =>
    match esc with
    | .outside => multilineBasicFrom .outside ('\n' :: '\r' :: text) rest
    | .hex _ _ => none
    | _ => multilineBasicFrom .afterBreak text rest
  | c :: rest =>
    if esc = .outside || (esc = .afterBreak && !isSpace c && c ≠ '\n') then
      match closing? '"' (c :: rest) with
      | some (quotes, end_) => some (text.reverse ++ quotes, end_)
      | none =>
        if c = '\\' then multilineBasicFrom .opened text rest
        else if isTextChar c || c = '\n' then multilineBasicFrom .outside (c :: text) rest
        else none
    else
      match esc.step true c with
      | some (esc, x?) => multilineBasicFrom esc (x?.toList ++ text) rest
      | none => none

def literalFrom (text : List Char) : List Char → Option (List Char × List Char)
  | [] => none
  | c :: rest =>
    if c = '\'' then some (text.reverse, rest)
    else if isTextChar c then literalFrom (c :: text) rest
    else none

def multilineLiteralFrom (text : List Char) : List Char → Option (List Char × List Char)
  | [] => none
  | '\r' :: '\n' :: rest => multilineLiteralFrom ('\n' :: '\r' :: text) rest
  | c :: rest =>
    match closing? '\'' (c :: rest) with
    | some (quotes, end_) => some (text.reverse ++ quotes, end_)
    | none => if isTextChar c || c = '\n' then multilineLiteralFrom (c :: text) rest else none

def dropBreak : List Char → List Char
  | '\r' :: '\n' :: rest => rest
  | '\n' :: rest => rest
  | rest => rest

/-- A string in any notation; the line break right after three quotes does not count. -/
def string? (s : List Char) : Option (List Char × List Char) :=
  match s with
  | '"' :: '"' :: '"' :: rest => multilineBasicFrom .outside [] (dropBreak rest)
  | '"' :: rest => basicFrom .outside [] rest
  | '\'' :: '\'' :: '\'' :: rest => multilineLiteralFrom [] (dropBreak rest)
  | '\'' :: rest => literalFrom [] rest
  | _ => none

/-- Digits in which single underscores may stand between two digits, without the underscores. -/
def groupedDigits? (base : Nat) (afterDigit : Bool) : List Char → Option (List Char)
  | [] => if afterDigit then some [] else none
  | c :: rest =>
    if c = '_' then if afterDigit then groupedDigits? base false rest else none
    else if (digitValue? base c).isSome then (groupedDigits? base true rest).map (c :: ·)
    else none

def grouped? (base : Nat) (s : List Char) : Option Nat :=
  (groupedDigits? base false s).bind (readDigits? base)

def decimalPart? (s : List Char) : Option (List Char) :=
  match groupedDigits? 10 false s with
  | some ('0' :: _ :: _) => none
  | digits => digits

/-- Whether a whole number can be told to a reader: it has at most 128 bits. -/
def isWholeNumber (n : Int) : Bool :=
  -(Nat.pow 2 127 : Nat) ≤ n && n < (Nat.pow 2 128 : Nat)

def splitSign : List Char → Bool × List Char
  | '-' :: rest => (true, rest)
  | '+' :: rest => (false, rest)
  | rest => (false, rest)

/-- A whole number: in decimal with an optional sign, or after a mark in base 16, 8 or 2. -/
def integer? (s : List Char) : Option Int :=
  let n? : Option Int := match s with
    | '0' :: 'x' :: digits => (grouped? 16 digits).map Int.ofNat
    | '0' :: 'o' :: digits => (grouped? 8 digits).map Int.ofNat
    | '0' :: 'b' :: digits => (grouped? 2 digits).map Int.ofNat
    | _ =>
      let (negative, digits) := splitSign s
      ((decimalPart? digits).bind (readDigits? 10)).map fun n => if negative then -(n : Int) else n
  n?.filter isWholeNumber

def splitExponent (s : List Char) : List Char × Option (List Char) :=
  let before := s.takeWhile fun c => c ≠ 'e' && c ≠ 'E'
  match s.drop before.length with
  | _ :: exponent => (before, some exponent)
  | [] => (before, none)

def exponent? : Option (List Char) → Option Int
  | none => some 0
  | some s =>
    let (negative, digits) := splitSign s
    (grouped? 10 digits).map fun n => if negative then -(n : Int) else n

/-- A number with a fraction, an exponent or both, or one of the names of numbers that are not
finite. A number too large is none. -/
def float? (s : List Char) : Option Binary64 :=
  let (negative, magnitude) := splitSign s
  if magnitude = "inf".toList then some (.infinite negative)
  else if magnitude = "nan".toList then some .notANumber
  else
    let (before, exponentText) := splitExponent magnitude
    let whole := before.takeWhile (· ≠ '.')
    let fraction? : Option (List Char) := match before.drop whole.length with
      | _ :: digits => groupedDigits? 10 false digits
      | [] => some []
    if before.length = whole.length && exponentText.isNone then none
    else match decimalPart? whole, fraction?, exponent? exponentText with
      | some w, some f, some e =>
        ((readDigits? 10 (w ++ f)).map fun n => Binary64.ofDecimal negative n (e - f.length)).filter
          fun x => !x.isInfinite
      | _, _, _ => none

def twoDigits? : List Char → Option (Nat × List Char)
  | a :: b :: rest => (readDigits? 10 [a, b]).map fun n => (n, rest)
  | _ => none

def daysIn (year month : Nat) : Nat :=
  if month = 2 then
    if year % 4 = 0 ∧ (year % 100 ≠ 0 ∨ year % 400 = 0) then 29 else 28
  else if month = 4 ∨ month = 6 ∨ month = 9 ∨ month = 11 then 30
  else 31

def afterDate? (s : List Char) : Option (List Char) := do
  let year ← readDigits? 10 (s.take 4)
  guard (4 ≤ s.length)
  let '-' :: rest := s.drop 4 | none
  let (month, rest) ← twoDigits? rest
  let '-' :: rest := rest | none
  let (day, rest) ← twoDigits? rest
  guard (1 ≤ month ∧ month ≤ 12 ∧ 1 ≤ day ∧ day ≤ daysIn year month)
  return rest

/-- What follows the seconds and their fraction, which may both be left out. -/
def afterSeconds? (s : List Char) : Option (List Char) :=
  match s with
  | ':' :: rest => do
    let (second, rest) ← twoDigits? rest
    guard (second ≤ 60)
    match rest with
    | '.' :: fraction =>
      let digits := fraction.takeWhile Char.isDigit
      guard !digits.isEmpty
      return fraction.drop digits.length
    | _ => return rest
  | _ => some s

def afterTime? (s : List Char) : Option (List Char) := do
  let (hour, rest) ← twoDigits? s
  let ':' :: rest := rest | none
  let (minute, rest) ← twoDigits? rest
  guard (hour ≤ 23 ∧ minute ≤ 59)
  afterSeconds? rest

def isOffset (s : List Char) : Bool :=
  match s with
  | [] => true
  | ['Z'] => true
  | ['z'] => true
  | sign :: rest =>
    (sign = '+' || sign = '-') &&
      match twoDigits? rest with
      | some (hour, ':' :: rest) =>
        match twoDigits? rest with
        | some (minute, []) => hour ≤ 23 && minute ≤ 59
        | _ => false
      | _ => false

/-- Whether a text is a date, a time of day, or both with an optional offset. -/
def isDateTime (s : List Char) : Bool :=
  match afterDate? s with
  | some [] => true
  | some (mark :: rest) =>
    (mark = 'T' || mark = 't' || mark = ' ') &&
      match afterTime? rest with
      | some offset => isOffset offset
      | none => false
  | none => afterTime? s = some []

def isBareValueChar (c : Char) : Bool :=
  c.isAlphanum || c = '_' || c = '+' || c = '-' || c = '.' || c = ':'

def bareValue? (s : List Char) : Option Value :=
  if s = "true".toList then some (.bool true)
  else if s = "false".toList then some (.bool false)
  else match integer? s with
    | some n => some (.int n)
    | none =>
      match float? s with
      | some x => some (.float x)
      | none => if isDateTime s then some (.dateTime s) else none

/-- The text of a value without quotes, and what follows it. A date goes on after a space if a digit
follows that. -/
def splitBare (s : List Char) : List Char × List Char :=
  let first := s.takeWhile isBareValueChar
  match s.drop first.length with
  | ' ' :: d :: rest =>
    if afterDate? first = some [] && d.isDigit then
      let second := (d :: rest).takeWhile isBareValueChar
      (first ++ ' ' :: second, (d :: rest).drop second.length)
    else (first, ' ' :: d :: rest)
  | rest => (first, rest)

end FrontToc.Toml
