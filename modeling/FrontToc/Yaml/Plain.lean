import FrontToc.Number.Binary64
import FrontToc.Text.Digits
import FrontToc.Text.Search
import FrontToc.Yaml.Value

/-!
Plain scalars: which value a text without quotes stands for. Null, truth values, whole numbers and
floating point numbers have fixed spellings; any other text is a string.
-/
namespace FrontToc.Yaml.Plain

open Text

/-- The four spellings of null, the empty text apart. -/
def isNull (s : List Char) : Bool :=
  s ∈ ["null".toList, "Null".toList, "NULL".toList, "~".toList]

def bool? (s : List Char) : Option Bool :=
  if s ∈ ["true".toList, "True".toList, "TRUE".toList] then some true
  else if s ∈ ["false".toList, "False".toList, "FALSE".toList] then some false
  else none

/-- Whether `s` is, after a sign, a zero followed by further digits: such a text is no number. -/
def hasLeadingZero (s : List Char) : Bool :=
  let digits := match s with
    | '+' :: rest => rest
    | '-' :: rest => rest
    | _ => s
  match digits with
  | '0' :: more => !more.isEmpty && more.all Char.isDigit
  | _ => false

def radix? : List Char → Option Nat
  | '0' :: 'x' :: digits => readDigits? 16 digits
  | '0' :: 'o' :: digits => readDigits? 8 digits
  | '0' :: 'b' :: digits => readDigits? 2 digits
  | _ => none

/-- The number without sign that `s` spells; a plus sign is allowed. -/
def unsigned? (s : List Char) : Option Nat :=
  let magnitude := match s with
    | '+' :: rest => rest
    | _ => s
  match radix? magnitude with
  | some n => some n
  | none => if hasLeadingZero s then none else readDigits? 10 magnitude

def negated? (s : List Char) : Option Nat :=
  match s with
  | '-' :: magnitude =>
    match radix? magnitude with
    | some n => some n
    | none => if hasLeadingZero s then none else readDigits? 10 magnitude
  | _ => none

/-- A whole number as read: one that a value can hold, or one of at most 128 bits that no value can. -/
inductive Whole where
  | fits (n : Int)
  | tooLarge
deriving DecidableEq, Repr

/-- The whole number that `s` spells, of at most 128 bits. Values hold the numbers of 64 bits, with
or without a sign. -/
def whole? (s : List Char) : Option Whole :=
  match unsigned? s, negated? s with
  | some n, _ =>
    if n < Nat.pow 2 64 then some (.fits n) else if n < Nat.pow 2 128 then some .tooLarge else none
  | none, some n =>
    if n ≤ Nat.pow 2 63 then some (.fits (-n)) else if n ≤ Nat.pow 2 127 then some .tooLarge else none
  | none, none => none

def exponent? : List Char → Option Int
  | '+' :: digits => (readDigits? 10 digits).map Int.ofNat
  | '-' :: digits => (readDigits? 10 digits).map fun n => -(n : Int)
  | digits => (readDigits? 10 digits).map Int.ofNat

/-- A decimal number with an optional fraction and exponent; digits are needed before or after the
point. -/
def decimal? (negative : Bool) (s : List Char) : Option Binary64 :=
  let whole := s.takeWhile Char.isDigit
  let afterWhole := s.drop whole.length
  let (fraction, tail) := match afterWhole with
    | '.' :: more =>
      let digits := more.takeWhile Char.isDigit
      (digits, more.drop digits.length)
    | _ => ([], afterWhole)
  match readDigits? 10 (whole ++ fraction) with
  | none => none
  | some n =>
    let power? := match tail with
      | [] => some 0
      | 'e' :: power => exponent? power
      | 'E' :: power => exponent? power
      | _ => none
    power?.map fun power => Binary64.ofDecimal negative n (power - fraction.length)

/-- The floating point number that `s` spells: a finite decimal, or one of the names of the infinite
numbers and of the value that is no number. -/
def float? (s : List Char) : Option Binary64 :=
  let unsigned := match s with
    | '+' :: rest => rest
    | _ => s
  if s ≠ unsigned ∧ (unsigned.head? = some '+' ∨ unsigned.head? = some '-') then none
  else if unsigned ∈ [".inf".toList, ".Inf".toList, ".INF".toList] then some (.infinite false)
  else if s ∈ ["-.inf".toList, "-.Inf".toList, "-.INF".toList] then some (.infinite true)
  else if s ∈ [".nan".toList, ".NaN".toList, ".NAN".toList] then some .notANumber
  else
    let x? := match unsigned with
      | '-' :: rest => decimal? true rest
      | rest => decimal? false rest
    x?.filter fun x => !x.isInfinite

/-- The value of a plain scalar without a tag. A whole number that no value can hold is an error. -/
def resolve? (s : List Char) : Option Value :=
  if s.isEmpty || isNull s then some .null
  else match bool? s with
    | some b => some (.bool b)
    | none =>
      match whole? s with
      | some (.fits n) => some (.int n)
      | some .tooLarge => none
      | none =>
        match if hasLeadingZero s then none else float? s with
        | some x => some (.float x)
        | none => some (.str s)

/-- Whether a plain scalar with this text stands for something else than the string. -/
def isOther (s : List Char) : Bool :=
  match resolve? s with
  | some (.str _) => false
  | _ => true

end FrontToc.Yaml.Plain
