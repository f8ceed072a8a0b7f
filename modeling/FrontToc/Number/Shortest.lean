import FrontToc.Number.Binary64
import FrontToc.Text.Digits

/-!
The shortest decimal that reads back as a given floating point number, and of the shortest the
nearest one; and its layout as text.
-/
namespace FrontToc.Binary64

open FrontToc.Text

/-- A decimal: `digits` times ten to the power `exponent`. -/
structure Decimal where
  digits : Nat
  exponent : Int
deriving DecidableEq, Repr

/-- The numbers that round to `m · 2^q`, in quarters of `2^q`: the ends of the interval, and whether
they belong to it. -/
structure Interval where
  low : Nat
  mid : Nat
  high : Nat
  closed : Bool
deriving DecidableEq, Repr

/-- The interval around `m · 2^q`. Below a power of two the next number is only half as far. -/
def Interval.around (m : Nat) (q : Int) : Interval where
  low := if m = Nat.pow 2 52 ∧ -1074 < q then 4 * m - 1 else 4 * m - 2
  mid := 4 * m
  high := 4 * m + 2
  closed := m % 2 = 0

/-- The multiple of ten to the power `p` to be written for the interval, if one lies in it: of the
two neighbours of the middle the one inside, of two inside the nearer, of two equally near the even. -/
def Interval.multiple? (i : Interval) (q p : Int) : Option Nat :=
  let unit := Nat.pow 10 p.toNat * Nat.pow 2 (2 - q).toNat
  let quarter := Nat.pow 2 (q - 2).toNat * Nat.pow 10 (-p).toNat
  let inside := fun d =>
    if i.closed then i.low * quarter ≤ d * unit ∧ d * unit ≤ i.high * quarter
    else i.low * quarter < d * unit ∧ d * unit < i.high * quarter
  let d := i.mid * quarter / unit
  let below := i.mid * quarter - d * unit
  let above := (d + 1) * unit - i.mid * quarter
  if inside d ∧ inside (d + 1) then
    some (if below < above ∨ (below = above ∧ d % 2 = 0) then d else d + 1)
  else if inside d then some d
  else if inside (d + 1) then some (d + 1)
  else none

/-- The first multiple found on ever finer grids, from ten to the power `p` downward. -/
def Interval.shortestFrom (i : Interval) (q : Int) : (fuel : Nat) → (p : Int) → Decimal
  | 0, p => ⟨0, p⟩
  | fuel + 1, p =>
    match i.multiple? q p with
    | some d => ⟨d, p⟩
    | none => i.shortestFrom q fuel (p - 1)

/-- The shortest decimal for `m · 2^q`. The search starts above the number itself, and seventeen
digits are always enough. -/
def shortest (m : Nat) (q : Int) : Decimal :=
  let start := (m.log2 + q + 1) * 30103 / 100000 + 2
  (Interval.around m q).shortestFrom q 40 start

/-- How decimals are laid out. A number whose point falls after the `leastPoint`-th and up to the
`mostPoint`-th digit is written in full, any other with an exponent. -/
structure Layout where
  leastPoint : Int
  mostPoint : Int
deriving DecidableEq, Repr

/-- The text of a decimal: at least one digit on both sides of the point, or one digit before the
point, where there are more, and an exponent. -/
def Layout.text (layout : Layout) (x : Decimal) : List Char :=
  let ds := decimal x.digits
  let point := ds.length + x.exponent
  if 0 ≤ x.exponent ∧ point ≤ layout.mostPoint then
    ds ++ List.replicate x.exponent.toNat '0' ++ ['.', '0']
  else if 0 < point ∧ point ≤ layout.mostPoint then
    ds.take point.toNat ++ '.' :: ds.drop point.toNat
  else if layout.leastPoint < point ∧ point ≤ 0 then
    '0' :: '.' :: List.replicate (-point).toNat '0' ++ ds
  else
    let e := point - 1
    let sign := if e < 0 then ['-'] else []
    ds.take 1 ++ (if ds.length = 1 then [] else '.' :: ds.drop 1) ++ 'e' :: sign ++ decimal e.natAbs

def finiteText (layout : Layout) (x : Binary64) : List Char :=
  (if x.isNegative then ['-'] else []) ++
    if x.word = 0 then ['0', '.', '0'] else layout.text (shortest x.significand x.exponent)

end FrontToc.Binary64
