/-!
Binary floating point numbers of 64 bits, kept as their bits. Reading a decimal rounds to the nearest
number, a tie to the even one; everything is computed on whole numbers.
-/
namespace FrontToc

/-- A 64-bit binary floating point number: one bit for the sign, 11 for the exponent, 52 for the
fraction. -/
structure Binary64 where
  bits : UInt64
deriving DecidableEq, Repr

namespace Binary64

/-- The bits of an infinite number without its sign. -/
def infiniteWord : Nat := 0x7FF * Nat.pow 2 52

/-- The bits without the sign bit. -/
def word (x : Binary64) : Nat :=
  x.bits.toNat % Nat.pow 2 63

def isNegative (x : Binary64) : Bool :=
  Nat.pow 2 63 ≤ x.bits.toNat

def ofWord (negative : Bool) (word : Nat) : Binary64 :=
  ⟨UInt64.ofNat ((if negative then Nat.pow 2 63 else 0) + word)⟩

def infinite (negative : Bool) : Binary64 :=
  ofWord negative infiniteWord

def notANumber : Binary64 :=
  ofWord false (infiniteWord + Nat.pow 2 51)

def isInfinite (x : Binary64) : Bool :=
  x.word = infiniteWord

def isNaN (x : Binary64) : Bool :=
  infiniteWord < x.word

/-- Whether two numbers are equal as keys: both no number, both zero, or the same number. -/
def same (x y : Binary64) : Bool :=
  (x.isNaN && y.isNaN) || (x.word = 0 && y.word = 0) || x = y

def significand (x : Binary64) : Nat :=
  if x.word / Nat.pow 2 52 = 0 then x.word else Nat.pow 2 52 + x.word % Nat.pow 2 52

/-- The power of two that the significand of a finite number counts. -/
def exponent (x : Binary64) : Int :=
  if x.word / Nat.pow 2 52 = 0 then -1074 else (x.word / Nat.pow 2 52 : Nat) - 1075

/-- The fraction `num / den` divided by two to the power `q`. -/
def scale (num den : Nat) (q : Int) : Nat × Nat :=
  (num * Nat.pow 2 (-q).toNat, den * Nat.pow 2 q.toNat)

/-- The whole number nearest to `num / den`, of two the even one. -/
def roundDiv (num den : Nat) : Nat :=
  let m := num / den
  let r := num % den
  if den < 2 * r ∨ (2 * r = den ∧ m % 2 = 1) then m + 1 else m

/-- The bits, without a sign, of the number nearest to `num / den`. The exponent makes the significand
fill 53 bits, or is the least one. -/
def nearestWord (num den : Nat) : Nat :=
  let q₀ := max ((num.log2 : Int) - den.log2 - 53) (-1074)
  let (n₀, d₀) := scale num den q₀
  let q := if Nat.pow 2 53 ≤ n₀ / d₀ then q₀ + 1 else q₀
  let (n, d) := scale num den q
  let m := roundDiv n d
  let word := if m < Nat.pow 2 52 then m else (q + 1075).toNat * Nat.pow 2 52 + (m - Nat.pow 2 52)
  min word infiniteWord

/-- The number nearest to `digits` times ten to the power `exponent`, with the given sign; infinite
where it is too large. -/
def ofDecimal (negative : Bool) (digits : Nat) (exponent : Int) : Binary64 :=
  let magnitude := (Nat.toDigits 10 digits).length + exponent
  if digits = 0 ∨ magnitude < -400 then ofWord negative 0
  else if 400 < magnitude then infinite negative
  else ofWord negative (nearestWord (digits * Nat.pow 10 exponent.toNat) (Nat.pow 10 (-exponent).toNat))

end Binary64

end FrontToc
