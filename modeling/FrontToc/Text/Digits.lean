/-!
Numbers written in digits.
-/
namespace FrontToc.Text

/-- The decimal digits of `n`, without leading zeros. -/
def decimal (n : Nat) : List Char :=
  Nat.toDigits 10 n

/-- The hexadecimal digits of `n`, lower case, without leading zeros. -/
def hexDigits (n : Nat) : List Char :=
  Nat.toDigits 16 n

def upperHexDigits (n : Nat) : List Char :=
  (hexDigits n).map Char.toUpper

/-- `s` with zeros before it up to `width` characters. -/
def padZeros (width : Nat) (s : List Char) : List Char :=
  List.replicate (width - s.length) '0' ++ s

theorem decimal_injective {m n : Nat} (h : decimal m = decimal n) : m = n := by
  calc
    m = Nat.ofDigitChars 10 (decimal m) 0 := Nat.ofDigitChars_ten_toDigits.symm
    _ = Nat.ofDigitChars 10 (decimal n) 0 := by rw [h]
    _ = n := Nat.ofDigitChars_ten_toDigits

theorem ofDigitChars_padZeros (width : Nat) (s : List Char) :
    Nat.ofDigitChars 10 (padZeros width s) 0 = Nat.ofDigitChars 10 s 0 := by
  simp [padZeros, Nat.ofDigitChars_append]

/-- The value of a digit, of either case, in base `base`. -/
def digitValue? (base : Nat) (c : Char) : Option Nat :=
  let v :=
    if '0' ≤ c ∧ c ≤ '9' then c.toNat - '0'.toNat
    else if 'a' ≤ c ∧ c ≤ 'z' then c.toNat - 'a'.toNat + 10
    else if 'A' ≤ c ∧ c ≤ 'Z' then c.toNat - 'A'.toNat + 10
    else base
  if v < base then some v else none

/-- The value of the digits `s` after the digits of `acc`. -/
def readDigitsFrom? (base : Nat) : (acc : Nat) → List Char → Option Nat
  | acc, [] => some acc
  | acc, c :: cs =>
    match digitValue? base c with
    | none => none
    | some d => readDigitsFrom? base (acc * base + d) cs

def readDigits? (base : Nat) (s : List Char) : Option Nat :=
  if s.isEmpty then none else readDigitsFrom? base 0 s

/-- A number from 0 to 255 in decimal; a plus sign and leading zeros are allowed. -/
def readByte? (s : List Char) : Option Nat :=
  let digits := match s with
    | '+' :: rest => rest
    | _ => s
  (readDigits? 10 digits).filter (· < 256)

end FrontToc.Text
