import FrontToc.Proofs.TextRuns
import FrontToc.Toml.Scalar
import FrontToc.Toml.Write

/-!
# Characters between double quotes

A character that cannot stand between double quotes is written as an escape: a letter, or four hexadecimal
digits. Reading the escape gives the character, in one line and over several lines. Every other character
can stand there.
-/
namespace FrontToc.Toml

open Text StringForm

/-- The characters after a backslash, or the rest of them, that stand for `x`. -/
inductive Escape.Takes (multiline : Bool) : Escape → List Char → Char → Prop where
  | last {esc : Escape} {c x : Char} : esc.step multiline c = some (.outside, some x) →
      Takes multiline esc [c] x
  | digit {esc : Escape} {left bits : Nat} {c x : Char} {s : List Char} :
      esc.step multiline c = some (.hex left bits, none) → Takes multiline (.hex left bits) s x →
      Takes multiline esc (c :: s) x

/-- An escape goes on only where one has begun, and never with a carriage return. -/
theorem Escape.step_spec {multiline : Bool} {esc next : Escape} {c : Char} {x : Option Char}
    (step : esc.step multiline c = some (next, x))
    (goes_on : next = .outside ∨ ∃ left bits, next = .hex left bits) :
    esc ≠ .outside ∧ esc ≠ .afterBreak ∧ c ≠ '\r' := by
  have no_digit : digitValue? 16 '\r' = none := by decide
  refine ⟨?_, ?_, ?_⟩
  · rintro rfl
    cases step
  · rintro rfl
    cases step
    rcases goes_on with h | ⟨left, bits, h⟩ <;> cases h
  · rintro rfl
    cases esc with
    | outside => cases step
    | opened => cases multiline <;> cases step
    | hex left bits => simp [Escape.step, no_digit] at step
    | beforeBreak => cases step
    | afterBreak =>
      cases step
      rcases goes_on with h | ⟨left, bits, h⟩ <;> cases h

/-- Hexadecimal digits stand for the character with their number. -/
theorem Escape.takes_digits (multiline : Bool) {left bits n : Nat} {digits : List Char} {x : Char}
    (count : digits.length = left + 1) (number : readDigitsFrom? 16 bits digits = some n)
    (char : charOf? n = some x) : (Escape.hex left bits).Takes multiline digits x := by
  induction digits generalizing left bits with
  | nil => simp at count
  | cons c digits ih =>
    rw [readDigitsFrom?] at number
    cases value : digitValue? 16 c with
    | none => rw [value] at number; cases number
    | some d =>
      rw [value] at number
      cases left with
      | zero =>
        obtain rfl : digits = [] := List.eq_nil_of_length_eq_zero (by simpa using count)
        obtain rfl : bits * 16 + d = n := Option.some.inj number
        apply Takes.last
        simp [Escape.step, value, char]
      | succ left =>
        have step : (Escape.hex (left + 1) bits).step multiline c =
            some (.hex left (bits * 16 + d), none) := by
          simp [Escape.step, value]
        exact .digit step (ih (by simpa using count) number)

theorem lt_of_needsCode {c : Char} (code : needsCode c = true) : c.toNat < 128 := by
  simp only [needsCode, Bool.and_eq_true, Bool.or_eq_true, decide_eq_true_eq] at code
  omega

/-- The code points that are written as escapes have four digits. -/
theorem four_digits {n : Nat} (small : n < 128) :
    (padZeros 4 (upperHexDigits n)).length = 4 ∧
      readDigitsFrom? 16 0 (padZeros 4 (upperHexDigits n)) = some n :=
  (by decide +kernel : ∀ n : Fin 128, (padZeros 4 (upperHexDigits n.val)).length = 4 ∧
    readDigitsFrom? 16 0 (padZeros 4 (upperHexDigits n.val)) = some n.val) ⟨n, small⟩

theorem Escape.takes_letter (multiline : Bool) {letter x : Char} (escaped : escaped? letter = some x) :
    Escape.opened.Takes multiline [letter] x := by
  apply Takes.last
  simp [Escape.step, escaped]

/-- An escape is read as the character that it was written for. -/
theorem takes_escape {multiline : Bool} {c : Char} {e : List Char} (written : escape? multiline c = some e) :
    ∃ s, e = '\\' :: s ∧ Escape.opened.Takes multiline s c := by
  unfold escape? at written
  split at written
  · cases written
    exact ⟨_, rfl, Escape.takes_letter _ rfl⟩
  · cases written
    exact ⟨_, rfl, Escape.takes_letter _ rfl⟩
  · cases multiline with
    | true => cases written
    | false =>
      cases written
      exact ⟨_, rfl, Escape.takes_letter _ rfl⟩
  · cases written
    exact ⟨_, rfl, Escape.takes_letter _ rfl⟩
  · cases written
    exact ⟨_, rfl, Escape.takes_letter _ rfl⟩
  · cases written
    exact ⟨_, rfl, Escape.takes_letter _ rfl⟩
  · split at written
    · next code =>
      cases written
      obtain ⟨count, number⟩ := four_digits (lt_of_needsCode code)
      have char : charOf? c.toNat = some c := by
        have valid : c.toNat.isValidChar := c.valid
        rw [charOf?, if_pos valid, Char.ofNat_toNat]
      have begun : Escape.opened.step multiline 'u' = some (.hex 3 0, none) := rfl
      exact ⟨_, rfl, .digit begun (Escape.takes_digits multiline count number char)⟩
    · cases written

/-- Without an escape, every character but a line break can stand in a string. -/
theorem isTextChar_of_needsCode {c : Char} (plain : needsCode c = false) (no_feed : c ≠ '\n') :
    isTextChar c = true := by
  by_cases tab : c = '\t'
  · simp [isTextChar, tab]
  · simp only [needsCode, tab, no_feed, ne_eq, not_false_eq_true, decide_true, Bool.true_and,
      Bool.or_eq_false_iff, decide_eq_false_iff_not] at plain
    simp only [isTextChar, tab, decide_false, Bool.false_or, Bool.and_eq_true, decide_eq_true_eq]
    omega

/-- What is written as it is can stand in a string. -/
theorem plain_of_escape {multiline : Bool} {c : Char} (plain : escape? multiline c = none) :
    c ≠ '\\' ∧ c ≠ '\r' ∧ (isTextChar c = true ∨ multiline = true ∧ c = '\n') := by
  unfold escape? at plain
  split at plain
  · cases plain
  · cases plain
  · cases multiline with
    | true => exact ⟨by decide, by decide, .inr ⟨rfl, rfl⟩⟩
    | false => cases plain
  · cases plain
  · cases plain
  · cases plain
  · next no_feed _ no_return no_slash =>
    split at plain
    · cases plain
    · next no_code =>
      have text_char := isTextChar_of_needsCode (Bool.eq_false_iff.mpr no_code) no_feed
      exact ⟨no_slash, no_return, .inl text_char⟩

/-- Between double quotes a character that is no quote is written as an escape, or as it is. -/
theorem basicBody_cons (multiline : Bool) (run : Nat) {c : Char} (no_quote : c ≠ '"') (s : List Char) :
    (∃ letters, Escape.opened.Takes multiline letters c ∧
      basicBody multiline run (c :: s) = '\\' :: letters ++ basicBody multiline 0 s) ∨
    (c ≠ '\\' ∧ c ≠ '\r' ∧ (isTextChar c = true ∨ multiline = true ∧ c = '\n') ∧
      basicBody multiline run (c :: s) = c :: basicBody multiline 0 s) := by
  rw [basicBody, if_neg no_quote]
  cases written : escape? multiline c with
  | some e =>
    obtain ⟨letters, rfl, takes⟩ := takes_escape written
    exact .inl ⟨letters, takes, rfl⟩
  | none =>
    obtain ⟨no_slash, no_return, char⟩ := plain_of_escape written
    exact .inr ⟨no_slash, no_return, char, rfl⟩

end FrontToc.Toml
