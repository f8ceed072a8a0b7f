import FrontToc.Proofs.QuotedStrings
import FrontToc.Proofs.TocRows
import FrontToc.Proofs.WrittenScalars
import FrontToc.Toml.Read

/-!
# Values of TOML entries

A number in decimal digits and a string in any of its forms are read as the values that they were written
for, up to the end of the line.
-/
namespace FrontToc.Toml

open Text

/-- Digits are taken as they are. -/
theorem groupedDigits_of_digits {s : List Char} (digits : ∀ c ∈ s, c.isDigit = true)
    {after_digit : Bool} (some_digit : s ≠ [] ∨ after_digit = true) :
    groupedDigits? 10 after_digit s = some s := by
  induction s generalizing after_digit with
  | nil => simpa [groupedDigits?] using some_digit
  | cons c s ih =>
    obtain ⟨first, others⟩ := List.forall_mem_cons.mp digits
    have no_bar : c ≠ '_' := by
      rintro rfl
      cases first
    have value : (digitValue? 10 c).isSome = true := by simp [TocMarkers.digitValue_ten, first]
    rw [groupedDigits?, if_neg no_bar, if_pos value, ih others (.inr rfl)]
    rfl

/-- Only the number zero begins with a zero. -/
theorem eq_zero_of_decimal {n : Nat} {t : List Char} (zero : decimal n = '0' :: t) : n = 0 := by
  induction n using Nat.strongRecOn generalizing t with
  | ind n ih =>
    rw [decimal, Nat.toDigits_eq_if (by decide)] at zero
    split at zero
    · next small =>
      have only_zero : ∀ d : Fin 10, Nat.digitChar d.val = '0' → d.val = 0 := by decide
      exact only_zero ⟨n, small⟩ (List.cons.inj zero).1
    · next large =>
      rw [← decimal] at zero
      cases front : decimal (n / 10) with
      | nil => exact absurd front (Yaml.decimal_ne_nil _)
      | cons c digits =>
        rw [front] at zero
        obtain ⟨rfl, -⟩ := List.cons.inj zero
        have := ih (n / 10) (by omega) front
        omega

theorem decimalPart_decimal (n : Nat) : decimalPart? (decimal n) = some (decimal n) := by
  unfold decimalPart?
  rw [groupedDigits_of_digits (fun c => Yaml.isDigit_of_mem_decimal) (.inl (Yaml.decimal_ne_nil n))]
  split
  · next a b zero =>
    have leading : decimal n = '0' :: a :: b := Option.some.inj zero
    rw [eq_zero_of_decimal leading] at leading
    cases leading
  · rfl

theorem readDigits_decimal (n : Nat) : readDigits? 10 (decimal n) = some n := by
  unfold readDigits?
  rw [if_neg (by simpa using Yaml.decimal_ne_nil n), TocMarkers.readDigitsFrom_ten]
  exact ⟨fun c => Yaml.isDigit_of_mem_decimal, Nat.ofDigitChars_ten_toDigits⟩

theorem not_mem_decimal {c : Char} (other : c.isDigit = false) (n : Nat) : c ∉ decimal n := by
  intro member
  rw [Yaml.isDigit_of_mem_decimal member] at other
  cases other

theorem splitSign_decimal (n : Nat) : splitSign (decimal n) = (false, decimal n) := by
  unfold splitSign
  split
  · next rest minus => exact absurd (minus ▸ List.mem_cons_self) (not_mem_decimal (c := '-') rfl n)
  · next rest plus => exact absurd (plus ▸ List.mem_cons_self) (not_mem_decimal (c := '+') rfl n)
  · rfl

/-- A number in decimal digits is read as that number. -/
theorem integer_decimal {n : Nat} (whole : isWholeNumber n = true) :
    integer? (decimal n) = some (n : Int) := by
  have second : ∀ {c : Char} {digits : List Char}, decimal n = '0' :: c :: digits → c.isDigit = true := by
    intro c digits same
    exact Yaml.isDigit_of_mem_decimal (n := n) (by simp [same])
  unfold integer?
  dsimp only
  split
  · next same => cases second same
  · next same => cases second same
  · next same => cases second same
  · rw [splitSign_decimal]
    dsimp only
    rw [decimalPart_decimal, Option.bind_some, readDigits_decimal]
    change (some (n : Int)).filter isWholeNumber = some (n : Int)
    rw [Option.filter_some, if_pos whole]

theorem bareValue_decimal {n : Nat} (whole : isWholeNumber n = true) :
    bareValue? (decimal n) = some (.int n) := by
  have no_name : ∀ {c : Char} {name : List Char}, c.isDigit = false → decimal n ≠ c :: name := by
    intro c name other same
    exact not_mem_decimal other n (by simp [same])
  have not_true : decimal n ≠ "true".toList := no_name (c := 't') rfl
  have not_false : decimal n ≠ "false".toList := no_name (c := 'f') rfl
  unfold bareValue?
  rw [if_neg not_true, if_neg not_false, integer_decimal whole]

theorem splitBare_decimal (n : Nat) (rest : List Char) :
    splitBare (decimal n ++ '\n' :: rest) = (decimal n, '\n' :: rest) := by
  have bare : ∀ c ∈ decimal n, isBareValueChar c = true := by
    intro c member
    simp [isBareValueChar, Char.isAlphanum, Yaml.isDigit_of_mem_decimal member]
  have first : (decimal n ++ '\n' :: rest).takeWhile isBareValueChar = decimal n :=
    takeWhile_append_run bare (by simp; decide)
  unfold splitBare
  dsimp only
  rw [first, List.drop_left]
  rfl

/-- A written number is read as a value. -/
theorem value_decimal {n : Nat} (whole : isWholeNumber n = true) (depth : Nat) (rest : List Char) :
    value? depth (decimal n ++ '\n' :: rest) = some (.int n, '\n' :: rest) := by
  have first : ∀ {c : Char} {t : List Char}, decimal n ++ '\n' :: rest = c :: t → c.isDigit = true := by
    intro c t same
    have digit := Yaml.head_decimal n ('\n' :: rest)
    rw [same] at digit
    exact digit
  unfold value?
  split
  · next same => cases first same
  · next same => cases first same
  · next same => cases first same
  · next same => cases first same
  · rw [splitBare_decimal]
    dsimp only
    rw [bareValue_decimal whole]
    rfl

theorem head_stringText (s : List Char) :
    ∃ quote t, stringText s = quote :: t ∧ (quote = '"' ∨ quote = '\'') := by
  unfold stringText
  dsimp only
  split
  · exact ⟨'"', _, rfl, .inl rfl⟩
  · exact ⟨'\'', _, rfl, .inr rfl⟩
  · exact ⟨'"', _, rfl, .inl rfl⟩
  · exact ⟨'\'', _, rfl, .inr rfl⟩

/-- A written string is read as a value. -/
theorem value_stringText (s : List Char) (depth : Nat) {rest : List Char}
    (ends : ∀ c ∈ rest.head?, c ≠ '"' ∧ c ≠ '\'') :
    value? depth (stringText s ++ rest) = some (.str s, rest) := by
  have read := string_stringText s ends
  obtain ⟨quote, t, text, rfl | rfl⟩ := head_stringText s
  · rw [text, List.cons_append] at read ⊢
    rw [value?, read]
    rfl
  · rw [text, List.cons_append] at read ⊢
    rw [value?, read]
    rfl

/-- A text that is read as a value, up to the end of its line. -/
structure ReadsAs (text : List Char) (value : Value) : Prop where
  no_space : ∀ c ∈ text.head?, isSpace c = false
  read : ∀ depth rest, value? depth (text ++ '\n' :: rest) = some (value, '\n' :: rest)

theorem ReadsAs.decimal {n : Nat} (whole : isWholeNumber n = true) :
    ReadsAs (decimal n) (.int n) where
  no_space := by
    intro c first
    have digit := Yaml.isDigit_of_mem_decimal (List.mem_of_mem_head? first)
    have no_digit : ∀ c, isSpace c = true → c.isDigit = false := by
      intro c space
      simp only [isSpace, Bool.or_eq_true, decide_eq_true_eq] at space
      rcases space with rfl | rfl <;> rfl
    cases space : isSpace c with
    | false => rfl
    | true => simp [no_digit c space] at digit
  read := value_decimal whole

theorem ReadsAs.stringText (s : List Char) : ReadsAs (stringText s) (.str s) where
  no_space := by
    intro c first
    obtain ⟨quote, t, text, rfl | rfl⟩ := head_stringText s
    · rw [text] at first
      cases first
      rfl
    · rw [text] at first
      cases first
      rfl
  read := by
    intro depth rest
    apply value_stringText
    rintro c ⟨⟩
    decide

end FrontToc.Toml
