import FrontToc.Document

/-!
# Scalars in one line

A key that is written before a colon stays in its line and does not begin with three hyphens, whatever
value it is. The same texts stand for scalars after a hyphen or a colon; only a literal has more lines.
-/
namespace FrontToc.Yaml

open Text

/-- Text that stays in its line and does not begin like a delimiter. -/
def OneLine (s : List Char) : Prop :=
  '\n' ∉ s ∧ ¬delimiter <+: s

theorem OneLine.of_head {s : List Char} (hfeed : '\n' ∉ s) (h : s.head? ≠ some '-') : OneLine s := by
  refine ⟨hfeed, ?_⟩
  rintro ⟨t, rfl⟩
  exact h rfl

theorem OneLine.minus {s : List Char} (hfeed : '\n' ∉ s) (h : s.head? ≠ some '-') :
    OneLine ('-' :: s) := by
  refine ⟨by simpa using hfeed, ?_⟩
  rintro ⟨t, ht⟩
  rw [← (List.cons.inj ht).2] at h
  exact h rfl

theorem isDigit_of_mem_decimal {n : Nat} {c : Char} (h : c ∈ decimal n) : c.isDigit :=
  Nat.isDigit_of_mem_toDigits (by decide) (by decide) h

/-- The characters that numbers are written with. -/
def isNumberChar (c : Char) : Bool :=
  c.isDigit || c ∈ ['-', '.', 'a', 'e', 'f', 'i', 'n']

theorem not_mem_number {s : List Char} (h : s.all isNumberChar = true) {c : Char}
    (hc : isNumberChar c = false) : c ∉ s := by
  intro hmem
  rw [List.all_eq_true.mp h c hmem] at hc
  cases hc

theorem number_decimal (n : Nat) : (decimal n).all isNumberChar = true := by
  rw [List.all_eq_true]
  intro c hc
  simp [isNumberChar, isDigit_of_mem_decimal hc]

theorem decimal_ne_nil (n : Nat) : decimal n ≠ [] := by
  rw [decimal, Nat.toDigits_eq_if (by decide)]
  split <;> simp

theorem head_decimal (n : Nat) (s : List Char) : (decimal n ++ s).head?.any Char.isDigit = true := by
  cases h : decimal n with
  | nil => exact absurd h (decimal_ne_nil n)
  | cons c t => exact isDigit_of_mem_decimal (n := n) (by rw [h]; exact List.mem_cons_self)

theorem head_ne_minus {s : List Char} (h : s.head?.any Char.isDigit = true) : s.head? ≠ some '-' := by
  intro hminus
  rw [hminus] at h
  cases h

theorem number_intText (n : Int) : (intText n).all isNumberChar = true := by
  rw [intText]
  split <;> simp only [List.all_append, number_decimal] <;> decide

theorem oneLine_intText (n : Int) : OneLine (intText n) := by
  have hhead : (decimal n.natAbs).head? ≠ some '-' :=
    head_ne_minus (by simpa using head_decimal n.natAbs [])
  have hfeed : '\n' ∉ decimal n.natAbs := not_mem_number (number_decimal _) (by decide)
  rw [intText]
  split
  · exact .minus hfeed hhead
  · exact .of_head hfeed hhead

/-- The text of a decimal is made of number characters and begins with a digit. -/
theorem number_layoutText (layout : Binary64.Layout) (x : Binary64.Decimal) :
    (layout.text x).all isNumberChar = true ∧ (layout.text x).head?.any Char.isDigit = true := by
  have hdigits := number_decimal x.digits
  have hdrop : ∀ k, ((decimal x.digits).drop k).all isNumberChar = true := fun k =>
    List.all_eq_true.mpr fun c hc => List.all_eq_true.mp hdigits c (List.mem_of_mem_drop hc)
  have htake : ∀ k, ((decimal x.digits).take k).all isNumberChar = true := fun k =>
    List.all_eq_true.mpr fun c hc => List.all_eq_true.mp hdigits c (List.mem_of_mem_take hc)
  have hmarks : isNumberChar '.' = true ∧ isNumberChar 'e' = true ∧ isNumberChar '0' = true ∧
      isNumberChar '-' = true := by decide
  obtain ⟨hpoint, he, hzero, hminus⟩ := hmarks
  have htakeHead : ∀ (k : Nat) (s : List Char), 0 < k →
      ((decimal x.digits).take k ++ s).head?.any Char.isDigit = true := by
    intro k s hk
    have hhead := head_decimal x.digits []
    cases h : decimal x.digits with
    | nil => exact absurd h (decimal_ne_nil _)
    | cons c t =>
      obtain ⟨k, rfl⟩ := Nat.exists_eq_succ_of_ne_zero (Nat.ne_of_gt hk)
      simpa [h] using hhead
  rw [Binary64.Layout.text]
  dsimp only
  split
  · refine ⟨by simp only [List.all_append, List.all_replicate, hdigits, hzero]; simp [hpoint, hzero],
      ?_⟩
    rw [List.append_assoc]
    exact head_decimal _ _
  · split
    · next hpos =>
      exact ⟨by simp only [List.all_append, List.all_cons, htake, hdrop, hpoint]; rfl,
        htakeHead _ _ (by omega)⟩
    · split
      · refine ⟨?_, by simp⟩
        simp only [List.all_append, List.all_cons, List.all_replicate, hdigits, hzero, hpoint]
        simp
      · refine ⟨?_, ?_⟩
        · simp only [List.all_append, List.all_cons, htake, number_decimal, he]
          split <;> split <;> simp only [List.all_cons, List.all_nil, hdrop, hpoint, hminus] <;> rfl
        · rw [List.append_assoc, List.append_assoc]
          exact htakeHead 1 _ (by decide)

/-- What `finiteText` writes after the sign. -/
theorem number_magnitude (layout : Binary64.Layout) (x : Binary64) :
    (if x.word = 0 then ['0', '.', '0']
      else layout.text (Binary64.shortest x.significand x.exponent)).all isNumberChar = true ∧
    (if x.word = 0 then ['0', '.', '0']
      else layout.text (Binary64.shortest x.significand x.exponent)).head?.any Char.isDigit = true := by
  split
  · decide
  · exact number_layoutText _ _

theorem number_floatText (x : Binary64) : (floatText x).all isNumberChar = true := by
  rw [floatText]
  split
  · decide
  · split
    · split <;> decide
    · rw [Binary64.finiteText, List.all_append, (number_magnitude _ x).1]
      split <;> decide

theorem oneLine_floatText (x : Binary64) : OneLine (floatText x) := by
  rw [floatText]
  split
  · exact .of_head (by decide) (by decide)
  · split
    · split
      · exact .minus (by decide) (by decide)
      · exact .of_head (by decide) (by decide)
    · obtain ⟨hnumber, hdigit⟩ := number_magnitude floatLayout x
      have hhead := head_ne_minus hdigit
      have hfeed := not_mem_number hnumber (c := '\n') (by decide)
      rw [Binary64.finiteText]
      split
      · exact .minus hfeed hhead
      · exact .of_head hfeed hhead

theorem feed_ne_digitChar (n : Nat) : (Nat.digitChar n).toUpper ≠ '\n' := by
  by_cases h : n < 16
  · exact (by decide : ∀ n : Fin 16, (Nat.digitChar n.val).toUpper ≠ '\n') ⟨n, h⟩
  · rw [Nat.digitChar_eq_star.mpr (Nat.le_of_not_lt h)]
    decide

theorem not_mem_upperHexDigits (n : Nat) : '\n' ∉ upperHexDigits n := by
  rw [upperHexDigits, hexDigits]
  induction n using Nat.strongRecOn with
  | ind n ih =>
    rw [Nat.toDigits_eq_if (by decide)]
    split
    · simpa using Ne.symm (feed_ne_digitChar n)
    · rw [List.map_append]
      simpa [Ne.symm (feed_ne_digitChar _)] using ih (n / 16) (by omega)

theorem not_mem_padZeros {s : List Char} (h : '\n' ∉ s) (width : Nat) : '\n' ∉ padZeros width s := by
  simp [padZeros, h]

theorem feed_ne_escapeLetter {c letter : Char} (h : escapeLetter? c = some letter) :
    letter ≠ '\n' := by
  unfold escapeLetter? at h
  split at h <;> cases h <;> decide

theorem not_mem_doubleChar (c : Char) : '\n' ∉ doubleChar c := by
  rw [doubleChar]
  split
  · next h =>
    rintro hmem
    rw [← List.mem_singleton.mp hmem] at h
    revert h
    decide
  · cases hletter : escapeLetter? c with
    | some letter => simpa using Ne.symm (feed_ne_escapeLetter hletter)
    | none =>
      have hdigits := not_mem_upperHexDigits c.toNat
      dsimp only
      split
      · simp [not_mem_padZeros hdigits]
      · split <;> simp [not_mem_padZeros hdigits]

theorem oneLine_doubleText (s : List Char) : OneLine (doubleText s) := by
  refine .of_head ?_ (by rw [doubleText]; simp)
  simp [doubleText, not_mem_doubleChar]

theorem not_mem_singleBody {s : List Char} (h : '\n' ∉ s) (indent : Nat) (atStart : Bool) :
    '\n' ∉ singleBody indent atStart s := by
  have hlead : ∀ atStart : Bool, '\n' ∉ (if atStart then spaces indent else []) := by
    intro atStart
    cases atStart <;> simp [spaces]
  induction s generalizing atStart with
  | nil => simp [singleBody, hlead]
  | cons c rest ih =>
    have hc : '\n' ≠ c := fun he => h (he ▸ List.mem_cons_self)
    have hrest : '\n' ∉ rest := fun hmem => h (List.mem_cons_of_mem _ hmem)
    rw [singleBody]
    split
    · simpa [hc] using ih hrest true
    · split
      · simpa [hc] using ih hrest atStart
      · have hquote : '\n' ∉ (if c = '\'' then ['\'', '\''] else [c]) := by
          split
          · decide
          · simpa using hc
        simp only [List.mem_append, not_or]
        exact ⟨⟨hlead atStart, hquote⟩, ih hrest false⟩

/-- A string without line feeds is never written as a literal. -/
theorem ofString_ne_literal {s : List Char} (h : '\n' ∉ s) : Style.ofString s ≠ .literal := by
  unfold Style.ofString
  split
  · next hs => exact absurd hs h
  · split <;> simp
    split <;> simp

/-- A string with a line feed is a literal or stands in double quotes. -/
theorem ofString_of_mem {s : List Char} (h : '\n' ∈ s) :
    Style.ofString s = .literal ∨ Style.ofString s = .double := by
  unfold Style.ofString
  split
  · split <;> simp
  · next hs => exact absurd h hs

/-- A string is a literal only where it can be one. -/
theorem allowsLiteral_of_literal {s : List Char} (h : Style.ofString s = .literal) :
    Style.allowsLiteral s = true := by
  unfold Style.ofString at h
  split at h
  · split at h
    · assumption
    · cases h
  · split at h
    · cases h
    · split at h <;> cases h

theorem not_prefix_of_plain {s : List Char} (h : Style.ofString s = .plain) :
    ¬delimiter <+: s := by
  rintro ⟨t, rfl⟩
  have hmark : Style.hasMark (delimiter ++ t) = true := by
    simp [Style.hasMark, delimiter]
  unfold Style.ofString at h
  split at h
  · split at h <;> cases h
  · split at h
    · next hplain =>
      simp [Style.allowsPlain, hmark] at hplain
    · split at h <;> cases h

theorem oneLine_stringText {s : List Char} (h : '\n' ∉ s) (indent : Nat) :
    OneLine (stringText indent s) := by
  unfold stringText
  cases hstyle : Style.ofString s with
  | plain => exact ⟨h, not_prefix_of_plain hstyle⟩
  | single => exact .of_head (by simp [singleText, not_mem_singleBody h]) (by simp [singleText])
  | double => exact oneLine_doubleText s
  | literal => exact absurd hstyle (ofString_ne_literal h)

theorem not_mem_escapeChar (c : Char) : '\n' ∉ Tag.escapeChar c := by
  rw [Tag.escapeChar]
  split
  · next hsafe =>
    intro hmem
    rw [← List.mem_singleton.mp hmem] at hsafe
    revert hsafe
    decide
  · simp [not_mem_padZeros (not_mem_upperHexDigits _)]

theorem oneLine_tag (t : Tag) : OneLine t.written := by
  unfold Tag.written
  split
  · exact .of_head (by simp [not_mem_escapeChar]) (by simp)
  · exact .of_head (by simp [not_mem_escapeChar]) (by simp)

theorem OneLine.tagged {t : Tag} {s : List Char} (h : '\n' ∉ s) : OneLine (t.written ++ ' ' :: s) := by
  refine ⟨by simp [(oneLine_tag t).1, h], ?_⟩
  have hhead : (t.written ++ ' ' :: s).head? = some '!' := by
    unfold Tag.written
    split <;> rfl
  rintro ⟨r, hr⟩
  rw [← hr] at hhead
  cases hhead

/-- A value written in one line, of any kind, is text of one line. -/
theorem oneLine_of_inlineText {v : Value} {s : List Char} {n : Nat}
    (h : inlineText? v = some (s, n)) : OneLine s := by
  match v with
  | .null => cases h; exact .of_head (by decide) (by decide)
  | .bool b => cases h; cases b <;> exact .of_head (by decide) (by decide)
  | .int n => cases h; exact oneLine_intText n
  | .float x => cases h; exact oneLine_floatText x
  | .str t =>
    rw [inlineText?] at h
    split at h
    · cases h
    · next hbreak =>
      cases h
      refine oneLine_stringText (fun hmem => hbreak ?_) 0
      exact List.any_eq_true.mpr ⟨_, hmem, by decide⟩
  | .seq [] => cases h; exact .of_head (by decide) (by decide)
  | .seq (_ :: _) => cases h
  | .map [] => cases h; exact .of_head (by decide) (by decide)
  | .map (_ :: _) => cases h
  | .tagged t v =>
    rw [inlineText?] at h
    cases hv : inlineText? v with
    | none => rw [hv] at h; cases h
    | some p =>
      rw [hv] at h
      cases h
      exact .tagged (oneLine_of_inlineText hv).1

theorem oneLine_of_simpleKey {key : Value} {s : List Char} (h : simpleKey? key = some s) :
    OneLine s := by
  unfold simpleKey? at h
  split at h
  · next hinline =>
    split at h
    · cases h
      exact oneLine_of_inlineText hinline
    · cases h
  · cases h

/-- A string in plain style holds no break and does not begin with a space. -/
theorem plain_spec {s : List Char} (h : Style.ofString s = .plain) :
    s.any Style.isLineBreak = false ∧ s.head? ≠ some ' ' := by
  unfold Style.ofString at h
  split at h
  · split at h <;> cases h
  · split at h
    · next hplain =>
      simp only [Style.allowsPlain, Style.atEnds, Bool.and_eq_true, Bool.not_eq_true',
        Bool.or_eq_false_iff] at hplain
      obtain ⟨⟨⟨⟨-, hbreak⟩, hhead, -⟩, -⟩, -⟩ := hplain
      refine ⟨hbreak, fun hspace => ?_⟩
      rw [hspace] at hhead
      cases hhead
    · split at h <;> cases h

theorem head_ne_space_of_number {s : List Char} (h : s.all isNumberChar = true) :
    s.head? ≠ some ' ' :=
  fun hspace => not_mem_number h (by decide) (List.mem_of_head? hspace)

theorem head_stringText {s : List Char} (h : '\n' ∉ s) (indent : Nat) :
    (stringText indent s).head? ≠ some ' ' := by
  unfold stringText
  cases hstyle : Style.ofString s with
  | plain => exact (plain_spec hstyle).2
  | single => simp [singleText]
  | double => simp [doubleText]
  | literal => exact absurd hstyle (ofString_ne_literal h)

/-- A key before a colon does not begin with a space. -/
theorem head_of_inlineText {v : Value} {s : List Char} {n : Nat} (h : inlineText? v = some (s, n)) :
    s.head? ≠ some ' ' := by
  match v with
  | .null => cases h; decide
  | .bool b => cases h; cases b <;> decide
  | .int n => cases h; exact head_ne_space_of_number (number_intText n)
  | .float x => cases h; exact head_ne_space_of_number (number_floatText x)
  | .str t =>
    rw [inlineText?] at h
    split at h
    · cases h
    · next hbreak =>
      cases h
      exact head_stringText (fun hmem => hbreak (List.any_eq_true.mpr ⟨_, hmem, by decide⟩)) 0
  | .seq [] => cases h; decide
  | .seq (_ :: _) => cases h
  | .map [] => cases h; decide
  | .map (_ :: _) => cases h
  | .tagged t v =>
    rw [inlineText?] at h
    cases hv : inlineText? v with
    | none => rw [hv] at h; cases h
    | some p =>
      rw [hv] at h
      cases h
      unfold Tag.written
      split <;> simp

theorem head_of_simpleKey {key : Value} {s : List Char} (h : simpleKey? key = some s) :
    s.head? ≠ some ' ' := by
  unfold simpleKey? at h
  split at h
  · next hinline =>
    split at h
    · cases h
      exact head_of_inlineText hinline
    · cases h
  · cases h

theorem isLineBreak_iff {c : Char} :
    Style.isLineBreak c = true ↔ c ∈ ['\n', '\u2028', '\u2029', '\r', '\x85'] := by
  simp [Style.isLineBreak, isBreak, or_assoc]

theorem last_of_number {s : List Char} (h : s.all isNumberChar = true) :
    s.getLast?.any Style.isLineBreak = false := by
  cases hlast : s.getLast? with
  | none => rfl
  | some c =>
    cases hbreak : Style.isLineBreak c with
    | false => simpa using hbreak
    | true =>
      have hno := List.all_eq_true.mp
        (by decide : ['\n', '\u2028', '\u2029', '\r', '\x85'].all (!isNumberChar ·) = true) c
        (isLineBreak_iff.mp hbreak)
      exact absurd (List.mem_of_getLast? hlast) (not_mem_number h (by simpa using hno))

theorem last_singleBody (indent : Nat) (atStart : Bool) (s : List Char) :
    (singleBody indent atStart s).getLast? = some '\'' := by
  induction s generalizing atStart with
  | nil => simp [singleBody]
  | cons c s ih =>
    rw [singleBody]
    split
    · rw [List.getLast?_cons, ih]; rfl
    · split
      · rw [List.getLast?_cons, ih]; rfl
      · rw [List.getLast?_append, ih]; rfl

/-- Every scalar but a literal stays in its line. -/
theorem not_mem_scalarText {v : Value} (h : ∀ s, v = .str s → Style.ofString s ≠ .literal)
    (indent : Nat) : '\n' ∉ scalarText indent v := by
  unfold scalarText
  split
  · decide
  · split <;> decide
  · exact (oneLine_intText _).1
  · exact (oneLine_floatText _).1
  · next s =>
    by_cases hs : '\n' ∈ s
    · have hstyle := (ofString_of_mem hs).resolve_left (h s rfl)
      unfold stringText
      rw [hstyle]
      exact (oneLine_doubleText s).1
    · exact (oneLine_stringText hs indent).1
  · simp

/-- Every scalar but a literal ends within its line. -/
theorem last_scalarText {v : Value} (h : ∀ s, v = .str s → Style.ofString s ≠ .literal)
    (indent : Nat) : (scalarText indent v).getLast?.any Style.isLineBreak = false := by
  unfold scalarText
  split
  · decide
  · split <;> decide
  · exact last_of_number (number_intText _)
  · exact last_of_number (number_floatText _)
  · next s =>
    unfold stringText
    cases hstyle : Style.ofString s with
    | plain =>
      cases hlast : s.getLast? with
      | none => rfl
      | some c =>
        have hbreak := List.any_eq_false.mp (plain_spec hstyle).1 c (List.mem_of_getLast? hlast)
        simpa [hlast] using hbreak
    | single => simp only [singleText]; rw [List.getLast?_cons, last_singleBody]; decide
    | double => simp only [doubleText, List.getLast?_append]; rfl
    | literal => exact absurd hstyle (h s rfl)
  · rfl

theorem hints_chompText (s : List Char) : (chompText s).all isBlockHint = true := by
  unfold chompText
  split
  · decide
  · split
    · decide
    · split
      · decide
      · split <;> decide

theorem hints_literalHead (s : List Char) :
    ∃ hints, literalHead s = '|' :: hints ∧ ∀ c ∈ hints, isBlockHint c = true := by
  refine ⟨_, rfl, fun c hc => ?_⟩
  rcases List.mem_append.mp hc with hc | hc
  · split at hc
    · rw [List.mem_singleton.mp hc]
      decide
    · cases hc
  · exact List.all_eq_true.mp (hints_chompText s) c hc

theorem not_mem_literalHead (s : List Char) : '\n' ∉ literalHead s := by
  obtain ⟨hints, hhead, hhints⟩ := hints_literalHead s
  rw [hhead]
  intro hmem
  rcases List.mem_cons.mp hmem with h | h
  · cases h
  · exact absurd (hhints _ h) (by decide)

/-- One entry of a mapping. -/
def entryText (indent : Nat) (key value : Value) : List Char :=
  match simpleKey? key with
  | some s => s ++ ':' :: nodeText indent true false value
  | none =>
    '?' :: nodeText indent true true key ++ spaces indent ++ ':' :: nodeText indent true true value

theorem entriesText_cons (indent : Nat) (lead : List Char) (key value : Value)
    (entries : List (Value × Value)) :
    entriesText indent lead ((key, value) :: entries) =
      lead ++ entryText indent key value ++ entriesText indent (spaces indent) entries := by
  rw [entriesText]
  rfl

end FrontToc.Yaml
