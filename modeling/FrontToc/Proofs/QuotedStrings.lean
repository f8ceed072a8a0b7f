import FrontToc.Proofs.EscapedCharacters

/-!
# Strings in TOML are read back

A string is written in one of four forms, and each is read to its closing quotes as the text that it was
written for. Over several lines a run of one or two quotes belongs to the text, also right before the
three that close it.
-/
namespace FrontToc.Toml

open Text StringForm

theorem multilineBasicFrom_cons {c : Char} (not_return : c ≠ '\r') (esc : Escape)
    (text rest : List Char) :
    multilineBasicFrom esc text (c :: rest) =
      if esc = .outside || (esc = .afterBreak && !isSpace c && c ≠ '\n') then
        match closing? '"' (c :: rest) with
        | some (quotes, end_) => some (text.reverse ++ quotes, end_)
        | none =>
          if c = '\\' then multilineBasicFrom .opened text rest
          else if isTextChar c || c = '\n' then multilineBasicFrom .outside (c :: text) rest
          else none
      else
        match esc.step true c with
        | some (esc, x?) => multilineBasicFrom esc (x?.toList ++ text) rest
        | none => none := by
  rewrite [multilineBasicFrom]
  · rfl
  · intro _ same
    exact absurd same not_return

theorem multilineBasicFrom_outside {c : Char} (not_return : c ≠ '\r') (text rest : List Char) :
    multilineBasicFrom .outside text (c :: rest) =
      match closing? '"' (c :: rest) with
      | some (quotes, end_) => some (text.reverse ++ quotes, end_)
      | none =>
        if c = '\\' then multilineBasicFrom .opened text rest
        else if isTextChar c || c = '\n' then multilineBasicFrom .outside (c :: text) rest
        else none := by
  rw [multilineBasicFrom_cons not_return]
  exact if_pos rfl

theorem multilineLiteralFrom_cons {c : Char} (not_return : c ≠ '\r') (text rest : List Char) :
    multilineLiteralFrom text (c :: rest) =
      match closing? '\'' (c :: rest) with
      | some (quotes, end_) => some (text.reverse ++ quotes, end_)
      | none =>
        if isTextChar c || c = '\n' then multilineLiteralFrom (c :: text) rest else none := by
  rewrite [multilineLiteralFrom]
  · rfl
  · intro _ same
    exact absurd same not_return

theorem basicFrom_takes {esc : Escape} {s : List Char} {x : Char} (takes : esc.Takes false s x)
    (text rest : List Char) : basicFrom esc text (s ++ rest) = basicFrom .outside (x :: text) rest := by
  induction takes with
  | last step =>
    obtain ⟨inside, -, -⟩ := Escape.step_spec step (.inl rfl)
    simp [basicFrom, inside, step]
  | digit step _ ih =>
    obtain ⟨inside, -, -⟩ := Escape.step_spec step (.inr ⟨_, _, rfl⟩)
    rw [← ih]
    simp [basicFrom, inside, step]

theorem multilineBasicFrom_takes {esc : Escape} {s : List Char} {x : Char} (takes : esc.Takes true s x)
    (text rest : List Char) :
    multilineBasicFrom esc text (s ++ rest) = multilineBasicFrom .outside (x :: text) rest := by
  induction takes with
  | last step =>
    obtain ⟨inside, after, not_return⟩ := Escape.step_spec step (.inl rfl)
    rw [List.singleton_append, multilineBasicFrom_cons not_return]
    simp [inside, after, step]
  | digit step _ ih =>
    obtain ⟨inside, after, not_return⟩ := Escape.step_spec step (.inr ⟨_, _, rfl⟩)
    rw [← ih, List.cons_append, multilineBasicFrom_cons not_return]
    simp [inside, after, step]

/-- An escape is read, wherever it stands between double quotes. -/
theorem basicFrom_escape {s : List Char} {x : Char} (takes : Escape.opened.Takes false s x)
    (text rest : List Char) :
    basicFrom .outside text ('\\' :: s ++ rest) = basicFrom .outside (x :: text) rest := by
  calc
    basicFrom .outside text ('\\' :: s ++ rest) = basicFrom .opened text (s ++ rest) := by
      rw [List.cons_append, basicFrom, if_pos rfl, if_neg (by decide), if_pos rfl]
    _ = basicFrom .outside (x :: text) rest := basicFrom_takes takes text rest

/-- The text between double quotes is read as it was written. -/
theorem basicFrom_basicBody (s text rest : List Char) :
    basicFrom .outside text (basicBody false 0 s ++ '"' :: rest) = some (text.reverse ++ s, rest) := by
  induction s generalizing text with
  | nil => simp [basicBody, basicFrom]
  | cons c s ih =>
    have read : basicFrom .outside text (basicBody false 0 (c :: s) ++ '"' :: rest) =
        basicFrom .outside (c :: text) (basicBody false 0 s ++ '"' :: rest) := by
      by_cases quote : c = '"'
      · subst quote
        exact basicFrom_escape (Escape.takes_letter false rfl) text _
      · rcases basicBody_cons false 0 quote s with ⟨letters, takes, body⟩ | ⟨no_slash, -, char, body⟩
        · rw [body, List.append_assoc]
          exact basicFrom_escape takes text _
        · have text_char : isTextChar c = true := by simpa using char
          rw [body, List.cons_append, basicFrom, if_pos rfl, if_neg quote, if_neg no_slash,
            if_pos text_char]
    rw [read, ih, List.reverse_cons, List.append_assoc, List.singleton_append]

/-- The text between single quotes is read as it is. -/
theorem literalFrom_append {s : List Char} (chars : ∀ c ∈ s, isTextChar c = true ∧ c ≠ '\'')
    (text rest : List Char) :
    literalFrom text (s ++ '\'' :: rest) = some (text.reverse ++ s, rest) := by
  induction s generalizing text with
  | nil => simp [literalFrom]
  | cons c s ih =>
    obtain ⟨⟨text_char, no_quote⟩, others⟩ := List.forall_mem_cons.mp chars
    rw [List.cons_append, literalFrom, if_neg no_quote, if_pos text_char, ih others, List.reverse_cons,
      List.append_assoc, List.singleton_append]

/-- Three quotes close a string, with the one or two before them if it has nothing else left. -/
theorem closing_of_quotes {quote : Char} {body rest : List Char} (quotes : ∀ c ∈ body, c = quote)
    (short : body.length ≤ 2) (ends : ∀ c ∈ rest.head?, c ≠ quote) :
    closing? quote (body ++ [quote, quote, quote] ++ rest) = some (body, rest) := by
  have all_quotes : ∀ c ∈ body ++ [quote, quote, quote], decide (c = quote) = true := by
    intro c member
    rcases List.mem_append.mp member with member | member
    · exact decide_eq_true (quotes c member)
    · simpa using member
  have run : (body ++ [quote, quote, quote] ++ rest).takeWhile (· = quote) =
      body ++ [quote, quote, quote] := by
    apply takeWhile_append_run all_quotes
    intro c first
    exact decide_eq_false (ends c first)
  have size : (body ++ [quote, quote, quote]).length = body.length + 3 := by simp
  have same : List.replicate body.length quote = body := (List.eq_replicate_of_mem quotes).symm
  have extra : min (body.length + 3 - 3) 2 = body.length := by omega
  unfold closing?
  dsimp only
  rw [run, size, if_neg (by omega), extra, same, Nat.add_comm 3, ← size, List.drop_left]

/-- One or two quotes in front of other text do not close a string. -/
theorem closing_eq_none {quote : Char} {body : List Char} (other : ¬∀ c ∈ body, c = quote)
    (short : (body.takeWhile (· = quote)).length ≤ 2) (rest : List Char) :
    closing? quote (body ++ rest) = none := by
  have stops : (body.takeWhile (· = quote)).length ≠ body.length := by
    intro whole
    apply other
    intro c member
    rw [← (List.takeWhile_prefix _).eq_of_length whole] at member
    simpa using List.all_eq_true.mp List.all_takeWhile c member
  have run : (body ++ rest).takeWhile (· = quote) = body.takeWhile (· = quote) := by
    rw [List.takeWhile_append, if_neg stops]
  rw [closing?, run, if_pos (by omega)]

theorem takeWhile_of_quotes {quote : Char} {body : List Char} (quotes : ∀ c ∈ body, c = quote) :
    body.takeWhile (· = quote) = body := by
  induction body with
  | nil => rfl
  | cons c body ih =>
    obtain ⟨rfl, others⟩ := List.forall_mem_cons.mp quotes
    simp [ih others]

theorem basicBody_quote (run : Nat) (s : List Char) :
    basicBody true run ('"' :: s) =
      if run < 2 then '"' :: basicBody true (run + 1) s else '\\' :: '"' :: basicBody true 0 s := rfl

/-- The inside of three double quotes never holds more than two raw quotes in a row. -/
theorem quotes_basicBody (s : List Char) {run : Nat} (short : run ≤ 2) :
    ((basicBody true run s).takeWhile (· = '"')).length + run ≤ 2 := by
  induction s generalizing run with
  | nil => simpa [basicBody] using short
  | cons c s ih =>
    by_cases quote : c = '"'
    · subst quote
      rw [basicBody_quote]
      split
      · next below =>
        have later := @ih (run + 1) below
        simp only [List.takeWhile_cons, decide_true, if_true, List.length_cons]
        omega
      · simpa using short
    · rcases basicBody_cons true run quote s with ⟨letters, -, body⟩ | ⟨-, -, -, body⟩
      · simpa [body] using short
      · simpa [body, quote] using short

/-- A text that is written with quotes only is that run of quotes. -/
theorem basicBody_of_quotes {s : List Char} {run : Nat}
    (quotes : ∀ c ∈ basicBody true run s, c = '"') : basicBody true run s = s := by
  induction s generalizing run with
  | nil => rfl
  | cons c s ih =>
    by_cases quote : c = '"'
    · subst quote
      rw [basicBody_quote] at quotes ⊢
      split at quotes
      · next below =>
        rw [if_pos below, ih fun d member => quotes d (List.mem_cons_of_mem _ member)]
      · cases quotes '\\' List.mem_cons_self
    · rcases basicBody_cons true run quote s with ⟨letters, -, body⟩ | ⟨-, -, -, body⟩
      · rw [body] at quotes
        cases quotes '\\' (by simp)
      · rw [body] at quotes
        exact absurd (quotes c List.mem_cons_self) quote

/-- A string over several lines ends where its closing quotes are. -/
theorem multilineBasicFrom_closing {t quotes rest : List Char}
    (closing : closing? '"' t = some (quotes, rest)) (text : List Char) :
    multilineBasicFrom .outside text t = some (text.reverse ++ quotes, rest) := by
  cases t with
  | nil => cases closing
  | cons c t =>
    have not_return : c ≠ '\r' := by
      rintro rfl
      cases closing
    rw [multilineBasicFrom_outside not_return, closing]

theorem multilineBasicFrom_escape {s : List Char} {x : Char} (takes : Escape.opened.Takes true s x)
    (text rest : List Char) :
    multilineBasicFrom .outside text ('\\' :: s ++ rest) =
      multilineBasicFrom .outside (x :: text) rest := by
  have no_closing : closing? '"' ('\\' :: (s ++ rest)) = none := rfl
  rw [List.cons_append, multilineBasicFrom_outside (by decide), no_closing]
  exact multilineBasicFrom_takes takes text rest

theorem multilineBasicFrom_plain {c : Char} {rest : List Char} (no_return : c ≠ '\r')
    (no_slash : c ≠ '\\') (char : isTextChar c = true ∨ c = '\n')
    (no_closing : closing? '"' (c :: rest) = none) (text : List Char) :
    multilineBasicFrom .outside text (c :: rest) = multilineBasicFrom .outside (c :: text) rest := by
  rw [multilineBasicFrom_outside no_return, no_closing]
  simp [no_slash, char]

/-- One character between three double quotes, unless the string closes here. -/
theorem multilineBasicFrom_basicBody_cons {c : Char} {s rest : List Char} {run : Nat}
    (no_closing : closing? '"' (basicBody true run (c :: s) ++ rest) = none) (text : List Char) :
    ∃ next ≤ 2, multilineBasicFrom .outside text (basicBody true run (c :: s) ++ rest) =
      multilineBasicFrom .outside (c :: text) (basicBody true next s ++ rest) := by
  by_cases quote : c = '"'
  · subst quote
    rw [basicBody_quote] at no_closing ⊢
    split at no_closing
    · next below =>
      rw [if_pos below]
      exact ⟨run + 1, below, multilineBasicFrom_plain (by decide) (by decide) (.inl rfl) no_closing text⟩
    · next full =>
      rw [if_neg full]
      exact ⟨0, by decide, multilineBasicFrom_escape (Escape.takes_letter true rfl) text _⟩
  · refine ⟨0, by decide, ?_⟩
    rcases basicBody_cons true run quote s with
      ⟨letters, takes, body⟩ | ⟨no_slash, no_return, char, body⟩
    · rw [body, List.append_assoc]
      exact multilineBasicFrom_escape takes text _
    · rw [body] at no_closing ⊢
      exact multilineBasicFrom_plain no_return no_slash (by simpa using char) no_closing text

/-- The text between three double quotes is read as it was written. -/
theorem multilineBasicFrom_basicBody {s rest : List Char} {run : Nat} (short : run ≤ 2)
    (ends : ∀ c ∈ rest.head?, c ≠ '"') (text : List Char) :
    multilineBasicFrom .outside text (basicBody true run s ++ ['"', '"', '"'] ++ rest) =
      some (text.reverse ++ s, rest) := by
  induction s generalizing run text with
  | nil =>
    have no_quotes : ∀ c ∈ ([] : List Char), c = '"' := by simp
    exact multilineBasicFrom_closing (closing_of_quotes no_quotes (by decide) ends) text
  | cons c s ih =>
    have bounded := quotes_basicBody (c :: s) short
    by_cases quotes : ∀ d ∈ basicBody true run (c :: s), d = '"'
    · -- The quotes right before the closing ones are read with these at once.
      rw [takeWhile_of_quotes quotes] at bounded
      rw [multilineBasicFrom_closing (closing_of_quotes quotes (by omega) ends),
        basicBody_of_quotes quotes]
    · have no_closing := closing_eq_none quotes (by omega) (['"', '"', '"'] ++ rest)
      obtain ⟨next, short_next, read⟩ := multilineBasicFrom_basicBody_cons no_closing text
      rw [List.append_assoc]
      rw [read, ← List.append_assoc, ih short_next, List.reverse_cons, List.append_assoc,
        List.singleton_append]

/-- The quotes that a text begins with, and those before it, are a run of its quotes. -/
theorem quotes_of_longestRun {quote : Char} {s : List Char} {run n : Nat}
    (short : longestRun quote run s ≤ n) : (s.takeWhile (· = quote)).length + run ≤ n := by
  induction s generalizing run with
  | nil => simpa [longestRun] using short
  | cons c s ih =>
    rw [longestRun] at short
    split at short
    · next same =>
      have later := ih short
      simp only [same, List.takeWhile_cons, decide_true, if_true, List.length_cons]
      omega
    · next other =>
      simp only [other, List.takeWhile_cons, decide_false]
      simp
      omega

theorem longestRun_mono {quote : Char} {s : List Char} {run run' : Nat} (le : run ≤ run') :
    longestRun quote run s ≤ longestRun quote run' s := by
  induction s generalizing run run' with
  | nil => exact le
  | cons c s ih =>
    rw [longestRun, longestRun]
    split
    · exact ih (Nat.succ_le_succ le)
    · omega

theorem longestRun_tail (quote : Char) (run : Nat) (c : Char) (s : List Char) :
    longestRun quote 0 s ≤ longestRun quote run (c :: s) := by
  rw [longestRun]
  split
  · exact longestRun_mono (Nat.zero_le _)
  · exact Nat.le_max_right _ _

theorem multilineLiteralFrom_closing {t quotes rest : List Char}
    (closing : closing? '\'' t = some (quotes, rest)) (text : List Char) :
    multilineLiteralFrom text t = some (text.reverse ++ quotes, rest) := by
  cases t with
  | nil => cases closing
  | cons c t =>
    have not_return : c ≠ '\r' := by
      rintro rfl
      cases closing
    rw [multilineLiteralFrom_cons not_return, closing]

/-- The text between three single quotes is read as it is. -/
theorem multilineLiteralFrom_append {s rest : List Char} (short : longestRun '\'' 0 s ≤ 2)
    (chars : ∀ c ∈ s, needsCode c = false) (ends : ∀ c ∈ rest.head?, c ≠ '\'') (text : List Char) :
    multilineLiteralFrom text (s ++ ['\'', '\'', '\''] ++ rest) = some (text.reverse ++ s, rest) := by
  induction s generalizing text with
  | nil => exact multilineLiteralFrom_closing (closing_of_quotes (by simp) (by simp) ends) text
  | cons c s ih =>
    have bounded := quotes_of_longestRun short
    by_cases quotes : ∀ d ∈ c :: s, d = '\''
    · rw [takeWhile_of_quotes quotes] at bounded
      exact multilineLiteralFrom_closing (closing_of_quotes quotes (by omega) ends) text
    · have no_closing := closing_eq_none quotes (by omega) (['\'', '\'', '\''] ++ rest)
      obtain ⟨first, others⟩ := List.forall_mem_cons.mp chars
      have no_return : c ≠ '\r' := by
        rintro rfl
        cases first
      have char : (isTextChar c || c = '\n') = true := by
        by_cases feed : c = '\n'
        · simp [feed]
        · simp [isTextChar_of_needsCode first feed]
      rw [List.cons_append] at no_closing
      rw [List.append_assoc, List.cons_append, multilineLiteralFrom_cons no_return, no_closing]
      dsimp only
      rw [if_pos char, ← List.append_assoc,
        ih (Nat.le_trans (longestRun_tail '\'' 0 c s) short) others, List.reverse_cons, List.append_assoc,
        List.singleton_append]

theorem not_mem_of_longestRun {quote : Char} {s : List Char} (none_there : longestRun quote 0 s = 0) :
    quote ∉ s := by
  induction s with
  | nil => simp
  | cons c s ih =>
    have bounded := quotes_of_longestRun (Nat.le_of_eq none_there)
    have other : c ≠ quote := by
      rintro rfl
      simp at bounded
    have tail := longestRun_tail quote 0 c s
    have later := ih (by omega)
    simp [other.symm, later]

/-- Single quotes are put around a text that is not empty and holds no quote and no control character. -/
theorem ofString_literal {s : List Char} (form : StringForm.ofString s = .literal) :
    s ≠ [] ∧ ∀ c ∈ s, isTextChar c = true ∧ c ≠ '\'' := by
  have facts : (∀ c ∈ s, needsCode c = false) ∧ longestRun '\'' 0 s = 0 ∧ '\n' ∉ s := by
    simp only [StringForm.ofString] at form
    grind
  obtain ⟨no_code, no_quote, no_feed⟩ := facts
  constructor
  · rintro rfl
    cases form
  · intro c member
    have not_feed : c ≠ '\n' := fun feed => no_feed (feed ▸ member)
    have not_quote : c ≠ '\'' := fun quote => not_mem_of_longestRun no_quote (quote ▸ member)
    exact ⟨isTextChar_of_needsCode (no_code c member) not_feed, not_quote⟩

/-- Three single quotes are put around a text without control characters and with at most two single
quotes in a row. -/
theorem ofString_multilineLiteral {s : List Char} (form : StringForm.ofString s = .multilineLiteral) :
    longestRun '\'' 0 s ≤ 2 ∧ ∀ c ∈ s, needsCode c = false := by
  simp only [StringForm.ofString] at form
  grind

/-- The line break that is written before a text with line breaks does not count. -/
theorem dropBreak_lead {s body : List Char}
    (head : '\n' ∉ s → ∀ c ∈ body.head?, c ≠ '\n' ∧ c ≠ '\r') :
    dropBreak ((if '\n' ∈ s then ['\n'] else []) ++ body) = body := by
  split
  · rfl
  · next no_feed =>
    rw [List.nil_append]
    unfold dropBreak
    split
    · exact absurd rfl (head no_feed '\r' rfl).2
    · exact absurd rfl (head no_feed '\n' rfl).1
    · rfl

/-- A string in double quotes begins with one, not with three. -/
theorem string_basic {t : List Char} (single : ¬['"', '"'] <+: t) :
    string? ('"' :: t) = basicFrom .outside [] t := by
  unfold string?
  split
  · next rest same =>
    obtain rfl := (List.cons.inj same).2
    exact absurd ⟨rest, rfl⟩ single
  · next rest _ same => rw [(List.cons.inj same).2]
  · next same => cases same
  · next same => cases same
  · next _ no_quote _ _ => exact absurd rfl (no_quote t)

theorem string_literal {t : List Char} (single : ¬['\'', '\''] <+: t) :
    string? ('\'' :: t) = literalFrom [] t := by
  unfold string?
  split
  · next same => cases same
  · next same => cases same
  · next rest same =>
    obtain rfl := (List.cons.inj same).2
    exact absurd ⟨rest, rfl⟩ single
  · next rest _ same => rw [(List.cons.inj same).2]
  · next no_quote => exact absurd rfl (no_quote t)

/-- What is written between double quotes begins with a quote only where a quote can stand. -/
theorem not_quotes_basicBody (s rest : List Char) (ends : ∀ c ∈ rest.head?, c ≠ '"') :
    ¬['"', '"'] <+: basicBody false 0 s ++ '"' :: rest := by
  rintro ⟨t, same⟩
  cases s with
  | nil =>
    obtain rfl : '"' :: t = rest := (List.cons.inj same).2
    exact ends '"' rfl rfl
  | cons c s =>
    by_cases quote : c = '"'
    · subst quote
      cases same
    · rcases basicBody_cons false 0 quote s with ⟨letters, -, body⟩ | ⟨-, -, -, body⟩
      · rw [body] at same
        cases same
      · rw [body] at same
        exact quote (List.cons.inj same).1.symm

/-- What is written between three double quotes begins with a line break only where the text does. -/
theorem head_basicBody {s : List Char} (no_feed : '\n' ∉ s) (rest : List Char) :
    ∀ c ∈ (basicBody true 0 s ++ '"' :: rest).head?, c ≠ '\n' ∧ c ≠ '\r' := by
  intro d first
  cases s with
  | nil =>
    cases first
    decide
  | cons c s =>
    by_cases quote : c = '"'
    · subst quote
      cases first
      decide
    · rcases basicBody_cons true 0 quote s with ⟨letters, -, body⟩ | ⟨-, no_return, -, body⟩
      · rw [body] at first
        cases first
        decide
      · rw [body] at first
        cases first
        exact ⟨fun feed => no_feed (feed ▸ List.mem_cons_self), no_return⟩

section

variable {s rest : List Char}

theorem string_basicText (ends : ∀ c ∈ rest.head?, c ≠ '"') :
    string? ('"' :: (basicBody false 0 s ++ '"' :: rest)) = some (s, rest) := by
  rw [string_basic (not_quotes_basicBody s rest ends), basicFrom_basicBody]
  rfl

theorem string_literalText (form : StringForm.ofString s = .literal) :
    string? ('\'' :: (s ++ '\'' :: rest)) = some (s, rest) := by
  obtain ⟨ne, chars⟩ := ofString_literal form
  have single : ¬['\'', '\''] <+: s ++ '\'' :: rest := by
    rintro ⟨t, same⟩
    cases s with
    | nil => exact ne rfl
    | cons c s => exact (chars c List.mem_cons_self).2 (List.cons.inj same).1.symm
  rw [string_literal single, literalFrom_append chars]
  rfl

theorem string_multilineBasicText (ends : ∀ c ∈ rest.head?, c ≠ '"') :
    string? ('"' :: '"' :: '"' :: ((if '\n' ∈ s then ['\n'] else []) ++
      (basicBody true 0 s ++ '"' :: '"' :: '"' :: rest))) = some (s, rest) := by
  have inside := dropBreak_lead fun no_feed : '\n' ∉ s => head_basicBody no_feed ('"' :: '"' :: rest)
  have read := multilineBasicFrom_basicBody (Nat.zero_le 2) ends [] (s := s)
  rw [List.append_assoc] at read
  rw [string?, inside]
  exact read

theorem string_multilineLiteralText (form : StringForm.ofString s = .multilineLiteral)
    (ends : ∀ c ∈ rest.head?, c ≠ '\'') :
    string? ('\'' :: '\'' :: '\'' :: ((if '\n' ∈ s then ['\n'] else []) ++
      (s ++ '\'' :: '\'' :: '\'' :: rest))) = some (s, rest) := by
  obtain ⟨short, chars⟩ := ofString_multilineLiteral form
  have inside : dropBreak ((if '\n' ∈ s then ['\n'] else []) ++ (s ++ '\'' :: '\'' :: '\'' :: rest)) =
      s ++ '\'' :: '\'' :: '\'' :: rest := by
    apply dropBreak_lead
    intro no_feed c first
    cases s with
    | nil =>
      cases first
      decide
    | cons d s =>
      cases first
      refine ⟨fun feed => no_feed (feed ▸ List.mem_cons_self), ?_⟩
      rintro rfl
      cases chars '\r' List.mem_cons_self
  have read := multilineLiteralFrom_append short chars ends []
  rw [List.append_assoc] at read
  rw [string?, inside]
  exact read

end

/-- A written string is read back, whatever follows that is no quote. -/
theorem string_stringText (s : List Char) {rest : List Char}
    (ends : ∀ c ∈ rest.head?, c ≠ '"' ∧ c ≠ '\'') : string? (stringText s ++ rest) = some (s, rest) := by
  have no_double : ∀ c ∈ rest.head?, c ≠ '"' := fun c first => (ends c first).1
  have no_single : ∀ c ∈ rest.head?, c ≠ '\'' := fun c first => (ends c first).2
  unfold stringText
  dsimp only
  split
  · next form => simpa using string_basicText (s := s) no_double
  · next form => simpa using string_literalText form
  · next form => simpa using string_multilineBasicText (s := s) no_double
  · next form => simpa using string_multilineLiteralText form no_single

end FrontToc.Toml
