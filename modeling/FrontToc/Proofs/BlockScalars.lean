import FrontToc.Proofs.ScanRuns
import FrontToc.Proofs.ThinnedText

/-!
# The end of a literal

The lines of a written literal are empty or indented, also once blank lines have been left out. What is
read of them ends at the line below the literal, or else at a line that is indented deeper than what
the literal belongs to: this comes about if the line that told the indentation has been left out.
-/
namespace FrontToc.Yaml.Token

open Text

theorem join_physicalLines (s : List Char) : PhysicalLine.join (physicalLines s) = s := by
  induction s with
  | nil => rfl
  | cons c s ih =>
    rw [physicalLines]
    split
    · simpa [PhysicalLine.join] using ih
    · split
      · next hs =>
        rw [hs] at ih
        rw [← ih]
        rfl
      · next l ls hs =>
        rw [hs] at ih
        rw [← ih]
        rfl

/-- A line holds no break but the one that ends it. -/
theorem physicalLine_spec {s : List Char} {l : PhysicalLine} (h : l ∈ physicalLines s) :
    (∀ c ∈ l.content, isBreak c = false) ∧ ∀ b, l.ending = some b → isBreak b = true := by
  induction s generalizing l with
  | nil => cases h
  | cons c s ih =>
    rw [physicalLines] at h
    split at h
    · next hbreak =>
      rcases List.mem_cons.mp h with rfl | h
      · simpa using hbreak
      · exact ih h
    · next hbreak =>
      split at h
      · rw [List.mem_singleton.mp h]
        simpa using hbreak
      · next l ls hs =>
        rw [hs] at ih
        rcases List.mem_cons.mp h with rfl | h
        · obtain ⟨hcontent, hending⟩ := ih List.mem_cons_self
          simpa [hbreak] using ⟨hcontent, hending⟩
        · exact ih (List.mem_cons_of_mem _ h)

/-- A text that ends in a break has only lines that do. -/
theorem ending_of_last {s : List Char} (h : ∀ c, s.getLast? = some c → isBreak c = true)
    {l : PhysicalLine} (hl : l ∈ physicalLines s) : l.ending.isSome = true := by
  induction s generalizing l with
  | nil => cases hl
  | cons c s ih =>
    have htail : ∀ d, s.getLast? = some d → isBreak d = true := by
      intro d hd
      exact h d (by rw [List.getLast?_cons, hd]; rfl)
    rw [physicalLines] at hl
    split at hl
    · rcases List.mem_cons.mp hl with rfl | hl
      · rfl
      · exact ih htail hl
    · next hbreak =>
      split at hl
      · next hs =>
        have hnil : s = [] := by rw [← join_physicalLines s, hs]; rfl
        subst hnil
        exact absurd (h c rfl) hbreak
      · next l ls hs =>
        rw [hs] at ih
        rcases List.mem_cons.mp hl with rfl | hl
        · exact ih (l := l) htail List.mem_cons_self
        · exact ih htail (List.mem_cons_of_mem _ hl)

theorem physicalLines_append {s : List Char} (t : List Char)
    (h : ∀ l ∈ physicalLines s, l.ending.isSome = true) :
    physicalLines (s ++ t) = physicalLines s ++ physicalLines t := by
  induction s with
  | nil => rfl
  | cons c s ih =>
    rw [List.cons_append, physicalLines, physicalLines]
    rw [physicalLines] at h
    split
    · next hbreak =>
      rw [if_pos hbreak] at h
      rw [ih fun l hl => h l (List.mem_cons_of_mem _ hl)]
      rfl
    · next hbreak =>
      rw [if_neg hbreak] at h
      cases hs : physicalLines s with
      | nil =>
        rw [hs] at h
        cases h _ List.mem_cons_self
      | cons l ls =>
        simp only [hs, List.forall_mem_cons] at h ih
        rw [ih h]
        rfl

theorem mem_physicalLines_append {l : List Char} {s : List Char} {x : PhysicalLine}
    (h : x ∈ physicalLines s) : x ∈ physicalLines (l ++ '\n' :: s) := by
  have hclosed : ∀ y ∈ physicalLines (l ++ ['\n']), y.ending.isSome = true := fun y hy =>
    ending_of_last (fun c hc => by rw [List.getLast?_concat] at hc; cases hc; rfl) hy
  have happend := physicalLines_append s hclosed
  rw [List.append_assoc] at happend
  rw [List.cons_append, List.nil_append] at happend
  rw [happend]
  exact List.mem_append_right _ h

end FrontToc.Yaml.Token

namespace FrontToc

open Yaml.Token

/-- Leaving out blank lines leaves no line that was not there. The line that has begun stays. -/
theorem Thinned.mem_physicalLines {atStart : Bool} {s t : List Char} (h : Thinned atStart s t) :
    (∀ l ∈ physicalLines t, l ∈ physicalLines s) ∧
      (atStart = false → (physicalLines t).head? = (physicalLines s).head? ∧
        ∀ l ∈ (physicalLines t).tail, l ∈ (physicalLines s).tail) := by
  have hmem : ∀ {ls ms : List PhysicalLine}, ms.head? = ls.head? → (∀ l ∈ ms.tail, l ∈ ls.tail) →
      ∀ l ∈ ms, l ∈ ls := by
    intro ls ms hhead htail l hl
    cases ms with
    | nil => cases hl
    | cons m ms =>
      cases ls with
      | nil => cases hhead
      | cons l' ls =>
        cases hhead
        rcases List.mem_cons.mp hl with rfl | hl
        · exact List.mem_cons_self
        · exact List.mem_cons_of_mem _ (htail l hl)
  induction h with
  | nil => simp
  | keep b c h ih =>
    rename_i s t
    have hkeep : (physicalLines (c :: t)).head? = (physicalLines (c :: s)).head? ∧
        ∀ l ∈ (physicalLines (c :: t)).tail, l ∈ (physicalLines (c :: s)).tail := by
      rw [Yaml.Token.physicalLines.eq_2, Yaml.Token.physicalLines.eq_2]
      split
      · exact ⟨rfl, ih.1⟩
      · next hbreak =>
        have hc : decide (c = '\n') = false := decide_eq_false fun he => hbreak (he ▸ rfl)
        obtain ⟨hhead, htail⟩ := ih.2 hc
        cases ht : physicalLines t with
        | nil =>
          rw [ht, eq_comm, List.head?_nil, List.head?_eq_none_iff] at hhead
          rw [hhead]
          simp
        | cons l ls =>
          cases hs : physicalLines s with
          | nil => simp [ht, hs] at hhead
          | cons l' ls' =>
            rw [ht, hs] at hhead htail
            cases hhead
            exact ⟨rfl, htail⟩
    exact ⟨hmem hkeep.1 hkeep.2, fun _ => hkeep⟩
  | drop hl hblank h ih => exact ⟨fun l hl => mem_physicalLines_append (ih.1 l hl), by simp⟩

end FrontToc

namespace FrontToc.Yaml.Token

open Text

/-- A line with a break at its end that is empty or indented to `m`. -/
structure DeepLine (m : Nat) (l : PhysicalLine) : Prop where
  ended : ∃ b, l.ending = some b ∧ isBreak b = true
  unbroken : ∀ c ∈ l.content, isBreak c = false
  deep : l.content = [] ∨ ∃ rest, l.content = spaces m ++ rest

theorem leadingSpaces_spaces (n : Nat) (s : List Char) :
    leadingSpaces (spaces n ++ s) = n + leadingSpaces s := by
  rw [leadingSpaces, spaces, List.takeWhile_append_of_pos (by simp), List.length_append]
  simp [leadingSpaces]

theorem isBreak_of_plain {c : Char} (h : Style.isPlainChar c = true) :
    Style.isLineBreak c = isBreak c := by
  have hr : c ≠ '\r' := by rintro rfl; cases h
  have hn : c ≠ '\x85' := by rintro rfl; cases h
  simp [Style.isLineBreak, hr, hn]

/-- Text without a break begins the first line. -/
theorem physicalLines_prefix {c : Char} {p : List Char} (hp : ∀ d ∈ c :: p, isBreak d = false)
    (s : List Char) : ∃ rest ending, physicalLines (c :: p ++ s) =
      ⟨c :: p ++ rest, ending⟩ :: (physicalLines s).tail := by
  induction p generalizing c with
  | nil =>
    rw [List.singleton_append, physicalLines, if_neg (by simpa using hp)]
    cases physicalLines s with
    | nil => exact ⟨[], none, rfl⟩
    | cons l ls => exact ⟨l.content, l.ending, rfl⟩
  | cons d p ih =>
    obtain ⟨rest, ending, h⟩ := ih fun e he => hp e (List.mem_cons_of_mem _ he)
    refine ⟨rest, ending, ?_⟩
    rw [List.cons_append, physicalLines, if_neg (by simp [hp c List.mem_cons_self]), h]
    rfl

/-- The lines of a written literal, those after the first if that has begun. -/
theorem deep_literalBody {indent : Nat} {s more : List Char} (hs : s.all Style.isPlainChar = true)
    (hmore : ∀ l ∈ physicalLines more, l.content = []) :
    (∀ l ∈ physicalLines (literalBody indent true s ++ more),
      l.content = [] ∨ ∃ rest, l.content = spaces indent ++ rest) ∧
    ∀ l ∈ (physicalLines (literalBody indent false s ++ more)).tail,
      l.content = [] ∨ ∃ rest, l.content = spaces indent ++ rest := by
  induction s with
  | nil =>
    exact ⟨fun l hl => .inl (hmore l hl), fun l hl => .inl (hmore l (List.mem_of_mem_tail hl))⟩
  | cons c s ih =>
    simp only [List.all_cons, Bool.and_eq_true] at hs
    obtain ⟨hlines, htail⟩ := ih hs.2
    simp only [literalBody, isBreak_of_plain hs.1]
    cases hbreak : isBreak c with
    | true =>
      rw [if_pos rfl, if_pos rfl, List.cons_append, physicalLines, if_pos hbreak]
      refine ⟨fun l hl => ?_, hlines⟩
      rcases List.mem_cons.mp hl with rfl | hl
      · exact .inl rfl
      · exact hlines l hl
    | false =>
      simp only [Bool.false_eq_true, if_false, if_true, List.nil_append]
      constructor
      · have hlead : ∀ d ∈ spaces indent ++ [c], isBreak d = false := by
          intro d hd
          rcases List.mem_append.mp hd with hd | hd
          · rw [List.eq_of_mem_replicate hd]
            rfl
          · rwa [List.mem_singleton.mp hd]
        obtain ⟨d, p, hp⟩ := List.exists_cons_of_ne_nil (show spaces indent ++ [c] ≠ [] by simp)
        obtain ⟨rest, ending, h⟩ := physicalLines_prefix (hp ▸ hlead) (literalBody indent false s ++ more)
        rw [← hp] at h
        simp only [List.append_assoc, List.cons_append, List.nil_append] at h ⊢
        rw [h]
        intro l hl
        rcases List.mem_cons.mp hl with rfl | hl
        · exact .inr ⟨_, rfl⟩
        · exact htail l hl
      · obtain ⟨rest, ending, h⟩ := physicalLines_prefix (c := c) (p := []) (by simpa using hbreak)
          (literalBody indent false s ++ more)
        rw [List.singleton_append] at h
        rw [List.cons_append, h]
        exact htail

theorem plain_literalBody {indent : Nat} {s : List Char} (hs : s.all Style.isPlainChar = true)
    (atStart : Bool) : (literalBody indent atStart s).all Style.isPlainChar = true := by
  induction s generalizing atStart with
  | nil => rfl
  | cons c s ih =>
    simp only [List.all_cons, Bool.and_eq_true] at hs
    rw [literalBody]
    split
    · simp [hs.1, ih hs.2]
    · have hlead : (if atStart then spaces indent else []).all Style.isPlainChar = true := by
        cases atStart
        · rfl
        · simp [spaces, Style.isPlainChar]
      simp [hlead, hs.1, ih hs.2]

/-- The text of a literal up to the end of its last line. -/
theorem endLine_literalText (indent : Nat) {s : List Char} (hs : s.all Style.isPlainChar = true) :
    ∃ more, endLine (literalText indent s) =
        literalHead s ++ '\n' :: (literalBody indent true s ++ more) ∧
      (∀ l ∈ physicalLines more, l.content = []) ∧
      ∀ c, (literalBody indent true s ++ more).getLast? = some c → isBreak c = true := by
  unfold endLine
  split
  · next hlast =>
    refine ⟨[], by rw [literalText, List.append_nil], by simp [physicalLines], fun c hc => ?_⟩
    rw [List.append_nil] at hc
    rw [literalText, List.getLast?_append, List.getLast?_cons, hc] at hlast
    have hplain := List.all_eq_true.mp (plain_literalBody hs true) c (List.mem_of_getLast? hc)
    rw [← isBreak_of_plain hplain]
    simpa using hlast
  · refine ⟨['\n'], by simp [literalText], by simp [physicalLines, isBreak], fun c hc => ?_⟩
    rw [List.getLast?_concat] at hc
    cases hc
    rfl

/-- The lines of a literal, also once blank lines have been left out. -/
theorem deep_of_thinned {indent : Nat} {s more body : List Char} (hs : s.all Style.isPlainChar = true)
    (hmore : ∀ l ∈ physicalLines more, l.content = [])
    (hlast : ∀ c, (literalBody indent true s ++ more).getLast? = some c → isBreak c = true)
    (thin : Thinned true (literalBody indent true s ++ more) body) :
    ∀ l ∈ physicalLines body, DeepLine indent l := by
  intro l hl
  have hmem := thin.mem_physicalLines.1 l hl
  obtain ⟨hunbroken, hbreak⟩ := physicalLine_spec hmem
  obtain ⟨b, hb⟩ := Option.isSome_iff_exists.mp (ending_of_last hlast hmem)
  exact ⟨⟨b, hb, hbreak b hb⟩, hunbroken, (deep_literalBody hs hmore).1 l hmem⟩

/-- The sign for line breaks is one of three texts. -/
theorem chompText_cases (s : List Char) : chompText s = [] ∨ chompText s = ['-'] ∨ chompText s = ['+'] := by
  unfold chompText
  split
  · simp
  · split
    · simp
    · split
      · simp
      · split <;> simp

theorem blockHead_literalHead (s rest : List Char) : ∃ chomp digit,
    blockHead? ((literalHead s ++ '\n' :: rest).drop 1) = some (chomp, digit, '\n' :: rest) ∧
      (digit = none ∨ digit = some 2) := by
  unfold literalHead
  rcases chompText_cases s with h | h | h <;> rw [h] <;> split
  · exact ⟨.clip, some 2, rfl, .inr rfl⟩
  · exact ⟨.clip, none, rfl, .inl rfl⟩
  · exact ⟨.strip, some 2, rfl, .inr rfl⟩
  · exact ⟨.strip, none, rfl, .inl rfl⟩
  · exact ⟨.keep, some 2, rfl, .inr rfl⟩
  · exact ⟨.keep, none, rfl, .inl rfl⟩

theorem le_blockIndent {least n : Nat} {ls : List PhysicalLine} (h : blockIndent? least ls = some n) :
    least ≤ n := by
  induction ls generalizing least with
  | nil => exact Nat.le_of_eq (Option.some.inj h)
  | cons l ls ih =>
    rw [blockIndent?] at h
    split at h
    · cases h
    · split at h
      · exact Nat.le_trans (Nat.le_max_left _ _) (ih h)
      · rw [← Option.some.inj h]
        exact Nat.le_max_left _ _

/-- A literal takes lines at an indentation that is not less than `least`. -/
theorem readBlock_literal {least line column : Nat} {s rest : List Char} {found : Read}
    (h : readBlock false least ⟨literalHead s ++ '\n' :: rest, line, column⟩ = some found) :
    ∃ indent lines, least ≤ indent ∧ blockLines? indent (physicalLines rest) = some lines ∧
      found.cursor.rest = PhysicalLine.join lines.after ∧ found.cursor.column = lines.column := by
  obtain ⟨chomp, digit, hhead, hdigit⟩ := blockHead_literalHead s rest
  have hend : ∀ column, ∃ column', (Cursor.mk ('\n' :: rest) line column).skipLineTail =
      ⟨'\n' :: rest, line, column'⟩ := fun column => ⟨_, rfl⟩
  obtain ⟨column', hend⟩ := hend (column + ((literalHead s ++ '\n' :: rest).length - ('\n' :: rest).length))
  have hstart : (Cursor.mk ('\n' :: rest) line column').skipBreak = ⟨rest, line + 1, 0⟩ := rfl
  unfold readBlock at h
  rw [hhead] at h
  simp only [Cursor.moveTo, hend, hstart, Cursor.atLineEnd] at h
  rw [if_pos (show isBreak '\n' = true from rfl)] at h
  split at h
  · cases h
  · next indent hindent =>
    split at h
    · cases h
    · next lines hlines =>
      refine ⟨indent, lines, ?_, hlines, by rw [← Option.some.inj h], by rw [← Option.some.inj h]⟩
      rcases hdigit with rfl | rfl
      · exact Nat.le_trans (Nat.le_max_left _ _) (le_blockIndent hindent)
      · simp only [Option.some.injEq] at hindent
        omega

/-- Of lines that are deep only what follows them is left, or they end a literal within. -/
theorem blockLines_deep {m indent : Nat} {ls us : List PhysicalLine} (hls : ∀ l ∈ ls, DeepLine m l)
    {found : BlockLines} (h : blockLines? indent (ls ++ us) = some found) :
    (∃ below, blockLines? indent us = some below ∧ found.after = below.after ∧
        found.column = below.column) ∨
      ∃ content b more, found.after = ⟨content, some b⟩ :: (more ++ us) ∧ (∀ l ∈ more, DeepLine m l) ∧
        m ≤ found.column ∧ isBreak b = true ∧ ∀ c ∈ content, isBreak c = false := by
  induction ls generalizing found with
  | nil => exact .inl ⟨found, h, rfl, rfl⟩
  | cons l ls ih =>
    simp only [List.forall_mem_cons] at hls
    obtain ⟨⟨⟨b, hb, hbreak⟩, hunbroken, hdeep⟩, hls⟩ := hls
    rw [List.cons_append, blockLines?] at h
    split at h
    · cases h
    · split at h
      · obtain ⟨found, hfound, rfl⟩ := Option.map_eq_some_iff.mp h
        have hrest := ih hls hfound
        exact hrest
      · next hending =>
        rw [hb] at hending
        cases hending
      · next c cs hcontent =>
        split at h
        · next hless =>
          cases h
          refine .inr ⟨c :: cs, b, ls, by rw [hb], hls, ?_, hbreak, fun d hd => ?_⟩
          · rcases hdeep with hnil | ⟨rest, hrest⟩
            · rw [hnil] at hcontent
              simp at hcontent
            · rw [hrest, leadingSpaces_spaces] at hless ⊢
              simp only
              omega
          · exact hunbroken d (List.mem_of_mem_drop (hcontent ▸ hd))
        · obtain ⟨found, hfound, rfl⟩ := Option.map_eq_some_iff.mp h
          have hrest := ih hls hfound
          exact hrest

/-- The line below a literal. -/
theorem blockLines_below {indent n : Nat} (hn : n < indent) {c : Char} (hspace : isSpace c = false)
    (hbreak : isBreak c = false) (text : List Char) {found : BlockLines}
    (h : blockLines? indent (physicalLines (spaces n ++ c :: text)) = some found) :
    PhysicalLine.join found.after = c :: text ∧ found.column = n := by
  have hlead : ∀ d ∈ spaces n ++ [c], isBreak d = false := by
    intro d hd
    rcases List.mem_append.mp hd with hd | hd
    · rw [List.eq_of_mem_replicate hd]
      rfl
    · rwa [List.mem_singleton.mp hd]
  obtain ⟨d, p, hp⟩ := List.exists_cons_of_ne_nil (show spaces n ++ [c] ≠ [] by simp)
  obtain ⟨rest, ending, hlines⟩ := physicalLines_prefix (hp ▸ hlead) text
  rw [← hp] at hlines
  simp only [List.append_assoc, List.cons_append, List.nil_append] at hlines
  have hc : c ≠ ' ' := by rintro rfl; cases hspace
  have htab : c ≠ '\t' := by rintro rfl; cases hspace
  have hcount : leadingSpaces (spaces n ++ c :: rest) = n := by
    rw [leadingSpaces_spaces]
    simp [leadingSpaces, hc]
  have hjoin := join_physicalLines (spaces n ++ c :: text)
  have hdrop : (spaces n ++ c :: rest).drop n = c :: rest := List.drop_left' (by simp [spaces])
  rw [hlines] at hjoin h
  simp [blockLines?, hcount, Nat.min_eq_right (Nat.le_of_lt hn), hdrop, hn, htab] at h
  subst h
  refine ⟨List.append_cancel_left (?_ : spaces n ++ _ = spaces n ++ _), rfl⟩
  rw [← hjoin]
  simp [PhysicalLine.join]

end FrontToc.Yaml.Token

namespace FrontToc.Yaml.Token.Scan

open Text

theorem skipSpace_comment {s : List Char} {b : Char} (hs : ∀ c ∈ s, isBreak c = false)
    (hb : isBreak b = true) (line column : Nat) (rest : List Char) :
    skipSpace false true true line column (s ++ b :: rest) =
      skipSpace false true false (line + 1) 0 rest := by
  induction s generalizing column with
  | nil => simp [skipSpace, hb]
  | cons c s ih =>
    have hc := hs c List.mem_cons_self
    rw [List.cons_append, skipSpace, if_neg (by simp [hc]), if_pos rfl]
    exact ih (fun d hd => hs d (List.mem_cons_of_mem _ hd)) _

/-- The rest of a line that has begun is skipped, or a token begins in it. -/
theorem skipSpace_line {s : List Char} {b : Char} (hs : ∀ c ∈ s, isBreak c = false)
    (hb : isBreak b = true) (line : Nat) {column : Nat} (hcolumn : 0 < column) (rest : List Char) :
    skipSpace false true false line column (s ++ b :: rest) =
        skipSpace false true false (line + 1) 0 rest ∨
      ∃ c text column', column ≤ column' ∧
        skipSpace false true false line column (s ++ b :: rest) = (⟨c :: text, line, column'⟩, true) := by
  induction s generalizing column with
  | nil => exact .inl (by simp [skipSpace, hb])
  | cons c s ih =>
    have hc := hs c List.mem_cons_self
    have hrest := fun d hd => hs d (List.mem_cons_of_mem _ hd)
    rw [List.cons_append, skipSpace, if_neg (by simp [hc]), if_neg (by simp),
      if_neg (by simp [Nat.ne_of_gt hcolumn])]
    split
    · rcases ih hrest (Nat.succ_pos column) with h | ⟨d, text, column', hle, h⟩
      · exact .inl h
      · exact .inr ⟨d, text, column', Nat.le_of_succ_le hle, h⟩
    · split
      · exact .inl (skipSpace_comment hrest hb _ _ _)
      · exact .inr ⟨c, _, column, Nat.le_refl _, rfl⟩

/-- Deep lines are skipped, or a token begins in one of them. -/
theorem skipSpace_deep {m : Nat} (hm : 0 < m) {ls : List PhysicalLine} (hls : ∀ l ∈ ls, DeepLine m l)
    (line : Nat) (rest : List Char) :
    ∃ line', skipSpace false true false line 0 (PhysicalLine.join ls ++ rest) =
        skipSpace false true false line' 0 rest ∨
      ∃ c text column', m ≤ column' ∧
        skipSpace false true false line 0 (PhysicalLine.join ls ++ rest) =
          (⟨c :: text, line', column'⟩, true) := by
  induction ls generalizing line with
  | nil => exact ⟨line, .inl rfl⟩
  | cons l ls ih =>
    simp only [List.forall_mem_cons] at hls
    obtain ⟨⟨⟨b, hb, hbreak⟩, hunbroken, hdeep⟩, hls⟩ := hls
    have hjoin : PhysicalLine.join (l :: ls) ++ rest =
        l.content ++ b :: (PhysicalLine.join ls ++ rest) := by simp [PhysicalLine.join, hb]
    rw [hjoin]
    rcases hdeep with hnil | ⟨text, htext⟩
    · obtain ⟨line', h⟩ := ih hls (line + 1)
      refine ⟨line', ?_⟩
      rw [hnil, List.nil_append, skipSpace, if_pos hbreak]
      exact h
    · have hrest : ∀ c ∈ text, isBreak c = false := fun c hc =>
        hunbroken c (htext ▸ List.mem_append_right _ hc)
      rw [htext, List.append_assoc, skipSpace_spaces, Nat.zero_add]
      rcases skipSpace_line hrest hbreak line hm (PhysicalLine.join ls ++ rest) with h | h
      · rw [h]
        exact ih hls (line + 1)
      · exact ⟨line, .inr h⟩

/-- After the lines of a literal that have been read, the scanner goes on with the text below the
literal, or within the lines that have been left. -/
theorem skipSpace_literal {m indent n : Nat} (hm : 0 < m) {ls : List PhysicalLine}
    (hls : ∀ l ∈ ls, DeepLine m l) {text : List Char}
    (htext : text = [] ∧ n = 0 ∨ n < indent ∧ ∃ c t, text = c :: t ∧ isSpace c = false ∧
      isBreak c = false ∧ c ≠ '#' ∧ c ≠ byteOrderMark)
    {found : BlockLines} (h : blockLines? indent (ls ++ physicalLines (spaces n ++ text)) = some found)
    (line : Nat) :
    ∃ line', skipSpace false true false line found.column (PhysicalLine.join found.after) =
        (⟨text, line', n⟩, true) ∨
      ∃ c rest column, m ≤ column ∧
        skipSpace false true false line found.column (PhysicalLine.join found.after) =
          (⟨c :: rest, line', column⟩, true) := by
  have hskip : ∀ line column, skipSpace false true false line column text =
      (⟨text, line, column⟩, true) := by
    intro line column
    rcases htext with ⟨rfl, -⟩ | ⟨-, c, t, rfl, hspace, hbreak, hhash, hmark⟩
    · rfl
    · exact skipSpace_char hspace hbreak hhash hmark _ _ _ _ _
  rcases blockLines_deep hls h with ⟨below, hbelow, hafter, hcolumn⟩ |
    ⟨content, b, more, hafter, hmore, hle, hbreak, hunbroken⟩
  · have hplace : PhysicalLine.join below.after = text ∧ below.column = n := by
      rcases htext with ⟨rfl, rfl⟩ | ⟨hn, c, t, rfl, hspace, hbreak, -⟩
      · cases hbelow
        exact ⟨rfl, rfl⟩
      · exact blockLines_below hn hspace hbreak t hbelow
    rw [hafter, hcolumn, hplace.1, hplace.2]
    exact ⟨line, .inl (hskip line n)⟩
  · have hjoin : PhysicalLine.join found.after =
        content ++ b :: (PhysicalLine.join more ++ (spaces n ++ text)) := by
      have hus := join_physicalLines (spaces n ++ text)
      rw [← hus, hafter]
      simp [PhysicalLine.join]
    rw [hjoin]
    rcases skipSpace_line hunbroken hbreak line (Nat.lt_of_lt_of_le hm hle)
        (PhysicalLine.join more ++ (spaces n ++ text)) with hnext | ⟨c, rest, column, hcolumn, hnext⟩
    · obtain ⟨line', hdeep⟩ := skipSpace_deep hm hmore (line + 1) (spaces n ++ text)
      rw [skipSpace_spaces, hskip, Nat.zero_add] at hdeep
      rw [hnext]
      exact ⟨line', hdeep⟩
    · exact ⟨line, .inr ⟨c, rest, column, Nat.le_trans hle hcolumn, hnext⟩⟩

end FrontToc.Yaml.Token.Scan
