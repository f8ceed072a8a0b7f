import FrontToc.Proofs.WrittenScalars
import FrontToc.Yaml.Token.Flowing
import Mathlib.Algebra.Group.Nat.Defs

/-!
# Scalars in one line are read back

A text without quotes is read to the mark or line break after it, and a text in quotes to its closing
quote. What is read is the text that was written.
-/
namespace FrontToc.Yaml.Token

open Text

namespace Gap

/-- The text of a gap without line breaks goes on with a space. -/
theorem text_addSpace {gap : Gap} (h : gap.hasBreak = false) (c : Char) :
    (gap.addSpace c).text = gap.text ++ [c] := by
  cases gap with
  | none => rfl
  | spaces reversed => simp [Gap.addSpace, Gap.text]
  | breaks => cases h

theorem hasBreak_addSpace {gap : Gap} (h : gap.hasBreak = false) (c : Char) :
    (gap.addSpace c).hasBreak = false := by
  cases gap with
  | none => rfl
  | spaces reversed => rfl
  | breaks => cases h

end Gap

section

variable {least line column : Nat} {text : List Char} {gap : Gap} {c : Char} {rest : List Char}

theorem plainFrom_space (hc : isSpace c = true) (hgap : gap.hasBreak = false) :
    plainFrom false least line column text gap (c :: rest) =
      plainFrom false least line (column + 1) text (gap.addSpace c) rest := by
  simp [plainFrom, hc, hgap]

/-- A character goes on with a scalar without quotes if it is no space and ends nothing. -/
theorem plainFrom_char (hspace : isSpace c = false) (hbreak : isBreak c = false)
    (hgap : gap.hasBreak = false) (hhash : gap ≠ .none → c ≠ '#' ∧ 0 < column)
    (hcolon : c = ':' → atGap rest = false) :
    plainFrom false least line column text gap (c :: rest) =
      plainFrom false least line (column + 1) (c :: gap.text.reverse ++ text) .none rest := by
  have hlimit : gap ≠ .none → (Cursor.mk (c :: rest) line column).atDocumentLimit = false := by
    intro h
    have hcolumn : column ≠ 0 := Nat.ne_of_gt (hhash h).2
    simp [Cursor.atDocumentLimit, Cursor.atDocumentMark, hcolumn]
  have hstop : ¬(gap ≠ .none ∧
      ((Cursor.mk (c :: rest) line column).atDocumentLimit = true ∨ c = '#')) := by
    rintro ⟨h, hl | hc⟩
    · rw [hlimit h] at hl
      cases hl
    · exact (hhash h).1 hc
  have hends : ¬(c = ':' ∧ atGap rest = true) := by
    rintro ⟨hc, h⟩
    rw [hcolon hc] at h
    cases h
  simp [plainFrom, hspace, hbreak, hgap, hstop, hends]

end

theorem isBreak_of_isLineBreak {c : Char} (h : Style.isLineBreak c = false) : isBreak c = false := by
  simp only [Style.isLineBreak, Bool.or_eq_false_iff] at h
  exact h.1.1

/-- A gap that does not follow inside of a text does not follow if the text goes on. -/
theorem atGap_append {s : List Char} (h : Style.beforeGap s = false) (rest : List Char) :
    atGap (s ++ rest) = false := by
  cases s with
  | nil => cases h
  | cons c s =>
    simp only [Style.beforeGap, Bool.or_eq_false_iff] at h
    simp [atGap, h.1, isBreak_of_isLineBreak h.2]

/-- Text in which nothing ends a scalar without quotes is read as a whole. After a character that is no
space no gap is open. -/
theorem plainFrom_append {least line column : Nat} {text : List Char} {gap : Gap}
    {s rest : List Char} {previous : Char} (hbreak : ∀ c ∈ s, Style.isLineBreak c = false)
    (hmark : Style.hasInnerMark previous s = false) (hgap : gap.hasBreak = false)
    (hspace : gap ≠ .none → isSpace previous = true ∧ 0 < column) :
    ∃ text' gap', plainFrom false least line column text gap (s ++ rest) =
        plainFrom false least line (column + s.length) text' gap' rest ∧
      gap'.hasBreak = false ∧ text'.reverse ++ gap'.text = text.reverse ++ gap.text ++ s ∧
      (((previous :: s).getLast?.any isSpace) = false → gap' = .none) := by
  induction s generalizing column text gap previous with
  | nil =>
    refine ⟨text, gap, rfl, hgap, by simp, fun hlast => ?_⟩
    refine Decidable.byContradiction fun hne => ?_
    rw [List.getLast?_singleton, Option.any_some, (hspace hne).1] at hlast
    cases hlast
  | cons c s ih =>
    simp only [Style.hasInnerMark, Bool.or_eq_false_iff, Bool.and_eq_false_iff,
      decide_eq_false_iff_not] at hmark
    obtain ⟨⟨hcolon, hhash⟩, hinner⟩ := hmark
    have hc := hbreak c List.mem_cons_self
    have hs : ∀ c ∈ s, Style.isLineBreak c = false := fun d hd => hbreak d (List.mem_cons_of_mem _ hd)
    have hlast : (previous :: c :: s).getLast? = (c :: s).getLast? := by simp [List.getLast?_cons]
    rw [hlast]
    cases hsp : isSpace c with
    | true =>
      obtain ⟨text', gap', hread, hgap', htext, hnone⟩ :=
        @ih (column + 1) text _ c hs hinner (Gap.hasBreak_addSpace hgap c)
          fun _ => ⟨hsp, Nat.succ_pos column⟩
      refine ⟨text', gap', ?_, hgap', ?_, hnone⟩
      · rw [List.cons_append, plainFrom_space hsp hgap, hread, List.length_cons]
        congr 1
        omega
      · rw [htext, Gap.text_addSpace hgap]
        simp
    | false =>
      obtain ⟨text', gap', hread, hgap', htext, hnone⟩ :=
        @ih (column + 1) (c :: gap.text.reverse ++ text) .none c hs hinner rfl
          fun hne => absurd rfl hne
      refine ⟨text', gap', ?_, hgap', ?_, hnone⟩
      · rw [List.cons_append, plainFrom_char hsp (isBreak_of_isLineBreak hc) hgap ?_ ?_, hread,
          List.length_cons]
        · congr 1
          omega
        · intro hne
          obtain ⟨hprevious, hcolumn⟩ := hspace hne
          exact ⟨fun hc => by simp [hc, hprevious] at hhash, hcolumn⟩
        · intro hc
          exact atGap_append (hcolon.resolve_left (· hc)) rest
      · rw [htext]
        simp [Gap.text]

/-- What a text without quotes is made of. -/
structure PlainText (s : List Char) : Prop where
  chars : ∀ c ∈ s, Style.isPlainChar c = true ∧ Style.isLineBreak c = false
  inner : Style.hasInnerMark 'a' s = false
  last : s.getLast?.any isSpace = false
  first : ∃ c t, s = c :: t ∧ isSpace c = false ∧ s.take 3 ≠ ['-', '-', '-'] ∧ s.take 3 ≠ ['.', '.', '.'] ∧
    c ∉ "#,[]\x7b\x7d&*!|>'\"%@\x60".toList ∧
    (c = '?' ∨ c = ':' ∨ c = '-' → Style.beforeGap t = false)

theorem plainText_of_allowsPlain {s : List Char} (h : Style.allowsPlain s = true) (hne : s ≠ []) :
    PlainText s := by
  obtain ⟨c, t, rfl⟩ := List.exists_cons_of_ne_nil hne
  simp only [Style.allowsPlain, Style.isTidy, Style.atEnds, Bool.and_eq_true, Bool.not_eq_true',
    Bool.or_eq_false_iff] at h
  obtain ⟨⟨⟨⟨hchars, -⟩, hbreak⟩, hhead, hlast⟩, hmark⟩ := h
  simp only [Style.hasMark, Bool.or_eq_false_iff, Bool.and_eq_false_iff, decide_eq_false_iff_not] at hmark
  obtain ⟨⟨⟨htake, hfirst⟩, hgap⟩, hinner⟩ := hmark
  have hspace : ∀ d ∈ c :: t, d ≠ ' ' → isSpace d = false := by
    intro d hd hd'
    have hplain := List.all_eq_true.mp hchars d hd
    have htab : d ≠ '\t' := by
      rintro rfl
      cases hplain
    simp [isSpace, hd', htab]
  refine ⟨fun d hd => ⟨List.all_eq_true.mp hchars d hd, ?_⟩, ?_, ?_, c, t, rfl, ?_, htake.1, htake.2, ?_, ?_⟩
  · simpa using List.any_eq_false.mp hbreak d hd
  · have hcolon : ¬(c = ':' ∧ Style.beforeGap t = true) := by grind
    simpa [Style.hasInnerMark, isSpace, Style.isLineBreak, isBreak, hinner] using hcolon
  · cases hl : (c :: t).getLast? with
    | none => rfl
    | some d =>
      rw [hl] at hlast
      exact hspace d (List.mem_of_getLast? hl) (by simpa using hlast)
  · exact hspace c List.mem_cons_self (by simpa using hhead)
  · simpa using hfirst
  · grind

/-- A text without quotes is read as a whole, and no gap is open after it. -/
theorem PlainText.plainFrom_eq {s : List Char} (h : PlainText s) (least line column : Nat)
    (rest : List Char) : plainFrom false least line column [] .none (s ++ rest) =
      plainFrom false least line (column + s.length) s.reverse .none rest := by
  obtain ⟨text, gap, hread, -, htext, hnone⟩ := @plainFrom_append least line column [] .none s rest 'a'
    (fun c hc => (h.chars c hc).2) h.inner rfl fun hne => absurd rfl hne
  obtain ⟨c, t, rfl, -⟩ := h.first
  have hlast : ('a' :: c :: t).getLast? = (c :: t).getLast? := by simp [List.getLast?_cons]
  obtain rfl : gap = .none := hnone (by rw [hlast, h.last])
  have htext : text.reverse = c :: t := by simpa [Gap.text] using htext
  rw [hread, ← htext, List.reverse_reverse]

/-- Before the colon of a key a text without quotes ends. -/
theorem PlainText.readPlain_key {s rest : List Char} (h : PlainText s) (hgap : atGap rest = true)
    (least line column : Nat) :
    readPlain false least ⟨s ++ ':' :: rest, line, column⟩ =
      some (⟨s, ⟨':' :: rest, line, column + s.length⟩⟩, false) := by
  rw [readPlain, h.plainFrom_eq]
  simp [plainFrom, isSpace, isBreak, hgap, Gap.hasBreak]

theorem plainFrom_spaces {least line column : Nat} {text : List Char} {breaks : List Char} (n : Nat)
    (rest : List Char) : plainFrom false least line column text (.breaks false breaks) (spaces n ++ rest) =
      plainFrom false least line (column + n) text (.breaks false breaks) rest := by
  induction n generalizing column with
  | zero => rfl
  | succ n ih =>
    have hstep : plainFrom false least line column text (.breaks false breaks) (spaces (n + 1) ++ rest) =
        plainFrom false least line (column + 1) text (.breaks false breaks) (spaces n ++ rest) := by
      simp [spaces, List.replicate_succ, plainFrom, isSpace, Gap.addSpace]
    rw [hstep, ih]
    congr 1
    omega

/-- At the end of its line a text without quotes ends if the next line is not indented to `least`. It
is read up to where the text of that line begins. -/
theorem PlainText.readPlain_line {s rest : List Char} (h : PlainText s) {least n : Nat} (hn : n < least)
    {c : Char} (hspace : isSpace c = false) (hbreak : isBreak c = false) (line column : Nat) :
    readPlain false least ⟨s ++ '\n' :: (spaces n ++ c :: rest), line, column⟩ =
      some (⟨s, ⟨c :: rest, line + 1, n⟩⟩, true) := by
  have hfeed : ∀ column, plainFrom false least line column s.reverse .none
      ('\n' :: (spaces n ++ c :: rest)) =
        plainFrom false least (line + 1) 0 s.reverse (.breaks false ['\n']) (spaces n ++ c :: rest) := by
    intro column
    simp [plainFrom, isSpace, isBreak, Gap.addBreak]
  rw [readPlain, h.plainFrom_eq, hfeed, plainFrom_spaces]
  simp [plainFrom, hspace, hbreak, Gap.hasBreak, hn]

/-- At the end of the last line a text without quotes ends. -/
theorem PlainText.readPlain_last {s : List Char} (h : PlainText s) (least line column : Nat) :
    readPlain false least ⟨s ++ ['\n'], line, column⟩ = some (⟨s, ⟨[], line + 1, 0⟩⟩, true) := by
  rw [readPlain, h.plainFrom_eq]
  simp [plainFrom, isSpace, isBreak, Gap.addBreak, Gap.hasBreak]

section

variable {line column : Nat} {text : List Char} {gap : Gap} {c : Char} {rest : List Char}

theorem singleFrom_space : singleFrom line column text gap (' ' :: rest) =
    singleFrom line (column + 1) text (gap.addSpace ' ') rest := by
  simp [singleFrom, isSpace]

theorem singleFrom_break (hbreak : isBreak c = true) : singleFrom line column text gap (c :: rest) =
    singleFrom (line + 1) 0 text (gap.addBreak c) rest := by
  have hc : c ∈ ['\n', '\u2028', '\u2029'] := by simpa [isBreak, or_assoc] using hbreak
  have hquote : c ≠ '\'' := by rintro rfl; cases hbreak
  have hspace : isSpace c = false := by
    simp only [List.mem_cons, List.not_mem_nil, or_false] at hc
    rcases hc with rfl | rfl | rfl <;> decide
  simp [singleFrom, hquote, hspace, hbreak]

theorem singleFrom_end (hquote : rest.head? ≠ some '\'') :
    singleFrom line column text gap ('\'' :: rest) =
      some ⟨text.reverse ++ gap.text, ⟨rest, line, column + 1⟩⟩ := by
  cases rest with
  | nil => rfl
  | cons d rest =>
    have hd : d ≠ '\'' := by simpa using hquote
    simp [singleFrom, hd]

theorem singleFrom_char {r : Read} (hquote : c ≠ '\'') (hspace : isSpace c = false)
    (hbreak : isBreak c = false) (h : singleFrom line column text gap (c :: rest) = some r) :
    singleFrom line (column + 1) (c :: gap.text.reverse ++ text) .none rest = some r := by
  simp [singleFrom, hquote, hspace, hbreak] at h
  simpa using h.2

end

theorem singleFrom_spaces {line column : Nat} {text breaks rest : List Char} (n : Nat) :
    singleFrom line column text (.breaks false breaks) (spaces n ++ rest) =
      singleFrom line (column + n) text (.breaks false breaks) rest := by
  induction n generalizing column with
  | zero => rfl
  | succ n ih =>
    rw [spaces, List.replicate_succ, List.cons_append, singleFrom_space]
    exact ih.trans (by congr 1; omega)

/-- A gap as it is after `previous`: space after a space, line separators after one of them. -/
def GapAfter (previous : Char) : Gap → Prop
  | .none => True
  | .spaces _ => previous = ' '
  | .breaks escaped reversed =>
    escaped = false ∧ '\n' ∉ reversed ∧ Style.isLineBreak previous = true

theorem GapAfter.text_breaks {previous : Char} {reversed : List Char} {escaped : Bool}
    (h : GapAfter previous (.breaks escaped reversed)) :
    (Gap.breaks escaped reversed).text = reversed.reverse := by
  obtain ⟨rfl, hfeed, -⟩ := h
  have hfeed : '\n' ∉ reversed.reverse := by simpa using hfeed
  rw [Gap.text]
  split
  · next heq => simp [heq] at hfeed
  · next heq => simp [heq] at hfeed
  · rfl

theorem GapAfter.addBreak {previous c : Char} {gap : Gap} (h : GapAfter previous gap)
    (hprevious : previous ≠ ' ') (hfeed : c ≠ '\n') (hbreak : Style.isLineBreak c = true) :
    GapAfter c (gap.addBreak c) ∧ (gap.addBreak c).text = gap.text ++ [c] := by
  cases gap with
  | none =>
    have hafter : GapAfter c (.breaks false [c]) := ⟨rfl, by simpa using Ne.symm hfeed, hbreak⟩
    exact ⟨hafter, hafter.text_breaks⟩
  | spaces => exact absurd h hprevious
  | breaks escaped reversed =>
    have hafter : GapAfter c (.breaks escaped (c :: reversed)) :=
      ⟨h.1, by simpa [Ne.symm hfeed] using h.2.1, hbreak⟩
    exact ⟨hafter, by rw [Gap.addBreak, hafter.text_breaks, h.text_breaks, List.reverse_cons]⟩

theorem GapAfter.hasBreak {previous : Char} {gap : Gap} (h : GapAfter previous gap)
    (hprevious : Style.isLineBreak previous = false) : gap.hasBreak = false := by
  cases gap with
  | none => rfl
  | spaces => rfl
  | breaks =>
    rw [h.2.2] at hprevious
    cases hprevious

theorem GapAfter.addSpace {previous : Char} {gap : Gap} (h : GapAfter previous gap)
    (hprevious : Style.isLineBreak previous = false) :
    GapAfter ' ' (gap.addSpace ' ') ∧ (gap.addSpace ' ').text = gap.text ++ [' '] := by
  have hgap := h.hasBreak hprevious
  refine ⟨?_, Gap.text_addSpace hgap ' '⟩
  cases gap with
  | none => exact rfl
  | spaces => exact rfl
  | breaks => cases hgap

/-- The indentation after a line separator does not count. -/
theorem singleFrom_lead {line column indent : Nat} {text : List Char} {gap : Gap} {previous : Char}
    {atStart : Bool} (rest : List Char) (hgap : GapAfter previous gap)
    (hstart : atStart = true → gap.hasBreak = true) :
    ∃ column', singleFrom line column text gap ((if atStart then spaces indent else []) ++ rest) =
      singleFrom line column' text gap rest := by
  cases atStart with
  | false => exact ⟨column, rfl⟩
  | true =>
    cases gap with
    | none => cases hstart rfl
    | spaces => cases hstart rfl
    | breaks escaped reversed =>
      obtain ⟨rfl, -⟩ := hgap
      exact ⟨column + indent, singleFrom_spaces indent⟩

theorem isBreak_of_plainChar {c : Char} (hplain : Style.isPlainChar c = true)
    (h : Style.isLineBreak c = true) : isBreak c = true := by
  simp only [Style.isLineBreak, Bool.or_eq_true, decide_eq_true_eq] at h
  rcases h with (h | rfl) | rfl
  · exact h
  · cases hplain
  · cases hplain

theorem not_space_of_plainChar {c : Char} (hplain : Style.isPlainChar c = true) (h : c ≠ ' ') :
    isSpace c = false := by
  have htab : c ≠ '\t' := by
    rintro rfl
    cases hplain
  simp [isSpace, h, htab]

/-- Text in single quotes up to the closing quote, after `text` and `gap` have been read. -/
theorem singleFrom_singleBody {line column indent : Nat} {text : List Char} {gap : Gap}
    {atStart : Bool} {previous : Char} {s rest : List Char} {r : Read}
    (hquote : rest.head? ≠ some '\'') (hfeed : '\n' ∉ s) (hchars : s.all Style.isPlainChar = true)
    (hbefore : Style.hasPair (· = ' ') Style.isLineBreak (previous :: s) = false)
    (hafter : Style.hasPair Style.isLineBreak (· = ' ') (previous :: s) = false)
    (hgap : GapAfter previous gap) (hstart : atStart = true → gap.hasBreak = true)
    (h : singleFrom line column text gap (singleBody indent atStart s ++ rest) = some r) :
    r.text = text.reverse ++ gap.text ++ s ∧ r.cursor.rest = rest := by
  induction s generalizing line column text gap atStart previous with
  | nil =>
    obtain ⟨column', hcolumn⟩ := @singleFrom_lead line column indent text gap previous atStart
      ('\'' :: rest) hgap hstart
    rw [singleBody, List.append_assoc, List.singleton_append, hcolumn, singleFrom_end hquote] at h
    cases h
    exact ⟨by simp, rfl⟩
  | cons c s ih =>
    simp only [Style.hasPair, Bool.or_eq_false_iff, Bool.and_eq_false_iff,
      decide_eq_false_iff_not] at hbefore hafter
    have hc : Style.isPlainChar c = true := List.all_eq_true.mp hchars c List.mem_cons_self
    have hs : s.all Style.isPlainChar = true :=
      List.all_eq_true.mpr fun d hd => List.all_eq_true.mp hchars d (List.mem_cons_of_mem _ hd)
    have hfeeds : '\n' ∉ s := fun hmem => hfeed (List.mem_cons_of_mem _ hmem)
    have hne : c ≠ '\n' := fun he => hfeed (he ▸ List.mem_cons_self)
    rw [singleBody] at h
    split at h
    · next hbreak =>
      rw [List.cons_append, singleFrom_break (isBreak_of_plainChar hc hbreak)] at h
      have hprevious : previous ≠ ' ' := hbefore.1.resolve_right (by simp [hbreak])
      obtain ⟨hgap, htext⟩ := hgap.addBreak hprevious hne hbreak
      have hbreaks : (gap.addBreak c).hasBreak = true := by cases gap <;> rfl
      obtain ⟨hr, hrest⟩ := ih hfeeds hs hbefore.2 hafter.2 hgap (fun _ => hbreaks) h
      exact ⟨by simp [hr, htext], hrest⟩
    · next hbreak =>
      split at h
      · next hspace =>
        subst hspace
        rw [List.cons_append, singleFrom_space] at h
        have hprevious : Style.isLineBreak previous = false := hafter.1.resolve_right (by simp)
        have hbreaks : gap.hasBreak = false := hgap.hasBreak hprevious
        have hno : atStart = true → (gap.addSpace ' ').hasBreak = true := fun hat => by
          rw [hstart hat] at hbreaks
          cases hbreaks
        obtain ⟨hgap, htext⟩ := hgap.addSpace hprevious
        obtain ⟨hr, hrest⟩ := ih hfeeds hs hbefore.2 hafter.2 hgap hno h
        exact ⟨by simp [hr, htext], hrest⟩
      · next hspace =>
        obtain ⟨column', hcolumn⟩ := @singleFrom_lead line column indent text gap previous atStart
          ((if c = '\'' then ['\'', '\''] else [c]) ++ (singleBody indent false s ++ rest)) hgap hstart
        rw [List.append_assoc, List.append_assoc, hcolumn] at h
        have hnext : ∃ column, singleFrom line column (c :: gap.text.reverse ++ text) .none
            (singleBody indent false s ++ rest) = some r := by
          split at h
          · next hq =>
            subst hq
            exact ⟨_, h⟩
          · next hq =>
            exact ⟨_, singleFrom_char hq (not_space_of_plainChar hc hspace)
              (isBreak_of_isLineBreak (by simpa using hbreak)) h⟩
        obtain ⟨column'', h⟩ := hnext
        obtain ⟨hr, hrest⟩ := ih hfeeds hs hbefore.2 hafter.2
          (show GapAfter c .none from trivial) (fun hno => by cases hno) h
        exact ⟨by simp [hr, Gap.text], hrest⟩

/-- The cursor is after a place in the text. -/
def After (line column : Nat) (c : Cursor) : Prop :=
  line < c.line ∨ line = c.line ∧ column ≤ c.column

theorem after_singleFrom {line column : Nat} {text rest : List Char} {gap : Gap} {r : Read}
    (h : singleFrom line column text gap rest = some r) : After line column r.cursor := by
  fun_induction singleFrom line column text gap rest <;> grind [After]

theorem after_doubleFrom {line column : Nat} {text rest : List Char} {gap : Gap} {esc : Escape}
    {r : Read} (h : doubleFrom line column text gap esc rest = some r) :
    After line column r.cursor := by
  fun_induction doubleFrom line column text gap esc rest <;> grind [After]

/-- What stands in single quotes is read as it was, in any place of a line. -/
theorem readSingle_singleText {s rest : List Char} {indent line column : Nat} {r : Read}
    (hsingle : Style.allowsSingle s = true) (hfeed : '\n' ∉ s) (hquote : rest.head? ≠ some '\'')
    (h : readSingle ⟨singleText indent s ++ rest, line, column⟩ = some r) :
    r.text = s ∧ r.cursor.rest = rest ∧ After line (column + 1) r.cursor := by
  simp only [Style.allowsSingle, Style.isTidy, Bool.and_eq_true, Bool.not_eq_true'] at hsingle
  obtain ⟨⟨hchars, hbefore⟩, hafter⟩ := hsingle
  have hpair : ∀ p q : Char → Bool, p 'a' = false → Style.hasPair p q s = false →
      Style.hasPair p q ('a' :: s) = false := by
    intro p q hp hs
    cases s with
    | nil => rfl
    | cons c s => rw [Style.hasPair, hp, hs]; rfl
  obtain ⟨hr, hrest⟩ := singleFrom_singleBody hquote hfeed hchars (hpair _ _ rfl hbefore)
    (hpair _ _ rfl hafter) (show GapAfter 'a' .none from trivial) (fun hno => by cases hno) h
  exact ⟨hr, hrest, after_singleFrom h⟩

/-- The number that hexadecimal digits write, after the digits of `bits`. -/
def hexNumber (bits : Nat) (digits : List Char) : Nat :=
  digits.foldl (fun n c => n * 16 + (hexValue? c).getD 0) bits

theorem hexNumber_append (bits : Nat) (ds es : List Char) :
    hexNumber bits (ds ++ es) = hexNumber (hexNumber bits ds) es :=
  List.foldl_append

theorem hexValue_digitChar {d : Nat} (hd : d < 16) :
    hexValue? (Nat.digitChar d).toUpper = some d :=
  (by decide : ∀ d : Fin 16, hexValue? (Nat.digitChar d.val).toUpper = some d.val) ⟨d, hd⟩

/-- Hexadecimal digits are read as the number they were written for. -/
theorem hexNumber_upperHexDigits (n : Nat) :
    hexNumber 0 (upperHexDigits n) = n ∧
      ∀ c ∈ upperHexDigits n, (hexValue? c).isSome = true := by
  rw [upperHexDigits, hexDigits]
  induction n using Nat.strongRecOn with
  | ind n ih =>
    rw [Nat.toDigits_eq_if (by decide)]
    split
    · next hn => simp [hexNumber, hexValue_digitChar hn]
    · next hn =>
      obtain ⟨hnumber, hvalid⟩ := ih (n / 16) (by omega)
      have hlast := hexValue_digitChar (Nat.mod_lt n (by decide : 16 > 0))
      rw [List.map_append, hexNumber_append, hnumber]
      refine ⟨?_, ?_⟩
      · simp [hexNumber, hlast]
        omega
      · intro c hc
        rcases List.mem_append.mp hc with hc | hc
        · exact hvalid c hc
        · simp only [List.map_cons, List.map_nil, List.mem_singleton] at hc
          rw [hc, hlast]
          rfl

theorem hexNumber_padZeros (width n : Nat) :
    hexNumber 0 (padZeros width (upperHexDigits n)) = n ∧
      ∀ c ∈ padZeros width (upperHexDigits n), (hexValue? c).isSome = true := by
  obtain ⟨hnumber, hvalid⟩ := hexNumber_upperHexDigits n
  have hzeros : ∀ k, hexNumber 0 (List.replicate k '0') = 0 := by
    intro k
    induction k with
    | zero => rfl
    | succ k ih => exact ih
  refine ⟨?_, fun c hc => ?_⟩
  · rw [padZeros, hexNumber_append, hzeros, hnumber]
  · rcases List.mem_append.mp hc with hc | hc
    · rw [(List.mem_replicate.mp hc).2]
      rfl
    · exact hvalid c hc

theorem length_padZeros {width n : Nat} (hwidth : 0 < width) (hn : n < 16 ^ width) :
    (padZeros width (upperHexDigits n)).length = width := by
  have hlength : (upperHexDigits n).length ≤ width := by
    simpa [upperHexDigits, hexDigits] using (Nat.length_toDigits_le_iff (by decide) hwidth).mpr hn
  simp [padZeros]
  omega

/-- The last of the digits after a backslash gives the character. -/
theorem doubleFrom_hex {line column left bits : Nat} {text digits rest : List Char} {r : Read}
    (hlength : digits.length = left + 1)
    (h : doubleFrom line column text .none (.hex left bits) (digits ++ rest) = some r) :
    ∃ x column', charOf? (hexNumber bits digits) = some x ∧
      doubleFrom line column' (x :: text) .none .none rest = some r := by
  induction digits generalizing left bits column with
  | nil => cases hlength
  | cons d digits ih =>
    rw [List.cons_append, doubleFrom] at h
    cases hd : hexValue? d with
    | none => simp [hd] at h
    | some v =>
      have hnumber : hexNumber bits (d :: digits) = hexNumber (bits * 16 + v) digits := by
        simp [hexNumber, hd]
      rw [hnumber]
      simp only [hd] at h
      cases left with
      | zero =>
        obtain rfl : digits = [] := List.eq_nil_of_length_eq_zero (by simpa using hlength)
        dsimp only at h
        split at h
        · cases h
        · next x hx => exact ⟨x, _, hx, h⟩
      | succ left => exact ih (by simpa using hlength) h

theorem escaped_of_escapeLetter {c letter : Char} (h : escapeLetter? c = some letter) :
    isBreak letter = false ∧ escaped? letter = some c := by
  unfold escapeLetter? at h
  split at h <;> cases h <;> decide

/-- The backslash of an escape ends a gap. -/
theorem doubleFrom_backslash {line column : Nat} {text rest : List Char} {gap : Gap} {r : Read}
    (h : doubleFrom line column text gap .none ('\\' :: rest) = some r) :
    doubleFrom line (column + 1) (gap.text.reverse ++ text) .none .opened rest = some r := by
  simp [doubleFrom, isSpace, isBreak] at h
  exact h.2

/-- A number after a letter, as it is written for a character. -/
theorem doubleFrom_number {line column left : Nat} {text rest : List Char} {c letter : Char}
    {r : Read} (hletter : isBreak letter = false ∧ escaped? letter = none ∧
      hexDigitsAfter? letter = some left) (hc : c.toNat < 16 ^ (left + 1))
    (h : doubleFrom line column text .none .opened
      (letter :: padZeros (left + 1) (upperHexDigits c.toNat) ++ rest) = some r) :
    ∃ column', doubleFrom line column' (c :: text) .none .none rest = some r := by
  obtain ⟨hbreak, hescaped, hdigits⟩ := hletter
  rw [List.cons_append, doubleFrom] at h
  simp only [hbreak, hescaped, hdigits] at h
  obtain ⟨x, column', hx, h⟩ := doubleFrom_hex (length_padZeros (Nat.succ_pos left) hc) h
  have hxc : x = c := by
    have hvalid : c.toNat.isValidChar := c.valid
    rw [(hexNumber_padZeros _ _).1, charOf?, if_pos hvalid, Char.ofNat_toNat] at hx
    exact (Option.some.inj hx).symm
  exact ⟨column', hxc ▸ h⟩

/-- One character between double quotes is read as it was. -/
theorem doubleFrom_doubleChar {line column : Nat} {text rest : List Char} {gap : Gap} {c : Char}
    {r : Read} (hgap : gap.hasBreak = false)
    (h : doubleFrom line column text gap .none (doubleChar c ++ rest) = some r) :
    ∃ column' text' gap', doubleFrom line column' text' gap' .none rest = some r ∧
      gap'.hasBreak = false ∧ text'.reverse ++ gap'.text = text.reverse ++ gap.text ++ [c] := by
  unfold doubleChar at h
  split at h
  · next hplain =>
    simp only [Bool.and_eq_true, Bool.not_eq_true', decide_eq_true_eq] at hplain
    obtain ⟨⟨⟨hplain, hbreak⟩, hquote⟩, hslash⟩ := hplain
    have hbreak := isBreak_of_isLineBreak hbreak
    by_cases hspace : c = ' '
    · subst hspace
      refine ⟨column + 1, text, gap.addSpace ' ', ?_, Gap.hasBreak_addSpace hgap _, ?_⟩
      · simpa [doubleFrom, isSpace] using h
      · rw [Gap.text_addSpace hgap]
        simp
    · refine ⟨column + 1, c :: gap.text.reverse ++ text, .none, ?_, rfl, by simp [Gap.text]⟩
      simp [doubleFrom, hquote, not_space_of_plainChar hplain hspace, hbreak, hslash] at h
      simpa using h.2
  · cases hletter : escapeLetter? c with
    | some letter =>
      obtain ⟨hbreak, hescaped⟩ := escaped_of_escapeLetter hletter
      rw [hletter] at h
      have h := doubleFrom_backslash h
      simp [doubleFrom, hbreak, hescaped] at h
      exact ⟨_, _, .none, h, rfl, by simp [Gap.text]⟩
    | none =>
      rw [hletter] at h
      have hcodes : ∃ column' text', text'.reverse = text.reverse ++ gap.text ++ [c] ∧
          doubleFrom line column' text' .none .none rest = some r := by
        have hx : isBreak 'x' = false ∧ escaped? 'x' = none ∧ hexDigitsAfter? 'x' = some 1 := by decide
        have hu : isBreak 'u' = false ∧ escaped? 'u' = none ∧ hexDigitsAfter? 'u' = some 3 := by decide
        have hU : isBreak 'U' = false ∧ escaped? 'U' = none ∧ hexDigitsAfter? 'U' = some 7 := by decide
        dsimp only at h
        split at h
        · obtain ⟨column', h⟩ := doubleFrom_number hx (by omega) (doubleFrom_backslash h)
          exact ⟨column', _, by simp, h⟩
        · split at h
          · obtain ⟨column', h⟩ := doubleFrom_number hu (by omega) (doubleFrom_backslash h)
            exact ⟨column', _, by simp, h⟩
          · have hc : c.toNat < 0x110000 := by
              have := c.valid
              simp only [UInt32.isValidChar, Nat.isValidChar] at this
              change c.toNat < 0xd800 ∨ 0xdfff < c.toNat ∧ c.toNat < 0x110000 at this
              omega
            obtain ⟨column', h⟩ := doubleFrom_number hU (by omega) (doubleFrom_backslash h)
            exact ⟨column', _, by simp, h⟩
      obtain ⟨column', text', htext, h⟩ := hcodes
      exact ⟨column', text', .none, h, rfl, by simp [Gap.text, htext]⟩

/-- What stands in double quotes is read as it was. -/
theorem readDouble_doubleText {s rest : List Char} {line column : Nat} {r : Read}
    (h : readDouble ⟨doubleText s ++ rest, line, column⟩ = some r) :
    r.text = s ∧ r.cursor.rest = rest ∧ After line (column + 1) r.cursor := by
  have hbody : ∀ (s : List Char) (column : Nat) (text : List Char) (gap : Gap),
      gap.hasBreak = false →
      doubleFrom line column text gap .none (s.flatMap doubleChar ++ '"' :: rest) = some r →
      r.text = text.reverse ++ gap.text ++ s ∧ r.cursor.rest = rest := by
    intro s
    induction s with
    | nil =>
      intro column text gap _ h
      simp [doubleFrom] at h
      simp [← h]
    | cons c s ih =>
      intro column text gap hgap h
      rw [List.flatMap_cons, List.append_assoc] at h
      obtain ⟨column', text', gap', h, hgap', htext⟩ := doubleFrom_doubleChar hgap h
      obtain ⟨hr, hrest⟩ := ih column' text' gap' hgap' h
      exact ⟨by simp [hr, htext], hrest⟩
  obtain ⟨hr, hrest⟩ := hbody s (column + 1) [] .none rfl (by simpa [readDouble, doubleText] using h)
  exact ⟨hr, hrest, after_doubleFrom h⟩

end FrontToc.Yaml.Token
