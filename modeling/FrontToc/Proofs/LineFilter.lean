import FrontToc.Document
import FrontToc.Proofs.Lines
import Mathlib.Data.List.Basic
import Mathlib.Data.List.Induction

/-!
# The filter of blank lines, character by character

A text passes the filter unchanged if no line end in it makes the filter leave a line out. Lines that
are not blank always stay. After a line that ends in a block head all lines that are blank or indented
deeper stay, and the filter remains in that block.
-/
namespace FrontToc

open Text

/-- The block that the filter is in after a line, unless the line goes. -/
def afterLine (parent : Option Nat) (line : List Char) : Option (Option Nat) :=
  let content := chompLine line
  if parent.any fun p => isBlankText content || p < indentation content then some parent
  else if isBlankText content then none
  else some (if endsInBlockHead (trimEnd content) then some (indentation content) else none)

theorem collapseFrom_kept {parent after : Option Nat} {line : List Char}
    (h : afterLine parent line = some after) (rest : List (List Char)) :
    collapseFrom parent (line :: rest) = line :: collapseFrom after rest := by
  unfold afterLine at h
  rw [collapseFrom]
  dsimp only at h ⊢
  split at h
  · next hin => rw [if_pos hin, Option.some.inj h]
  · next hin =>
    split at h
    · cases h
    · next hblank => rw [if_neg hin, if_neg hblank, Option.some.inj h]

theorem collapseFrom_left_out {parent : Option Nat} {line : List Char}
    (h : afterLine parent line = none) (rest : List (List Char)) :
    collapseFrom parent (line :: rest) = collapseFrom none rest := by
  unfold afterLine at h
  rw [collapseFrom]
  dsimp only at h ⊢
  split at h
  · cases h
  · next hin =>
    split at h
    · next hblank => rw [if_neg hin, if_pos hblank]
    · cases h

/-- The filter inside of a line: the block it is in, and the line so far. -/
structure Sieve where
  parent : Option Nat
  line : List Char

namespace Sieve

/-- The filter after one more character, unless a line goes. -/
def next? (s : Sieve) (c : Char) : Option Sieve :=
  if c = '\n' then (afterLine s.parent (s.line ++ ['\n'])).map fun parent => ⟨parent, []⟩
  else some { s with line := s.line ++ [c] }

/-- The filter after a text, unless a line goes. -/
def after? (s : Sieve) (t : List Char) : Option Sieve :=
  t.foldlM next? s

theorem after_append {s m : Sieve} {t : List Char} (h : s.after? t = some m) (u : List Char) :
    s.after? (t ++ u) = m.after? u := by
  rw [after?, List.foldlM_append]
  change (s.after? t).bind (fun m => m.after? u) = m.after? u
  rw [h]
  rfl

theorem after_of_not_mem (s : Sieve) {t : List Char} (ht : '\n' ∉ t) :
    s.after? t = some ⟨s.parent, s.line ++ t⟩ := by
  induction t generalizing s with
  | nil => simp [after?]
  | cons c t ih =>
    have hc : c ≠ '\n' := fun h => ht (h ▸ List.mem_cons_self)
    have hstep : s.next? c = some ⟨s.parent, s.line ++ [c]⟩ := by rw [next?, if_neg hc]
    rw [after?, List.foldlM_cons, hstep]
    change (Sieve.mk s.parent (s.line ++ [c])).after? t = _
    rw [ih _ fun h => ht (List.mem_cons_of_mem _ h)]
    simp

/-- The rest of a line, up to its end. -/
theorem after_line (s : Sieve) {t : List Char} (ht : '\n' ∉ t) {after : Option Nat}
    (h : afterLine s.parent (s.line ++ t ++ ['\n']) = some after) :
    s.after? (t ++ ['\n']) = some ⟨after, []⟩ := by
  rw [after_append (s.after_of_not_mem ht)]
  change (next? ⟨s.parent, s.line ++ t⟩ '\n').bind some = _
  rw [next?, if_pos rfl, h]
  rfl

end Sieve

/-- A text that passes as a whole is left as it is. -/
theorem collapseFrom_of_after {ls : List (List Char)} (hls : AreLines ls) {parent after : Option Nat}
    (h : Sieve.after? ⟨parent, []⟩ ls.flatten = some ⟨after, []⟩) : collapseFrom parent ls = ls := by
  induction hls generalizing parent with
  | nil => rfl
  | last l hne hl =>
    rw [List.flatten_singleton, Sieve.after_of_not_mem _ hl] at h
    simp only [List.nil_append, Option.some.injEq, Sieve.mk.injEq] at h
    exact absurd h.2 hne
  | cons p ls hp _ ih =>
    cases hline : afterLine parent (p ++ ['\n']) with
    | none =>
      rw [List.flatten_cons, List.append_assoc,
        Sieve.after_append (Sieve.after_of_not_mem _ hp)] at h
      change (Sieve.next? ⟨parent, p⟩ '\n').bind _ = _ at h
      rw [Sieve.next?, if_pos rfl, hline] at h
      cases h
    | some next =>
      rw [List.flatten_cons, Sieve.after_append (Sieve.after_line ⟨parent, []⟩ hp hline)] at h
      rw [collapseFrom_kept hline, ih h]

theorem collapse_of_after {text : List Char} {after : Option Nat}
    (h : Sieve.after? ⟨none, []⟩ text = some ⟨after, []⟩) : collapseBlankLines text = text := by
  rw [collapseBlankLines, collapseFrom_of_after (areLines_splitLines text)
    (by rwa [flatten_splitLines]), flatten_splitLines]

theorem trimEndWhile_concat {p : Char → Bool} {c : Char} (hc : p c = true) (s : List Char) :
    trimEndWhile p (s ++ [c]) = trimEndWhile p s := by
  simp [trimEndWhile, hc]

theorem trimEndWhile_of_last {p : Char → Bool} {c : Char} (hc : p c = false) (s : List Char) :
    trimEndWhile p (s ++ [c]) = s ++ [c] := by
  simp [trimEndWhile, hc]

/-- Trimming takes away only what it is for. -/
theorem mem_trimEndWhile {p : Char → Bool} {s : List Char} {c : Char} (h : c ∈ s)
    (hc : p c = false) : c ∈ trimEndWhile p s := by
  induction s using List.reverseRecOn with
  | nil => cases h
  | append_singleton s d ih =>
    cases hd : p d with
    | false => rwa [trimEndWhile_of_last hd]
    | true =>
      rw [trimEndWhile_concat hd]
      rcases List.mem_append.mp h with h | h
      · exact ih h
      · rw [List.mem_singleton.mp h, hd] at hc
        cases hc

/-- A line that is not blank stays. -/
theorem afterLine_of_nonblank (parent : Option Nat) {line : List Char}
    (h : ∃ c ∈ line, isBlank c = false) : ∃ after, afterLine parent line = some after := by
  have hcontent : isBlankText (chompLine line) = false := by
    obtain ⟨c, hc, hblank⟩ := h
    have hmem : c ∈ chompLine line := by
      refine mem_trimEndWhile hc ?_
      cases heq : decide (c = '\n' ∨ c = '\r') with
      | false => simpa using heq
      | true =>
        rcases of_decide_eq_true heq with rfl | rfl <;> cases hblank
    exact List.all_eq_false.mpr ⟨c, hmem, by simp [hblank]⟩
  unfold afterLine
  simp only [hcontent, Bool.false_or, if_neg (Bool.false_ne_true)]
  split
  · exact ⟨_, rfl⟩
  · exact ⟨_, rfl⟩

/-- Every line that is not blank is among the lines that the filter leaves. -/
theorem mem_collapseFrom {ls : List (List Char)} {l : List Char} (hl : l ∈ ls)
    (hvisible : ∃ c ∈ l, isBlank c = false) (parent : Option Nat) : l ∈ collapseFrom parent ls := by
  induction ls generalizing parent with
  | nil => cases hl
  | cons line ls ih =>
    rcases List.mem_cons.mp hl with rfl | hl
    · obtain ⟨after, hafter⟩ := afterLine_of_nonblank parent hvisible
      rw [collapseFrom_kept hafter]
      exact List.mem_cons_self
    · cases hline : afterLine parent line with
      | none =>
        rw [collapseFrom_left_out hline]
        exact ih hl none
      | some after =>
        rw [collapseFrom_kept hline]
        exact List.mem_cons_of_mem _ (ih hl after)

/-- What is not blank in a text is in the filtered text. -/
theorem mem_collapseBlankLines {text : List Char} {c : Char} (hc : c ∈ text)
    (hvisible : isBlank c = false) : c ∈ collapseBlankLines text := by
  rw [← flatten_splitLines text] at hc
  obtain ⟨l, hl, hmem⟩ := List.mem_flatten.mp hc
  exact List.mem_flatten.mpr ⟨l, mem_collapseFrom hl ⟨c, hmem, hvisible⟩ none, hmem⟩

theorem indentation_append {s : List Char} (h : ∃ c ∈ s, c ≠ ' ') (t : List Char) :
    indentation (s ++ t) = indentation s := by
  induction s with
  | nil => simp at h
  | cons c s ih =>
    by_cases hc : c = ' '
    · obtain ⟨d, hd, hne⟩ := h
      have hs : ∃ d ∈ s, d ≠ ' ' := by
        rcases List.mem_cons.mp hd with rfl | hd
        · exact absurd hc hne
        · exact ⟨d, hd, hne⟩
      simpa [indentation, hc] using ih hs
    · simp [indentation, hc]

theorem indentation_append_cons (s : List Char) {c : Char} (hc : c ≠ ' ') (t : List Char) :
    indentation (s ++ c :: t) = indentation s := by
  induction s with
  | nil => simp [indentation, hc]
  | cons d s ih =>
    by_cases hd : d = ' '
    · simpa [indentation, hd] using ih
    · simp [indentation, hd]

theorem not_blank_of_hint {c : Char} (h : isBlockHint c = true) : isBlank c = false := by
  simp only [isBlockHint, Bool.or_eq_true, decide_eq_true_eq] at h
  rcases h with (h | rfl) | rfl
  · have hrange : 48 ≤ c.toNat ∧ c.toNat ≤ 57 := by
      simp only [Char.isDigit, Bool.and_eq_true, decide_eq_true_eq, ge_iff_le,
        UInt32.le_iff_toNat_le] at h
      exact h
    simp only [isBlank, Bool.or_eq_false_iff, Bool.and_eq_false_iff, decide_eq_false_iff_not]
    omega
  · decide
  · decide

theorem endsInBlockHead_head (before : List Char) {hints : List Char} {mark bar : Char}
    (hmark : mark = ':' ∨ mark = '-') (hbar : bar = '|' ∨ bar = '>')
    (hhints : ∀ c ∈ hints, isBlockHint c = true) :
    endsInBlockHead (before ++ mark :: ' ' :: bar :: hints) = true := by
  have hreverse : (before ++ mark :: ' ' :: bar :: hints).reverse =
      hints.reverse ++ bar :: ' ' :: mark :: before.reverse := by simp
  have hstop : isBlockHint bar = false := by
    rcases hbar with rfl | rfl <;> decide
  unfold endsInBlockHead
  rw [hreverse, List.dropWhile_append_of_pos (by simpa using hhints),
    List.dropWhile_cons_of_neg (by simp [hstop])]
  simpa [hmark] using hbar

/-- A line that a block head ends puts the filter into a block that is not indented deeper. -/
theorem afterLine_head (parent : Option Nat) (before : List Char) {hints : List Char}
    {mark bar : Char} (hmark : mark = ':' ∨ mark = '-') (hbar : bar = '|' ∨ bar = '>')
    (hhints : ∀ c ∈ hints, isBlockHint c = true) :
    ∃ p, p ≤ indentation (before ++ [mark]) ∧
      afterLine parent (before ++ mark :: ' ' :: bar :: hints ++ ['\n']) = some (some p) := by
  obtain ⟨init, last, hlast⟩ : ∃ init last, bar :: hints = init ++ [last] :=
    (List.eq_nil_or_concat' (bar :: hints)).resolve_left (List.cons_ne_nil bar hints)
  have hvisible : isBlank last = false := by
    have hmem : last ∈ bar :: hints := hlast ▸ List.mem_append_right _ List.mem_cons_self
    rcases List.mem_cons.mp hmem with rfl | hmem
    · rcases hbar with rfl | rfl <;> decide
    · exact not_blank_of_hint (hhints _ hmem)
  have hends : decide (last = '\n' ∨ last = '\r') = false := by
    rw [decide_eq_false_iff_not]
    rintro (rfl | rfl) <;> cases hvisible
  have hwhole : before ++ mark :: ' ' :: bar :: hints = (before ++ mark :: ' ' :: init) ++ [last] := by
    simp [hlast]
  have hcontent : chompLine (before ++ mark :: ' ' :: bar :: hints ++ ['\n']) =
      before ++ mark :: ' ' :: bar :: hints := by
    rw [chompLine, trimEndWhile_concat (by decide), hwhole]
    exact trimEndWhile_of_last (by simpa using hends) _
  have htrim : trimEnd (before ++ mark :: ' ' :: bar :: hints) =
      before ++ mark :: ' ' :: bar :: hints := by
    rw [hwhole]
    exact trimEndWhile_of_last hvisible _
  have hnonblank : isBlankText (before ++ mark :: ' ' :: bar :: hints) = false :=
    List.all_eq_false.mpr ⟨last, by rw [hwhole]; simp, by simp [hvisible]⟩
  have hindent : indentation (before ++ mark :: ' ' :: bar :: hints) =
      indentation (before ++ [mark]) := by
    have hne : mark ≠ ' ' := by rcases hmark with rfl | rfl <;> decide
    rw [indentation_append_cons _ hne, indentation_append_cons _ hne]
  unfold afterLine
  simp only [hcontent, htrim, hnonblank, endsInBlockHead_head before hmark hbar hhints, hindent,
    Bool.false_or, if_neg Bool.false_ne_true, if_true]
  split
  · next hin =>
    cases parent with
    | none => cases hin
    | some p => exact ⟨p, Nat.le_of_lt (of_decide_eq_true hin), rfl⟩
  · exact ⟨_, Nat.le_refl _, rfl⟩

/-- Lines that are indented deeper than the block, and blank lines, stay in it. -/
theorem afterLine_inside {p : Nat} {content : List Char}
    (hends : ∀ c ∈ content, c ≠ '\n' ∧ c ≠ '\r')
    (h : isBlankText content = true ∨ p < indentation content) :
    afterLine (some p) (content ++ ['\n']) = some (some p) := by
  have hcontent : chompLine (content ++ ['\n']) = content := by
    rw [chompLine, trimEndWhile_concat (by decide)]
    rcases List.eq_nil_or_concat' content with rfl | ⟨init, last, rfl⟩
    · rfl
    · refine trimEndWhile_of_last ?_ init
      simpa using hends last (by simp)
  unfold afterLine
  simp only [hcontent]
  rw [if_pos]
  simpa using h

end FrontToc
