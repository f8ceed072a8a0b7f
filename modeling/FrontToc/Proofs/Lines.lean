import FrontToc.Text.Blank
import FrontToc.Text.Lines

/-!
# Lines of a text

What splitting a text into lines gives, and that it is undone by putting the lines together. Lines may
be left out of a text without touching the others: the ones that stay are again its lines.
-/
namespace FrontToc.Text

/-- Lines as they come from a text: each ends in its only line feed, save that the last may have none. -/
inductive AreLines : List (List Char) → Prop where
  | nil : AreLines []
  | last (l : List Char) : l ≠ [] → '\n' ∉ l → AreLines [l]
  | cons (p : List Char) (ls : List (List Char)) :
      '\n' ∉ p → AreLines ls → AreLines ((p ++ ['\n']) :: ls)

theorem splitLines_append_feed {p : List Char} (hp : '\n' ∉ p) (s : List Char) :
    splitLines (p ++ '\n' :: s) = (p ++ ['\n']) :: splitLines s := by
  induction p with
  | nil => simp [splitLines]
  | cons c p ih =>
    have hc : c ≠ '\n' := fun h => hp (h ▸ List.mem_cons_self)
    have hp' : '\n' ∉ p := fun h => hp (List.mem_cons_of_mem _ h)
    simp [splitLines, hc, ih hp']

theorem splitLines_of_not_mem {s : List Char} (hs : '\n' ∉ s) (hne : s ≠ []) :
    splitLines s = [s] := by
  induction s with
  | nil => exact absurd rfl hne
  | cons c s ih =>
    have hc : c ≠ '\n' := fun h => hs (h ▸ List.mem_cons_self)
    have hs' : '\n' ∉ s := fun h => hs (List.mem_cons_of_mem _ h)
    cases s with
    | nil => simp [splitLines, hc]
    | cons d s =>
      rw [splitLines, if_neg hc, ih hs' (by simp)]

theorem areLines_splitLines (s : List Char) : AreLines (splitLines s) := by
  induction s with
  | nil => exact .nil
  | cons c s ih =>
    by_cases hc : c = '\n'
    · simpa [splitLines, hc] using AreLines.cons [] _ (by simp) ih
    · simp only [splitLines, if_neg hc]
      split
      · exact .last [c] (by simp) (by simpa using Ne.symm hc)
      · next l ls hls =>
        rw [hls] at ih
        cases ih with
        | last _ hne hl => exact .last (c :: l) (by simp) (by simp [hl, Ne.symm hc])
        | cons p _ hp hrest => exact .cons (c :: p) ls (by simp [hp, Ne.symm hc]) hrest

/-- Lines put together split into the same lines again. -/
theorem AreLines.splitLines_flatten {ls : List (List Char)} (h : AreLines ls) :
    splitLines ls.flatten = ls := by
  induction h with
  | nil => rfl
  | last l hne hl => simpa using splitLines_of_not_mem hl hne
  | cons p ls hp _ ih =>
    rw [List.flatten_cons, List.append_assoc, List.singleton_append, splitLines_append_feed hp, ih]

/-- Leaving lines out keeps the others lines: only what was last can be without a line feed. -/
theorem AreLines.sublist {ls ls' : List (List Char)} (h : AreLines ls) (hsub : ls'.Sublist ls) :
    AreLines ls' := by
  induction h generalizing ls' with
  | nil => rw [List.sublist_nil.mp hsub]; exact .nil
  | last l hne hl =>
    cases hsub with
    | cons _ hrest => rw [List.sublist_nil.mp hrest]; exact .nil
    | cons_cons _ hrest => rw [List.sublist_nil.mp hrest]; exact .last l hne hl
  | cons p ls hp _ ih =>
    cases hsub with
    | cons _ hrest => exact ih hrest
    | cons_cons _ hrest => exact .cons p _ hp (ih hrest)

theorem AreLines.not_nil_mem {ls : List (List Char)} (h : AreLines ls) : [] ∉ ls := by
  induction h with
  | nil => simp
  | last l hne _ => simpa using Ne.symm hne
  | cons p ls _ _ ih => simp [ih]

theorem AreLines.flatten_ne_nil {ls : List (List Char)} (h : AreLines ls) (hne : ls ≠ []) :
    ls.flatten ≠ [] := by
  obtain ⟨l, hl⟩ := List.exists_mem_of_ne_nil ls hne
  intro hnil
  have hempty := List.flatten_eq_nil_iff.mp hnil l hl
  exact h.not_nil_mem (hempty ▸ hl)

/-- All lines end in a line feed if the text does. -/
theorem AreLines.closed {ls : List (List Char)} (h : AreLines ls)
    (hend : ls.flatten.getLast? = some '\n') : ∀ l ∈ ls, l.getLast? = some '\n' := by
  induction h with
  | nil => simp
  | last l _ hl =>
    rw [List.flatten_singleton] at hend
    exact absurd (List.mem_of_getLast? hend) hl
  | cons p ls _ hls ih =>
    intro l hl
    rcases List.mem_cons.mp hl with rfl | hl
    · simp
    · refine ih ?_ l hl
      have hne : ls.flatten ≠ [] := hls.flatten_ne_nil (List.ne_nil_of_mem hl)
      rwa [List.flatten_cons, List.getLast?_append, List.getLast?_eq_some_getLast hne,
        Option.some_or, ← List.getLast?_eq_some_getLast hne] at hend

/-- After lines that end in line feeds the lines of another text follow. -/
theorem AreLines.splitLines_append {ls : List (List Char)} (h : AreLines ls)
    (hend : ∀ l ∈ ls, l.getLast? = some '\n') (s : List Char) :
    splitLines (ls.flatten ++ s) = ls ++ splitLines s := by
  induction h with
  | nil => rfl
  | last l _ hl => exact absurd (List.mem_of_getLast? (hend l List.mem_cons_self)) hl
  | cons p ls hp _ ih =>
    rw [List.flatten_cons, List.append_assoc, List.append_assoc, List.singleton_append,
      splitLines_append_feed hp, ih fun l hl => hend l (List.mem_cons_of_mem _ hl), List.cons_append]

theorem dropFinal_isPrefix (c : Char) (s : List Char) : dropFinal c s <+: s := by
  unfold dropFinal
  split
  · exact List.dropLast_prefix s
  · exact List.prefix_rfl

theorem trimLineEnd_isPrefix (l : List Char) : trimLineEnd l <+: l :=
  (dropFinal_isPrefix '\r' _).trans (dropFinal_isPrefix '\n' l)

theorem lineEnd_eq {l t e : List Char} (h : l = t ++ e) (ht : trimLineEnd l = t) : lineEnd l = e := by
  rw [lineEnd, ht, h, List.drop_left]

/-- A line is its content and its ending. -/
theorem trimLineEnd_append_lineEnd (l : List Char) : trimLineEnd l ++ lineEnd l = l := by
  obtain ⟨e, he⟩ := trimLineEnd_isPrefix l
  rw [lineEnd_eq he.symm rfl, he]

theorem dropFinal_concat_self (c : Char) (s : List Char) : dropFinal c (s ++ [c]) = s := by
  simp [dropFinal]

theorem dropFinal_of_not_mem {c : Char} {s : List Char} (h : c ∉ s) : dropFinal c s = s := by
  have hne : s.getLast? ≠ some c := fun he => h (List.mem_of_getLast? he)
  simp [dropFinal, hne]

/-- What `dropFinal` takes away is the character or nothing. -/
theorem dropFinal_cases (c : Char) (s : List Char) :
    s = dropFinal c s ++ [c] ∨ s = dropFinal c s := by
  unfold dropFinal
  split
  · next h =>
    obtain ⟨t, rfl⟩ := List.getLast?_eq_some_iff.mp h
    simp
  · exact .inr rfl

theorem lineContent_concat_feed (p : List Char) : lineContent (p ++ ['\n']) = dropFinal '\r' p := by
  simp [lineContent]

theorem lineContent_of_not_mem {l : List Char} (hl : '\n' ∉ l) : lineContent l = l := by
  rw [lineContent, if_neg fun he => hl (List.mem_of_getLast? he)]

/-- No line holds a line feed. -/
theorem feed_not_mem_lines {s l : List Char} (h : l ∈ lines s) : '\n' ∉ l := by
  obtain ⟨line, hline, rfl⟩ := List.mem_map.mp h
  have hlines := areLines_splitLines s
  generalize splitLines s = ls at hlines hline
  induction hlines with
  | nil => cases hline
  | last l _ hl =>
    obtain rfl := List.mem_singleton.mp hline
    rwa [lineContent_of_not_mem hl]
  | cons p ls hp _ ih =>
    rcases List.mem_cons.mp hline with rfl | hline
    · rw [lineContent_concat_feed]
      exact fun hmem => hp ((dropFinal_isPrefix '\r' p).subset hmem)
    · exact ih hline

/-- The ending of a line with a line feed. -/
theorem lineEnd_concat_feed (p : List Char) :
    lineEnd (p ++ ['\n']) = ['\r', '\n'] ∨ lineEnd (p ++ ['\n']) = ['\n'] := by
  have htrim : trimLineEnd (p ++ ['\n']) = dropFinal '\r' p := by
    rw [trimLineEnd, dropFinal_concat_self]
  rcases dropFinal_cases '\r' p with h | h
  · exact .inl (lineEnd_eq (by simpa using congrArg (· ++ ['\n']) h) htrim)
  · exact .inr (lineEnd_eq (congrArg (· ++ ['\n']) h) htrim)

/-- The ending of a last line without a line feed. -/
theorem lineEnd_of_not_mem {l : List Char} (hl : '\n' ∉ l) :
    lineEnd l = ['\r'] ∨ lineEnd l = [] := by
  have htrim : trimLineEnd l = dropFinal '\r' l := by
    rw [trimLineEnd, dropFinal_of_not_mem hl]
  rcases dropFinal_cases '\r' l with h | h
  · exact .inl (lineEnd_eq h htrim)
  · exact .inr (lineEnd_eq (h.trans (List.append_nil _).symm) htrim)

end FrontToc.Text
