import FrontToc.Proofs.LeadingBlankLines

/-!
# Bodies without their leading blank lines

Blank lines are skipped one after the other, each with its line feed, up to the first line that holds
anything else. What is skipped is whole lines, unless nothing is left at all. So the indentation of the
first line stays, and more blank lines before a body make no difference.
-/
namespace FrontToc

open Text

/-- The steps in which blank lines are skipped: by each line feed the text before it is looked at, and
where no line feed is left the rest as a whole. -/
inductive Skips : (body rest : List Char) → Prop where
  | blankLine {line rest out : List Char} : '\n' ∉ line → isBlankText line = true → Skips rest out →
      Skips (line ++ '\n' :: rest) out
  | visibleLine {line rest : List Char} : '\n' ∉ line → isBlankText line = false →
      Skips (line ++ '\n' :: rest) (line ++ '\n' :: rest)
  | blankEnd {line : List Char} : '\n' ∉ line → isBlankText line = true → Skips line []
  | visibleEnd {line : List Char} : '\n' ∉ line → isBlankText line = false → Skips line line

/-- A complete line of white space. -/
def IsBlankLine (line : List Char) : Prop :=
  ∃ blank, line = blank ++ ['\n'] ∧ '\n' ∉ blank ∧ isBlankText blank = true

theorem isBlankText_concat_feed (s : List Char) : isBlankText (s ++ ['\n']) = isBlankText s := by
  rw [isBlankText, List.all_append, show ['\n'].all isBlank = true by decide, Bool.and_true,
    isBlankText]

theorem strip_append_feed {line : List Char} (single : '\n' ∉ line) (rest : List Char) :
    stripLeadingBlankLines (line ++ '\n' :: rest) =
      if isBlankText line then stripLeadingBlankLines rest else line ++ '\n' :: rest := by
  unfold stripLeadingBlankLines
  rw [splitLines_append_feed single, List.dropWhile_cons, isBlankText_concat_feed]
  split
  · rfl
  · rw [List.flatten_cons, flatten_splitLines, List.append_assoc, List.singleton_append]

theorem strip_of_not_mem {line : List Char} (single : '\n' ∉ line) :
    stripLeadingBlankLines line = if isBlankText line then [] else line := by
  unfold stripLeadingBlankLines
  by_cases empty : line = []
  · subst empty
    rfl
  · rw [splitLines_of_not_mem single empty, List.dropWhile_cons]
    split
    · rfl
    · simp

/-- Skipping comes to an end on every body, with what stripping gives. -/
theorem skips_strip (body : List Char) : Skips body (stripLeadingBlankLines body) := by
  have are_lines := areLines_splitLines body
  rw [← flatten_splitLines body]
  generalize splitLines body = ls at are_lines
  induction are_lines with
  | nil => exact .blankEnd (by simp) rfl
  | last line _ single =>
    rw [List.flatten_singleton, strip_of_not_mem single]
    cases blank : isBlankText line with
    | true => exact .blankEnd single blank
    | false => exact .visibleEnd single blank
  | cons line ls single _ ih =>
    rw [List.flatten_cons, List.append_assoc, List.singleton_append, strip_append_feed single]
    cases blank : isBlankText line with
    | true => exact .blankLine single blank ih
    | false => exact .visibleLine single blank

theorem Skips.eq_strip {body rest : List Char} (skips : Skips body rest) :
    rest = stripLeadingBlankLines body := by
  induction skips with
  | blankLine single blank _ ih => rw [strip_append_feed single, if_pos blank, ih]
  | visibleLine single visible => rw [strip_append_feed single, visible]; rfl
  | blankEnd single blank => rw [strip_of_not_mem single, if_pos blank]
  | visibleEnd single visible => rw [strip_of_not_mem single, visible]; rfl

theorem skips_iff {body rest : List Char} : Skips body rest ↔ rest = stripLeadingBlankLines body := by
  constructor
  · exact Skips.eq_strip
  · rintro rfl
    exact skips_strip body

/-- Blank lines at the start are complete, unless all lines are blank. -/
theorem Text.AreLines.blank_start {ls : List (List Char)} (are_lines : AreLines ls) :
    (∀ line ∈ ls.takeWhile isBlankText, IsBlankLine line) ∨ ls.dropWhile isBlankText = [] := by
  induction are_lines with
  | nil => exact .inr rfl
  | last line _ _ =>
    cases blank : isBlankText line with
    | true => exact .inr (by simp [blank])
    | false => exact .inl (by simp [blank])
  | cons line ls single _ ih =>
    rw [List.takeWhile_cons, List.dropWhile_cons, isBlankText_concat_feed]
    cases blank : isBlankText line with
    | false => exact .inl (by simp)
    | true =>
      apply ih.imp
      · intro complete l member
        rcases List.mem_cons.mp member with rfl | member
        · exact ⟨line, rfl, single, blank⟩
        · exact complete l member
      · exact id

theorem strip_eq_nil_iff (body : List Char) :
    stripLeadingBlankLines body = [] ↔ isBlankText body = true := by
  constructor
  · intro empty
    have none_left : (splitLines body).dropWhile isBlankText = [] := by
      rw [← splitLines_stripLeadingBlankLines, empty]
      rfl
    rw [← flatten_splitLines body, isBlankText, List.all_flatten]
    exact List.all_eq_true.mpr (List.dropWhile_eq_nil_iff.mp none_left)
  · intro blank
    have none_left : (splitLines body).dropWhile isBlankText = [] := by
      rw [List.dropWhile_eq_nil_iff]
      rwa [← flatten_splitLines body, isBlankText, List.all_flatten, List.all_eq_true] at blank
    rw [stripLeadingBlankLines, none_left]
    rfl

/-- Complete blank lines before a body do not count. -/
theorem strip_append_blank_lines {lead : List (List Char)} (blank : ∀ line ∈ lead, IsBlankLine line)
    (body : List Char) : stripLeadingBlankLines (lead.flatten ++ body) = stripLeadingBlankLines body := by
  induction lead with
  | nil => rfl
  | cons line lead ih =>
    obtain ⟨content, rfl, single, white⟩ := blank line List.mem_cons_self
    rw [List.flatten_cons, List.append_assoc, List.append_assoc, List.singleton_append,
      strip_append_feed single, if_pos white]
    exact ih fun l member => blank l (List.mem_cons_of_mem _ member)

theorem strip_strip (body : List Char) :
    stripLeadingBlankLines (stripLeadingBlankLines body) = stripLeadingBlankLines body := by
  rw [stripLeadingBlankLines, splitLines_stripLeadingBlankLines, List.dropWhile_idempotent,
    ← splitLines_stripLeadingBlankLines, flatten_splitLines]

/-- Stripping skips blank lines until it ends. What it takes away is complete lines of white space, or
the whole body if that is all white space; the line that comes first then has something else in it and
is a whole line of the body. Blank lines before the body make no difference. -/
theorem only_blank_lines_are_stripped (body : List Char) :
    (∀ rest, Skips body rest ↔ rest = stripLeadingBlankLines body) ∧
      (∃ removed, splitLines body = removed ++ splitLines (stripLeadingBlankLines body) ∧
        removed.flatten ++ stripLeadingBlankLines body = body ∧
        (∀ line ∈ removed, isBlankText line = true) ∧
        ((∀ line ∈ removed, IsBlankLine line) ∨ stripLeadingBlankLines body = [])) ∧
      (stripLeadingBlankLines body = [] ↔ isBlankText body = true) ∧
      (∀ line ∈ (splitLines (stripLeadingBlankLines body)).head?, isBlankText line = false) ∧
      (∀ lead : List (List Char), (∀ line ∈ lead, IsBlankLine line) →
        stripLeadingBlankLines (lead.flatten ++ body) = stripLeadingBlankLines body) ∧
      stripLeadingBlankLines (stripLeadingBlankLines body) = stripLeadingBlankLines body := by
  refine ⟨fun _ => skips_iff,
    ⟨_, (takeWhile_append_strip body).symm, flatten_takeWhile_append_strip body,
      fun line => List.mem_takeWhile_imp, ?_⟩,
    strip_eq_nil_iff body, visible_first_line body, fun _ blank => strip_append_blank_lines blank body,
    strip_strip body⟩
  apply (areLines_splitLines body).blank_start.imp_right
  intro none_left
  rw [stripLeadingBlankLines, none_left]
  rfl

end FrontToc
