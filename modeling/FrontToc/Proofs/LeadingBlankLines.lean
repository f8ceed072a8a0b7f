import FrontToc.Proofs.Pieces
import FrontToc.Proofs.RenderedDocument
import Mathlib.Data.List.DropRight

/-!
# Blank lines before a body

Blank lines at the start of a text neither are headings nor open a block, so the headings of a text are
those of the text without them, and of a rendered body those of the body it was rendered from.
-/
namespace FrontToc

open Text

/-- A line that opens a block is not blank. -/
theorem Fence.visible_of_opening {line : List Char} {fence : Fence}
    (h : Fence.opening? line = some fence) : ∃ c ∈ line, isBlank c = false := by
  rw [Fence.opening?] at h
  split at h
  · next c rest hun =>
    dsimp only at h
    split at h
    · next hcond =>
      have hmem : c ∈ line := by
        have hsub := List.dropWhile_suffix (· = ' ') (l := line)
        rw [← Fence.eq_of_unindent hun] at hsub
        exact hsub.subset List.mem_cons_self
      refine ⟨c, hmem, ?_⟩
      rcases hcond.1 with rfl | rfl <;> decide
    · cases h
  · cases h

theorem opening_of_blank {l : List Char} (h : isBlankText l = true) :
    Fence.opening? (trimLineEnd l) = none := by
  cases hopen : Fence.opening? (trimLineEnd l) with
  | none => rfl
  | some fence =>
    obtain ⟨c, hc, hvisible⟩ := Fence.visible_of_opening hopen
    have hblank := List.all_eq_true.mp h c ((trimLineEnd_isPrefix l).subset hc)
    rw [hvisible] at hblank
    cases hblank

theorem lineHeading_of_blank {l : List Char} (h : isBlankText l = true) : lineHeading? l = none := by
  refine lineHeading_of_head fun hhead => ?_
  have hblank := List.all_eq_true.mp h '#' (List.mem_of_head? hhead)
  cases hblank

/-- Blank lines at the start do not count for the headings. -/
theorem headings_dropWhile_blank (ls : List (List Char)) :
    (outsideLines (ls.dropWhile isBlankText)).filterMap lineHeading? =
      (outsideLines ls).filterMap lineHeading? := by
  induction ls with
  | nil => rfl
  | cons l ls ih =>
    cases hblank : isBlankText l with
    | true =>
      rw [List.dropWhile_cons_of_pos hblank, ih, outsideLines_plain (opening_of_blank hblank),
        List.filterMap_cons, lineHeading_of_blank hblank]
    | false => rw [List.dropWhile_cons_of_neg (by simp [hblank])]

theorem splitLines_stripLeadingBlankLines (body : List Char) :
    splitLines (stripLeadingBlankLines body) = (splitLines body).dropWhile isBlankText :=
  ((areLines_splitLines body).sublist (List.dropWhile_sublist _)).splitLines_flatten

theorem visible_first_line (body : List Char) :
    ∀ line ∈ (splitLines (stripLeadingBlankLines body)).head?, isBlankText line = false := by
  intro line first
  have := List.head?_dropWhile_not isBlankText (splitLines body)
  rw [splitLines_stripLeadingBlankLines, Option.mem_def] at first
  rw [first] at this
  simpa using this

theorem takeWhile_append_strip (body : List Char) :
    (splitLines body).takeWhile isBlankText ++ splitLines (stripLeadingBlankLines body) =
      splitLines body := by
  rw [splitLines_stripLeadingBlankLines, List.takeWhile_append_dropWhile]

theorem flatten_takeWhile_append_strip (body : List Char) :
    ((splitLines body).takeWhile isBlankText).flatten ++ stripLeadingBlankLines body = body := by
  rw [stripLeadingBlankLines, ← List.flatten_append, List.takeWhile_append_dropWhile, flatten_splitLines]

/-- What a body is stripped to follows lines that are all blank, and does not begin with such a line. -/
theorem eq_strip_iff {body rest : List Char} :
    rest = stripLeadingBlankLines body ↔
      ∃ lead, splitLines body = lead ++ splitLines rest ∧ (∀ line ∈ lead, isBlankText line = true) ∧
        ∀ line ∈ (splitLines rest).head?, isBlankText line = false := by
  constructor
  · rintro rfl
    exact ⟨_, (takeWhile_append_strip body).symm, fun _ => List.mem_takeWhile_imp,
      visible_first_line body⟩
  · rintro ⟨lead, whole, blank, visible⟩
    have stays : (splitLines rest).dropWhile isBlankText = splitLines rest := by
      cases ls : splitLines rest with
      | nil => rfl
      | cons line ls' =>
        rw [ls] at visible
        exact List.dropWhile_cons_of_neg (by simp [visible line rfl])
    rw [stripLeadingBlankLines, whole, List.dropWhile_append_of_pos blank, stays, flatten_splitLines]

theorem splitLines_renderedBody (body : List Char) :
    splitLines (renderedBody body) =
      ['\n'] :: ['\n'] :: (splitLines body).dropWhile isBlankText := by
  rw [renderedBody, splitLines, if_pos rfl, splitLines, if_pos rfl,
    splitLines_stripLeadingBlankLines]

theorem dropWhile_renderedBody (body : List Char) :
    (splitLines (renderedBody body)).dropWhile isBlankText =
      (splitLines body).dropWhile isBlankText := by
  rw [splitLines_renderedBody, List.dropWhile_cons_of_pos (by decide),
    List.dropWhile_cons_of_pos (by decide), List.dropWhile_idempotent]

/-- A rendered body is rendered as it is. -/
theorem stripLeadingBlankLines_renderedBody (body : List Char) :
    stripLeadingBlankLines (renderedBody body) = stripLeadingBlankLines body := by
  rw [stripLeadingBlankLines, dropWhile_renderedBody, stripLeadingBlankLines]

/-- A rendered body has the headings of the body. -/
theorem extractHeadings_renderedBody (body : List Char) (options : HeadingOptions) :
    extractHeadings (outsideText (renderedBody body)) options =
      extractHeadings (outsideText body) options := by
  have hlines : headingLines (outsideText (renderedBody body)) = headingLines (outsideText body) := by
    rw [headingLines_eq, headingLines_eq, splitLines_outsideText, splitLines_outsideText,
      ← headings_dropWhile_blank, dropWhile_renderedBody, headings_dropWhile_blank]
  rw [extractHeadings, extractHeadings, hlines]

end FrontToc
