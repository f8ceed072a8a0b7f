import FrontToc.Proofs.HeadingSlugs
import FrontToc.Proofs.LowerCaseLetters

/-!
# The shape of slugs

A slug is in lower case, holds letters, digits, underscores and hyphens only, and neither begins nor ends
with a hyphen. Every text of that shape is its own slug: lower case leaves it as it is, every character
counts, it is one word, and there is nothing to trim.
-/
namespace FrontToc

open Text

/-- The shape of a slug. -/
structure IsSlug (s : List Char) : Prop where
  lower : lowerCase s = s
  word_chars : ∀ c ∈ s, isAlphanumeric c = true ∨ c = '_' ∨ c = '-'
  unspaced : ∀ c ∈ s, isBlank c = false
  start : s.head? ≠ some '-'
  finish : s.getLast? ≠ some '-'

/-- The words of a text are its characters without the blanks. -/
theorem Text.flatten_words (s : List Char) : (words s).flatten = s.filter (!isBlank ·) := by
  fun_induction words s with
  | case1 => rfl
  | case2 c cs blank ih => rw [ih, List.filter_cons_of_neg (by simp [blank])]
  | case3 c visible => simp [visible]
  | case4 c visible d ds _ ih =>
    rw [List.filter_cons_of_pos (by simpa using visible), List.flatten_cons, ih,
      List.singleton_append]
  | case5 c visible d ds _ none_split ih =>
    rw [none_split] at ih ⊢
    rw [List.filter_cons_of_pos (by simpa using visible), ← ih]
    rfl
  | case6 c visible d ds _ w ws split ih =>
    rw [split] at ih ⊢
    rw [List.filter_cons_of_pos (by simpa using visible), ← ih]
    rfl

/-- A text without blanks is one word. -/
theorem Text.words_of_unspaced {s : List Char} (unspaced : ∀ c ∈ s, isBlank c = false) (ne : s ≠ []) :
    words s = [s] := by
  induction s with
  | nil => exact absurd rfl ne
  | cons c cs ih =>
    obtain ⟨first, others⟩ := List.forall_mem_cons.mp unspaced
    cases cs with
    | nil => simp [words, first]
    | cons d ds =>
      have second : isBlank d = false := others d List.mem_cons_self
      have rest : words (d :: ds) = [d :: ds] := ih others (List.cons_ne_nil d ds)
      rw [words, if_neg (by simp [first]), rest]
      simp [second]

/-- A character of a slug comes from the lower case of the title, or it joins two words. -/
theorem mem_slugify {title : List Char} {c : Char} (h : c ∈ slugify title) :
    c = '-' ∨ (c ∈ lowerCase title ∧ Slug.keeps c = true ∧ isBlank c = false) := by
  rcases mem_intercalate (mem_trimWhile h) with joint | ⟨word, member, inside⟩
  · exact .inl (List.mem_singleton.mp joint)
  · have counted := List.mem_flatten.mpr ⟨word, member, inside⟩
    rw [flatten_words, List.mem_filter, List.mem_filter] at counted
    exact .inr ⟨counted.1.1, counted.1.2, by simpa using counted.2⟩

theorem isSlug_slugify (title : List Char) : IsSlug (slugify title) := by
  obtain ⟨-, -, -, -, -, start, finish⟩ := trimmed_trimWhile (· = '-')
    (List.intercalate ['-'] (words ((lowerCase title).filter Slug.keeps)))
  rw [← slugify] at start finish
  constructor
  · apply lowerCase_of_lowerChar
    intro c member
    rcases mem_slugify member with rfl | ⟨lower, -⟩
    · decide +kernel
    · exact lowerChar_of_mem_lowerCase lower
  · intro c member
    rcases mem_slugify member with rfl | ⟨-, kept, unspaced⟩
    · exact .inr (.inr rfl)
    · simpa [Slug.keeps, unspaced, or_assoc] using kept
  · intro c member
    rcases mem_slugify member with rfl | ⟨-, -, unspaced⟩
    · decide
    · exact unspaced
  · intro hyphen
    simpa using start '-' hyphen
  · intro hyphen
    simpa using finish '-' hyphen

theorem IsSlug.trimmed {s : List Char} (slug : IsSlug s) : trimWhile (· = '-') s = s := by
  apply trimmed_iff.mp
  refine ⟨[], [], by simp, by simp, by simp, ?_, ?_⟩
  · intro c first
    rw [decide_eq_false_iff_not]
    rintro rfl
    exact slug.start first
  · intro c last
    rw [decide_eq_false_iff_not]
    rintro rfl
    exact slug.finish last

theorem IsSlug.kept {s : List Char} (slug : IsSlug s) : s.filter Slug.keeps = s := by
  rw [List.filter_eq_self]
  intro c member
  rcases slug.word_chars c member with word | rfl | rfl
  · simp [Slug.keeps, word]
  · decide +kernel
  · decide +kernel

theorem IsSlug.slugify_eq {s : List Char} (slug : IsSlug s) : slugify s = s := by
  unfold slugify
  rw [slug.lower, slug.kept]
  cases s with
  | nil => rfl
  | cons c cs =>
    rw [words_of_unspaced slug.unspaced (List.cons_ne_nil c cs), List.intercalate_singleton]
    exact slug.trimmed

/-- The slug of every title has the shape of a slug, and the texts of that shape are those that are the
slug of a title, and those that are their own slug. So a slug is its own slug. -/
theorem slugs_are_their_own_slugs :
    (∀ title, IsSlug (slugify title)) ∧
      (∀ s, IsSlug s ↔ slugify s = s) ∧
      (∀ s, (∃ title, slugify title = s) ↔ slugify s = s) ∧
      ∀ title, slugify (slugify title) = slugify title := by
  have own : ∀ s, IsSlug s ↔ slugify s = s := by
    intro s
    constructor
    · exact IsSlug.slugify_eq
    · intro same
      rw [← same]
      exact isSlug_slugify s
  refine ⟨isSlug_slugify, own, ?_, fun title => (isSlug_slugify title).slugify_eq⟩
  intro s
  constructor
  · rintro ⟨title, rfl⟩
    exact (isSlug_slugify title).slugify_eq
  · intro same
    exact ⟨s, same⟩

/-- A capital sigma at the end of a word is in its final form, and the dot of a capital I goes. -/
example : slugify " – ΟΔΟΣ, İ_1\u2003(Σ) -".toList = "οδος-i_1-σ".toList := by
  decide +kernel

end FrontToc
