import FrontToc.Proofs.LineFilter
import FrontToc.Proofs.RenderedDocument
import FrontToc.Yaml.Token.Block

/-!
# Texts without some of their blank lines

What the filter of blank lines makes of a text, character by character. A line with a character that is
not blank stays as it is, so a text can be followed from one such line to the next.
-/
namespace FrontToc

open Text

/-- `Thinned atStart s t`: the text `t` is `s` without some of its blank lines. `atStart` says whether
`s` begins at the start of a line; the rest of a line that has begun stays. -/
inductive Thinned : Bool → List Char → List Char → Prop where
  | nil (atStart : Bool) : Thinned atStart [] []
  | keep (atStart : Bool) (c : Char) {s t : List Char} :
      Thinned (decide (c = '\n')) s t → Thinned atStart (c :: s) (c :: t)
  | drop {l s t : List Char} :
      '\n' ∉ l → isBlankText l = true → Thinned true s t → Thinned true (l ++ '\n' :: s) t

namespace Thinned

theorem eq_nil {atStart : Bool} {t : List Char} (h : Thinned atStart [] t) : t = [] := by
  generalize hs : ([] : List Char) = s at h
  cases h with
  | nil => rfl
  | keep => cases hs
  | drop => simp at hs

/-- A line that stays. -/
theorem line {p s t : List Char} (atStart : Bool) (h : Thinned true s t) :
    Thinned atStart (p ++ '\n' :: s) (p ++ '\n' :: t) := by
  induction p generalizing atStart with
  | nil => exact .keep atStart '\n' h
  | cons c p ih => exact .keep atStart c (ih _)

theorem collapseFrom {ls : List (List Char)} (hls : AreLines ls)
    (hclosed : ∀ l ∈ ls, l.getLast? = some '\n') (parent : Option Nat) :
    Thinned true ls.flatten (collapseFrom parent ls).flatten := by
  induction hls generalizing parent with
  | nil => exact .nil true
  | last l _ hl => exact absurd (List.mem_of_getLast? (hclosed l List.mem_cons_self)) hl
  | cons p ls hp _ ih =>
    have hrest := ih fun l hl => hclosed l (List.mem_cons_of_mem _ hl)
    have hlead : ((p ++ ['\n']) :: ls).flatten = p ++ '\n' :: ls.flatten := by simp
    rw [hlead]
    cases hline : afterLine parent (p ++ ['\n']) with
    | none =>
      rw [collapseFrom_left_out hline]
      refine .drop hp ?_ (hrest none)
      refine List.all_eq_true.mpr fun c hc => ?_
      cases hvisible : isBlank c with
      | true => rfl
      | false =>
        have hmem : c ∈ p ++ ['\n'] := List.mem_append_left _ hc
        obtain ⟨after, hafter⟩ := afterLine_of_nonblank parent ⟨c, hmem, hvisible⟩
        rw [hline] at hafter
        cases hafter
    | some after =>
      rw [collapseFrom_kept hline]
      simpa using line true (hrest after)

/-- What the filter leaves of a text that ends in a line feed. -/
theorem collapseBlankLines {text : List Char} (h : text.getLast? = some '\n') :
    Thinned true text (collapseBlankLines text) := by
  have hlines := areLines_splitLines text
  have hclosed := hlines.closed (by rwa [flatten_splitLines])
  simpa [FrontToc.collapseBlankLines, flatten_splitLines] using collapseFrom hlines hclosed none

/-- The rest of a line stays. -/
theorem inLine {p s t : List Char} (h : Thinned false (p ++ s) t) (hp : '\n' ∉ p) :
    ∃ t', t = p ++ t' ∧ Thinned false s t' := by
  induction p generalizing t with
  | nil => exact ⟨t, rfl, h⟩
  | cons c p ih =>
    have hc : c ≠ '\n' := fun he => hp (he ▸ List.mem_cons_self)
    rw [List.cons_append] at h
    cases h with
    | keep _ _ h =>
      rw [decide_eq_false hc] at h
      obtain ⟨t', rfl, hrest⟩ := ih h fun hmem => hp (List.mem_cons_of_mem _ hmem)
      exact ⟨t', rfl, hrest⟩

/-- The next character of a line that has begun stays, be it the end of the line. -/
theorem cons {c : Char} {s t : List Char} (h : Thinned false (c :: s) t) :
    ∃ t', t = c :: t' ∧ Thinned (decide (c = '\n')) s t' := by
  cases h with
  | keep _ _ h => exact ⟨_, rfl, h⟩

end Thinned

/-- Text whose first line is not blank. -/
def Solid (s : List Char) : Prop :=
  ∃ p c t, s = p ++ c :: t ∧ '\n' ∉ p ∧ isBlank c = false

theorem Solid.prepend {s : List Char} (h : Solid s) {p : List Char} (hp : '\n' ∉ p) :
    Solid (p ++ s) := by
  obtain ⟨q, c, t, rfl, hq, hc⟩ := h
  exact ⟨p ++ q, c, t, by simp, by simp [hp, hq], hc⟩

/-- No blank line begins a text whose first line is not blank. -/
theorem Solid.ne_blank {s l t : List Char} (h : Solid s) (hl : '\n' ∉ l)
    (hblank : isBlankText l = true) : s ≠ l ++ '\n' :: t := by
  obtain ⟨p, c, u, rfl, hp, hc⟩ := h
  intro heq
  have hmem : c ∈ l := by
    rcases List.append_eq_append_iff.mp heq with ⟨a, rfl, ha⟩ | ⟨a, rfl, ha⟩
    · cases a with
      | nil =>
        rw [(List.cons.inj ha).1] at hc
        cases hc
      | cons d a =>
        rw [(List.cons.inj ha).1]
        simp
    · cases a with
      | nil =>
        rw [← (List.cons.inj ha).1] at hc
        cases hc
      | cons d a =>
        rw [← (List.cons.inj ha).1] at hp
        simp at hp
  have := List.all_eq_true.mp hblank c hmem
  rw [hc] at this
  cases this

namespace Thinned

/-- A text stays as far as its first line goes if that is not blank. -/
theorem solid {s t : List Char} {atStart : Bool} (h : Thinned atStart s t) (hs : Solid s) :
    Thinned false s t := by
  cases h with
  | nil => exact .nil false
  | keep _ c h => exact .keep false c h
  | drop hl hblank _ => exact absurd rfl (hs.ne_blank hl hblank)

/-- A text before a line that is not blank loses blank lines on its own. -/
theorem split {s t u : List Char} {atStart : Bool} (h : Thinned atStart (s ++ u) t) (hu : Solid u) :
    ∃ s' u', t = s' ++ u' ∧ Thinned atStart s s' ∧ Thinned false u u' := by
  generalize hw : s ++ u = w at h
  induction h generalizing s with
  | nil =>
    obtain ⟨rfl, rfl⟩ := List.append_eq_nil_iff.mp hw
    exact ⟨[], [], rfl, .nil _, .nil false⟩
  | keep b c h ih =>
    cases s with
    | nil =>
      obtain rfl : u = _ := hw
      exact ⟨[], _, rfl, .nil _, .keep false c h⟩
    | cons d s =>
      obtain ⟨rfl, rfl⟩ := List.cons.inj hw
      obtain ⟨s', u', rfl, hs, hu'⟩ := ih rfl
      exact ⟨d :: s', u', rfl, .keep _ d hs, hu'⟩
  | drop hl hblank h ih =>
    rcases List.append_eq_append_iff.mp hw with ⟨a, rfl, ha⟩ | ⟨a, rfl, ha⟩
    · have hla : '\n' ∉ a := fun hmem => hl (List.mem_append_right _ hmem)
      refine absurd ha (hu.ne_blank hla ?_)
      exact List.all_eq_true.mpr fun c hc =>
        List.all_eq_true.mp hblank c (List.mem_append_right _ hc)
    · cases a with
      | nil => exact absurd ha.symm (hu.ne_blank List.not_mem_nil rfl)
      | cons d a =>
        obtain ⟨rfl, rfl⟩ := List.cons.inj ha
        obtain ⟨s', u', rfl, hs, hu'⟩ := ih rfl
        exact ⟨s', u', rfl, .drop hl hblank hs, hu'⟩

end Thinned

end FrontToc
