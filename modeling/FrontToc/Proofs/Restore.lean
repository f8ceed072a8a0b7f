import FrontToc.Proofs.Placeholders

/-!
# Restoring blocks one after the other

A text that was put together from literal parts and placeholders. Replacing one placeholder everywhere
fills exactly its own places, and no later placeholder comes about by it, so that a chain of replacements
fills every place with its own block.
-/
namespace FrontToc

open Text

/-- A part of a text: literal text, or a placeholder. -/
inductive Segment where
  | text (t : List Char)
  | hole (p : List Char)
deriving DecidableEq, Repr

namespace Segment

/-- The text of a part. -/
def render : Segment → List Char
  | .text t => t
  | .hole p => p

/-- The text of parts put together. -/
def renderAll (segs : List Segment) : List Char :=
  segs.flatMap render

/-- The part with the block `b` in the place of the placeholder `p`. -/
def fill (p b : List Char) : Segment → Segment
  | .text t => .text t
  | .hole q => if q = p then .text b else .hole q

/-- The part with the block in the place of its placeholder, if there is a block for it. -/
def fillFrom (blocks : List (List Char × List Char)) : Segment → Segment
  | .text t => .text t
  | .hole q =>
    match blocks.lookup q with
    | some b => .text b
    | none => .hole q

@[simp] theorem renderAll_nil : renderAll [] = [] := rfl

@[simp] theorem renderAll_text (t : List Char) (segs : List Segment) :
    renderAll (.text t :: segs) = t ++ renderAll segs := rfl

@[simp] theorem renderAll_hole (p : List Char) (segs : List Segment) :
    renderAll (.hole p :: segs) = p ++ renderAll segs := rfl

theorem fillFrom_cons (p b : List Char) (blocks : List (List Char × List Char)) (s : Segment) :
    fillFrom blocks (fill p b s) = fillFrom ((p, b) :: blocks) s := by
  cases s with
  | text t => rfl
  | hole q =>
    by_cases h : q = p
    · simp [fill, fillFrom, h]
    · have hbeq : (q == p) = false := beq_false_of_ne h
      simp [fill, fillFrom, List.lookup_cons, h, hbeq]

/-- `p` occurs nowhere but where it stands as a placeholder. `before` is the text since the last such
place. -/
def Clear (p : List Char) : (before : List Char) → List Segment → Prop
  | before, [] => ¬p <:+: before
  | before, .text t :: rest => Clear p (before ++ t) rest
  | before, .hole q :: rest =>
    if q = p then ¬p <:+: before ∧ Clear p [] rest else Clear p (before ++ q) rest

/-- Replacing a placeholder fills its places. -/
theorem replaceAll_renderAll {p : List Char} (hp : Unbordered p) (hne : p ≠ []) (b : List Char)
    (segs : List Segment) (before : List Char) (h : Clear p before segs) :
    replaceAll p b (before ++ renderAll segs) = before ++ renderAll (segs.map (fill p b)) := by
  induction segs generalizing before with
  | nil => simpa [Clear] using replaceAll_of_not_infix h b
  | cons s rest ih =>
    cases s with
    | text t => simpa [Clear, fill] using ih (before ++ t) h
    | hole q =>
      by_cases hq : q = p
      · subst hq
        simp only [Clear, if_true] at h
        have hrest := ih [] h.2
        rw [renderAll_hole, ← List.append_assoc, replaceAll_append hp hne h.1]
        simpa [fill] using hrest
      · simp only [Clear, if_neg hq] at h
        simpa [fill, hq] using ih (before ++ q) h

/-- A block that no occurrence of `p` can reach into: its first and last character are foreign to `p`,
and `p` does not occur in it. -/
structure ShutTo (p b : List Char) : Prop where
  first : ∃ c ∈ b.head?, c ∉ p
  last : ∃ c ∈ b.getLast?, c ∉ p
  inside : ¬p <:+: b

/-- An occurrence in a text around a block lies before or after the block. -/
theorem ShutTo.infix_append {p b x y : List Char} (h : ShutTo p b) (hin : p <:+: x ++ b ++ y) :
    p <:+: x ∨ p <:+: y := by
  obtain ⟨c, hc, hcp⟩ := h.first
  obtain ⟨d, hd, hdp⟩ := h.last
  obtain ⟨m, rfl⟩ := List.head?_eq_some_iff.mp hc
  have hsplit : p <:+: x ∨ p <:+: m ++ y := by
    apply infix_of_barrier hcp
    simpa using hin
  rcases hsplit with hx | hm
  · exact .inl hx
  · obtain ⟨m', hm'⟩ := List.getLast?_eq_some_iff.mp hd
    cases m' with
    | nil =>
      obtain ⟨-, rfl⟩ := List.cons_eq_cons.mp hm'
      exact .inr (by simpa using hm)
    | cons e m' =>
      obtain ⟨rfl, rfl⟩ := List.cons_eq_cons.mp hm'
      have hsplit : p <:+: m' ∨ p <:+: y := by
        apply infix_of_barrier hdp
        simpa using hm
      rcases hsplit with hm | hy
      · exact absurd (hm.trans ⟨[c], [d], by simp⟩) h.inside
      · exact .inr hy

/-- Filling in a block shut to another placeholder makes no new occurrence of that one. -/
theorem Clear.fill {p q b : List Char} (hpq : p ≠ q) (hb : ShutTo q b) (segs : List Segment)
    (before before' : List Char) (h : Clear q before segs)
    (hbefore : ∀ y, ¬q <:+: before ++ y → ¬q <:+: before' ++ y) :
    Clear q before' (segs.map (Segment.fill p b)) := by
  induction segs generalizing before before' with
  | nil => simpa [Clear] using hbefore [] (by simpa [Clear] using h)
  | cons s rest ih =>
    have happend : ∀ t : List Char,
        ∀ y, ¬q <:+: before ++ t ++ y → ¬q <:+: before' ++ t ++ y := by
      intro t y hy
      rw [List.append_assoc] at hy ⊢
      exact hbefore _ hy
    cases s with
    | text t => exact ih _ _ h (happend t)
    | hole r =>
      by_cases hr : r = q
      · subst hr
        simp only [Clear, if_true] at h
        simp only [List.map_cons, Segment.fill, if_neg (Ne.symm hpq), Clear, if_true]
        exact ⟨by simpa using hbefore [] (by simpa using h.1), ih [] [] h.2 fun _ hy => hy⟩
      · simp only [Clear, if_neg hr] at h
        by_cases hrp : r = p
        · subst hrp
          simp only [List.map_cons, Segment.fill, if_true, Clear]
          refine ih _ _ h fun y hy hin => ?_
          have hx : ¬q <:+: before' := by
            simpa using hbefore [] fun hin' => hy (hin'.trans ⟨[], r ++ y, by simp⟩)
          rcases hb.infix_append hin with h' | h'
          · exact hx h'
          · exact hy (h'.trans (List.suffix_append _ _).isInfix)
        · simp only [List.map_cons, Segment.fill, if_neg hrp, Clear, if_neg hr]
          exact ih _ _ h (happend r)

/-- Replacing one placeholder after the other fills all places, if every block is shut to the
placeholders that come after its own. -/
theorem restore_renderAll (blocks : List (List Char × List Char)) (segs : List Segment)
    (hshut : blocks.Pairwise fun x y => x.1 ≠ y.1 ∧ ShutTo y.1 x.2)
    (hclear : ∀ x ∈ blocks, Unbordered x.1 ∧ x.1 ≠ [] ∧ Clear x.1 [] segs) :
    blocks.foldl (fun t x => replaceAll x.1 x.2 t) (renderAll segs) =
      renderAll (segs.map (fillFrom blocks)) := by
  induction blocks generalizing segs with
  | nil =>
    have hid : fillFrom [] = id := by
      funext s
      cases s <;> rfl
    simp [hid]
  | cons x rest ih =>
    obtain ⟨p, b⟩ := x
    rw [List.pairwise_cons] at hshut
    obtain ⟨hun, hne, hc⟩ := hclear (p, b) List.mem_cons_self
    have hfirst := replaceAll_renderAll hun hne b segs [] hc
    simp only [List.nil_append] at hfirst
    rw [List.foldl_cons, hfirst, ih _ hshut.2]
    · rw [List.map_map]
      congr 2
      funext s
      exact fillFrom_cons p b rest s
    · intro y hy
      obtain ⟨hpy, hb⟩ := hshut.1 y hy
      obtain ⟨huny, hney, hcy⟩ := hclear y (List.mem_cons_of_mem _ hy)
      exact ⟨huny, hney, hcy.fill hpy hb _ _ _ fun _ hin => hin⟩

end Segment

end FrontToc
