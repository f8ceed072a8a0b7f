import FrontToc.Proofs.Pieces

/-!
# Filling templates

A template is literal text with placeholders of one shield in it, in any order and number. If a
placeholder occurs nowhere but where it was put, restoring the template one block after the other puts
into every place the block that belongs there, and leaves the literal text as it is.
-/
namespace FrontToc

open Text

namespace Segment

/-- `p` occurs in the text of a template only where the template has it as a placeholder. -/
def OccursOnlyAsHole (p : List Char) (template : List Segment) : Prop :=
  ∀ x y, renderAll template = x ++ p ++ y →
    ∃ before after, template = before ++ .hole p :: after ∧ renderAll before = x

/-- Whether a placeholder occurs elsewhere can be told by a look at every place of the text. -/
theorem occursOnlyAsHole_iff {p : List Char} {template : List Segment} :
    OccursOnlyAsHole p template ↔
      ∀ n < (renderAll template).length + 1, ((renderAll template).drop n).take p.length = p →
        ∃ k < template.length, template[k]? = some (.hole p) ∧
          (renderAll (template.take k)).length = n := by
  constructor
  · intro only n _ found
    have occurs : renderAll template = (renderAll template).take n ++ p ++
        (renderAll template).drop (n + p.length) := by
      conv_lhs => rw [← List.take_append_drop n (renderAll template),
        ← List.take_append_drop p.length ((renderAll template).drop n), found, List.drop_drop]
      rw [List.append_assoc]
    obtain ⟨before, after, rfl, place⟩ := only _ _ occurs
    refine ⟨before.length, by simp, by simp, ?_⟩
    rw [List.take_left, place, List.length_take]
    omega
  · intro only x y occurs
    have found : ((renderAll template).drop x.length).take p.length = p := by
      rw [occurs, List.append_assoc, List.drop_left, List.take_left]
    have within : x.length < (renderAll template).length + 1 := by
      rw [occurs]
      simp only [List.length_append]
      omega
    obtain ⟨k, inside, hole, place⟩ := only x.length within found
    have template_eq : template = template.take k ++ .hole p :: template.drop (k + 1) := by
      obtain ⟨here, segment⟩ := List.getElem?_eq_some_iff.mp hole
      rw [← segment, List.cons_getElem_drop_succ, List.take_append_drop]
    refine ⟨template.take k, template.drop (k + 1), template_eq, ?_⟩
    have prefix_eq : renderAll (template.take k) <+: renderAll template := by
      conv_rhs => rw [template_eq]
      simp [renderAll]
    exact (List.prefix_of_prefix_length_le prefix_eq ⟨p ++ y, by rw [occurs, List.append_assoc]⟩
      place.le).eq_of_length place

instance (p : List Char) (template : List Segment) : Decidable (OccursOnlyAsHole p template) :=
  decidable_of_iff _ occursOnlyAsHole_iff.symm

/-- Between the places of a placeholder there is no other occurrence of it. -/
theorem clear_of_occurrences {p : List Char} (hne : p ≠ []) (template : List Segment)
    (before : List Char)
    (only : ∀ x y, before ++ renderAll template = x ++ p ++ y →
      ∃ front rest, template = front ++ .hole p :: rest ∧ before ++ renderAll front = x) :
    Clear p before template := by
  have hpos : 0 < p.length := List.length_pos_iff.mpr hne
  induction template generalizing before with
  | nil =>
    rintro ⟨x, y, occurs⟩
    obtain ⟨front, rest, impossible, -⟩ := only x y (by simpa using occurs.symm)
    simp at impossible
  | cons segment template ih =>
    have step : segment ≠ .hole p → ∀ t, segment.render = t → Clear p (before ++ t) template := by
      rintro other t rfl
      refine ih _ fun x y occurs => ?_
      obtain ⟨front, rest, template_eq, place⟩ := only x y (by simpa [renderAll] using occurs)
      cases front with
      | nil => exact absurd (List.cons.inj template_eq).1 other
      | cons first front =>
        obtain ⟨head_eq, tail_eq⟩ := List.cons.inj template_eq
        subst head_eq
        exact ⟨front, rest, tail_eq, by simpa [renderAll] using place⟩
    cases segment with
    | text t => exact step (by simp) t rfl
    | hole q =>
      by_cases same : q = p
      · subst same
        rw [Clear, if_pos rfl]
        constructor
        · rintro ⟨x, y, occurs⟩
          obtain ⟨front, rest, -, place⟩ := only x (y ++ renderAll (.hole q :: template))
            (by rw [← occurs]; simp)
          have before_length := congrArg List.length occurs
          have place_length := congrArg List.length place
          simp only [List.length_append] at before_length place_length
          omega
        · refine ih [] fun x y occurs => ?_
          obtain ⟨front, rest, template_eq, place⟩ := only (before ++ q ++ x) y (by
            rw [renderAll_hole, ← List.nil_append (renderAll template), occurs]
            simp)
          cases front with
          | nil =>
            have place_length := congrArg List.length place
            simp only [renderAll_nil, List.length_append, List.length_nil] at place_length
            omega
          | cons first front =>
            obtain ⟨head_eq, tail_eq⟩ := List.cons.inj template_eq
            subst head_eq
            exact ⟨front, rest, tail_eq, by simpa using place⟩
      · rw [Clear, if_neg same]
        exact step (by simpa using same) q rfl

end Segment

open Segment

/-- Restoring one block after the other fills a template at once: every placeholder gives way to its own
block and the literal text stays, if no placeholder occurs but where it was put. So a shielded text is
restored to the text. The placeholders are distinct and foreign to the text that was shielded. -/
theorem restore_eq_fillFrom {ids : IdSupply} (hids : ids.Hexadecimal) (text : List Char)
    (distinct : ((shield ids text).blocks.map Prod.fst).Nodup)
    (foreign : ∀ p ∈ (shield ids text).blocks.map Prod.fst, ¬p <:+: text) :
    (∀ template : List Segment,
      (∀ p ∈ (shield ids text).blocks.map Prod.fst, OccursOnlyAsHole p template) →
      (shield ids text).restore (renderAll template) =
        renderAll (template.map (fillFrom (shield ids text).blocks))) ∧
    (∀ x ∈ (shield ids text).blocks, fillFrom (shield ids text).blocks (.hole x.1) = .text x.2) ∧
    (shield ids text).restore (shield ids text).text = text := by
  have pairwise : (shield ids text).blocks.Pairwise fun x y => x.1 ≠ y.1 :=
    List.pairwise_map.mp distinct
  have fresh : ∀ x ∈ (shield ids text).blocks, ¬x.1 <:+: text := fun x member =>
    foreign x.1 (List.mem_map_of_mem member)
  refine ⟨fun template only => restore_of_clear hids pairwise fresh template fun x member => ?_,
    fun x member => ?_, restore_shield_of_fresh hids pairwise fresh⟩
  · obtain ⟨m, -, -, placeholder⟩ := mem_drawnBlocks member
    exact clear_of_occurrences (placeholder ▸ ids.placeholder_ne_nil _) template []
      (only _ (List.mem_map_of_mem member))
  · rw [fillFrom, lookup_of_mem pairwise member]

/-- The blocks of a closed and an open fence, put back in another order and one of them twice. -/
theorem restore_of_blocks_swapped :
    (shield .lastDigit "```\na\n```\n~~~\nb".toList).restore
        (IdSupply.lastDigit.placeholder 1 ++ "C".toList ++ IdSupply.lastDigit.placeholder 0
          ++ IdSupply.lastDigit.placeholder 0) =
      "~~~\nbC```\na\n``````\na\n```".toList := by
  obtain ⟨fills, -, -⟩ := restore_eq_fillFrom IdSupply.hexadecimal_lastDigit
    "```\na\n```\n~~~\nb".toList (by decide +kernel) (by decide +kernel)
  exact fills [.hole (IdSupply.lastDigit.placeholder 1), .text "C".toList,
    .hole (IdSupply.lastDigit.placeholder 0), .hole (IdSupply.lastDigit.placeholder 0)]
    (by decide +kernel)

end FrontToc
