import FrontToc.Text.Search
import Mathlib.Data.List.Infix

/-!
# Occurrences of one text in another

Searching finds an occurrence exactly when there is one. A text without a border cannot overlap another
occurrence of itself, so an occurrence that is put into a text free of it is the first one found there.
-/
namespace FrontToc.Text

theorem stripStart_eq_some {needle s rest : List Char} :
    stripStart? needle s = some rest ↔ s = needle ++ rest := by
  induction needle generalizing s with
  | nil => simp [stripStart?]
  | cons n ns ih =>
    cases s with
    | nil => simp [stripStart?]
    | cons c cs =>
      by_cases h : n = c
      · simp [stripStart?, h, ih]
      · simp [stripStart?, h, Ne.symm h]

theorem stripStart_eq_none {needle s : List Char} : stripStart? needle s = none ↔ ¬needle <+: s := by
  rw [Option.eq_none_iff_forall_ne_some]
  constructor
  · rintro h ⟨rest, rfl⟩
    exact h rest (stripStart_eq_some.mpr rfl)
  · intro h rest hs
    exact h ⟨rest, (stripStart_eq_some.mp hs).symm⟩

theorem splitAtFirst_eq_none {needle s : List Char} :
    splitAtFirst? needle s = none ↔ ¬needle <:+: s := by
  induction s with
  | nil => simp [splitAtFirst?]
  | cons c cs ih =>
    rw [splitAtFirst?, List.infix_cons_iff, not_or, ← ih, ← stripStart_eq_none]
    cases stripStart? needle (c :: cs) <;> simp

theorem occursIn_iff {needle s : List Char} : occursIn needle s = true ↔ needle <:+: s := by
  rw [occursIn, Option.isSome_iff_ne_none, ne_eq, splitAtFirst_eq_none, not_not]

theorem splitAtFirst_eq_some {needle s before after : List Char}
    (h : splitAtFirst? needle s = some (before, after)) : s = before ++ needle ++ after := by
  induction s generalizing before after with
  | nil =>
    simp only [splitAtFirst?, Option.ite_none_right_eq_some, Option.some.injEq, Prod.mk.injEq,
      List.isEmpty_iff] at h
    obtain ⟨rfl, rfl, rfl⟩ := h
    rfl
  | cons c cs ih =>
    rw [splitAtFirst?] at h
    cases hstrip : stripStart? needle (c :: cs) with
    | some rest =>
      simp only [hstrip, Option.some.injEq, Prod.mk.injEq] at h
      obtain ⟨rfl, rfl⟩ := h
      exact stripStart_eq_some.mp hstrip
    | none =>
      simp only [hstrip, Option.map_eq_some_iff, Prod.mk.injEq] at h
      obtain ⟨⟨b, a⟩, hsplit, rfl, rfl⟩ := h
      simp [ih hsplit]

/-- What was found is the first occurrence: none ends before it does. -/
theorem not_infix_of_splitAtFirst {needle s before after : List Char} (hne : needle ≠ [])
    (h : splitAtFirst? needle s = some (before, after)) : ¬needle <:+: before ++ needle.dropLast := by
  induction s generalizing before after with
  | nil => simp [splitAtFirst?, hne] at h
  | cons c cs ih =>
    rw [splitAtFirst?] at h
    cases hstrip : stripStart? needle (c :: cs) with
    | some rest =>
      simp only [hstrip, Option.some.injEq, Prod.mk.injEq] at h
      rw [← h.1, List.nil_append]
      intro hin
      have hle := hin.length_le
      have hpos := List.length_pos_iff.mpr hne
      rw [List.length_dropLast] at hle
      omega
    | none =>
      simp only [hstrip, Option.map_eq_some_iff, Prod.mk.injEq] at h
      obtain ⟨⟨b, a⟩, hsplit, rfl, rfl⟩ := h
      rw [List.cons_append, List.infix_cons_iff, not_or]
      refine ⟨fun hstart => stripStart_eq_none.mp hstrip (hstart.trans ?_), ih hsplit⟩
      rw [splitAtFirst_eq_some hsplit, List.append_assoc]
      exact List.cons_prefix_cons.mpr ⟨rfl, List.prefix_append_right_inj _ |>.mpr
        ((List.dropLast_prefix needle).trans (List.prefix_append _ _))⟩

/-- `needle` occurs in `s` between `before` and `after`, and nowhere further to the left. -/
def IsFirst (needle s before after : List Char) : Prop :=
  s = before ++ needle ++ after ∧
    ∀ before' after', s = before' ++ needle ++ after' → before.length ≤ before'.length

/-- The search finds the first occurrence and nothing else. -/
theorem splitAtFirst_iff {needle s before after : List Char} :
    splitAtFirst? needle s = some (before, after) ↔ IsFirst needle s before after := by
  have hfound : ∀ {s before after}, splitAtFirst? needle s = some (before, after) →
      ∀ before' after', s = before' ++ needle ++ after' → before.length ≤ before'.length := by
    intro s
    induction s with
    | nil =>
      intro before after h
      rw [splitAtFirst?] at h
      split at h
      · cases h
        simp
      · cases h
    | cons c cs ih =>
      intro before after h before' after' hs
      rw [splitAtFirst?] at h
      cases hstrip : stripStart? needle (c :: cs) with
      | some rest =>
        rw [hstrip] at h
        cases h
        exact Nat.zero_le _
      | none =>
        rw [hstrip] at h
        obtain ⟨⟨b, a⟩, hsplit, heq⟩ := Option.map_eq_some_iff.mp h
        cases heq
        cases before' with
        | nil => exact absurd ⟨after', hs.symm⟩ (stripStart_eq_none.mp hstrip)
        | cons d before' => exact Nat.succ_le_succ (ih hsplit before' after' (List.cons.inj hs).2)
  refine ⟨fun h => ⟨splitAtFirst_eq_some h, hfound h⟩, ?_⟩
  rintro ⟨hs, hfirst⟩
  cases h : splitAtFirst? needle s with
  | none => exact absurd ⟨before, after, hs.symm⟩ (splitAtFirst_eq_none.mp h)
  | some parts =>
    obtain ⟨b, a⟩ := parts
    have hba := splitAtFirst_eq_some h
    have hlength : b.length = before.length :=
      Nat.le_antisymm (hfound h before after hs) (hfirst b a hba)
    rw [hs, List.append_assoc, List.append_assoc] at hba
    obtain ⟨rfl, hrest⟩ := List.append_inj hba hlength.symm
    rw [List.append_cancel_left hrest]

/-- An occurrence before which none ends is the one that is found. -/
theorem splitAtFirst_of_not_infix {needle before : List Char}
    (h : ¬needle <:+: before ++ needle.dropLast) (after : List Char) :
    splitAtFirst? needle (before ++ needle ++ after) = some (before, after) := by
  refine splitAtFirst_iff.mpr ⟨rfl, fun before' after' hs => ?_⟩
  by_contra hshort
  have hearly : before' ++ needle <+: before ++ needle ++ after := ⟨after', hs.symm⟩
  have hcut : before ++ needle.dropLast <+: before ++ needle ++ after := by
    rw [List.append_assoc]
    exact (List.prefix_append_right_inj _).mpr
      ((List.dropLast_prefix needle).trans (List.prefix_append _ _))
  have hlength : (before' ++ needle).length ≤ (before ++ needle.dropLast).length := by
    rw [List.length_append, List.length_append, List.length_dropLast]
    omega
  exact h ((List.suffix_append _ _).isInfix.trans
    (List.prefix_of_prefix_length_le hearly hcut hlength).isInfix)

/-- No proper end of the text is also a start of it. -/
def Unbordered (p : List Char) : Prop :=
  ∀ u v w, p = u ++ v → p = v ++ w → u = [] ∨ v = []

/-- The first occurrence of an unbordered text after text free of it. -/
theorem splitAtFirst_append {p a : List Char} (hp : Unbordered p) (hne : p ≠ [])
    (ha : ¬p <:+: a) (b : List Char) : splitAtFirst? p (a ++ p ++ b) = some (a, b) := by
  induction a with
  | nil =>
    cases p with
    | nil => exact absurd rfl hne
    | cons c p =>
      have hstrip : stripStart? (c :: p) (c :: (p ++ b)) = some b := stripStart_eq_some.mpr rfl
      simp [splitAtFirst?, hstrip]
  | cons c a ih =>
    have hstart : ¬p <+: c :: a ++ p ++ b := by
      rintro ⟨t, ht⟩
      rw [List.append_assoc] at ht
      rcases List.append_eq_append_iff.mp ht with ⟨v, hv, _⟩ | ⟨v, hv, hvt⟩
      · exact ha ⟨[], v, by simpa using hv.symm⟩
      · have hshort : v.length ≤ p.length := by rw [hv]; simp; omega
        obtain ⟨w, hw⟩ := List.prefix_of_prefix_length_le ⟨t, hvt.symm⟩ (List.prefix_append p b) hshort
        rcases hp _ v w hv hw.symm with h | rfl
        · cases h
        · exact ha (by simp [hv])
    have ha' : ¬p <:+: a := fun h => ha (h.trans (List.suffix_cons c a).isInfix)
    rw [List.cons_append, List.cons_append, splitAtFirst?,
      stripStart_eq_none.mpr (by simpa using hstart)]
    simp only [ih ha', Option.map_some]

/-- More rounds than the text has characters replace no more. -/
theorem replaceUpTo_of_length_le {p : List Char} (hne : p ≠ []) (r : List Char) (n : Nat)
    (s : List Char) (hn : s.length ≤ n) : replaceUpTo n p r s = replaceAll p r s := by
  have hpos : 0 < p.length := List.length_pos_iff.mpr hne
  rw [replaceAll]
  generalize hm : s.length = m at hn
  replace hm : s.length ≤ m := hm.le
  induction m generalizing n s with
  | zero =>
    have hs : s = [] := List.length_eq_zero_iff.mp (by omega)
    subst hs
    cases n with
    | zero => rfl
    | succ n =>
      have hnone : splitAtFirst? p [] = none := splitAtFirst_eq_none.mpr (by simpa using hne)
      simp only [replaceUpTo, hnone]
  | succ m ih =>
    cases n with
    | zero => omega
    | succ n =>
      rw [replaceUpTo, replaceUpTo]
      cases hsplit : splitAtFirst? p s with
      | none => rfl
      | some parts =>
        obtain ⟨before, after⟩ := parts
        have hlen := congrArg List.length (splitAtFirst_eq_some hsplit)
        simp only [List.length_append] at hlen
        dsimp only
        rw [ih n after (by omega) (by omega)]

theorem replaceAll_of_not_infix {p s : List Char} (h : ¬p <:+: s) (r : List Char) :
    replaceAll p r s = s := by
  rw [replaceAll]
  cases hs : s.length with
  | zero => rfl
  | succ n => rw [replaceUpTo, splitAtFirst_eq_none.mpr h]

/-- Replacing goes on after the first occurrence; what was put in stays. -/
theorem replaceAll_append {p a : List Char} (hp : Unbordered p) (hne : p ≠ []) (ha : ¬p <:+: a)
    (r b : List Char) : replaceAll p r (a ++ p ++ b) = a ++ r ++ replaceAll p r b := by
  have hpos : 0 < p.length := List.length_pos_iff.mpr hne
  obtain ⟨n, hn⟩ : ∃ n, (a ++ p ++ b).length = n + 1 := ⟨(a ++ p ++ b).length - 1, by simp; omega⟩
  rw [replaceAll, hn, replaceUpTo, splitAtFirst_append hp hne ha b]
  dsimp only
  rw [replaceUpTo_of_length_le hne r n b (by simp at hn; omega)]

/-- A character foreign to a text stands between its occurrences. -/
theorem infix_of_barrier {p a b : List Char} {c : Char} (hc : c ∉ p) (h : p <:+: a ++ c :: b) :
    p <:+: a ∨ p <:+: b := by
  obtain ⟨x, y, hxy⟩ := h
  rw [List.append_assoc] at hxy
  rcases List.append_eq_append_iff.mp hxy with ⟨z, rfl, hz⟩ | ⟨z, rfl, hz⟩
  · rcases List.append_eq_append_iff.mp hz with ⟨t, rfl, _⟩ | ⟨t, rfl, ht⟩
    · exact .inl (List.infix_append' _ _ _)
    · cases t with
      | nil => exact .inl ⟨x, [], by simp⟩
      | cons d t =>
        simp only [List.cons_append, List.cons.injEq] at ht
        exact absurd (by simp [ht.1]) hc
  · cases z with
    | nil =>
      cases p with
      | nil => exact .inl (List.nil_infix)
      | cons d p =>
        simp only [List.nil_append, List.cons_append, List.cons.injEq] at hz
        exact absurd (by simp [hz.1]) hc
    | cons d z =>
      simp only [List.cons_append, List.cons.injEq] at hz
      exact .inr ⟨z, y, by rw [List.append_assoc]; exact hz.2.symm⟩

end FrontToc.Text
