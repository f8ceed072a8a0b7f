import FrontToc.Proofs.ReadScalars
import FrontToc.Yaml.Token.Mark

/-!
# Tags are read to the gap after them

A written tag has no gap in it, and reading a tag takes no gap. So what is read is the tag as written.
-/
namespace FrontToc.Yaml.Token

open Text

/-- Text without spaces, tabs and line breaks. -/
def Unbroken (s : List Char) : Prop :=
  ∀ c ∈ s, isSpace c = false ∧ isBreak c = false

theorem Unbroken.append {s t : List Char} (hs : Unbroken s) (ht : Unbroken t) : Unbroken (s ++ t) :=
  fun c hc => (List.mem_append.mp hc).elim (hs c) (ht c)

/-- The first gap in a text is in one place. -/
theorem Unbroken.unique {s t u v : List Char} (hs : Unbroken s) (ht : Unbroken t)
    (hu : atGap u = true) (hv : atGap v = true) (h : s ++ u = t ++ v) : u = v := by
  induction s generalizing t with
  | nil =>
    cases t with
    | nil => exact h
    | cons c t =>
      obtain ⟨hspace, hbreak⟩ := ht c List.mem_cons_self
      rw [List.nil_append, List.cons_append] at h
      simp [h, atGap, hspace, hbreak] at hu
  | cons c s ih =>
    cases t with
    | nil =>
      obtain ⟨hspace, hbreak⟩ := hs c List.mem_cons_self
      rw [List.nil_append, List.cons_append] at h
      simp [← h, atGap, hspace, hbreak] at hv
    | cons d t =>
      refine ih (fun e he => hs e (List.mem_cons_of_mem _ he))
        (fun e he => ht e (List.mem_cons_of_mem _ he)) (List.cons.inj h).2

/-- The spaces, tabs and line breaks. -/
def gapChars : List Char :=
  [' ', '\t', '\n', '\u2028', '\u2029']

theorem not_gap_of {p : Char → Bool} (hp : gapChars.all (fun g => !p g) = true) {c : Char}
    (h : p c = true) : isSpace c = false ∧ isBreak c = false := by
  have hc : c ∉ gapChars := fun hmem => by
    have hno := List.all_eq_true.mp hp c hmem
    simp [h] at hno
  simp only [gapChars, List.mem_cons, List.not_mem_nil, or_false, not_or] at hc
  simp [isSpace, isBreak, hc]

theorem not_gap_of_hex {c : Char} (h : (hexValue? c).isSome = true) :
    isSpace c = false ∧ isBreak c = false :=
  not_gap_of (p := fun c => (hexValue? c).isSome) (by decide) h

theorem not_gap_of_octet {a b : Char} {n : Nat} (h : octet? a b = some n) :
    (isSpace a = false ∧ isBreak a = false) ∧ isSpace b = false ∧ isBreak b = false := by
  unfold octet? at h
  split at h
  · next ha hb => exact ⟨not_gap_of_hex (by rw [ha]; rfl), not_gap_of_hex (by rw [hb]; rfl)⟩
  · cases h

theorem Unbroken.cons {c : Char} {s : List Char} (hc : isSpace c = false ∧ isBreak c = false)
    (hs : Unbroken s) : Unbroken (c :: s) :=
  fun d hd => (List.mem_cons.mp hd).elim (fun he => he ▸ hc) (hs d)

/-- The text of a tag has no gap. -/
theorem unbroken_tagTextFrom {bracketed : Bool} {open? : Option Octets} {s rest : List Char}
    {text : TagText} (h : tagTextFrom bracketed open? s = some (text, rest)) :
    ∃ t, s = t ++ rest ∧ Unbroken t := by
  have hescape : ∀ {a b : Char} {n : Nat} {more : List Char}, octet? a b = some n →
      (∃ t, more = t ++ rest ∧ Unbroken t) → ∃ t, '%' :: a :: b :: more = t ++ rest ∧ Unbroken t := by
    rintro a b n more hoctet ⟨t, rfl, ht⟩
    obtain ⟨ha, hb⟩ := not_gap_of_octet hoctet
    exact ⟨'%' :: a :: b :: t, rfl, .cons (by decide) (.cons ha (.cons hb ht))⟩
  fun_induction tagTextFrom bracketed open? s generalizing text with
  | case5 =>
    rename_i hoctet _ _ _ _ ih
    obtain ⟨found, hfound, heq⟩ := Option.map_eq_some_iff.mp h
    cases heq
    exact hescape hoctet (ih hfound)
  | case6 =>
    rename_i hoctet _ _ _ _ ih
    exact hescape hoctet (ih h)
  | case9 _ c more _ _ hchar ih =>
    obtain ⟨found, hfound, heq⟩ := Option.map_eq_some_iff.mp h
    cases heq
    obtain ⟨t, rfl, ht⟩ := ih hfound
    exact ⟨c :: t, rfl, .cons (not_gap_of (by cases bracketed <;> decide) hchar) ht⟩
  | case2 | case10 =>
    cases h
    exact ⟨[], rfl, by simp [Unbroken]⟩
  | case1 | case3 | case4 | case7 | case8 => cases h

theorem unbroken_readTagText {bracketed : Bool} {s rest : List Char} {text : TagText}
    (h : readTagText bracketed s = some (text, rest)) : ∃ t, s = t ++ rest ∧ Unbroken t := by
  unfold readTagText at h
  split at h
  · cases h
  · next hfound =>
    cases h
    exact unbroken_tagTextFrom hfound
  · cases h

/-- What reading the parts of a tag takes has no gap. -/
theorem unbroken_tagParts {s rest handle : List Char} {suffix : TagText}
    (h : tagParts? s = some (handle, suffix, rest)) : ∃ t, s = t ++ rest ∧ Unbroken t := by
  unfold tagParts? at h
  split at h
  · split at h
    · next hfound =>
      cases h
      obtain ⟨t, rfl, ht⟩ := unbroken_readTagText hfound
      have hend : Unbroken ['>'] := .cons (by decide) (by simp [Unbroken])
      exact ⟨'<' :: t ++ ['>'], by simp, (Unbroken.cons (by decide) ht).append hend⟩
    · cases h
  · have hname : Unbroken (s.takeWhile isNameChar) := fun c hc =>
      not_gap_of (p := isNameChar) (by decide) (List.all_eq_true.mp List.all_takeWhile c hc)
    obtain ⟨after, hs⟩ : s.takeWhile isNameChar <+: s := List.takeWhile_prefix isNameChar
    have hdrop : ∀ name, name ++ after = s → s.drop name.length = after := by
      rintro name rfl
      exact List.drop_left
    have hdrop := hdrop _ hs
    dsimp only at h
    generalize s.takeWhile isNameChar = name at hname hs hdrop h
    subst hs
    rw [hdrop] at h
    split at h
    · obtain ⟨found, hfound, heq⟩ := Option.map_eq_some_iff.mp h
      cases heq
      obtain ⟨t, rfl, ht⟩ := unbroken_readTagText hfound
      exact ⟨name ++ '!' :: t, by simp, hname.append (.cons (by decide) ht)⟩
    · split at h
      · cases h
      · next hfound =>
        obtain ⟨t, rfl, ht⟩ := unbroken_tagTextFrom hfound
        have h := Option.some.inj h
        split at h <;> cases h <;> exact ⟨name ++ t, by simp, hname.append ht⟩

/-- A tag is read to the gap after it. -/
theorem readTag_written {w after : List Char} {line column : Nat} {m : Marked} (hw : Unbroken w)
    (hafter : atGap after = true) (h : readTag false ⟨'!' :: w ++ after, line, column⟩ = some m) :
    (∃ handle suffix, m.token = .tag handle suffix) ∧ m.cursor.rest = after ∧
      m.cursor.line = line ∧ column < m.cursor.column := by
  unfold readTag at h
  split at h
  · cases h
  · next handle suffix rest hparts =>
    split at h
    · next hgap =>
      cases h
      obtain ⟨t, ht, hbroken⟩ := unbroken_tagParts hparts
      have hrest : rest = after :=
        (hw.unique hbroken hafter (by simpa using hgap) (by simpa using ht)).symm
      subst hrest
      refine ⟨⟨handle, suffix, rfl⟩, rfl, rfl, ?_⟩
      have hlonger : rest.length < ('!' :: w ++ rest).length := by
        rw [List.length_append, List.length_cons]
        omega
      change column < column + (('!' :: w ++ rest).length - rest.length)
      omega
    · cases h

theorem unbroken_escapeChar (c : Char) : Unbroken (Tag.escapeChar c) := by
  unfold Tag.escapeChar
  split
  · next hsafe => exact .cons (not_gap_of (p := Tag.isSafeChar) (by decide) hsafe) (by simp [Unbroken])
  · intro d hd
    obtain ⟨b, -, hd⟩ := List.mem_flatMap.mp hd
    rcases List.mem_cons.mp hd with rfl | hd
    · decide
    · exact not_gap_of_hex ((hexNumber_padZeros 2 b.toNat).2 d hd)

/-- A tag as written has no gap. -/
theorem unbroken_written (t : Tag) : ∃ w, t.written = '!' :: w ∧ Unbroken w := by
  unfold Tag.written
  split
  · next c _ =>
    refine ⟨'<' :: Tag.escapeChar c ++ ['>'], by simp, ?_⟩
    exact (Unbroken.cons (by decide) (unbroken_escapeChar c)).append (.cons (by decide) (by simp [Unbroken]))
  · refine ⟨_, rfl, fun c hc => ?_⟩
    obtain ⟨d, -, hc⟩ := List.mem_flatMap.mp hc
    exact unbroken_escapeChar d c hc

end FrontToc.Yaml.Token
