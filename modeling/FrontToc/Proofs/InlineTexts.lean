import FrontToc.Proofs.ScannedScalars
import FrontToc.Proofs.WrittenScalars

/-!
# Written scalars are texts in one line

Numbers are texts without quotes, and strings are so in every style but as a literal. A key before a
colon is such a text, with tags before it if it has any.
-/
namespace FrontToc.Yaml

/-- Whether a value is a scalar without a tag. -/
def Value.isScalar : Value → Bool
  | .seq _ | .map _ | .tagged _ _ => false
  | _ => true

namespace Token.Scan

open Text

/-- Text in one line: tags, and a scalar or brackets. -/
inductive Inline : List Char → Prop where
  | leaf {x : List Char} {us : List Token} : Leaf x us → Inline x
  | tagged (t : Tag) {x : List Char} : Inline x → Inline (t.written ++ ' ' :: x)

theorem Inline.first {x : List Char} (h : Inline x) : ∃ c t, x = c :: t ∧
    isSpace c = false ∧ isBreak c = false ∧ c ≠ '#' ∧ c ≠ byteOrderMark := by
  cases h with
  | leaf leaf => exact leaf.first
  | tagged t =>
    obtain ⟨w, hw, -⟩ := unbroken_written t
    rw [hw]
    exact ⟨'!', _, rfl, rfl, rfl, by decide, by decide⟩

theorem plainChar_of_digit {c : Char} (h : c.isDigit = true) :
    Style.isPlainChar c = true ∧ Style.isLineBreak c = false := by
  have hbreak : c ∉ ['\n', '\u2028', '\u2029', '\r', '\x85'] := by
    intro hmem
    simp only [List.mem_cons, List.not_mem_nil, or_false] at hmem
    rcases hmem with rfl | rfl | rfl | rfl | rfl <;> cases h
  refine ⟨?_, Bool.eq_false_iff.mpr fun hc => hbreak (isLineBreak_iff.mp hc)⟩
  simp only [Char.isDigit, Bool.and_eq_true, decide_eq_true_eq, ge_iff_le, UInt32.le_iff_toNat_le] at h
  obtain ⟨hlow, hhigh⟩ := h
  have hlow : 48 ≤ c.toNat := hlow
  have hhigh : c.toNat ≤ 57 := hhigh
  simp [Style.isPlainChar]
  omega

theorem hasInnerMark_of_not_mem {s : List Char} (hcolon : ':' ∉ s) (hhash : '#' ∉ s) (previous : Char) :
    Style.hasInnerMark previous s = false := by
  induction s generalizing previous with
  | nil => rfl
  | cons c s ih =>
    simp only [List.mem_cons, not_or] at hcolon hhash
    simp [Style.hasInnerMark, Ne.symm hcolon.1, Ne.symm hhash.1, ih hcolon.2 hhash.2]

theorem plainChar_of_number {c : Char} (h : isNumberChar c = true) :
    Style.isPlainChar c = true ∧ Style.isLineBreak c = false := by
  simp only [isNumberChar, Bool.or_eq_true, decide_eq_true_eq] at h
  rcases h with h | h
  · exact plainChar_of_digit h
  · simp only [List.mem_cons, List.not_mem_nil, or_false] at h
    rcases h with rfl | rfl | rfl | rfl | rfl | rfl | rfl <;> decide

/-- A number, its sign apart, is a text without quotes. -/
theorem plainText_number {s m : List Char} (hs : s = m ∨ s = '-' :: m) (hall : s.all isNumberChar = true)
    (hhead : m.head?.any Char.isDigit = true) : PlainText s := by
  have hchars : ∀ c ∈ s, Style.isPlainChar c = true ∧ Style.isLineBreak c = false := fun c hc =>
    plainChar_of_number (List.all_eq_true.mp hall c hc)
  obtain ⟨d, t, rfl⟩ : ∃ d t, m = d :: t := by
    cases m with
    | nil => cases hhead
    | cons d t => exact ⟨d, t, rfl⟩
  have hd : d.isDigit = true := hhead
  refine ⟨hchars, hasInnerMark_of_not_mem (not_mem_number hall (by decide))
    (not_mem_number hall (by decide)) _, ?_, ?_⟩
  · cases hlast : s.getLast? with
    | none => rfl
    | some c =>
      have hc := List.all_eq_true.mp hall c (List.mem_of_getLast? hlast)
      have := (not_gap_of (p := isNumberChar) (by decide) hc).1
      simpa using this
  · have hmarks : d ∉ ['-', '.', '?', ':'] ++ "#,[]\x7b\x7d&*!|>'\"%@\x60".toList := by
      intro hmem
      have hno := List.all_eq_true.mp (by decide : (['-', '.', '?', ':'] ++
        "#,[]\x7b\x7d&*!|>'\"%@\x60".toList).all (fun c => !c.isDigit) = true) d hmem
      rw [hd] at hno
      cases hno
    have hspace := (not_gap_of (p := Char.isDigit) (by decide) hd).1
    rw [List.mem_append, not_or] at hmarks
    simp only [List.mem_cons, List.not_mem_nil, or_false, not_or] at hmarks
    obtain ⟨⟨hminus, hpoint, hquestion, hcolon⟩, hmarks⟩ := hmarks
    rcases hs with rfl | rfl
    · refine ⟨d, t, rfl, hspace, ?_, ?_, hmarks, by simp [hminus, hquestion, hcolon]⟩
      · simp [hminus]
      · simp [hpoint]
    · refine ⟨'-', d :: t, rfl, rfl, ?_, by simp, by decide, fun _ => ?_⟩
      · simp [hminus]
      · simp [Style.beforeGap, hspace, (plainChar_of_digit hd).2]

theorem plainText_null : PlainText "null".toList :=
  plainText_of_allowsPlain (by decide) (by decide)

theorem plainText_bool (b : Bool) : PlainText (if b then "true" else "false").toList := by
  cases b <;> exact plainText_of_allowsPlain (by decide) (by decide)

theorem plainText_intText (n : Int) : PlainText (intText n) := by
  have hhead : (decimal n.natAbs).head?.any Char.isDigit = true := by
    simpa using head_decimal n.natAbs []
  refine plainText_number ?_ (number_intText n) hhead
  unfold intText
  split
  · exact .inr rfl
  · exact .inl rfl

theorem plainText_floatText (x : Binary64) : PlainText (floatText x) := by
  have hnumber := number_floatText x
  unfold floatText at hnumber ⊢
  split
  · exact plainText_of_allowsPlain (by decide) (by decide)
  · split
    · split <;> exact plainText_of_allowsPlain (by decide) (by decide)
    · next hnan hinf =>
      rw [if_neg hnan, if_neg hinf] at hnumber
      refine plainText_number ?_ hnumber (number_magnitude floatLayout x).2
      unfold Binary64.finiteText
      split
      · exact .inr rfl
      · exact .inl rfl

/-- A string is a text in one line unless it is a literal, and keeps its characters. -/
theorem leaf_stringText (indent : Nat) {s : List Char} (h : Style.ofString s ≠ .literal) :
    Leaf (stringText indent s) [.scalar (decide (Style.ofString s = .plain)) s] := by
  unfold stringText
  cases hstyle : Style.ofString s with
  | plain =>
    refine .plain (plainText_of_allowsPlain ?_ ?_)
    · unfold Style.ofString at hstyle
      split at hstyle
      · split at hstyle <;> cases hstyle
      · split at hstyle
        · next hplain =>
          simp only [Bool.and_eq_true] at hplain
          exact hplain.1
        · split at hstyle <;> cases hstyle
    · rintro rfl
      cases hstyle
  | single =>
    have hfeed : '\n' ∉ s := by
      intro hmem
      rcases ofString_of_mem hmem with h | h <;> rw [hstyle] at h <;> cases h
    refine .single indent ?_ hfeed
    unfold Style.ofString at hstyle
    rw [if_neg hfeed] at hstyle
    split at hstyle
    · cases hstyle
    · split at hstyle
      · assumption
      · cases hstyle
  | double => exact .double s
  | literal => exact absurd hstyle h

/-- A scalar after its mark is a text in one line unless it is a literal. -/
theorem leaf_scalarText (indent : Nat) {v : Value} (hscalar : v.isScalar = true)
    (hv : ∀ s, v = .str s → Style.ofString s ≠ .literal) : ∃ us, Leaf (scalarText indent v) us := by
  cases v with
  | null => exact ⟨_, .plain plainText_null⟩
  | bool b => exact ⟨_, .plain (plainText_bool b)⟩
  | int n => exact ⟨_, .plain (plainText_intText n)⟩
  | float x => exact ⟨_, .plain (plainText_floatText x)⟩
  | str s => exact ⟨_, leaf_stringText indent (hv s rfl)⟩
  | seq | map | tagged => cases hscalar

/-- A key before a colon. -/
theorem inline_of_inlineText {v : Value} {s : List Char} {n : Nat} (h : inlineText? v = some (s, n)) :
    Inline s := by
  match v with
  | .null =>
    cases h
    exact .leaf (.plain plainText_null)
  | .bool b =>
    cases h
    exact .leaf (.plain (plainText_bool b))
  | .int n =>
    cases h
    exact .leaf (.plain (plainText_intText n))
  | .float x =>
    cases h
    exact .leaf (.plain (plainText_floatText x))
  | .str t =>
    rw [inlineText?] at h
    split at h
    · cases h
    · next hbreak =>
      cases h
      have hfeed : '\n' ∉ t := fun hmem => hbreak (List.any_eq_true.mpr ⟨_, hmem, by decide⟩)
      exact .leaf (leaf_stringText 0 (ofString_ne_literal hfeed))
  | .seq [] =>
    cases h
    exact .leaf .emptySequence
  | .seq (_ :: _) => cases h
  | .map [] =>
    cases h
    exact .leaf .emptyMapping
  | .map (_ :: _) => cases h
  | .tagged t v =>
    rw [inlineText?] at h
    obtain ⟨⟨s, n⟩, hs, heq⟩ := Option.map_eq_some_iff.mp h
    cases heq
    exact .tagged t (inline_of_inlineText hs)

theorem inline_of_simpleKey {key : Value} {s : List Char} (h : simpleKey? key = some s) : Inline s := by
  unfold simpleKey? at h
  split at h
  · next hinline =>
    split at h
    · cases h
      exact inline_of_inlineText hinline
    · cases h
  · cases h

end Token.Scan

end FrontToc.Yaml
