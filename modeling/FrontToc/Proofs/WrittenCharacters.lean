import FrontToc.Proofs.BlockScalars
import FrontToc.Proofs.InlineTexts

/-!
# Written YAML is read as it stands

Before tokens are looked for, a reader gives line breaks one spelling and drops a mark at the start. No
written text holds a character that is touched by this, whatever strings and tags are in it.
-/
namespace FrontToc.Yaml

open Text

/-- Characters that are replaced or dropped before tokens are read. -/
def alteredChars : List Char :=
  ['\r', '\x85', byteOrderMark]

/-- Text without such characters. -/
def Unaltered (s : List Char) : Prop :=
  ∀ c ∈ s, c ∉ alteredChars

namespace Unaltered

theorem of_all {p : Char → Bool} (hp : alteredChars.all (fun c => !p c) = true) {s : List Char}
    (h : ∀ c ∈ s, p c = true) : Unaltered s := by
  intro c hc haltered
  have hno := List.all_eq_true.mp hp c haltered
  rw [h c hc] at hno
  cases hno

theorem nil : Unaltered [] := by
  simp [Unaltered]

theorem cons {c : Char} {s : List Char} (hc : c ∉ alteredChars) (h : Unaltered s) : Unaltered (c :: s) :=
  List.forall_mem_cons.mpr ⟨hc, h⟩

theorem append {s t : List Char} (hs : Unaltered s) (ht : Unaltered t) : Unaltered (s ++ t) :=
  fun c hc => (List.mem_append.mp hc).elim (hs c) (ht c)

theorem unifyBreaks_eq {s : List Char} (h : Unaltered s) : unifyBreaks s = s := by
  induction s with
  | nil => rfl
  | cons c s ih =>
    have hc := h c List.mem_cons_self
    have hs := ih fun d hd => h d (List.mem_cons_of_mem _ hd)
    simp only [alteredChars, List.mem_cons, not_or] at hc
    rw [unifyBreaks, hs]
    · rintro _ rfl
      exact absurd rfl hc.1
    · exact hc.1
    · exact hc.2.1

theorem dropByteOrderMark_eq {s : List Char} (h : Unaltered s) : dropByteOrderMark s = s := by
  cases s with
  | nil => rfl
  | cons c s =>
    have hc := h c List.mem_cons_self
    simp only [alteredChars, List.mem_cons, not_or] at hc
    rw [dropByteOrderMark, if_neg hc.2.2.1]

end Unaltered

theorem unaltered_spaces (n : Nat) : Unaltered (spaces n) := by
  intro c hc
  rw [List.eq_of_mem_replicate hc]
  decide

theorem unaltered_hex {s : List Char} (h : ∀ d ∈ s, (Token.hexValue? d).isSome = true) : Unaltered s :=
  .of_all (by decide) h

theorem unaltered_doubleChar (c : Char) : Unaltered (doubleChar c) := by
  have hdigits : ∀ width, Unaltered (padZeros width (upperHexDigits c.toNat)) := fun width =>
    unaltered_hex (Token.hexNumber_padZeros width c.toNat).2
  unfold doubleChar
  split
  · next hplain =>
    simp only [Bool.and_eq_true] at hplain
    exact .of_all (p := Style.isPlainChar) (by decide) (by simpa using hplain.1.1.1)
  · split
    · next letter hletter =>
      refine .cons (by decide) (.cons ?_ .nil)
      unfold escapeLetter? at hletter
      split at hletter <;> cases hletter <;> decide
    · dsimp only
      split
      · exact .cons (by decide) (.cons (by decide) (hdigits 2))
      · split
        · exact .cons (by decide) (.cons (by decide) (hdigits 4))
        · exact .cons (by decide) (.cons (by decide) (hdigits 8))

theorem unaltered_singleBody (indent : Nat) (atStart : Bool) {s : List Char} (h : Unaltered s) :
    Unaltered (singleBody indent atStart s) := by
  have hlead : ∀ atStart : Bool, Unaltered (if atStart then spaces indent else []) := by
    intro atStart
    cases atStart
    · exact .nil
    · exact unaltered_spaces indent
  induction s generalizing atStart with
  | nil => exact (hlead atStart).append (.cons (by decide) .nil)
  | cons c s ih =>
    have hc := h c List.mem_cons_self
    have hs : Unaltered s := fun d hd => h d (List.mem_cons_of_mem _ hd)
    rw [singleBody]
    split
    · exact .cons hc (ih _ hs)
    · split
      · exact .cons hc (ih _ hs)
      · refine ((hlead atStart).append ?_).append (ih _ hs)
        split
        · exact .cons (by decide) (.cons (by decide) .nil)
        · exact .cons hc .nil

theorem unaltered_written (t : Tag) : Unaltered t.written := by
  have hescape : ∀ c, Unaltered (Tag.escapeChar c) := by
    intro c
    unfold Tag.escapeChar
    split
    · next hsafe => exact .of_all (p := Tag.isSafeChar) (by decide) (by simpa using hsafe)
    · intro d hd
      obtain ⟨b, -, hd⟩ := List.mem_flatMap.mp hd
      rcases List.mem_cons.mp hd with rfl | hd
      · decide
      · exact unaltered_hex (Token.hexNumber_padZeros 2 b.toNat).2 d hd
  unfold Tag.written
  split
  · exact ((Unaltered.cons (by decide) (.cons (by decide) .nil)).append (hescape _)).append
      (.cons (by decide) .nil)
  · refine .cons (by decide) fun c hc => ?_
    obtain ⟨d, -, hc⟩ := List.mem_flatMap.mp hc
    exact hescape d c hc

open Token.Scan

theorem Token.Scan.Leaf.unaltered {x : List Char} {us : List Token} (leaf : Leaf x us) : Unaltered x := by
  cases leaf with
  | plain h => exact .of_all (p := Style.isPlainChar) (by decide) fun c hc => (h.chars c hc).1
  | single indent h =>
    simp only [Style.allowsSingle, Style.isTidy, Bool.and_eq_true] at h
    exact .cons (by decide) (unaltered_singleBody _ _
      (.of_all (p := Style.isPlainChar) (by decide) (List.all_eq_true.mp h.1.1)))
  | double s =>
    refine (Unaltered.cons (by decide) fun c hc => ?_).append (.cons (by decide) .nil)
    obtain ⟨d, -, hc⟩ := List.mem_flatMap.mp hc
    exact unaltered_doubleChar d c hc
  | emptySequence | emptyMapping => exact .cons (by decide) (.cons (by decide) .nil)

theorem Token.Scan.Inline.unaltered {x : List Char} (h : Inline x) : Unaltered x := by
  induction h with
  | leaf leaf => exact leaf.unaltered
  | tagged t _ ih => exact (unaltered_written t).append (.cons (by decide) ih)

theorem unaltered_literalText (indent : Nat) {s : List Char} (h : Style.allowsLiteral s = true) :
    Unaltered (literalText indent s) := by
  simp only [Style.allowsLiteral, Style.isTidy, Bool.and_eq_true] at h
  obtain ⟨hints, hhead, hhints⟩ := hints_literalHead s
  rw [literalText, hhead]
  refine (Unaltered.cons (by decide) (.of_all (p := isBlockHint) (by decide) hhints)).append
    (.cons (by decide) ?_)
  exact .of_all (p := Style.isPlainChar) (by decide)
    (List.all_eq_true.mp (Token.plain_literalBody h.1.1.1 true))

theorem unaltered_scalarText (indent : Nat) {v : Value} (hv : v.isScalar = true) :
    Unaltered (scalarText indent v) := by
  have hleaf : (∀ s, v = .str s → Style.ofString s ≠ .literal) → Unaltered (scalarText indent v) := by
    intro hstyle
    obtain ⟨us, leaf⟩ := leaf_scalarText indent hv hstyle
    exact leaf.unaltered
  cases v with
  | str s =>
    by_cases hstyle : Style.ofString s = .literal
    · rw [scalarText, stringText, hstyle]
      exact unaltered_literalText indent (allowsLiteral_of_literal hstyle)
    · exact hleaf (by rintro _ ⟨⟩; exact hstyle)
  | null | bool | int | float => exact hleaf (by simp)
  | seq | map | tagged => cases hv

theorem unaltered_memberLead (compact : Bool) (indent : Nat) : Unaltered (memberLead compact indent) := by
  cases compact
  · exact .cons (by decide) (unaltered_spaces indent)
  · exact .cons (by decide) .nil

theorem unaltered_scalarNode (indent : Nat) {v : Value} (hv : v.isScalar = true) :
    Unaltered (' ' :: endLine (scalarText indent v)) := by
  refine .cons (by decide) ?_
  unfold endLine
  split
  · exact unaltered_scalarText indent hv
  · exact (unaltered_scalarText indent hv).append (.cons (by decide) .nil)

mutual

theorem unaltered_nodeText (indent : Nat) (inMapping compact : Bool) (v : Value) :
    Unaltered (nodeText indent inMapping compact v) := by
  match v with
  | .tagged t v =>
    rw [nodeText]
    exact (Unaltered.cons (by decide) (unaltered_written t)).append (unaltered_nodeText _ _ _ v)
  | .seq [] =>
    rw [nodeText]
    exact .of_all (p := (· ∈ [' ', '[', ']', '\n'])) (by decide) (by simp)
  | .seq (item :: items) =>
    rw [nodeText]
    exact ((unaltered_memberLead _ _).append (.cons (by decide) (unaltered_nodeText _ _ _ item))).append
      (unaltered_itemsText _ items)
  | .map [] =>
    rw [nodeText]
    exact .of_all (p := (· ∈ [' ', '\x7b', '\x7d', '\n'])) (by decide) (by simp)
  | .map (entry :: entries) =>
    rw [nodeText]
    · exact unaltered_entriesText _ (unaltered_memberLead _ _) (entry :: entries)
    · simp
  | .null => exact unaltered_scalarNode _ (v := .null) rfl
  | .bool b => exact unaltered_scalarNode _ (v := .bool b) rfl
  | .int n => exact unaltered_scalarNode _ (v := .int n) rfl
  | .float x => exact unaltered_scalarNode _ (v := .float x) rfl
  | .str s => exact unaltered_scalarNode _ (v := .str s) rfl

theorem unaltered_itemsText (indent : Nat) (items : List Value) : Unaltered (itemsText indent items) := by
  match items with
  | [] => exact .nil
  | item :: items =>
    rw [itemsText]
    exact ((unaltered_spaces indent).append (.cons (by decide) (unaltered_nodeText _ _ _ item))).append
      (unaltered_itemsText indent items)

theorem unaltered_entriesText (indent : Nat) {lead : List Char} (hlead : Unaltered lead)
    (entries : List (Value × Value)) : Unaltered (entriesText indent lead entries) := by
  match entries with
  | [] => exact .nil
  | (key, value) :: entries =>
    have hentry : Unaltered (entryText indent key value) := by
      unfold entryText
      cases hkey : simpleKey? key with
      | some s =>
        exact (inline_of_simpleKey hkey).unaltered.append (.cons (by decide) (unaltered_nodeText _ _ _ value))
      | none =>
        exact ((Unaltered.cons (by decide) (unaltered_nodeText _ _ _ key)).append
          (unaltered_spaces indent)).append (.cons (by decide) (unaltered_nodeText _ _ _ value))
    rw [entriesText_cons]
    exact (hlead.append hentry).append (unaltered_entriesText indent (unaltered_spaces indent) entries)

end

/-- No character of a written mapping is altered before tokens are read. -/
theorem unaltered_mappingText (m : Mapping) : Unaltered m.text := by
  unfold Mapping.text
  split
  · exact .of_all (p := (· ∈ ['\x7b', '\x7d', '\n'])) (by decide) (by simp)
  · exact unaltered_entriesText 0 .nil m

end FrontToc.Yaml
