import FrontToc.Proofs.Search
import FrontToc.Shield
import Mathlib.Data.List.Nodup
import Mathlib.Data.List.Perm.Subperm

/-!
# Placeholders

Placeholders made from ids of 32 hexadecimal digits are unbordered. A text has room for no more of them
than it has characters, so among distinct ids the search for one that does not occur in the text ends
with such an id.
-/
namespace FrontToc

open Text

/-- The digits of an id. -/
def idDigits : List Char :=
  "0123456789abcdef".toList

/-- A supply whose ids have 32 lower-case hexadecimal digits. -/
def IdSupply.Hexadecimal (ids : IdSupply) : Prop :=
  ∀ n, (ids n).length = 32 ∧ ∀ c ∈ ids n, c ∈ idDigits

/-- The first `n` ids of a supply differ from each other. -/
def IdSupply.DistinctBelow (ids : IdSupply) (n : Nat) : Prop :=
  ∀ i j, i < n → j < n → ids i = ids j → i = j

/-- Ids that differ in their last digit, the first sixteen of them. -/
def IdSupply.lastDigit : IdSupply :=
  fun n => List.replicate 31 '0' ++ [Nat.digitChar (n % 16)]

theorem digitChar_mem_idDigits (n : Nat) : Nat.digitChar (n % 16) ∈ idDigits :=
  (by decide : ∀ d : Fin 16, Nat.digitChar d.val ∈ idDigits) ⟨n % 16, Nat.mod_lt n (by decide)⟩

theorem mod_eq_of_digitChar_eq {m n : Nat} (h : Nat.digitChar (m % 16) = Nat.digitChar (n % 16)) :
    m % 16 = n % 16 :=
  congrArg Fin.val ((by decide : ∀ a b : Fin 16, Nat.digitChar a.val = Nat.digitChar b.val → a = b)
    ⟨m % 16, Nat.mod_lt m (by decide)⟩ ⟨n % 16, Nat.mod_lt n (by decide)⟩ h)

theorem IdSupply.hexadecimal_lastDigit : IdSupply.lastDigit.Hexadecimal := by
  intro n
  refine ⟨by simp [lastDigit], fun c hc => ?_⟩
  rcases List.mem_append.mp hc with hc | hc
  · rw [List.eq_of_mem_replicate hc]
    decide
  · rw [List.mem_singleton.mp hc]
    exact digitChar_mem_idDigits n

theorem IdSupply.distinctBelow_lastDigit : IdSupply.lastDigit.DistinctBelow 16 := by
  intro i j hi hj h
  have hdigit : Nat.digitChar (i % 16) = Nat.digitChar (j % 16) := by
    simpa [lastDigit] using h
  have hmod := mod_eq_of_digitChar_eq hdigit
  omega

/-- The characters that placeholders are made of. -/
def placeholderChars : List Char :=
  placeholderStart ++ idDigits

theorem length_placeholderStart : placeholderStart.length = 11 := rfl

namespace IdSupply

variable {ids : IdSupply}

theorem Hexadecimal.succ (h : ids.Hexadecimal) : IdSupply.Hexadecimal fun n => ids (n + 1) :=
  fun n => h (n + 1)

/-- The ids from the second one on differ if all do. -/
theorem DistinctBelow.succ {n : Nat} (h : ids.DistinctBelow (n + 1)) :
    IdSupply.DistinctBelow (fun k => ids (k + 1)) n :=
  fun i j hi hj same =>
    Nat.succ.inj (h (i + 1) (j + 1) (Nat.succ_lt_succ hi) (Nat.succ_lt_succ hj) same)

theorem Hexadecimal.mem_placeholderChars (h : ids.Hexadecimal) {n : Nat} {c : Char}
    (hc : c ∈ ids.placeholder n) : c ∈ placeholderChars := by
  rcases List.mem_append.mp hc with hc | hc
  · exact List.mem_append_left _ hc
  · exact List.mem_append_right _ ((h n).2 c hc)

theorem Hexadecimal.length_placeholder (h : ids.Hexadecimal) (n : Nat) :
    (ids.placeholder n).length = 43 := by
  rw [placeholder, List.length_append, (h n).1, length_placeholderStart]

theorem placeholder_ne_nil (ids : IdSupply) (n : Nat) : ids.placeholder n ≠ [] :=
  List.append_ne_nil_of_left_ne_nil (List.ne_nil_of_length_pos (by decide)) _

theorem placeholder_injective {m n : Nat} (h : ids.placeholder m = ids.placeholder n) :
    ids m = ids n :=
  List.append_cancel_left h

theorem getElem_placeholder_start (ids : IdSupply) (n : Nat) {i : Nat} (hi : i < 11) :
    (ids.placeholder n)[i]? = placeholderStart[i]? := by
  rw [placeholder, List.getElem?_append_left (by rwa [length_placeholderStart])]

/-- Of the characters of a placeholder only the first and the ninth are a `C`. -/
theorem Hexadecimal.index_of_mark (h : ids.Hexadecimal) {n i : Nat}
    (hi : (ids.placeholder n)[i]? = some 'C') : i = 0 ∨ i = 8 := by
  by_cases hlt : i < 11
  · rw [getElem_placeholder_start ids n hlt] at hi
    exact (by decide : ∀ i < 11, placeholderStart[i]? = some 'C' → i = 0 ∨ i = 8) i hlt hi
  · have hlen : placeholderStart.length ≤ i := length_placeholderStart ▸ not_lt.mp hlt
    rw [placeholder, List.getElem?_append_right hlen] at hi
    have hmem := (h n).2 'C' (List.mem_of_getElem? hi)
    exact absurd hmem (by decide)

/-- What follows the ninth character differs from what follows the first. -/
theorem Hexadecimal.unbordered (h : ids.Hexadecimal) (n : Nat) : Unbordered (ids.placeholder n) := by
  intro u v w hu hv
  by_contra hne
  rw [not_or] at hne
  have hlen := h.length_placeholder n
  have hupos : 0 < u.length := List.length_pos_iff.mpr hne.1
  have hvpos : 0 < v.length := List.length_pos_iff.mpr hne.2
  have hsum : u.length + v.length = 43 := by rw [← hlen, hu, List.length_append]
  have hshift : ∀ i < v.length, (ids.placeholder n)[u.length + i]? = (ids.placeholder n)[i]? := by
    intro i hi
    have hleft : (ids.placeholder n)[u.length + i]? = v[i]? := by
      rw [hu, List.getElem?_append_right (Nat.le_add_right _ _), Nat.add_sub_cancel_left]
    have hright : (ids.placeholder n)[i]? = v[i]? := by
      rw [hv, List.getElem?_append_left hi]
    rw [hleft, hright]
  have hmark : (ids.placeholder n)[u.length]? = some 'C' := by
    rw [← Nat.add_zero u.length, hshift 0 hvpos, getElem_placeholder_start ids n (by omega)]
    rfl
  rcases h.index_of_mark hmark with h0 | h8
  · omega
  · have hnext := hshift 1 (by omega)
    rw [h8, getElem_placeholder_start ids n (by omega), getElem_placeholder_start ids n (by omega)]
      at hnext
    exact absurd hnext (by decide)

end IdSupply

theorem length_tails_beginning (c : Char) (text : List Char) :
    (text.tails.filter (·.head? = some c)).length = text.count c := by
  induction text with
  | nil => rfl
  | cons d text ih =>
    rw [List.tails_cons, List.filter_cons, List.count_cons]
    by_cases hd : d = c <;> simp [hd, ih]

/-- Different texts of one length that occur in a text begin at different places of it. -/
theorem length_le_count_of_infixes {ps : List (List Char)} {text : List Char} {k : Nat} {c : Char}
    (hps : ps.Nodup) (hlen : ∀ p ∈ ps, p.length = k) (hhead : ∀ p ∈ ps, p.head? = some c)
    (hin : ∀ p ∈ ps, p <:+: text) : ps.length ≤ text.count c := by
  have hsub : ps ⊆ (text.tails.filter (·.head? = some c)).map (·.take k) := by
    intro p hp
    obtain ⟨x, y, rfl⟩ := hin p hp
    have hplace : p ++ y ∈ (x ++ p ++ y).tails :=
      (List.mem_tails _ _).mpr ⟨x, (List.append_assoc x p y).symm⟩
    refine List.mem_map.mpr ⟨p ++ y, List.mem_filter.mpr ⟨hplace, ?_⟩, ?_⟩
    · simp [List.head?_append, hhead p hp]
    · rw [← hlen p hp, List.take_left]
  simpa [length_tails_beginning] using (hps.subperm hsub).length_le

namespace IdSupply

variable {ids : IdSupply}

/-- The number of ids below the `n`-th whose placeholders occur in the text. -/
def takenBelow (ids : IdSupply) (text : List Char) (n : Nat) : Nat :=
  (List.range n).countP fun i => occursIn (ids.placeholder i) text

theorem takenBelow_succ (ids : IdSupply) (text : List Char) (n : Nat) :
    ids.takenBelow text (n + 1) =
      ids.takenBelow text n + if occursIn (ids.placeholder n) text then 1 else 0 := by
  rw [takenBelow, List.range_succ, List.countP_append, List.countP_singleton, takenBelow]

/-- Among distinct ids no more placeholders occur in a text than it has the letter they begin with. -/
theorem Hexadecimal.takenBelow_le (h : ids.Hexadecimal) {n : Nat} (hd : ids.DistinctBelow n)
    (text : List Char) : ids.takenBelow text n ≤ text.count 'C' := by
  rw [takenBelow, List.countP_eq_length_filter, ← List.length_map ids.placeholder]
  refine length_le_count_of_infixes (k := 43) ?_ ?_ ?_ ?_
  · refine (List.nodup_range.filter _).map_on ?_
    intro i hi j hj hij
    exact hd i j (List.mem_range.mp (List.mem_filter.mp hi).1)
      (List.mem_range.mp (List.mem_filter.mp hj).1) (placeholder_injective hij)
  · intro p hp
    obtain ⟨i, -, rfl⟩ := List.mem_map.mp hp
    exact h.length_placeholder i
  · intro p hp
    obtain ⟨i, -, rfl⟩ := List.mem_map.mp hp
    rfl
  · intro p hp
    obtain ⟨i, hi, rfl⟩ := List.mem_map.mp hp
    exact occursIn_iff.mp (List.mem_filter.mp hi).2

/-- A stretch of ids whose placeholders all occur in the text. -/
theorem takenBelow_add {text : List Char} {n k : Nat} (hle : n ≤ k)
    (hin : ∀ i, n ≤ i → i < k → ids.placeholder i <:+: text) :
    ids.takenBelow text k + n = ids.takenBelow text n + k := by
  induction k, hle using Nat.le_induction with
  | base => rfl
  | succ k hle ih =>
    have hstep := ids.takenBelow_succ text k
    rw [occursIn_iff.mpr (hin k hle (Nat.lt_succ_self k)), if_pos rfl] at hstep
    have hbefore := ih fun i hi hlt => hin i hi (Nat.lt_succ_of_lt hlt)
    omega

/-- What the search for a fresh id has seen: every id that it passed over occurs in the text, and the
one that it ends with does not, unless the search was given up. -/
theorem fresh_spec (ids : IdSupply) (text : List Char) (fuel n : Nat) :
    n ≤ ids.fresh text fuel n ∧
      (∀ i, n ≤ i → i < ids.fresh text fuel n → ids.placeholder i <:+: text) ∧
      (ids.fresh text fuel n = n + fuel ∨ ¬ids.placeholder (ids.fresh text fuel n) <:+: text) := by
  induction fuel generalizing n with
  | zero => exact ⟨le_rfl, fun i hi hlt => absurd hi (by simpa [fresh] using hlt), .inl rfl⟩
  | succ fuel ih =>
    rw [fresh]
    split
    · next hocc =>
      obtain ⟨hle, hseen, hend⟩ := ih (n + 1)
      refine ⟨by omega, fun i hi hlt => ?_, hend.imp_left (by omega)⟩
      rcases Nat.eq_or_lt_of_le hi with rfl | hi
      · exact occursIn_iff.mp hocc
      · exact hseen i hi hlt
    · next hocc =>
      exact ⟨le_rfl, fun i hi hlt => absurd hi (by omega),
        .inr fun h => hocc (occursIn_iff.mpr h)⟩

/-- Among distinct ids the search ends with one whose placeholder does not occur in the text. -/
theorem Hexadecimal.placeholder_fresh (h : ids.Hexadecimal) (text : List Char) (n : Nat)
    (hd : ids.DistinctBelow (ids.fresh text text.length n + 1)) :
    ¬ids.placeholder (ids.fresh text text.length n) <:+: text := by
  obtain ⟨hle, hseen, hend | hend⟩ := fresh_spec ids text text.length n
  · intro hlast
    -- all of these would occur in a text of `text.length` characters
    have hall : ∀ i, n ≤ i → i < ids.fresh text text.length n + 1 →
        ids.placeholder i <:+: text := by
      intro i hi hlt
      rcases Nat.lt_or_eq_of_le (Nat.le_of_lt_succ hlt) with hlt | rfl
      · exact hseen i hi hlt
      · exact hlast
    have htaken := takenBelow_add (by omega) hall
    have hcount := h.takenBelow_le hd text
    have hroom := List.count_le_length (a := 'C') (l := text)
    omega
  · exact hend

end IdSupply

end FrontToc
