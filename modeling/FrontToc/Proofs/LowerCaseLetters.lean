import FrontToc.Text.LowerCase

/-!
# Lower case is settled

What lower case makes of a character is its own lower case: the characters that a run of capitals is
moved to lie outside of all runs. So a text in lower case stays as it is, wherever its sigmas stand.
-/
namespace FrontToc.Text

/-- Where the first character of a run is moved to. -/
def CaseRun.low (r : CaseRun) : Nat :=
  (r.first + r.shift).toNat

/-- Where the last character of a run is moved to. -/
def CaseRun.high (r : CaseRun) : Nat :=
  (r.last + r.shift).toNat

/-- Whether the code points from `lo` to `hi` in steps of `step` lie outside of some ascending runs: they
are before a run, after it, or between its members. -/
def avoidRuns (lo hi step : Nat) : List CaseRun → Bool
  | [] => true
  | r :: rs =>
    hi < r.first ||
      ((r.last < lo || (r.step = 2 && (lo = hi || step = 2) && (lo + r.first) % 2 = 1))
        && avoidRuns lo hi step rs)

theorem caseRuns_avoid_caseRuns :
    ∀ r ∈ caseRuns, avoidRuns r.low r.high r.step caseRuns = true := by
  decide +kernel

/-- Lower case stays among the characters, and none of a single character is the capital I with a dot. -/
theorem caseRuns_stay_chars :
    ∀ r ∈ caseRuns, 0 < r.low ∧ (r.high < 0xD800 ∨ 0xDFFF < r.low ∧ r.high < 0x110000) ∧
      (r.high < 0x130 ∨ 0x130 < r.low) := by
  decide +kernel

theorem lowerCodePoint_of_avoidRuns {lo hi step k : Nat} {rs : List CaseRun}
    (avoid : avoidRuns lo hi step rs = true) (below : lo + k * step ≤ hi) :
    lowerCodePoint rs (lo + k * step) = lo + k * step := by
  induction rs with
  | nil => rfl
  | cons r rs ih =>
    rw [lowerCodePoint]
    split
    · rfl
    · next reached =>
      simp only [avoidRuns, Bool.or_eq_true, Bool.and_eq_true, decide_eq_true_eq] at avoid
      obtain before | ⟨apart, avoid⟩ := avoid
      · omega
      · rw [if_neg, ih avoid]
        rintro ⟨within, member⟩
        rcases apart with after | ⟨⟨even, alone | even'⟩, between⟩
        · omega
        · rw [even] at member
          omega
        · rw [even] at member
          subst even'
          omega

/-- A code point stays where it is, or it is moved with the run that it lies in. -/
theorem lowerCodePoint_cases (rs : List CaseRun) (n : Nat) :
    lowerCodePoint rs n = n ∨ ∃ r ∈ rs, ∃ k, n = r.first + k * r.step ∧ n ≤ r.last ∧
      lowerCodePoint rs n = (n + r.shift).toNat := by
  induction rs with
  | nil => exact .inl rfl
  | cons r rs ih =>
    rw [lowerCodePoint]
    split
    · exact .inl rfl
    · next reached =>
      split
      · next member =>
        refine .inr ⟨r, List.mem_cons_self, (n - r.first) / r.step, ?_, member.1, rfl⟩
        have multiple := Nat.div_mul_cancel (Nat.dvd_of_mod_eq_zero member.2)
        omega
      · apply ih.imp_right
        rintro ⟨other, listed, moved⟩
        exact ⟨other, List.mem_cons_of_mem _ listed, moved⟩

/-- A code point that is moved comes to lie outside of all runs. -/
theorem lowerCodePoint_moved {r : CaseRun} (listed : r ∈ caseRuns) {n k : Nat}
    (member : n = r.first + k * r.step) (below : n ≤ r.last) :
    lowerCodePoint caseRuns (n + r.shift).toNat = (n + r.shift).toNat ∧
      (n + r.shift).toNat.isValidChar ∧ (n + r.shift).toNat ≠ 0x130 := by
  obtain ⟨positive, chars, dotted⟩ := caseRuns_stay_chars r listed
  have moved : (n + r.shift).toNat = r.low + k * r.step := by
    unfold CaseRun.low at positive ⊢
    omega
  have bounded : r.low + k * r.step ≤ r.high := by
    rw [← moved]
    unfold CaseRun.high
    omega
  refine ⟨?_, ?_, ?_⟩
  · rw [moved]
    exact lowerCodePoint_of_avoidRuns (caseRuns_avoid_caseRuns r listed) bounded
  · rw [moved]
    unfold Nat.isValidChar
    omega
  · omega

/-- The lower case of a character is its own lower case. -/
theorem lowerChar_of_mem_lowerChar {c d : Char} (h : d ∈ lowerChar c) : lowerChar d = [d] := by
  unfold lowerChar at h
  split at h
  · simp only [List.mem_cons, List.not_mem_nil, or_false] at h
    rcases h with rfl | rfl <;> decide +kernel
  · next undotted =>
    obtain rfl := List.mem_singleton.mp h
    rcases lowerCodePoint_cases caseRuns c.toNat with stays | ⟨r, listed, k, member, below, moved⟩
    · rw [stays, Char.ofNat_toNat, lowerChar, if_neg undotted, stays, Char.ofNat_toNat]
    · obtain ⟨settled, valid, not_dotted⟩ := lowerCodePoint_moved listed member below
      rw [moved]
      have code : (Char.ofNat (c.toNat + r.shift).toNat).toNat = (c.toNat + r.shift).toNat := by
        rw [Char.ofNat, dif_pos valid]
        rfl
      rw [lowerChar, code, settled, if_neg]
      intro dotted
      rw [dotted] at code
      exact not_dotted code.symm

theorem lowerChar_of_mem_lowerFrom {before s : List Char} {c : Char} (h : c ∈ lowerFrom before s) :
    lowerChar c = [c] := by
  induction s generalizing before with
  | nil => cases h
  | cons d rest ih =>
    rw [lowerFrom] at h
    rcases List.mem_append.mp h with first | later
    · split at first
      · split at first
        · rw [List.mem_singleton.mp first]
          decide +kernel
        · rw [List.mem_singleton.mp first]
          decide +kernel
      · exact lowerChar_of_mem_lowerChar first
    · exact ih later

/-- The lower case of a text is made of characters that are their own lower case. -/
theorem lowerChar_of_mem_lowerCase {s : List Char} {c : Char} (h : c ∈ lowerCase s) :
    lowerChar c = [c] :=
  lowerChar_of_mem_lowerFrom h

theorem lowerFrom_of_lowerChar {s : List Char} (before : List Char)
    (lower : ∀ c ∈ s, lowerChar c = [c]) : lowerFrom before s = s := by
  induction s generalizing before with
  | nil => rfl
  | cons c rest ih =>
    obtain ⟨first, others⟩ := List.forall_mem_cons.mp lower
    have not_sigma : c ≠ 'Σ' := by
      rintro rfl
      revert first
      decide +kernel
    rw [lowerFrom, if_neg not_sigma, first, ih _ others, List.singleton_append]

/-- A text whose characters are their own lower case is in lower case. -/
theorem lowerCase_of_lowerChar {s : List Char} (lower : ∀ c ∈ s, lowerChar c = [c]) :
    lowerCase s = s :=
  lowerFrom_of_lowerChar [] lower

end FrontToc.Text
