import FrontToc.Proofs.NestedTokens
import FrontToc.Proofs.ScannedLines

/-!
# Tokens that nothing can follow

A token that opens something right after a finished node cannot be read, whatever comes later. The
scanner goes back to such a token at most to mark it as the first key of a mapping, which does not help.
-/
namespace FrontToc.Yaml.Token.Scan

/-- A token that can neither go on with a collection nor end one. -/
def Blocks (t : Token) : Prop :=
  t ≠ .key ∧ t ≠ .value ∧ t ≠ .blockEntry ∧ t ≠ .blockEnd

/-- The tokens of a lexeme begin with one that blocks. -/
def Blocked (l : Lexeme) : Prop :=
  l.mark = .firstKey ∨ l.mark = .none ∧ Blocks l.token

theorem Blocked.tokens {l : Lexeme} (h : Blocked l) : ∃ t ts, l.tokens = t :: ts ∧ Blocks t := by
  rcases h with h | ⟨h, ht⟩
  · exact ⟨.blockMappingStart, _, by rw [Lexeme.tokens, h], by simp [Blocks]⟩
  · exact ⟨l.token, [], by rw [Lexeme.tokens, h], ht⟩

/-- No candidate is among the first `n` lexemes, and the next lexeme can be marked only outside of flow
collections, and then as a first key. -/
def Safe (n : Nat) (is : List Nat) : Option KeyCandidate → List (Option KeyCandidate) → Prop
  | candidate, [] => ∀ k, candidate = some k → n < k.index ∨ k.index = n ∧ ∀ i ∈ is, i < k.column
  | candidate, outer :: more => (∀ k, candidate = some k → n < k.index) ∧ Safe n is outer more

theorem Safe.weaken {n : Nat} {is js : List Nat} (hsub : ∀ i ∈ js, i ∈ is)
    {candidate candidate' : Option KeyCandidate} {outer : List (Option KeyCandidate)}
    (h : Safe n is candidate outer) (hnew : ∀ k, candidate' = some k → candidate = some k ∨ n < k.index) :
    Safe n js candidate' outer := by
  induction outer generalizing candidate candidate' with
  | nil =>
    intro k hk
    rcases hnew k hk with hold | hlt
    · exact (h k hold).imp_right fun ⟨hindex, hcolumn⟩ => ⟨hindex, fun i hi => hcolumn i (hsub i hi)⟩
    · exact .inl hlt
  | cons k ks ih => exact ⟨fun k hk => (hnew k hk).elim (h.1 k) id, ih h.2 fun k hk => .inl hk⟩

theorem expire_sub {cursor : Cursor} {candidate candidate' : Option KeyCandidate}
    (h : KeyCandidate.expire cursor candidate = some candidate') :
    ∀ k, candidate' = some k → candidate = some k := by
  rintro k rfl
  rcases expire_eq_some h with h | h
  · cases h
  · exact h.1.symm

theorem Safe.expire {n : Nat} {is : List Nat} {cursor : Cursor}
    {candidate candidate' : Option KeyCandidate} {outer outer' : List (Option KeyCandidate)}
    (h : Safe n is candidate outer) (hcandidate : KeyCandidate.expire cursor candidate = some candidate')
    (houter : outer.mapM (KeyCandidate.expire cursor) = some outer') : Safe n is candidate' outer' := by
  induction outer generalizing candidate candidate' outer' with
  | nil =>
    cases houter
    exact h.weaken (fun i hi => hi) fun k hk => .inl (expire_sub hcandidate k hk)
  | cons k ks ih =>
    rw [List.mapM_cons] at houter
    obtain ⟨k', hk', houter⟩ := Option.bind_eq_some_iff.mp houter
    obtain ⟨ks', hks', houter⟩ := Option.bind_eq_some_iff.mp houter
    cases houter
    exact ⟨fun k hk => h.1 k (expire_sub hcandidate k hk), ih h.2 hk' hks'⟩

/-- The lexemes `before`, and a token after them that blocks. -/
structure Frozen (before : List Lexeme) (s : Scan) : Prop where
  prefix_eq : s.lexemes.toList.take before.length = before
  blocked : ∃ l, s.lexemes.toList[before.length]? = some l ∧ Blocked l
  safe : Safe before.length s.indents s.candidate s.outer

theorem indent_without_candidate (s : Scan) (column : Nat) (token : Token) :
    { s.indent column token with candidate := none } =
      { s with candidate := none }.indent column token := by
  have hsame : (!{ s with candidate := none }.inFlow &&
      decide ({ s with candidate := none }.leastIndent ≤ column)) =
        (!s.inFlow && decide (s.leastIndent ≤ column)) := rfl
  unfold Scan.indent
  rw [hsame]
  split <;> rfl

/-- What reading a token can be. -/
inductive Dispatched (s : Scan) : Option Scan → Prop where
  | directive : s.cursor.column = 0 →
      Dispatched s
        (match s.unindentAll.dropKey with
        | none => none
        | some s => (readDirective s.cursor).map fun found =>
            { s.push found.token found.cursor with keyAllowed := false })
  | limit (token : Token) (cursor : Cursor) : s.cursor.column = 0 → Dispatched s (s.limit token cursor)
  | openFlow {token : Token} : Blocks token → Dispatched s (s.openFlow token)
  | closeFlow {token : Token} : Blocks token → Dispatched s (s.closeFlow token)
  | flowEntry : Dispatched s s.flowEntry
  | blockEntry : Dispatched s s.blockEntry
  | explicitKey : Dispatched s s.explicitKey
  | valueMark : Dispatched s s.valueMark
  | node {read : Cursor → Option Marked} : (∀ c m, read c = some m → Blocks m.token) →
      Dispatched s (s.node read)
  | block (folded : Bool) : Dispatched s (s.block folded)
  | plain : Dispatched s s.plain
  | nothing : Dispatched s none

theorem blocks_name {token : List Char → Token} (htoken : ∀ name, Blocks (token name)) {c : Cursor}
    {m : Marked} (h : nameToken token c = some m) : Blocks m.token := by
  obtain ⟨⟨name, end_⟩, -, rfl⟩ := Option.map_eq_some_iff.mp h
  exact htoken name

theorem blocks_quoted {read : Cursor → Option Read} {c : Cursor} {m : Marked}
    (h : quotedToken read c = some m) : Blocks m.token := by
  obtain ⟨r, -, rfl⟩ := Option.map_eq_some_iff.mp h
  simp [Blocks]

theorem blocks_tag {inFlow : Bool} {c : Cursor} {m : Marked} (h : readTag inFlow c = some m) :
    Blocks m.token := by
  unfold readTag at h
  split at h
  · cases h
  · split at h <;> cases h
    simp [Blocks]

theorem column_of_documentMark {c : Cursor} {mark : Char} (h : c.atDocumentMark mark = true) :
    c.column = 0 := by
  simp only [Cursor.atDocumentMark, Bool.and_eq_true, decide_eq_true_eq] at h
  exact h.1

theorem dispatched (s : Scan) (c : Char) (rest : List Char) : Dispatched s (s.dispatch c rest) := by
  unfold Scan.dispatch
  refine iteInduction (fun h => .directive ?_) fun _ => ?_
  · simp only [Bool.and_eq_true, decide_eq_true_eq] at h
    exact h.1
  refine iteInduction (fun h => .limit _ _ (column_of_documentMark h)) fun _ => ?_
  refine iteInduction (fun h => .limit _ _ (column_of_documentMark h)) fun _ => ?_
  refine iteInduction (fun _ => .openFlow (by simp [Blocks])) fun _ => ?_
  refine iteInduction (fun _ => .openFlow (by simp [Blocks])) fun _ => ?_
  refine iteInduction (fun _ => .closeFlow (by simp [Blocks])) fun _ => ?_
  refine iteInduction (fun _ => .closeFlow (by simp [Blocks])) fun _ => ?_
  refine iteInduction (fun _ => .flowEntry) fun _ => ?_
  refine iteInduction (fun _ => .blockEntry) fun _ => ?_
  refine iteInduction (fun _ => .explicitKey) fun _ => ?_
  refine iteInduction (fun _ => .valueMark) fun _ => ?_
  refine iteInduction (fun _ => .node fun c m => blocks_name (by simp [Blocks])) fun _ => ?_
  refine iteInduction (fun _ => .node fun c m => blocks_name (by simp [Blocks])) fun _ => ?_
  refine iteInduction (fun _ => .node fun c m => blocks_tag) fun _ => ?_
  refine iteInduction (fun _ => .block false) fun _ => ?_
  refine iteInduction (fun _ => .block true) fun _ => ?_
  refine iteInduction (fun _ => .node fun c m => blocks_quoted) fun _ => ?_
  refine iteInduction (fun _ => .node fun c m => blocks_quoted) fun _ => ?_
  exact iteInduction (fun _ => .plain) fun _ => .nothing

namespace Frozen

variable {before : List Lexeme} {s s' : Scan}

theorem lt_size (h : Frozen before s) : before.length < s.lexemes.size := by
  obtain ⟨l, hl, -⟩ := h.blocked
  simpa using (List.getElem?_eq_some_iff.mp hl).1

/-- Whether a key may begin does not count. -/
theorem setKeyAllowed (h : Frozen before s) (allowed : Bool) :
    Frozen before { s with keyAllowed := allowed } :=
  ⟨h.prefix_eq, h.blocked, h.safe⟩

/-- More tokens and fewer indentations and candidates do not count. -/
theorem more (h : Frozen before s) (hlexemes : s.lexemes.toList <+: s'.lexemes.toList)
    (hindents : ∀ i ∈ s'.indents, i ∈ s.indents)
    (hcandidate : ∀ k, s'.candidate = some k → s.candidate = some k ∨ before.length < k.index)
    (houter : s'.outer = s.outer) : Frozen before s' := by
  have hsize : before.length < s.lexemes.toList.length := by simpa using h.lt_size
  obtain ⟨ls, hlexemes⟩ := hlexemes
  refine ⟨?_, ?_, houter ▸ h.safe.weaken hindents hcandidate⟩
  · rw [← hlexemes, List.take_append_of_le_length (Nat.le_of_lt hsize), h.prefix_eq]
  · rw [← hlexemes, List.getElem?_append_left hsize]
    exact h.blocked

theorem push (h : Frozen before s) (token : Token) (cursor : Cursor) :
    Frozen before (s.push token cursor) := by
  exact h.more ⟨[{ token }], by simp [Scan.push]⟩ (fun i hi => hi) (fun k hk => .inl hk) rfl

theorem dropKey (h : Frozen before s) (hdrop : s.dropKey = some s') : Frozen before s' := by
  rw [dropKey_eq_some hdrop]
  exact h.more List.prefix_rfl (fun i hi => hi) (by simp) rfl

theorem saveKey (h : Frozen before s) (hsave : s.saveKey = some s') : Frozen before s' := by
  unfold Scan.saveKey at hsave
  split at hsave
  · obtain ⟨s₁, hdrop, rfl⟩ := Option.map_eq_some_iff.mp hsave
    have h₁ := h.dropKey hdrop
    refine h₁.more List.prefix_rfl (fun i hi => hi) (fun k hk => .inr ?_) rfl
    cases hk
    exact h₁.lt_size
  · cases hsave
    exact h

theorem unindentAll (h : Frozen before s) : Frozen before s.unindentAll := by
  unfold Scan.unindentAll
  split
  · exact h
  · rw [pushEnds_eq]
    refine h.more ?_ (by simp) (fun k hk => .inl hk) rfl
    rw [Array.toList_append]
    exact List.prefix_append _ _

theorem unindent (h : Frozen before s) (column : Nat) : Frozen before (s.unindent column) := by
  unfold Scan.unindent
  split
  · exact h
  · obtain ⟨closed, hclosed, -⟩ := splitIndents_spec column s.indents
    simp only [pushEnds_eq]
    refine h.more ?_ (fun i hi => ?_) (fun k hk => .inl hk) rfl
    · rw [Array.toList_append]
      exact List.prefix_append _ _
    · rw [hclosed]
      exact List.mem_append_right _ hi

theorem advance (h : Frozen before s) (hadvance : s.advance = some s') : Frozen before s' := by
  simp only [Scan.advance] at hadvance
  obtain ⟨s₁, hs₁, rfl⟩ := Option.map_eq_some_iff.mp hadvance
  obtain ⟨candidate, hcandidate, hs₁⟩ := Option.bind_eq_some_iff.mp hs₁
  obtain ⟨outer, houter, hs₁⟩ := Option.bind_eq_some_iff.mp hs₁
  cases hs₁
  apply Frozen.unindent
  exact ⟨h.prefix_eq, h.blocked, h.safe.expire hcandidate houter⟩

theorem limit (h : Frozen before s) {token : Token} {cursor : Cursor}
    (hlimit : s.limit token cursor = some s') : Frozen before s' := by
  obtain ⟨s₁, hdrop, rfl⟩ := Option.map_eq_some_iff.mp hlimit
  have h₁ := (h.unindentAll.dropKey hdrop).push token cursor
  exact h₁.setKeyAllowed _

theorem openFlow (h : Frozen before s) {token : Token} (hopen : s.openFlow token = some s') :
    Frozen before s' := by
  obtain ⟨s₁, hsave, rfl⟩ := Option.map_eq_some_iff.mp hopen
  have h₁ := (h.saveKey hsave).push token (s₁.cursor.skip 1)
  exact ⟨h₁.prefix_eq, h₁.blocked, by simp, h₁.safe⟩

theorem closeFlow (h : Frozen before s) {token : Token} (hclose : s.closeFlow token = some s') :
    Frozen before s' := by
  obtain ⟨s₁, hdrop, rfl⟩ := Option.map_eq_some_iff.mp hclose
  have h₁ := (h.dropKey hdrop).push token (s₁.cursor.skip 1)
  have hsafe : Safe before.length s₁.indents s₁.candidate s₁.outer := h₁.safe
  split
  · exact ⟨h₁.prefix_eq, h₁.blocked, hsafe⟩
  · next candidate outer houter =>
    rw [houter] at hsafe
    exact ⟨h₁.prefix_eq, h₁.blocked, hsafe.2⟩

theorem flowEntry (h : Frozen before s) (hentry : s.flowEntry = some s') : Frozen before s' := by
  obtain ⟨s₁, hdrop, rfl⟩ := Option.map_eq_some_iff.mp hentry
  have h₁ := (h.dropKey hdrop).push .flowEntry (s₁.cursor.skip 1)
  exact h₁.setKeyAllowed _

/-- Without a candidate outside of flow collections a collection may be opened. -/
theorem indent (h : Frozen before s) (hnone : s.outer = [] → s.candidate = none) (column : Nat)
    (token : Token) : Frozen before (s.indent column token) := by
  unfold Scan.indent
  split
  · next hflow =>
    have houter : s.outer = [] := by
      cases houter : s.outer with
      | nil => rfl
      | cons k ks => simp [inFlow, houter] at hflow
    have h₁ := h.push token s.cursor
    refine ⟨h₁.prefix_eq, h₁.blocked, ?_⟩
    simp [Scan.push, houter, hnone houter, Safe]
  · exact h

/-- A mark that may open a collection. -/
theorem indent_dropKey (h : Frozen before s) {column : Nat} {token : Token}
    (hmark : (s.indent column token).dropKey = some s') : Frozen before s' := by
  rw [dropKey_eq_some hmark, indent_without_candidate]
  have hnone : Frozen before { s with candidate := none } :=
    h.more List.prefix_rfl (fun i hi => hi) (by simp) rfl
  exact hnone.indent (fun _ => rfl) column token

theorem blockEntry (h : Frozen before s) (hentry : s.blockEntry = some s') : Frozen before s' := by
  unfold Scan.blockEntry at hentry
  split at hentry
  · cases hentry
  · obtain ⟨s₁, hmark, rfl⟩ := Option.map_eq_some_iff.mp hentry
    have h₁ := (h.indent_dropKey hmark).push .blockEntry (s₁.cursor.skip 1)
    exact h₁.setKeyAllowed _

theorem explicitKey (h : Frozen before s) (hkey : s.explicitKey = some s') : Frozen before s' := by
  unfold Scan.explicitKey at hkey
  split at hkey
  · cases hkey
  · obtain ⟨s₁, hmark, rfl⟩ := Option.map_eq_some_iff.mp hkey
    have h₁ := (h.indent_dropKey hmark).push .key (s₁.cursor.skip 1)
    exact h₁.setKeyAllowed _

/-- The mark of a candidate. If it is the blocking token, that becomes a first key. -/
theorem modify (h : Frozen before s) {k : KeyCandidate} {mark : KeyMark}
    (hindex : before.length < k.index ∨ k.index = before.length ∧ mark = .firstKey) :
    (s.lexemes.modify k.index fun l => { l with mark }).toList.take before.length = before ∧
      ∃ l, (s.lexemes.modify k.index fun l => { l with mark }).toList[before.length]? = some l ∧
        Blocked l := by
  have hout : ∀ {i : Nat} (f : Lexeme → Lexeme), before.length ≤ i → before.modify i f = before := by
    intro i f hi
    simp [List.modify_eq_take_drop, List.take_of_length_le hi, List.drop_eq_nil_of_le hi]
  obtain ⟨l, hl, hblocked⟩ := h.blocked
  rw [Array.toList_modify, List.take_modify, h.prefix_eq, List.getElem?_modify, hl]
  rcases hindex with hlt | ⟨heq, rfl⟩
  · refine ⟨hout _ (Nat.le_of_lt hlt), l, ?_, hblocked⟩
    simp [Nat.ne_of_gt hlt]
  · exact ⟨hout _ (Nat.le_of_eq heq.symm), { l with mark := .firstKey }, by simp [heq], .inl rfl⟩

theorem valueMark (h : Frozen before s) (hvalue : s.valueMark = some s') : Frozen before s' := by
  unfold Scan.valueMark at hvalue
  split at hvalue
  · next k hk =>
    cases hvalue
    have hsafe := h.safe
    rw [hk] at hsafe
    have hmark : (before.length < k.index ∨ k.index = before.length ∧
          (if !s.inFlow && s.leastIndent ≤ k.column then KeyMark.firstKey else .key) = .firstKey) ∧
        Safe before.length
          (if !s.inFlow && s.leastIndent ≤ k.column then k.column :: s.indents else s.indents) none
          s.outer := by
      cases houter : s.outer with
      | nil =>
        rw [houter] at hsafe
        refine ⟨(hsafe k rfl).imp_right fun ⟨hindex, hcolumn⟩ => ⟨hindex, ?_⟩, by simp [Safe]⟩
        have hleast : s.leastIndent ≤ k.column := by
          unfold leastIndent
          split
          · exact Nat.zero_le _
          · next i is his => exact hcolumn i (by rw [his]; exact List.mem_cons_self)
        simp [inFlow, houter, hleast]
      | cons k' ks =>
        rw [houter] at hsafe
        have hflow : (!s.inFlow) = false := by simp [inFlow, houter]
        rw [hflow, Bool.false_and, if_neg (by simp), if_neg (by simp)]
        exact ⟨.inl (hsafe.1 k rfl), by simp, hsafe.2⟩
    obtain ⟨htake, hblocked⟩ := h.modify hmark.1
    exact Frozen.push ⟨htake, hblocked, hmark.2⟩ _ _
  · next hnone =>
    split at hvalue
    · cases hvalue
    · cases hvalue
      have h₁ := (h.indent (fun _ => hnone) s.cursor.column .blockMappingStart).push .value
        ((s.indent s.cursor.column .blockMappingStart).cursor.skip 1)
      exact h₁.setKeyAllowed _

theorem node (h : Frozen before s) {read : Cursor → Option Marked} (hnode : s.node read = some s') :
    Frozen before s' := by
  obtain ⟨s₁, hsave, hnode⟩ := Option.bind_eq_some_iff.mp hnode
  obtain ⟨found, -, hnode⟩ := Option.bind_eq_some_iff.mp hnode
  cases hnode
  have h₁ := (h.saveKey hsave).push found.token found.cursor
  exact h₁.setKeyAllowed _

theorem plain (h : Frozen before s) (hplain : s.plain = some s') : Frozen before s' := by
  obtain ⟨s₁, hsave, hplain⟩ := Option.bind_eq_some_iff.mp hplain
  obtain ⟨⟨found, broke⟩, -, hplain⟩ := Option.bind_eq_some_iff.mp hplain
  cases hplain
  have h₁ := (h.saveKey hsave).push (.scalar true found.text) found.cursor
  exact h₁.setKeyAllowed _

theorem block (h : Frozen before s) {folded : Bool} (hblock : s.block folded = some s') :
    Frozen before s' := by
  obtain ⟨s₁, hdrop, hblock⟩ := Option.bind_eq_some_iff.mp hblock
  obtain ⟨found, -, hblock⟩ := Option.bind_eq_some_iff.mp hblock
  cases hblock
  have h₁ := (h.dropKey hdrop).push (.scalar false found.text) found.cursor
  exact h₁.setKeyAllowed _

theorem dispatch (h : Frozen before s) {c : Char} {rest : List Char}
    (hdispatch : s.dispatch c rest = some s') : Frozen before s' := by
  have hcases := dispatched s c rest
  rw [hdispatch] at hcases
  generalize ho : some s' = o at hcases
  cases hcases with
  | directive =>
    split at ho
    · cases ho
    · next s₁ hdrop =>
      obtain ⟨found, -, rfl⟩ := Option.map_eq_some_iff.mp ho.symm
      have h₁ := (h.unindentAll.dropKey hdrop).push found.token found.cursor
      exact h₁.setKeyAllowed _
  | limit => exact h.limit ho.symm
  | openFlow => exact h.openFlow ho.symm
  | closeFlow => exact h.closeFlow ho.symm
  | flowEntry => exact h.flowEntry ho.symm
  | blockEntry => exact h.blockEntry ho.symm
  | explicitKey => exact h.explicitKey ho.symm
  | valueMark => exact h.valueMark ho.symm
  | node => exact h.node ho.symm
  | block => exact h.block ho.symm
  | plain => exact h.plain ho.symm
  | nothing => cases ho

/-- The end of a run. -/
theorem run (h : Frozen before s) {r : Scan} (hrun : s.Ends r) : Frozen before r := by
  obtain ⟨fuel, hrun⟩ := hrun
  induction fuel generalizing s with
  | zero => cases hrun
  | succ fuel ih =>
    rw [Scan.run] at hrun
    split at hrun
    · cases hrun
    · next s₁ hadvance =>
      have h₁ := h.advance hadvance
      split at hrun
      · exact h₁.unindentAll.dropKey hrun
      · obtain ⟨s₂, hdispatch, hrun⟩ := Option.bind_eq_some_iff.mp hrun
        exact ih (h₁.dispatch hdispatch) hrun

end Frozen

theorem frozen_push {s : Scan} {t : Token} (ht : Blocks t)
    (safe : Safe s.lexemes.toList.length s.indents s.candidate s.outer) (cursor : Cursor) :
    Frozen s.lexemes.toList (s.push t cursor) := by
  refine ⟨by simp [push], ⟨{ token := t }, by simp [push], .inr ⟨rfl, ht⟩⟩, safe⟩

section

variable {s s' : Scan} (outer : s.outer = []) (hcandidate : s.candidate = none)
  (hdeep : ∀ i ∈ s.indents, i < s.cursor.column)

include outer hcandidate

theorem frozen_indent {t : Token} (ht : Blocks t) (hleast : s.leastIndent ≤ s.cursor.column) :
    Frozen s.lexemes.toList (s.indent s.cursor.column t) := by
  have h := frozen_push ht (s := s) (by simp [Safe, outer, hcandidate]) s.cursor
  unfold Scan.indent
  rw [if_pos (by simp [inFlow_eq outer, hleast])]
  exact ⟨h.prefix_eq, h.blocked, by simp [push, Safe, outer, hcandidate]⟩

include hdeep

theorem frozen_saved {t : Token} (ht : Blocks t) {s₁ : Scan} (hsave : s.saveKey = some s₁) (cursor : Cursor) :
    Frozen s.lexemes.toList (s₁.push t cursor) := by
  rw [saveKey_eq fun _ => hcandidate] at hsave
  cases hsave
  refine frozen_push ht (s := { s with candidate := s.saved }) ?_ cursor
  rw [saved]
  split
  · simpa [outer, Safe] using hdeep
  · simp [outer, hcandidate, Safe]

/-- A token that begins right of all open collections, with no candidate open, blocks. -/
theorem frozen_dispatch {c : Char} {rest : List Char} (hcolumn : 0 < s.cursor.column)
    (h : s.dispatch c rest = some s') : Frozen s.lexemes.toList s' := by
  have hleast : s.leastIndent ≤ s.cursor.column := by
    unfold leastIndent
    split
    · exact Nat.zero_le _
    · next i is his => exact hdeep i (by rw [his]; exact List.mem_cons_self)
  have hdrop : s.dropKey = some s := by simp [dropKey, hcandidate]
  have hsafe : Safe s.lexemes.toList.length s.indents s.candidate s.outer := by
    simp [Safe, outer, hcandidate]
  have hcases := dispatched s c rest
  rw [h] at hcases
  generalize ho : some s' = o at hcases
  cases hcases with
  | directive hzero | limit _ _ hzero => exact absurd hzero (Nat.ne_of_gt hcolumn)
  | openFlow ht =>
    obtain ⟨s₁, hsave, rfl⟩ := Option.map_eq_some_iff.mp ho.symm
    have h₁ := frozen_saved outer hcandidate hdeep ht hsave (s₁.cursor.skip 1)
    exact ⟨h₁.prefix_eq, h₁.blocked, by simp, h₁.safe⟩
  | closeFlow ht =>
    rw [closeFlow, hdrop] at ho
    cases ho
    have h₁ := frozen_push ht hsafe (s.cursor.skip 1)
    simp only [outer]
    exact h₁.setKeyAllowed _
  | flowEntry =>
    rw [flowEntry, hdrop] at ho
    cases ho
    have h₁ := frozen_push (t := .flowEntry) (by simp [Blocks]) hsafe (s.cursor.skip 1)
    exact h₁.setKeyAllowed _
  | blockEntry =>
    unfold blockEntry at ho
    split at ho
    · cases ho
    · obtain ⟨s₁, hmark, rfl⟩ := Option.map_eq_some_iff.mp ho.symm
      have h₁ := ((frozen_indent outer hcandidate (by simp [Blocks]) hleast).dropKey hmark).push
        .blockEntry (s₁.cursor.skip 1)
      exact h₁.setKeyAllowed _
  | explicitKey =>
    unfold explicitKey at ho
    split at ho
    · cases ho
    · obtain ⟨s₁, hmark, rfl⟩ := Option.map_eq_some_iff.mp ho.symm
      have h₁ := ((frozen_indent outer hcandidate (by simp [Blocks]) hleast).dropKey hmark).push .key
        (s₁.cursor.skip 1)
      exact h₁.setKeyAllowed _
  | valueMark =>
    unfold valueMark at ho
    rw [hcandidate] at ho
    dsimp only at ho
    split at ho
    · cases ho
    · cases ho
      have h₁ := (frozen_indent outer hcandidate (t := .blockMappingStart) (by simp [Blocks])
        hleast).push .value ((s.indent s.cursor.column .blockMappingStart).cursor.skip 1)
      exact h₁.setKeyAllowed _
  | node ht =>
    obtain ⟨s₁, hsave, hnode⟩ := Option.bind_eq_some_iff.mp ho.symm
    obtain ⟨m, hm, hnode⟩ := Option.bind_eq_some_iff.mp hnode
    cases hnode
    have h₁ := frozen_saved outer hcandidate hdeep (ht _ m hm) hsave m.cursor
    exact h₁.setKeyAllowed _
  | block folded =>
    obtain ⟨s₁, hs₁, hblock⟩ := Option.bind_eq_some_iff.mp ho.symm
    rw [hdrop] at hs₁
    cases hs₁
    obtain ⟨found, -, hblock⟩ := Option.bind_eq_some_iff.mp hblock
    cases hblock
    have h₁ := frozen_push (t := .scalar false found.text) (by simp [Blocks]) hsafe found.cursor
    exact h₁.setKeyAllowed _
  | plain =>
    obtain ⟨s₁, hsave, hplain⟩ := Option.bind_eq_some_iff.mp ho.symm
    obtain ⟨⟨found, broke⟩, -, hplain⟩ := Option.bind_eq_some_iff.mp hplain
    cases hplain
    have h₁ := frozen_saved outer hcandidate hdeep (t := .scalar true found.text) (by simp [Blocks])
      hsave found.cursor
    exact h₁.setKeyAllowed _
  | nothing => cases ho

end

/-- A run with a token that blocks after the tokens of finished nodes. -/
def Stuck (r : Scan) : Prop :=
  ∃ before bad after level, r.tokens = .blockMappingStart :: before ++ bad :: after ∧
    Nested 1 before level ∧ 0 < level ∧ Complete before ∧ Blocks bad

/-- No tree is read from the tokens of such a run. -/
theorem Stuck.ofTokens {r : Scan} (h : Stuck r) : Node.ofTokens? r.tokens = none := by
  obtain ⟨before, bad, after, level, htokens, nested, hlevel, complete, hkey, hvalue, hentry, hend⟩ := h
  obtain ⟨level, rfl⟩ := Nat.exists_eq_succ_of_ne_zero (Nat.ne_of_gt hlevel)
  cases hnode : Node.ofTokens? r.tokens with
  | none => rfl
  | some node =>
    have foreign : Node.Foreign (level + 1) (bad :: after) :=
      ⟨⟨bad, after, rfl, hentry, hvalue, hend, fun h => absurd h hkey⟩⟩
    rw [htokens] at hnode
    obtain ⟨depth, fuel, -, entries, rest, -, hread⟩ :=
      Node.entries_of_document foreign ⟨before, rfl, nested, complete⟩ hnode
    cases fuel <;> cases bad <;> simp [Node.blockEntries] at hread hkey hend

/-- After finished nodes a token right of all open collections leaves the run stuck. -/
theorem stuck_of_token {s r : Scan} {before : List Token} {level line column : Nat} {c : Char}
    {rest : List Char} (outer : s.outer = []) (hcandidate : s.candidate = none)
    (hskip : s.skipped = (⟨c :: rest, line, column⟩, true)) (hcolumn : 0 < column)
    (hdeep : ∀ i ∈ s.indents, i < column)
    (htokens : s.tokens = .blockMappingStart :: before) (nested : Nested 1 before level) (hlevel : 0 < level)
    (complete : Complete before) (run : s.Ends r) : Stuck r := by
  obtain ⟨s', next, -, hgo⟩ := run.next outer
  have hcursor : s'.cursor = ⟨c :: rest, line, column⟩ := by rw [next.cursor, hskip]
  have hsplit : splitIndents column s.indents = (0, s.indents) :=
    splitIndents_of_le fun i hi => Nat.le_of_lt (hdeep i (List.mem_of_head? hi))
  obtain ⟨s'', hdispatch, run⟩ := hgo c rest (by rw [hcursor])
  have hnone : s'.candidate = none := by
    rcases next.candidate with hnone | ⟨hsame, -⟩
    · exact hnone
    · rw [hsame, hcandidate]
  have hlexemes : s'.lexemes.toList = s.lexemes.toList := by
    rw [next.lexemes, hskip, hsplit]
    simp [ends]
  have frozen := (frozen_dispatch next.outer hnone (by rw [next.indents, hskip, hsplit, hcursor]; exact hdeep)
    (by rw [hcursor]; exact hcolumn) hdispatch).run run
  rw [hlexemes] at frozen
  obtain ⟨l, hl, hblocked⟩ := frozen.blocked
  obtain ⟨t, ts, hts, ht⟩ := hblocked.tokens
  obtain ⟨more, hmore⟩ : ∃ more, r.lexemes.toList = s.lexemes.toList ++ l :: more := by
    obtain ⟨hlt, hget⟩ := List.getElem?_eq_some_iff.mp hl
    refine ⟨r.lexemes.toList.drop (s.lexemes.toList.length + 1), ?_⟩
    rw [← hget, ← List.drop_eq_getElem_cons hlt]
    have hcut := List.take_append_drop s.lexemes.toList.length r.lexemes.toList
    rwa [frozen.prefix_eq, eq_comm] at hcut
  refine ⟨before, t, ts ++ more.flatMap Lexeme.tokens, level, ?_, nested, hlevel, complete, ht⟩
  rw [Scan.tokens, hmore, List.flatMap_append, List.flatMap_cons, hts, ← Scan.tokens, htokens]
  simp

end FrontToc.Yaml.Token.Scan
