import FrontToc.Yaml.Style
import FrontToc.Yaml.Token.Stream

/-!
# Runs of the scanner outside of flow collections

One step of a run at a time: space is skipped, candidates are given up, collections that are indented
deeper are closed, and a token is read.
-/
namespace FrontToc.Yaml.Token.Scan

/-- The tokens read so far. -/
def tokens (s : Scan) : List Token :=
  s.lexemes.toList.flatMap Lexeme.tokens

/-- The run from `s` ends in `r`. -/
def Ends (s r : Scan) : Prop :=
  ∃ fuel, s.run fuel = some r

/-- Where the next token begins, and whether a key may begin there. -/
def skipped (s : Scan) : Cursor × Bool :=
  skipSpace s.inFlow s.keyAllowed false s.cursor.line s.cursor.column s.cursor.rest

theorem skipSpace_spaces (inFlow keyAllowed : Bool) (line column n : Nat) (rest : List Char) :
    skipSpace inFlow keyAllowed false line column (spaces n ++ rest) =
      skipSpace inFlow keyAllowed false line (column + n) rest := by
  induction n generalizing column with
  | zero => rfl
  | succ n ih =>
    have hstep : skipSpace inFlow keyAllowed false line column (spaces (n + 1) ++ rest) =
        skipSpace inFlow keyAllowed false line (column + 1) (spaces n ++ rest) := by
      simp [spaces, List.replicate_succ, skipSpace, isBreak, byteOrderMark]
    rw [hstep, ih]
    congr 1
    omega

theorem skipSpace_feed (keyAllowed : Bool) (line column : Nat) (rest : List Char) :
    skipSpace false keyAllowed false line column ('\n' :: rest) =
      skipSpace false true false (line + 1) 0 rest := by
  simp [skipSpace, isBreak]

theorem skipSpace_char {c : Char} (hspace : isSpace c = false) (hbreak : isBreak c = false)
    (hhash : c ≠ '#') (hmark : c ≠ byteOrderMark) (inFlow keyAllowed : Bool) (line column : Nat)
    (rest : List Char) : skipSpace inFlow keyAllowed false line column (c :: rest) =
      (⟨c :: rest, line, column⟩, keyAllowed) := by
  simp only [isSpace, Bool.or_eq_false_iff, decide_eq_false_iff_not] at hspace
  simp [skipSpace, hbreak, hspace, hhash, hmark]

theorem Ends.advance {s r : Scan} (h : Ends s r) :
    ∃ s', s.advance = some s' ∧ (s'.cursor.rest = [] → s'.unindentAll.dropKey = some r) ∧
      ∀ c rest, s'.cursor.rest = c :: rest → ∃ s'', s'.dispatch c rest = some s'' ∧ Ends s'' r := by
  obtain ⟨fuel, h⟩ := h
  cases fuel with
  | zero => cases h
  | succ fuel =>
    rw [run] at h
    cases hs : s.advance with
    | none => simp [hs] at h
    | some s' =>
      simp only [hs] at h
      refine ⟨s', rfl, fun hrest => ?_, fun c rest hrest => ?_⟩
      · simpa [hrest] using h
      · simp only [hrest] at h
        obtain ⟨s'', hdispatch, hrun⟩ := Option.bind_eq_some_iff.mp h
        exact ⟨s'', hdispatch, fuel, hrun⟩

/-- A candidate that is not given up is in the same line. -/
theorem expire_eq_some {cursor : Cursor} {before after : Option KeyCandidate}
    (h : KeyCandidate.expire cursor before = some after) :
    after = none ∨ after = before ∧ ∀ k, before = some k → cursor.line ≤ k.line := by
  cases before with
  | none => exact .inl (Option.some.inj h).symm
  | some k =>
    simp only [KeyCandidate.expire] at h
    split at h
    · next hlate =>
      split at h
      · cases h
      · exact .inl (Option.some.inj h).symm
    · next hlate =>
      refine .inr ⟨(Option.some.inj h).symm, fun k' hk => ?_⟩
      cases hk
      simp only [Bool.or_eq_true, decide_eq_true_eq] at hlate
      omega

theorem advance_eq_some {s s' : Scan} (outer : s.outer = []) (h : s.advance = some s') :
    ∃ candidate, KeyCandidate.expire s.skipped.1 s.candidate = some candidate ∧
      s' = unindent { s with cursor := s.skipped.1, keyAllowed := s.skipped.2, candidate }
        s.skipped.1.column := by
  simp only [Scan.advance] at h
  obtain ⟨s₁, hs₁, rfl⟩ := Option.map_eq_some_iff.mp h
  obtain ⟨candidate, hcandidate, hs₁⟩ := Option.bind_eq_some_iff.mp hs₁
  simp only [outer, List.mapM_nil] at hs₁
  exact ⟨candidate, hcandidate, by rw [← Option.some.inj hs₁, outer]; rfl⟩

theorem pushEnds_eq (s : Scan) (n : Nat) :
    s.pushEnds n = { s with lexemes := s.lexemes ++ Array.replicate n { token := .blockEnd } } := by
  induction n generalizing s with
  | zero => simp [pushEnds]
  | succ n ih =>
    rw [pushEnds, ih, push]
    simp [Array.replicate_succ', ← Array.append_assoc]

/-- A candidate that is dropped leaves the rest as it is. -/
theorem dropKey_eq_some {s s' : Scan} (h : s.dropKey = some s') : s' = { s with candidate := none } := by
  unfold dropKey at h
  split at h
  · split at h <;> cases h
    rfl
  · next hnone =>
    rw [← hnone]
    exact (Option.some.inj h).symm

theorem inFlow_eq {s : Scan} (outer : s.outer = []) : s.inFlow = false := by
  rw [inFlow, outer]
  rfl

theorem unindent_eq {s : Scan} (outer : s.outer = []) (column : Nat) :
    s.unindent column =
      { s with
        lexemes := s.lexemes ++ Array.replicate (splitIndents column s.indents).1 { token := .blockEnd }
        indents := (splitIndents column s.indents).2 } := by
  simp [unindent, inFlow_eq outer, pushEnds_eq]

/-- Ends of `n` block collections. -/
def ends (n : Nat) : List Lexeme :=
  List.replicate n { token := .blockEnd }

/-- The state `s'` is `s` at its next token. -/
structure Next (s s' : Scan) : Prop where
  outer : s'.outer = []
  cursor : s'.cursor = s.skipped.1
  keyAllowed : s'.keyAllowed = s.skipped.2
  lexemes : s'.lexemes.toList =
    s.lexemes.toList ++ ends (splitIndents s.skipped.1.column s.indents).1
  indents : s'.indents = (splitIndents s.skipped.1.column s.indents).2
  candidate : s'.candidate = none ∨
    s'.candidate = s.candidate ∧ ∀ k, s.candidate = some k → s.skipped.1.line ≤ k.line

/-- One step of a run outside of flow collections. -/
theorem Ends.next {s r : Scan} (h : Ends s r) (outer : s.outer = []) :
    ∃ s', Next s s' ∧ (s'.cursor.rest = [] → s'.unindentAll.dropKey = some r) ∧
      ∀ c rest, s'.cursor.rest = c :: rest → ∃ s'', s'.dispatch c rest = some s'' ∧ Ends s'' r := by
  obtain ⟨s', hadvance, hend, hgo⟩ := h.advance
  obtain ⟨candidate, hcandidate, hs'⟩ := advance_eq_some outer hadvance
  refine ⟨s', ?_, hend, hgo⟩
  subst hs'
  rw [unindent_eq]
  · exact ⟨outer, rfl, rfl, by simp [ends], rfl, expire_eq_some hcandidate⟩
  · exact outer

/-- The collections that a column does not close. -/
theorem splitIndents_spec (column : Nat) (is : List Nat) :
    ∃ closed, is = closed ++ (splitIndents column is).2 ∧ closed.length = (splitIndents column is).1 ∧
      (∀ i ∈ closed, column < i) ∧ ∀ i, (splitIndents column is).2.head? = some i → i ≤ column := by
  induction is with
  | nil => exact ⟨[], rfl, rfl, by simp, by simp [splitIndents]⟩
  | cons i is ih =>
    rw [splitIndents]
    split
    · next hi =>
      obtain ⟨closed, his, hlength, hdeep, hkept⟩ := ih
      exact ⟨i :: closed, by simpa using his, by simpa using hlength, by simpa [hi] using hdeep, hkept⟩
    · next hi => exact ⟨[], rfl, rfl, by simp, by simpa using hi⟩

theorem splitIndents_of_le {column : Nat} {is : List Nat} (h : ∀ i, is.head? = some i → i ≤ column) :
    splitIndents column is = (0, is) := by
  cases is with
  | nil => rfl
  | cons i is => rw [splitIndents, if_neg (Nat.not_lt.mpr (h i rfl))]

/-- The token that opens a collection at `column`, unless one is open there. -/
def opening (column : Nat) (start : Token) (is : List Nat) : List Token :=
  if is.head? = some column then [] else [start]

/-- The open collections after that. -/
def opened (column : Nat) (is : List Nat) : List Nat :=
  if is.head? = some column then is else column :: is

theorem head_opened (column : Nat) (is : List Nat) : (opened column is).head? = some column := by
  unfold opened
  split
  · assumption
  · rfl

theorem leastIndent_le_iff {s : Scan} {column : Nat} (h : ∀ i, s.indents.head? = some i → i ≤ column) :
    s.leastIndent ≤ column ↔ s.indents.head? ≠ some column := by
  unfold leastIndent
  split
  · next hs => simp [hs]
  · next i is hs =>
    have := h i (by rw [hs]; rfl)
    simp only [hs, List.head?_cons, ne_eq, Option.some.injEq]
    omega

theorem indent_eq {s : Scan} (outer : s.outer = []) {column : Nat} (start : Token)
    (h : ∀ i, s.indents.head? = some i → i ≤ column) :
    s.indent column start =
      { s with
        lexemes := s.lexemes ++ ((opening column start s.indents).map fun t => { token := t }).toArray
        indents := opened column s.indents } := by
  unfold Scan.indent opening opened
  simp only [inFlow_eq outer, leastIndent_le_iff h]
  by_cases hhead : s.indents.head? = some column
  · simp [hhead]
  · simp [hhead, push]

end FrontToc.Yaml.Token.Scan
