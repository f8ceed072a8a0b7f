import FrontToc.Proofs.NestedTokens
import FrontToc.Proofs.ScannedScalars
import FrontToc.Proofs.ThinnedText

/-!
# Lines of block collections in the scanner

From the start of a line to the mark in it, and from the mark over a scalar or into the next line. The
text is one whose blank lines may have been left out.
-/
namespace FrontToc.Yaml.Token.Scan

open Text

/-- The tokens, the open collections, and no flow collection. -/
structure Stands (s : Scan) (ts : List Token) (is : List Nat) : Prop where
  outer : s.outer = []
  tokens : s.tokens = ts
  indents : s.indents = is

/-- A run that ends in `r` at the start of a line that begins with `text` at a column. -/
def OnLine (r : Scan) (ts : List Token) (is : List Nat) (column : Nat) (text : List Char) : Prop :=
  ∃ (s : Scan) (rest : List Char) (line : Nat), Stands s ts is ∧ Thinned false text rest ∧
    s.skipped = (⟨rest, line, column⟩, true) ∧ (∀ k, s.candidate = some k → k.line < line) ∧ s.Ends r

/-- A run that ends in `r` after a mark of the collection at a column. A collection may begin in the
same line if the mark is fresh. -/
def OnMark (r : Scan) (ts : List Token) (is : List Nat) (column : Nat) (fresh : Bool)
    (text : List Char) : Prop :=
  ∃ s : Scan, Stands s ts is ∧ Thinned false text s.cursor.rest ∧ s.keyAllowed = fresh ∧
    column < s.cursor.column ∧ (fresh = true → s.cursor.column = column + 1 ∧ s.candidate = none) ∧
    (∀ k, s.candidate = some k → k.line ≤ s.cursor.line) ∧ s.Ends r

/-- The ends of the collections that are indented deeper than a column. -/
def closing (column : Nat) (is : List Nat) : List Token :=
  List.replicate (splitIndents column is).1 .blockEnd

/-- The collections that stay open. -/
def kept (column : Nat) (is : List Nat) : List Nat :=
  (splitIndents column is).2

theorem tokens_ends (n : Nat) : (ends n).flatMap Lexeme.tokens = List.replicate n .blockEnd := by
  induction n with
  | zero => rfl
  | succ n ih =>
    rw [ends, List.replicate_succ, List.flatMap_cons, ← ends, ih]
    rfl

/-- The first token of a line. -/
theorem OnLine.next {r : Scan} {ts : List Token} {is : List Nat} {column : Nat} {c : Char}
    {text : List Char} (h : OnLine r ts is column (c :: text)) :
    ∃ (s s' : Scan) (rest : List Char) (line : Nat), Stands s (ts ++ closing column is) (kept column is) ∧
      s.cursor = ⟨c :: rest, line, column⟩ ∧ s.keyAllowed = true ∧ s.candidate = none ∧
      Thinned (decide (c = '\n')) text rest ∧
      s.dispatch c rest = some s' ∧ s'.Ends r := by
  obtain ⟨s, rest, line, stands, thin, skip, late, run⟩ := h
  obtain ⟨rest, rfl, thinned⟩ := thin.cons
  obtain ⟨s', next, -, hgo⟩ := run.next stands.outer
  have hcursor : s'.cursor = ⟨c :: rest, line, column⟩ := by rw [next.cursor, skip]
  obtain ⟨s'', hdispatch, run⟩ := hgo c rest (by rw [hcursor])
  refine ⟨s', s'', rest, line, ⟨next.outer, ?_, ?_⟩, hcursor, ?_, ?_, thinned, hdispatch, run⟩
  · rw [tokens, next.lexemes, List.flatMap_append, tokens_ends, skip, stands.indents]
    exact congrArg (· ++ _) stands.tokens
  · rw [next.indents, skip, stands.indents, kept]
  · rw [next.keyAllowed, skip]
  · rcases next.candidate with hnone | ⟨hsame, hline⟩
    · exact hnone
    · cases hk : s.candidate with
      | none => rw [hsame, hk]
      | some k =>
        have hlate := late k hk
        have hline := hline k hk
        rw [skip] at hline
        exact absurd hlate (Nat.not_lt.mpr hline)

/-- The marks that go on with a block collection, and what they open. -/
inductive BlockMark : Char → (start mark : Token) → Prop where
  | item : BlockMark '-' .blockSequenceStart .blockEntry
  | key : BlockMark '?' .blockMappingStart .key
  | value : BlockMark ':' .blockMappingStart .value

/-- A mark with a gap after it is no document limit. -/
theorem not_limit_of_gap {c mark : Char} {rest : List Char} {line column : Nat}
    (hgap : atGap rest = true) (hmark : isSpace mark = false ∧ isBreak mark = false) :
    (Cursor.mk (c :: rest) line column).atDocumentMark mark = false := by
  cases rest with
  | nil => simp [Cursor.atDocumentMark]
  | cons d rest =>
    have hd : d ≠ mark := by
      rintro rfl
      simp [atGap, hmark] at hgap
    cases rest <;> simp [Cursor.atDocumentMark, hd]

theorem dispatch_mark {c : Char} {start mark : Token} (hmark : BlockMark c start mark) {s : Scan}
    {rest : List Char} {line column : Nat} (outer : s.outer = [])
    (hcursor : s.cursor = ⟨c :: rest, line, column⟩) (hallowed : s.keyAllowed = true)
    (hcandidate : s.candidate = none) (hgap : atGap rest = true)
    (hdeep : ∀ i, s.indents.head? = some i → i ≤ column) :
    s.dispatch c rest =
      some
        { s with
          lexemes := s.lexemes ++ ((opening column start s.indents ++ [mark]).map
            fun t => { token := t }).toArray
          indents := opened column s.indents
          cursor := ⟨rest, line, column + 1⟩ } := by
  have hrule : (Cursor.mk (c :: rest) line column).atDocumentMark '-' = false :=
    not_limit_of_gap hgap (by decide)
  have hdots : (Cursor.mk (c :: rest) line column).atDocumentMark '.' = false :=
    not_limit_of_gap hgap (by decide)
  cases hmark
  · simp [dispatch, hcursor, hrule, hdots, hgap, blockEntry, inFlow, outer, hallowed,
      indent_eq outer _ hdeep, dropKey, hcandidate, push, Cursor.skip]
  · simp [dispatch, hcursor, hrule, hdots, hgap, explicitKey, inFlow, outer, hallowed,
      indent_eq outer _ hdeep, dropKey, hcandidate, push, Cursor.skip]
  · simp [dispatch, hcursor, hrule, hdots, hgap, valueMark, inFlow, outer, hallowed,
      indent_eq outer _ hdeep, hcandidate, push, Cursor.skip]

theorem tokens_bare (ts : List Token) :
    (ts.map fun t => ({ token := t } : Lexeme)).flatMap Lexeme.tokens = ts := by
  induction ts with
  | nil => rfl
  | cons t ts ih =>
    rw [List.map_cons, List.flatMap_cons, ih]
    rfl

/-- A mark at the start of a line opens a collection at its column or goes on with the one there. -/
theorem OnLine.mark {r : Scan} {ts : List Token} {is : List Nat} {column : Nat} {c g : Char}
    {text : List Char} {start mark : Token} (hmark : BlockMark c start mark)
    (hgap : isSpace g = true ∨ isBreak g = true) (h : OnLine r ts is column (c :: g :: text)) :
    OnMark r (ts ++ closing column is ++ opening column start (kept column is) ++ [mark])
      (opened column (kept column is)) column true (g :: text) := by
  obtain ⟨s, s', rest, line, stands, hcursor, hallowed, hcandidate, thin, hdispatch, run⟩ := h.next
  have hc : c ≠ '\n' := by cases hmark <;> decide
  rw [decide_eq_false hc] at thin
  have hrest : atGap rest = true := by
    obtain ⟨rest, rfl, -⟩ := thin.cons
    simpa [atGap] using hgap
  have hdeep : ∀ i, s.indents.head? = some i → i ≤ column := by
    obtain ⟨-, -, -, -, hkept⟩ := splitIndents_spec column is
    simpa [stands.indents, kept] using hkept
  rw [dispatch_mark hmark stands.outer hcursor hallowed hcandidate hrest hdeep] at hdispatch
  refine ⟨s', ⟨?_, ?_, ?_⟩, ?_, ?_, ?_, ?_, ?_, run⟩ <;> cases hdispatch
  · exact stands.outer
  · rw [tokens, Array.toList_append, List.flatMap_append, ← tokens, stands.tokens, tokens_bare,
      stands.indents]
    simp
  · rw [stands.indents]
  · exact thin
  · exact hallowed
  · exact Nat.lt_succ_self column
  · exact fun _ => ⟨rfl, hcandidate⟩
  · simp [hcandidate]

/-- Text that can begin a line after its indentation. -/
structure Begins (text : List Char) : Prop where
  first : ∃ c t, text = c :: t ∧ isSpace c = false ∧ isBreak c = false ∧ c ≠ '#' ∧ c ≠ byteOrderMark
  solid : Solid text

/-- What can follow a value of a collection at `column` in the next line, after `n` spaces. -/
def Below (column n : Nat) (text : List Char) : Prop :=
  text = [] ∧ n = 0 ∨ n ≤ column ∧ Begins text

/-- Nothing is skipped before the text of a line. -/
theorem Begins.skipSpace {text rest : List Char} (h : Begins text) (thin : Thinned false text rest)
    (inFlow keyAllowed : Bool) (line column : Nat) :
    skipSpace inFlow keyAllowed false line column rest = (⟨rest, line, column⟩, keyAllowed) := by
  obtain ⟨c, t, rfl, hspace, hbreak, hhash, hmark⟩ := h.first
  obtain ⟨rest, rfl, -⟩ := thin.cons
  exact skipSpace_char hspace hbreak hhash hmark inFlow keyAllowed line column rest

/-- The rest of a text after a line feed and the indentation of the next line. -/
theorem Below.thinned {column n : Nat} {text rest : List Char} (h : Below column n text)
    (thin : Thinned false ('\n' :: (spaces n ++ text)) rest) :
    ∃ rest', rest = '\n' :: (spaces n ++ rest') ∧ Thinned false text rest' := by
  obtain ⟨next, rfl, thinned⟩ := thin.cons
  rcases h with ⟨rfl, rfl⟩ | ⟨-, h⟩
  · exact ⟨[], by rw [thinned.eq_nil]; rfl, .nil false⟩
  · have hfeed : '\n' ∉ spaces n := by simp [spaces]
    obtain ⟨rest, rfl, hrest⟩ := (thinned.solid (h.solid.prepend hfeed)).inLine hfeed
    exact ⟨rest, rfl, hrest⟩

/-- A collection that begins in the next line. -/
theorem OnMark.newLine {r : Scan} {ts : List Token} {is : List Nat} {column n : Nat} {fresh : Bool}
    {text : List Char} (hbegins : Begins text)
    (h : OnMark r ts is column fresh ('\n' :: (spaces n ++ text))) : OnLine r ts is n text := by
  obtain ⟨s, stands, thin, hallowed, hcolumn, hfresh, hline, run⟩ := h
  obtain ⟨rest, hrest, thin⟩ := Below.thinned (.inr ⟨Nat.le_refl n, hbegins⟩) thin
  refine ⟨s, rest, s.cursor.line + 1, stands, thin, ?_, fun k hk => Nat.lt_succ_of_le (hline k hk), run⟩
  rw [skipped, inFlow_eq stands.outer, hrest, skipSpace_feed, skipSpace_spaces,
    hbegins.skipSpace thin, Nat.zero_add]

/-- A collection that begins in the line of its mark. -/
theorem OnMark.compact {r : Scan} {ts : List Token} {is : List Nat} {column : Nat}
    {text : List Char} (hbegins : Begins text) (h : OnMark r ts is column true (' ' :: text)) :
    OnLine r ts is (column + 2) text := by
  obtain ⟨s, stands, thin, hallowed, -, hfresh, -, run⟩ := h
  obtain ⟨hcolumn, hcandidate⟩ := hfresh rfl
  obtain ⟨rest, hrest, thin⟩ := thin.cons
  refine ⟨s, rest, s.cursor.line, stands, thin, ?_, by simp [hcandidate], run⟩
  have hskip := skipSpace_spaces s.inFlow s.keyAllowed s.cursor.line s.cursor.column 1 rest
  rw [hbegins.skipSpace thin, hallowed, hcolumn] at hskip
  rw [skipped, hrest, hcolumn, hallowed]
  exact hskip

/-- The text after a mark and a space. -/
theorem OnMark.next {r : Scan} {ts : List Token} {is : List Nat} {column : Nat} {fresh : Bool} {c : Char}
    {text : List Char} (hhead : is.head? = some column) (hspace : isSpace c = false)
    (hbreak : isBreak c = false) (hhash : c ≠ '#') (hmark : c ≠ byteOrderMark)
    (h : OnMark r ts is column fresh (' ' :: c :: text)) :
    ∃ (s s' : Scan) (rest : List Char) (line col : Nat), Stands s ts is ∧
      s.cursor = ⟨c :: rest, line, col⟩ ∧ column < col ∧ s.keyAllowed = fresh ∧
      (fresh = true → s.candidate = none) ∧ (∀ k, s.candidate = some k → k.line ≤ line) ∧
      Thinned false text rest ∧ s.dispatch c rest = some s' ∧ s'.Ends r := by
  obtain ⟨s, stands, thin, hallowed, hcolumn, hfresh, hline, run⟩ := h
  obtain ⟨next, hnext, thinned⟩ := thin.cons
  obtain ⟨rest, rfl, hrest⟩ := thinned.cons
  have hfeed : c ≠ '\n' := by
    rintro rfl
    cases hbreak
  rw [decide_eq_false hfeed] at hrest
  have hskip : s.skipped = (⟨c :: rest, s.cursor.line, s.cursor.column + 1⟩, s.keyAllowed) := by
    rw [skipped, hnext]
    exact (skipSpace_spaces _ _ _ _ 1 _).trans (skipSpace_char hspace hbreak hhash hmark _ _ _ _ _)
  obtain ⟨s', next, -, hgo⟩ := run.next stands.outer
  have hcursor : s'.cursor = ⟨c :: rest, s.cursor.line, s.cursor.column + 1⟩ := by
    rw [next.cursor, hskip]
  obtain ⟨s'', hdispatch, run⟩ := hgo c rest (by rw [hcursor])
  have hsplit : splitIndents (s.cursor.column + 1) s.indents = (0, is) := by
    rw [stands.indents]
    refine splitIndents_of_le fun i hi => ?_
    rw [hhead] at hi
    cases hi
    omega
  have hcandidate : s'.candidate = none ∨ s'.candidate = s.candidate :=
    next.candidate.imp id And.left
  refine ⟨s', s'', rest, _, _, ⟨next.outer, ?_, ?_⟩, hcursor, by omega, ?_, ?_, ?_, hrest, hdispatch, run⟩
  · rw [tokens, next.lexemes, hskip, hsplit, ← stands.tokens]
    simp [ends, tokens]
  · rw [next.indents, hskip, hsplit]
  · rw [next.keyAllowed, hskip, hallowed]
  · intro h
    rcases hcandidate with hnone | hsame
    · exact hnone
    · rw [hsame, (hfresh h).2]
  · intro k hk
    rcases hcandidate with hnone | hsame
    · rw [hnone] at hk
      cases hk
    · exact hline k (hsame ▸ hk)

/-- A tag after a mark. -/
theorem OnMark.tag {r : Scan} {ts : List Token} {is : List Nat} {column : Nat} {fresh : Bool}
    {g : Char} {text : List Char} (hhead : is.head? = some column) (hgap : isSpace g = true ∨ isBreak g = true)
    (t : Tag) (h : OnMark r ts is column fresh (' ' :: t.written ++ g :: text)) :
    ∃ handle suffix, OnMark r (ts ++ [.tag handle suffix]) is column false (g :: text) := by
  obtain ⟨w, hw, hbroken⟩ := unbroken_written t
  rw [hw] at h
  obtain ⟨s, s', rest, line, col, stands, hcursor, hcol, hallowed, hfresh, hline, thin, hdispatch, run⟩ :=
    OnMark.next hhead (by decide) (by decide) (by decide) (by decide) h
  have hfeed : '\n' ∉ w := fun hmem => absurd (hbroken _ hmem).2 (by decide)
  obtain ⟨rest, rfl, thinned⟩ := thin.inLine hfeed
  have hafter : atGap rest = true := by
    obtain ⟨rest, rfl, -⟩ := thinned.cons
    simpa [atGap] using hgap
  obtain ⟨handle, suffix, houter, hindents, hlexemes, hrest, hkey, hline', hcolumn, hcandidate⟩ :=
    tag_taken hbroken hafter stands.outer (by rwa [hallowed]) hcursor hdispatch
  refine ⟨handle, suffix, s', ⟨houter, ?_, ?_⟩, ?_, hkey, by omega, by simp, ?_, run⟩
  · rw [tokens, hlexemes, List.flatMap_append, ← tokens, stands.tokens]
    rfl
  · rw [hindents, stands.indents]
  · rwa [hrest]
  · intro k hk
    rw [hline']
    rw [hcandidate, saved] at hk
    split at hk
    · cases hk
      simp [hcursor]
    · exact hline k hk

theorem tokens_append_bare {s s' : Scan} {ts : List Token}
    (h : s'.lexemes.toList = s.lexemes.toList ++ ts.map fun t => { token := t }) :
    s'.tokens = s.tokens ++ ts := by
  rw [tokens, h, List.flatMap_append, tokens_bare]
  rfl

/-- What stops a value at the end of its line. -/
theorem Below.stop {column n : Nat} {text rest : List Char} (h : Below column n text)
    (thin : Thinned false text rest) : Stop (column + 1) ('\n' :: (spaces n ++ rest)) (some n) rest := by
  rcases h with ⟨rfl, rfl⟩ | ⟨hn, hbegins⟩
  · rw [thin.eq_nil]
    exact .last
  · obtain ⟨c, t, rfl, hspace, hbreak, hhash, hmark⟩ := hbegins.first
    obtain ⟨rest, rfl, -⟩ := thin.cons
    exact .line (Nat.lt_succ_of_le hn) hspace hbreak hhash hmark

theorem leastIndent_of_head {s : Scan} {column : Nat} (h : s.indents.head? = some column) :
    s.leastIndent = column + 1 := by
  unfold leastIndent
  cases hs : s.indents with
  | nil => simp [hs] at h
  | cons i is =>
    rw [hs] at h
    cases h
    rfl

/-- A value in the line of its mark. -/
theorem OnMark.value {r : Scan} {ts us : List Token} {is : List Nat} {column n : Nat} {fresh : Bool}
    {x text : List Char} (leaf : Leaf x us) (hhead : is.head? = some column) (below : Below column n text)
    (h : OnMark r ts is column fresh (' ' :: (x ++ '\n' :: (spaces n ++ text)))) :
    OnLine r (ts ++ us) is n text := by
  have hx := leaf.not_mem_feed
  obtain ⟨c, t, rfl, hspace, hbreak, hhash, hmark⟩ := leaf.first
  obtain ⟨s, s', rest, line, col, stands, hcursor, hcol, hallowed, hfresh, hline, thin, hdispatch, run⟩ :=
    OnMark.next hhead hspace hbreak hhash hmark h
  obtain ⟨after, rfl, thinned⟩ := thin.inLine fun hmem => hx (List.mem_cons_of_mem _ hmem)
  obtain ⟨rest, rfl, hrest⟩ := below.thinned thinned
  have hleast : s.leastIndent = column + 1 := leastIndent_of_head (by rw [stands.indents, hhead])
  obtain ⟨s'', run, taken⟩ := leaf.taken (hleast ▸ below.stop hrest) stands.outer (by rwa [hallowed])
    hcursor rfl hdispatch run
  obtain ⟨line', hlate, hskip⟩ := taken.stopped
  refine ⟨s'', rest, line', ⟨taken.outer, ?_, ?_⟩, hrest, hskip, ?_, run⟩
  · rw [tokens_append_bare taken.lexemes, stands.tokens]
  · rw [taken.indents, stands.indents]
  · intro k hk
    rw [hcursor] at hlate
    refine Nat.lt_of_le_of_lt ?_ hlate
    rcases taken.candidate with hnone | hsame
    · rw [hnone] at hk
      cases hk
    · rw [hsame, saved] at hk
      split at hk
      · cases hk
        simp [hcursor]
      · exact hline k hk

end FrontToc.Yaml.Token.Scan
