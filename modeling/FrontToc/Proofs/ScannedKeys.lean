import FrontToc.Proofs.ScannedLines

/-!
# Keys in the scanner

A key is read like any text in one line, and the colon after it sets its mark. If the mark of a key were
given up before the colon, the colon would not be read.
-/
namespace FrontToc.Yaml.Token.Scan

open Text

/-- A run that ends in `r` at a character of a key that began at a column, after the tokens `pre` of
the key. -/
def OnKey (r : Scan) (ts : List Token) (is : List Nat) (column : Nat) (pre : List Token) (c : Char)
    (text : List Char) : Prop :=
  ∃ (s s' : Scan) (before : List Lexeme) (rest : List Char) (line here : Nat), s.outer = [] ∧
    before.flatMap Lexeme.tokens = ts ∧
    s.lexemes.toList = before ++ pre.map (fun t => { token := t }) ∧ s.indents = is ∧
    s.cursor = ⟨c :: rest, line, here⟩ ∧ column ≤ here ∧ Thinned false text rest ∧
    (s.keyAllowed = true → s.candidate = none) ∧
    (∀ k, s.saved = some k → k.index = before.length ∧ k.line = line ∧ k.column = column) ∧
    s.dispatch c rest = some s' ∧ s'.Ends r

/-- A key at the start of a line. -/
theorem OnLine.key {r : Scan} {ts : List Token} {is : List Nat} {column : Nat} {c : Char}
    {text : List Char} (hc : c ≠ '\n') (h : OnLine r ts is column (c :: text)) :
    OnKey r (ts ++ closing column is) (kept column is) column [] c text := by
  obtain ⟨s, s', rest, line, stands, hcursor, hallowed, hcandidate, thin, hdispatch, run⟩ := h.next
  rw [decide_eq_false hc] at thin
  refine ⟨s, s', s.lexemes.toList, rest, line, column, stands.outer, stands.tokens, by simp,
    stands.indents, hcursor, Nat.le_refl _, thin, fun _ => hcandidate, fun k hk => ?_, hdispatch, run⟩
  rw [saved, if_pos hallowed, hcursor] at hk
  cases hk
  exact ⟨by simp, rfl, rfl⟩

/-- The collections that a column to the right of the innermost does not close. -/
theorem splitIndents_of_head {column here : Nat} {is : List Nat}
    (hdeep : ∀ i, is.head? = some i → i ≤ column) (hle : column ≤ here) :
    splitIndents here is = (0, is) :=
  splitIndents_of_le fun i hi => Nat.le_trans (hdeep i hi) hle

/-- A tag before a key. -/
theorem OnKey.tag {r : Scan} {ts pre : List Token} {is : List Nat} {column : Nat} {c : Char}
    {w text : List Char} (hdeep : ∀ i, is.head? = some i → i ≤ column) (hw : Unbroken w)
    (hspace : isSpace c = false) (hbreak : isBreak c = false) (hhash : c ≠ '#') (hmark : c ≠ byteOrderMark)
    (h : OnKey r ts is column pre '!' (w ++ ' ' :: c :: text)) :
    ∃ handle suffix, OnKey r ts is column (pre ++ [.tag handle suffix]) c text := by
  obtain ⟨s, s', before, rest, line, here, outer, htokens, hlexemes, hindents, hcursor, hcolumn, thin,
    hfresh, hsaved, hdispatch, run⟩ := h
  have hfeed : '\n' ∉ w ++ [' ', c] := by
    intro hmem
    rcases List.mem_append.mp hmem with hmem | hmem
    · exact absurd (hw _ hmem).2 (by decide)
    · obtain rfl : '\n' = c := by simpa using hmem
      cases hbreak
  have hsplit : w ++ ' ' :: c :: text = w ++ [' ', c] ++ text := by simp
  obtain ⟨rest, rfl, thinned⟩ := (hsplit ▸ thin).inLine hfeed
  simp only [List.append_assoc, List.cons_append, List.nil_append] at hdispatch hcursor
  obtain ⟨handle, suffix, outer', hindents', hlexemes', hrest', hkey', hline', hcolumn', hcandidate'⟩ :=
    tag_taken hw rfl outer hfresh hcursor hdispatch
  have hskip : s'.skipped = (⟨c :: rest, line, s'.cursor.column + 1⟩, false) := by
    rw [skipped, hrest', hkey', hline']
    exact (skipSpace_spaces _ _ _ _ 1 _).trans (skipSpace_char hspace hbreak hhash hmark _ _ _ _ _)
  obtain ⟨s'', next, -, hgo⟩ := run.next outer'
  have hcursor'' : s''.cursor = ⟨c :: rest, line, s'.cursor.column + 1⟩ := by rw [next.cursor, hskip]
  obtain ⟨s₃, hdispatch₃, run₃⟩ := hgo c rest (by rw [hcursor''])
  have hsplit : splitIndents (s'.cursor.column + 1) s'.indents = (0, is) := by
    rw [hindents', hindents]
    exact splitIndents_of_head hdeep (by omega)
  refine ⟨handle, suffix, s'', s₃, before, rest, line, s'.cursor.column + 1, next.outer, htokens, ?_, ?_,
    hcursor'', by omega, thinned, ?_, ?_, hdispatch₃, run₃⟩
  · rw [next.lexemes, hlexemes', hlexemes, hskip, hsplit]
    simp [ends]
  · rw [next.indents, hskip, hsplit]
  · simp [next.keyAllowed, hskip]
  · intro k hk
    rw [saved, next.keyAllowed, hskip, if_neg (by simp)] at hk
    rcases next.candidate with hnone | ⟨hsame, -⟩
    · rw [hnone] at hk
      cases hk
    · rw [hsame, hcandidate'] at hk
      exact hsaved k hk

/-- The lexemes of a key once its first has been marked. -/
theorem tokens_marked {before : List Lexeme} {t u : Token} {ts : List Token} {mark : KeyMark}
    {a : Array Lexeme} (ha : a.toList = before ++ (t :: ts).map (fun t => { token := t })) :
    ((a.modify before.length fun l => { l with mark }).push { token := u }).toList.flatMap
        Lexeme.tokens =
      before.flatMap Lexeme.tokens ++ Lexeme.tokens { token := t, mark } ++ (ts ++ [u]) := by
  have hmodify : (a.modify before.length fun l => { l with mark }).toList =
      before ++ { token := t, mark } :: ts.map fun t => { token := t } := by
    rw [Array.toList_modify, ha, List.modify_eq_take_drop]
    simp
  have hlast : Lexeme.tokens { token := u } = [u] := rfl
  rw [Array.toList_push, hmodify]
  simp only [List.flatMap_append, List.flatMap_cons, List.flatMap_nil, tokens_bare, hlast]
  simp

theorem Leaf.ne_nil {x : List Char} {ts : List Token} (leaf : Leaf x ts) : ts ≠ [] := by
  cases leaf <;> simp

theorem dispatch_value {s : Scan} {rest : List Char} {line column : Nat} (outer : s.outer = [])
    (hcursor : s.cursor = ⟨':' :: rest, line, column⟩) (hgap : atGap rest = true) :
    s.dispatch ':' rest = s.valueMark := by
  simp [dispatch, hcursor, not_limit_of_ne, hgap, inFlow_eq outer]

/-- The colon marks the key at an open candidate, and opens a mapping there unless one is open. -/
theorem valueMark_of_candidate {s s' : Scan} {before : List Lexeme} {t : Token} {us : List Token}
    {k : KeyCandidate} (outer : s.outer = []) (hcandidate : s.candidate = some k)
    (hdeep : ∀ i, s.indents.head? = some i → i ≤ k.column) (hindex : k.index = before.length)
    (hlexemes : s.lexemes.toList = before ++ (t :: us).map fun t => { token := t })
    (h : s.valueMark = some s') :
    Stands s' (before.flatMap Lexeme.tokens ++ opening k.column .blockMappingStart s.indents ++
        .key :: (t :: us ++ [.value])) (opened k.column s.indents) ∧
      s'.cursor = s.cursor.skip 1 ∧ s'.keyAllowed = false ∧ s'.candidate = none := by
  have hopens := leastIndent_le_iff hdeep
  simp only [valueMark, hcandidate, inFlow_eq outer, hindex] at h
  have hs' := (Option.some.inj h).symm
  refine ⟨⟨?_, ?_, ?_⟩, ?_, ?_, ?_⟩
  · rw [hs']
    exact outer
  · rw [hs', tokens, push, tokens_marked hlexemes]
    by_cases hhead : s.indents.head? = some k.column
    · simp [hopens, hhead, opening, Lexeme.tokens]
    · simp [hopens, hhead, opening, Lexeme.tokens]
  · rw [hs', push, opened]
    by_cases hhead : s.indents.head? = some k.column
    · simp [hopens, hhead]
    · simp [hopens, hhead]
  · rw [hs', push]
  · rw [hs', push]
  · rw [hs', push]

/-- The colon after a key. -/
theorem OnKey.value {r : Scan} {ts pre ks : List Token} {is : List Nat} {column : Nat} {c g : Char}
    {x text after : List Char} (hdeep : ∀ i, is.head? = some i → i ≤ column)
    (leaf : Leaf x ks) (hgap : isSpace g = true ∨ isBreak g = true)
    (htext : x ++ ':' :: g :: text = c :: after) (h : OnKey r ts is column pre c after) :
    OnMark r (ts ++ opening column .blockMappingStart is ++ .key :: (pre ++ ks ++ [.value]))
      (opened column is) column false (g :: text) := by
  obtain ⟨s, s', before, rest, line, here, outer, htokens, hlexemes, hindents, hcursor, hcolumn, thin,
    hfresh, hsaved, hdispatch, run⟩ := h
  obtain ⟨d, y, rfl, -⟩ := leaf.first
  obtain ⟨rfl, rfl⟩ := List.cons.inj htext
  obtain ⟨rest, rfl, hcolon⟩ := thin.inLine fun hmem => leaf.not_mem_feed (List.mem_cons_of_mem _ hmem)
  obtain ⟨rest, rfl, hvalue⟩ := hcolon.cons
  have hafter : atGap rest = true := by
    obtain ⟨rest, rfl, -⟩ := hvalue.cons
    simpa [atGap] using hgap
  obtain ⟨s', run, taken⟩ := leaf.taken (.colon hafter) outer hfresh hcursor rfl hdispatch run
  obtain ⟨hrest, hkey, hplace⟩ := taken.stopped
  have hskip : s'.skipped = (s'.cursor, false) := by
    rw [skipped, hrest, hkey, skipSpace_char (by decide) (by decide) (by decide) (by decide), ← hrest]
  obtain ⟨s'', next, -, hgo⟩ := run.next taken.outer
  have hcursor' : s''.cursor = s'.cursor := by rw [next.cursor, hskip]
  obtain ⟨s₃, hdispatch, run⟩ := hgo ':' rest (by rw [hcursor', hrest])
  rw [dispatch_value next.outer (by rw [hcursor', ← hrest]) hafter] at hdispatch
  have hallowed : s''.keyAllowed = false := by rw [next.keyAllowed, hskip]
  cases hcandidate : s''.candidate with
  | none => simp [valueMark, hcandidate, inFlow_eq next.outer, hallowed] at hdispatch
  | some k =>
    rcases next.candidate with hnone | ⟨hsame, hline⟩
    · rw [hnone] at hcandidate
      cases hcandidate
    rw [hcandidate] at hsame
    have hk : s.saved = some k := by
      rcases taken.candidate with hnone | htaken
      · rw [hnone] at hsame
        cases hsame
      · rw [← htaken, hsame]
    obtain ⟨hindex, hkline, hkcolumn⟩ := hsaved k hk
    have hline := hline k hsame.symm
    rw [hskip, hkline] at hline
    have hhere : here < s'.cursor.column := by
      simp only [After, hcursor] at hplace hline
      omega
    have hsplit : splitIndents s'.cursor.column s'.indents = (0, is) := by
      rw [taken.indents, hindents]
      exact splitIndents_of_head hdeep (Nat.le_of_lt (Nat.lt_of_le_of_lt hcolumn hhere))
    have hlex : s''.lexemes.toList = before ++ (pre ++ ks).map fun t => { token := t } := by
      rw [next.lexemes, taken.lexemes, hlexemes, hskip, hsplit]
      simp [ends]
    have his : s''.indents = is := by rw [next.indents, hskip, hsplit]
    obtain ⟨t, us, hts⟩ : ∃ t us, pre ++ ks = t :: us :=
      List.exists_cons_of_ne_nil fun hnil => leaf.ne_nil (List.append_eq_nil_iff.mp hnil).2
    subst hkcolumn
    obtain ⟨stands, hcursor₃, hallowed₃, hcandidate₃⟩ := valueMark_of_candidate next.outer hcandidate
      (by rwa [his]) hindex (by rw [hlex, hts]) hdispatch
    rw [htokens, his, ← hts] at stands
    refine ⟨s₃, stands, ?_, hallowed₃, ?_, by simp, by simp [hcandidate₃], run⟩
    · rw [hcursor₃, Cursor.skip, hcursor', hrest]
      exact hvalue
    · rw [hcursor₃, Cursor.skip, hcursor']
      exact Nat.lt_succ_of_lt (Nat.lt_of_le_of_lt hcolumn hhere)

end FrontToc.Yaml.Token.Scan
