import FrontToc.Proofs.ReadTags
import FrontToc.Proofs.ScanRuns

/-!
# Scalars in the scanner

A scalar in one line, or an empty collection in brackets, gives its tokens and nothing else, be it a
key that a colon follows or a value at the end of its line.
-/
namespace FrontToc.Yaml.Token.Scan

/-- The tokens of a text in one line. -/
inductive Leaf : List Char → List Token → Prop where
  | plain {s : List Char} : PlainText s → Leaf s [.scalar true s]
  | single {s : List Char} (indent : Nat) :
      Style.allowsSingle s = true → '\n' ∉ s → Leaf (singleText indent s) [.scalar false s]
  | double (s : List Char) : Leaf (doubleText s) [.scalar false s]
  | emptySequence : Leaf ['[', ']'] [.flowSequenceStart, .flowSequenceEnd]
  | emptyMapping : Leaf ['\x7b', '\x7d'] [.flowMappingStart, .flowMappingEnd]

/-- What ends a text in one line: the colon after a key, or the line, if the next one is not indented to
`least`. The number is where the text of the next line begins. -/
inductive Stop (least : Nat) : List Char → Option Nat → List Char → Prop where
  | colon {rest : List Char} : atGap rest = true → Stop least (':' :: rest) none (':' :: rest)
  | last : Stop least ['\n'] (some 0) []
  | line {n : Nat} {c : Char} {rest : List Char} : n < least → isSpace c = false → isBreak c = false →
      c ≠ '#' → c ≠ byteOrderMark →
      Stop least ('\n' :: (spaces n ++ c :: rest)) (some n) (c :: rest)

/-- The scanner after a text that began at a place and that has been stopped. -/
def Stopped (line column : Nat) (next : Option Nat) (rest : List Char) (s : Scan) : Prop :=
  match next with
  | none => s.cursor.rest = rest ∧ s.keyAllowed = false ∧ After line (column + 1) s.cursor
  | some n => ∃ line', line < line' ∧ s.skipped = (⟨rest, line', n⟩, true)

/-- The candidate after a token that may begin a key. -/
def saved (s : Scan) : Option KeyCandidate :=
  if s.keyAllowed then
    some
      { index := s.lexemes.size, line := s.cursor.line, column := s.cursor.column
        required := !s.inFlow && s.indents.head? = some s.cursor.column }
  else s.candidate

theorem saveKey_eq {s : Scan} (h : s.keyAllowed = true → s.candidate = none) :
    s.saveKey = some { s with candidate := s.saved } := by
  unfold saveKey saved
  by_cases hallowed : s.keyAllowed = true
  · simp [hallowed, dropKey, h hallowed, inFlow]
  · rw [if_neg hallowed, if_neg hallowed]

theorem not_limit_of_ne {c mark : Char} (h : c ≠ mark) (rest : List Char) (line column : Nat) :
    (Cursor.mk (c :: rest) line column).atDocumentMark mark = false := by
  rcases rest with _ | ⟨d, _ | ⟨e, rest⟩⟩ <;> simp [Cursor.atDocumentMark, h]

/-- What reading a text leaves: its tokens, and the place after it. -/
structure Taken (s s' : Scan) (ts : List Token) (next : Option Nat) (rest : List Char) : Prop where
  outer : s'.outer = []
  indents : s'.indents = s.indents
  lexemes : s'.lexemes.toList = s.lexemes.toList ++ ts.map fun t => { token := t }
  stopped : Stopped s.cursor.line s.cursor.column next rest s'
  candidate : s'.candidate = none ∨ s'.candidate = s.saved

theorem Stop.skipSpace {least : Nat} {after rest : List Char} {next : Option Nat}
    (stop : Stop least after next rest) {s : Scan} (outer : s.outer = [])
    (hallowed : s.keyAllowed = false) (hrest : s.cursor.rest = after) {line column : Nat}
    (hafter : After line (column + 1) s.cursor) : Stopped line column next rest s := by
  have hline : line < s.cursor.line + 1 := by
    simp only [After] at hafter
    omega
  cases stop with
  | colon => exact ⟨hrest, hallowed, hafter⟩
  | last =>
    refine ⟨s.cursor.line + 1, hline, ?_⟩
    rw [skipped, inFlow_eq outer, hrest, skipSpace_feed]
    rfl
  | line _ hspace hbreak hhash hmark =>
    refine ⟨s.cursor.line + 1, hline, ?_⟩
    rw [skipped, inFlow_eq outer, hrest, skipSpace_feed, skipSpace_spaces,
      skipSpace_char hspace hbreak hhash hmark, Nat.zero_add]

/-- A token that may begin a key, read up to what stops it. -/
theorem node_taken {s s' : Scan} {read : Cursor → Option Marked} {least : Nat} {token : Token}
    {after rest : List Char} {next : Option Nat} (stop : Stop least after next rest)
    (outer : s.outer = []) (hfresh : s.keyAllowed = true → s.candidate = none)
    (hread : ∀ m, read s.cursor = some m → m.token = token ∧ m.cursor.rest = after ∧
      After s.cursor.line (s.cursor.column + 1) m.cursor)
    (h : s.node read = some s') : Taken s s' [token] next rest := by
  simp only [node, saveKey_eq hfresh, Option.bind_eq_bind, Option.bind_some] at h
  obtain ⟨m, hm, h⟩ := Option.bind_eq_some_iff.mp h
  obtain ⟨rfl, hafter, hplace⟩ := hread m hm
  refine ⟨?_, ?_, ?_, ?_, ?_⟩ <;> cases h
  · exact outer
  · rfl
  · simp [push]
  · apply stop.skipSpace
    · exact outer
    · rfl
    · exact hafter
    · exact hplace
  · exact .inr rfl

/-- A text that does not begin like a document limit is none, whatever follows that differs. -/
theorem not_limit_of_take {x after : List Char} {mark : Char} (htake : x.take 3 ≠ [mark, mark, mark])
    (hafter : after.head? ≠ some mark) (line column : Nat) :
    (Cursor.mk (x ++ after) line column).atDocumentMark mark = false := by
  have hlimit : ∀ w : List Char, w.take 3 ≠ [mark, mark, mark] →
      (Cursor.mk w line column).atDocumentMark mark = false := by
    intro w hw
    rcases w with _ | ⟨a, _ | ⟨b, _ | ⟨c, w⟩⟩⟩
    · simp [Cursor.atDocumentMark]
    · simp [Cursor.atDocumentMark]
    · simp [Cursor.atDocumentMark]
    · simp only [List.take_succ_cons, List.take_zero] at hw
      simp [Cursor.atDocumentMark]
      grind
  refine hlimit _ fun hw => ?_
  rcases Nat.lt_or_ge x.length 3 with hlt | hge
  · refine hafter ?_
    have hget : ((x ++ after).take 3)[x.length]? = after.head? := by
      rw [List.getElem?_take_of_lt hlt, List.getElem?_append_right (Nat.le_refl _), Nat.sub_self,
        List.head?_eq_getElem?]
    rw [← hget, hw]
    have hlength : x.length = 0 ∨ x.length = 1 ∨ x.length = 2 := by omega
    rcases hlength with h | h | h <;> rw [h] <;> rfl
  · exact htake (by rwa [List.take_append_of_le_length hge] at hw)

theorem dispatch_plain {s : Scan} {x after text : List Char} {c : Char} {next : Option Nat}
    {rest : List Char} {line column least : Nat} (plain : PlainText x) (stop : Stop least after next rest)
    (outer : s.outer = []) (hcursor : s.cursor = ⟨c :: text, line, column⟩)
    (htext : x ++ after = c :: text) : s.dispatch c text = s.plain := by
  obtain ⟨d, t, rfl, hspace, hrule, hdots, hmark, hgap⟩ := plain.first
  have hafter : after.head? ≠ some '-' ∧ after.head? ≠ some '.' := by cases stop <;> simp
  have hrule := not_limit_of_take hrule hafter.1 line column
  have hdots := not_limit_of_take hdots hafter.2 line column
  rw [List.cons_append] at htext hrule hdots
  obtain ⟨rfl, rfl⟩ := List.cons.inj htext
  simp at hmark
  have hgap : d = '?' ∨ d = ':' ∨ d = '-' → atGap (t ++ after) = false :=
    fun hd => atGap_append (hgap hd) after
  have hstarts : startsPlain false d (t ++ after) = true := by
    by_cases hd : d = '?' ∨ d = ':' ∨ d = '-'
    · have hnext : (t ++ after).head?.any isSpace = false := by
        cases hhead : t ++ after with
        | nil => rfl
        | cons e u =>
          have hgap := hgap hd
          simp only [hhead, atGap, Bool.or_eq_false_iff] at hgap
          simpa using hgap.1
      rw [startsPlain, hnext, hgap hd]
      rcases hd with rfl | rfl | rfl <;> rfl
    · simp only [not_or] at hd
      simp [startsPlain, hspace, isMark, hmark, hd]
  simp [Scan.dispatch, hcursor, hrule, hdots, hmark, inFlow_eq outer, hstarts]
  grind

/-- A text without quotes, read up to what stops it. -/
theorem plain_taken {s s' : Scan} {x after rest : List Char} {next : Option Nat}
    (plain : PlainText x) (stop : Stop s.leastIndent after next rest) (outer : s.outer = [])
    (hfresh : s.keyAllowed = true → s.candidate = none)
    (htext : s.cursor = ⟨x ++ after, s.cursor.line, s.cursor.column⟩) (h : s.plain = some s') :
    Taken s s' [.scalar true x] next rest := by
  simp only [Scan.plain, saveKey_eq hfresh, Option.bind_eq_bind, Option.bind_some] at h
  obtain ⟨found, hfound, h⟩ := Option.bind_eq_some_iff.mp h
  change readPlain s.inFlow s.leastIndent s.cursor = some found at hfound
  rw [inFlow_eq outer, htext] at hfound
  have hlength : 0 < x.length := by
    obtain ⟨d, t, rfl, -⟩ := plain.first
    exact Nat.succ_pos t.length
  cases h
  cases stop with
  | colon hgap =>
    rw [plain.readPlain_key hgap] at hfound
    cases hfound
    refine ⟨outer, rfl, by simp [push], ⟨rfl, rfl, .inr ⟨rfl, ?_⟩⟩, .inr rfl⟩
    exact Nat.add_le_add_left hlength s.cursor.column
  | last =>
    rw [plain.readPlain_last] at hfound
    cases hfound
    exact ⟨outer, rfl, by simp [push], ⟨s.cursor.line + 1, Nat.lt_succ_self _, rfl⟩, .inr rfl⟩
  | line hn hspace hbreak hhash hmark =>
    rw [plain.readPlain_line hn hspace hbreak] at hfound
    cases hfound
    refine ⟨outer, rfl, by simp [push], ⟨s.cursor.line + 1, Nat.lt_succ_self _, ?_⟩, .inr rfl⟩
    exact skipSpace_char hspace hbreak hhash hmark _ _ _ _ _

/-- The token of a text in one line, but for brackets. -/
theorem Leaf.dispatch_scalar {s s' : Scan} {x : List Char} {token : Token} (leaf : Leaf x [token])
    {c : Char} {text after rest : List Char} {next : Option Nat} {line column : Nat}
    (stop : Stop s.leastIndent after next rest)
    (outer : s.outer = []) (hfresh : s.keyAllowed = true → s.candidate = none)
    (hcursor : s.cursor = ⟨c :: text, line, column⟩) (htext : x ++ after = c :: text)
    (h : s.dispatch c text = some s') : Taken s s' [token] next rest := by
  have hquote : after.head? ≠ some '\'' := by cases stop <;> simp
  cases leaf with
  | plain plain =>
    rw [dispatch_plain plain stop outer hcursor htext] at h
    exact plain_taken plain stop outer hfresh (by rw [hcursor, htext]) h
  | single indent hsingle hfeed =>
    obtain ⟨rfl, -⟩ := List.cons.inj htext
    have hdispatch : s.dispatch '\'' text = s.node (quotedToken readSingle) := by
      simp [dispatch, hcursor, not_limit_of_ne]
    rw [hdispatch] at h
    refine node_taken stop outer hfresh (fun m hm => ?_) h
    obtain ⟨r, hr, rfl⟩ := Option.map_eq_some_iff.mp hm
    rw [hcursor, ← htext] at hr
    obtain ⟨hr, hrest, hplace⟩ := readSingle_singleText hsingle hfeed hquote hr
    exact ⟨by rw [hr], hrest, hcursor ▸ hplace⟩
  | double =>
    obtain ⟨rfl, -⟩ := List.cons.inj htext
    have hdispatch : s.dispatch '"' text = s.node (quotedToken readDouble) := by
      simp [dispatch, hcursor, not_limit_of_ne]
    rw [hdispatch] at h
    refine node_taken stop outer hfresh (fun m hm => ?_) h
    obtain ⟨r, hr, rfl⟩ := Option.map_eq_some_iff.mp hm
    rw [hcursor, ← htext] at hr
    obtain ⟨hr, hrest, hplace⟩ := readDouble_doubleText hr
    exact ⟨by rw [hr], hrest, hcursor ▸ hplace⟩

/-- The scanner inside of brackets at the one that closes them. -/
theorem advance_brackets {s s' : Scan} {k : Option KeyCandidate} (outer : s.outer = [k])
    (hcandidate : s.candidate = none) {c : Char} (hc : c = ']' ∨ c = '\x7d') {rest : List Char}
    (hrest : s.cursor.rest = c :: rest) (h : s.advance = some s') :
    ∃ k', (k' = none ∨ k' = k) ∧ s' = { s with outer := [k'] } := by
  have hskip : skipSpace s.inFlow s.keyAllowed false s.cursor.line s.cursor.column (c :: rest) =
      (⟨c :: rest, s.cursor.line, s.cursor.column⟩, s.keyAllowed) := by
    rcases hc with rfl | rfl <;> exact skipSpace_char rfl rfl (by decide) (by decide) _ _ _ _ _
  simp only [Scan.advance, hrest, hskip] at h
  obtain ⟨s₁, hs₁, rfl⟩ := Option.map_eq_some_iff.mp h
  obtain ⟨candidate, hnone, hs₁⟩ := Option.bind_eq_some_iff.mp hs₁
  obtain ⟨ks, hks, hs₁⟩ := Option.bind_eq_some_iff.mp hs₁
  simp only [outer, List.mapM_cons, List.mapM_nil] at hks
  obtain ⟨k', hk', hks⟩ := Option.bind_eq_some_iff.mp hks
  cases hks
  cases hs₁
  rw [hcandidate] at hnone
  cases hnone
  refine ⟨k', (expire_eq_some hk').imp id And.left, ?_⟩
  have hflow : ∀ s : Scan, s.outer = [k'] → s.unindent s.cursor.column = s := by
    intro s houter
    simp [unindent, inFlow, houter]
  rw [hflow _ rfl, ← hrest]
  congr 1
  exact hcandidate.symm

/-- Brackets with nothing in them. -/
inductive Brackets : (open_ close : Char) → (start stop : Token) → Prop where
  | sequence : Brackets '[' ']' .flowSequenceStart .flowSequenceEnd
  | mapping : Brackets '\x7b' '\x7d' .flowMappingStart .flowMappingEnd

theorem brackets_taken {s s₁ r : Scan} {a b : Char} {start end_ : Token}
    (brackets : Brackets a b start end_) {least line column : Nat} {after rest : List Char}
    {next : Option Nat} (stop : Stop least after next rest) (outer : s.outer = [])
    (hfresh : s.keyAllowed = true → s.candidate = none) (hcursor : s.cursor = ⟨a :: b :: after, line, column⟩)
    (h : s.dispatch a (b :: after) = some s₁) (run : s₁.Ends r) :
    ∃ s', s'.Ends r ∧ Taken s s' [start, end_] next rest := by
  have hopen : s.dispatch a (b :: after) = s.openFlow start := by
    cases brackets <;> simp [dispatch, hcursor, not_limit_of_ne]
  rw [hopen, openFlow, saveKey_eq hfresh] at h
  have hs₁ : s₁ =
      { s with
        lexemes := s.lexemes.push { token := start }
        cursor := ⟨b :: after, line, column + 1⟩
        candidate := none
        outer := [s.saved]
        keyAllowed := true } := by
    rw [← Option.some.inj h]
    simp [push, hcursor, Cursor.skip, outer]
  obtain ⟨s₂, hadvance, -, hgo⟩ := run.advance
  rw [hs₁] at hadvance
  have hb : b = ']' ∨ b = '\x7d' := by cases brackets <;> simp
  obtain ⟨k, hk, hs₂⟩ := advance_brackets rfl rfl hb rfl hadvance
  obtain ⟨s₃, hclose, run⟩ := hgo b after (by rw [hs₂])
  have hend : s₂.dispatch b after = s₂.closeFlow end_ := by
    cases brackets <;> simp [dispatch, hs₂, not_limit_of_ne]
  rw [hend, closeFlow, dropKey] at hclose
  simp [hs₂, push, Cursor.skip] at hclose
  refine ⟨s₃, run, ?_, ?_, ?_, ?_, ?_⟩ <;> subst hclose
  · rfl
  · rfl
  · simp
  · apply stop.skipSpace
    · rfl
    · rfl
    · rfl
    · exact .inr ⟨by simp [hcursor], by simp [hcursor]⟩
  · exact hk

/-- A text in one line gives its tokens, up to what stops it. -/
theorem Leaf.taken {s s₁ r : Scan} {x : List Char} {ts : List Token} (leaf : Leaf x ts) {c : Char}
    {text after rest : List Char} {next : Option Nat} {line column : Nat}
    (stop : Stop s.leastIndent after next rest) (outer : s.outer = [])
    (hfresh : s.keyAllowed = true → s.candidate = none) (hcursor : s.cursor = ⟨c :: text, line, column⟩)
    (htext : x ++ after = c :: text) (h : s.dispatch c text = some s₁) (run : s₁.Ends r) :
    ∃ s', s'.Ends r ∧ Taken s s' ts next rest := by
  have hscalar : ∀ {token}, Leaf x [token] → ∃ s', s'.Ends r ∧ Taken s s' [token] next rest :=
    fun leaf => ⟨s₁, run, leaf.dispatch_scalar stop outer hfresh hcursor htext h⟩
  cases leaf with
  | plain plain => exact hscalar (.plain plain)
  | single indent hsingle hfeed => exact hscalar (.single indent hsingle hfeed)
  | double t => exact hscalar (.double t)
  | emptySequence =>
    obtain ⟨rfl, rfl⟩ := List.cons.inj htext
    exact brackets_taken .sequence stop outer hfresh hcursor h run
  | emptyMapping =>
    obtain ⟨rfl, rfl⟩ := List.cons.inj htext
    exact brackets_taken .mapping stop outer hfresh hcursor h run

theorem Leaf.not_mem_feed {x : List Char} {ts : List Token} (leaf : Leaf x ts) : '\n' ∉ x := by
  cases leaf with
  | plain plain =>
    intro hmem
    have hbreak := (plain.chars _ hmem).2
    revert hbreak
    decide
  | single indent _ hfeed => simp [singleText, not_mem_singleBody hfeed]
  | double t => exact (oneLine_doubleText t).1
  | emptySequence => decide
  | emptyMapping => decide

/-- A text in one line begins with something that is not skipped. -/
theorem Leaf.first {x : List Char} {ts : List Token} (leaf : Leaf x ts) : ∃ c t, x = c :: t ∧
    isSpace c = false ∧ isBreak c = false ∧ c ≠ '#' ∧ c ≠ byteOrderMark := by
  cases leaf with
  | plain plain =>
    obtain ⟨c, t, rfl, hspace, -, -, hmark, -⟩ := plain.first
    obtain ⟨hplain, hbreak⟩ := plain.chars c List.mem_cons_self
    refine ⟨c, t, rfl, hspace, isBreak_of_isLineBreak hbreak, ?_, ?_⟩
    · rintro rfl
      exact hmark (by decide)
    · rintro rfl
      cases hplain
  | single indent => exact ⟨'\'', _, rfl, rfl, rfl, by decide, by decide⟩
  | double t => exact ⟨'"', _, rfl, rfl, rfl, by decide, by decide⟩
  | emptySequence => exact ⟨'[', _, rfl, rfl, rfl, by decide, by decide⟩
  | emptyMapping => exact ⟨'\x7b', _, rfl, rfl, rfl, by decide, by decide⟩

/-- A tag gives its token, and goes to the gap after it. -/
theorem tag_taken {s s' : Scan} {w after : List Char} {line column : Nat} (hw : Unbroken w)
    (hafter : atGap after = true) (outer : s.outer = [])
    (hfresh : s.keyAllowed = true → s.candidate = none)
    (hcursor : s.cursor = ⟨'!' :: (w ++ after), line, column⟩)
    (h : s.dispatch '!' (w ++ after) = some s') :
    ∃ handle suffix, s'.outer = [] ∧ s'.indents = s.indents ∧
      s'.lexemes.toList = s.lexemes.toList ++ [{ token := .tag handle suffix }] ∧
      s'.cursor.rest = after ∧ s'.keyAllowed = false ∧ s'.cursor.line = line ∧
      column < s'.cursor.column ∧ s'.candidate = s.saved := by
  have hdispatch : s.dispatch '!' (w ++ after) = s.node (readTag s.inFlow) := by
    simp [dispatch, hcursor, not_limit_of_ne]
  rw [hdispatch, inFlow_eq outer] at h
  simp only [node, saveKey_eq hfresh, Option.bind_eq_bind, Option.bind_some] at h
  obtain ⟨m, hm, h⟩ := Option.bind_eq_some_iff.mp h
  rw [hcursor] at hm
  obtain ⟨⟨handle, suffix, htoken⟩, hrest, hline, hcolumn⟩ := readTag_written hw hafter hm
  refine ⟨handle, suffix, ?_, ?_, ?_, ?_, ?_, ?_, ?_, ?_⟩ <;> cases h
  · exact outer
  · rfl
  · simp [push, htoken]
  · exact hrest
  · rfl
  · exact hline
  · exact hcolumn
  · rfl

end FrontToc.Yaml.Token.Scan
