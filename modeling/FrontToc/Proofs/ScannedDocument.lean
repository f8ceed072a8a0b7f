import FrontToc.Proofs.BlockScalars
import FrontToc.Proofs.InlineTexts
import FrontToc.Proofs.ScannedKeys
import FrontToc.Proofs.StuckScans

/-!
# Written values in the scanner

The scanner goes through the text of a mapping entry by entry: after each value all that has been opened
is in order, so that the next entry is read as one of its own mapping. Only a literal that has lost the
line which told its indentation may end too early, and then nothing is read of the text as a whole.
-/
namespace FrontToc.Yaml.Token.Scan

open Text

/-- The tokens nest as the open collections do, and the outermost collection is at column 0. -/
structure Sound (ts : List Token) (is : List Nat) : Prop where
  nested : Nested 0 ts is.length
  sorted : is.Pairwise (· > ·)
  last : ∀ i, is.getLast? = some i → i = 0

theorem nested_ends (n k : Nat) : Nested (n + (k + 1)) (List.replicate n .blockEnd) (k + 1) := by
  induction n with
  | zero =>
    rw [Nat.zero_add]
    exact .nil _
  | succ n ih =>
    rw [List.replicate_succ, show n + 1 + (k + 1) = (n + k) + 2 by omega]
    exact .closes (by rwa [show n + k + 1 = n + (k + 1) by omega])

/-- Tokens that open and close the same collections, in any collection. -/
def Balanced (us : List Token) : Prop :=
  ∀ n, Nested (n + 1) us (n + 1)

theorem Balanced.append {us vs : List Token} (hus : Balanced us) (hvs : Balanced vs) :
    Balanced (us ++ vs) :=
  fun n => (hus n).append (hvs n)

theorem balanced_parts {us : List Token} (h : ∀ t ∈ us, t.isPart = true) : Balanced us := by
  intro n
  induction us with
  | nil => exact .nil _
  | cons t us ih => exact .part (h t List.mem_cons_self) (ih fun u hu => h u (List.mem_cons_of_mem _ hu))

theorem Sound.balanced {ts us : List Token} {is : List Nat} (h : Sound ts is) (hne : is ≠ [])
    (hus : Balanced us) : Sound (ts ++ us) is := by
  refine ⟨?_, h.sorted, h.last⟩
  cases is with
  | nil => exact absurd rfl hne
  | cons i is => exact h.nested.append (hus _)

theorem Sound.part {ts : List Token} {is : List Nat} {t : Token} (h : Sound ts is) (hne : is ≠ [])
    (ht : t.isPart = true) : Sound (ts ++ [t]) is :=
  h.balanced hne (balanced_parts (by simpa using ht))

theorem opened_ne_nil (column : Nat) (is : List Nat) : opened column is ≠ [] := by
  intro h
  have hhead := head_opened column is
  rw [h] at hhead
  cases hhead

/-- A line never closes the outermost collection. -/
theorem Sound.kept_ne_nil {ts : List Token} {is : List Nat} (h : Sound ts is) (hne : is ≠ [])
    (column : Nat) : kept column is ≠ [] := by
  obtain ⟨closed, his, -, hdeep, -⟩ := splitIndents_spec column is
  change is = closed ++ kept column is at his
  intro hkept
  rw [hkept, List.append_nil] at his
  subst his
  have hlast := hdeep _ (List.getLast_mem hne)
  rw [h.last _ (List.getLast?_eq_some_getLast hne)] at hlast
  exact Nat.not_lt_zero _ hlast

/-- A line of a collection closes those that are indented deeper, and may open one. -/
theorem Sound.enter {ts : List Token} {is : List Nat} (h : Sound ts is) {column : Nat} {start : Token}
    (hstart : start.opensBlock = true) (hroot : is = [] → column = 0 ∧ start = .blockMappingStart) :
    Sound (ts ++ closing column is ++ opening column start (kept column is))
      (opened column (kept column is)) := by
  obtain ⟨closed, his, hlength, hdeep, hhead⟩ := splitIndents_spec column is
  change is = closed ++ kept column is at his
  change closed.length = _ at hlength
  cases hkept : kept column is with
  | nil =>
    have hnil : is = [] := Decidable.byContradiction fun hne => h.kept_ne_nil hne column hkept
    obtain ⟨rfl, rfl⟩ := hroot hnil
    subst hnil
    refine ⟨?_, by simp [opened], by simp [opened]⟩
    have hroot : Nested 0 [.blockMappingStart] 1 := .root (.nil 1)
    simpa [closing, splitIndents, opening, opened] using h.nested.append hroot
  | cons i js =>
    have hsorted : (i :: js).Pairwise (· > ·) := by
      have hsorted := h.sorted
      rw [his, hkept] at hsorted
      exact (List.pairwise_append.mp hsorted).2.1
    have hlast : ∀ j, (i :: js).getLast? = some j → j = 0 := by
      intro j hj
      refine h.last j ?_
      rw [his, hkept, List.getLast?_append, hj]
      rfl
    have hclosed : Nested 0 (ts ++ closing column is) (js.length + 1) := by
      have hnested := h.nested
      rw [his, hkept, List.length_append, hlength, List.length_cons] at hnested
      exact hnested.append (nested_ends _ _)
    have hle : i ≤ column := hhead i (by change (kept column is).head? = _; rw [hkept]; rfl)
    by_cases hi : i = column
    · subst hi
      have hsame : (i :: js).head? = some i := rfl
      rw [opening, opened, if_pos hsame, if_pos hsame, List.append_nil]
      exact ⟨hclosed, hsorted, hlast⟩
    · rw [opening, opened, if_neg (by simpa using hi), if_neg (by simpa using hi)]
      refine ⟨hclosed.append (.opens hstart (.nil _)), ?_, ?_⟩
      · refine List.pairwise_cons.mpr ⟨fun j hj => ?_, hsorted⟩
        rcases List.mem_cons.mp hj with rfl | hj
        · omega
        · have := List.rel_of_pairwise_cons hsorted hj
          omega
      · intro j hj
        rw [List.getLast?_cons_cons] at hj
        exact hlast j hj

/-- A run that ends in `r` after a mark of the collection at a column, with all in order. -/
def AtMark (r : Scan) (column : Nat) (fresh : Bool) (text : List Char) : Prop :=
  ∃ ts is, Sound ts is ∧ is.head? = some column ∧ OnMark r ts is column fresh text

/-- A run that ends in `r` at the line after a value, with all in order. -/
def AfterValue (r : Scan) (column : Nat) (text : List Char) : Prop :=
  ∃ ts is, Sound ts is ∧ is ≠ [] ∧ Complete ts ∧ OnLine r ts is column text

section

variable {r : Scan} {column n : Nat} {fresh : Bool} {text : List Char}

theorem ne_nil_of_head {is : List Nat} (h : is.head? = some column) : is ≠ [] := by
  rintro rfl
  cases h

/-- A mark of a collection in a line of its own. -/
theorem Sound.mark {ts : List Token} {is : List Nat} (sound : Sound ts is) {c g : Char}
    {start mark : Token} (hmark : BlockMark c start mark) (hgap : isSpace g = true ∨ isBreak g = true)
    (hroot : is = [] → column = 0 ∧ start = .blockMappingStart)
    (h : OnLine r ts is column (c :: g :: text)) : AtMark r column true (g :: text) := by
  have hstart : start.opensBlock = true := by cases hmark <;> rfl
  have hpart : mark.isPart = true := by cases hmark <;> rfl
  exact ⟨_, _, (sound.enter hstart hroot).part (opened_ne_nil _ _) hpart, head_opened _ _,
    h.mark hmark hgap⟩

theorem AtMark.tag {g : Char} (hgap : isSpace g = true ∨ isBreak g = true) (t : Tag)
    (h : AtMark r column fresh (' ' :: t.written ++ g :: text)) : AtMark r column false (g :: text) := by
  obtain ⟨ts, is, sound, hhead, h⟩ := h
  obtain ⟨handle, suffix, h⟩ := h.tag hhead hgap t
  exact ⟨_, is, sound.part (ne_nil_of_head hhead) rfl, hhead, h⟩

theorem Leaf.balanced {x : List Char} {us : List Token} (leaf : Leaf x us) : Balanced us := by
  intro n
  cases leaf with
  | plain | single | double => exact .part rfl (.nil _)
  | emptySequence => exact .emptySequence (.nil _)
  | emptyMapping => exact .emptyMapping (.nil _)

theorem Leaf.complete {x : List Char} {us : List Token} (leaf : Leaf x us) : Complete us := by
  cases leaf <;> simp [Complete, Token.endsNode]

/-- A value in one line. -/
theorem AtMark.value {x : List Char} {us : List Token} (leaf : Leaf x us) (below : Below column n text)
    (h : AtMark r column fresh (' ' :: (x ++ '\n' :: (spaces n ++ text)))) : AfterValue r n text := by
  obtain ⟨ts, is, sound, hhead, h⟩ := h
  have hne := ne_nil_of_head hhead
  exact ⟨_, is, sound.balanced hne leaf.balanced, hne, leaf.complete.append leaf.ne_nil,
    h.value leaf hhead below⟩

/-- The indentations right of a column are none if the innermost collection is there. -/
theorem Sound.le_head {ts : List Token} {is : List Nat} (sound : Sound ts is)
    (hhead : is.head? = some column) : ∀ i ∈ is, i ≤ column := by
  cases is with
  | nil => cases hhead
  | cons j is =>
    cases hhead
    intro i hi
    rcases List.mem_cons.mp hi with rfl | hi
    · exact Nat.le_refl _
    · exact Nat.le_of_lt (List.rel_of_pairwise_cons sound.sorted hi)

/-- The tokens of open collections begin with the outermost. -/
theorem Sound.root {ts : List Token} {is : List Nat} (sound : Sound ts is) (hne : is ≠ []) :
    ∃ before, ts = .blockMappingStart :: before ∧ Nested 1 before is.length := by
  have hnested := sound.nested
  generalize hlevel : is.length = level at hnested
  cases hnested with
  | nil => exact absurd (List.length_eq_zero_iff.mp hlevel) hne
  | root hnested => exact ⟨_, rfl, hnested⟩

/-- A token right of all open collections after finished nodes. -/
theorem Sound.stuck {s : Scan} {ts : List Token} {is : List Nat} (sound : Sound ts is)
    (hhead : is.head? = some column) (stands : Stands s ts is) (complete : Complete ts)
    (hcandidate : s.candidate = none) {c : Char} {rest : List Char} {line here : Nat}
    (hskip : s.skipped = (⟨c :: rest, line, here⟩, true)) (hhere : column < here) (run : s.Ends r) :
    Stuck r := by
  have hne := ne_nil_of_head hhead
  obtain ⟨before, rfl, nested⟩ := sound.root hne
  refine stuck_of_token stands.outer hcandidate hskip (Nat.zero_lt_of_lt hhere) (fun i hi => ?_)
    stands.tokens nested (List.length_pos_iff.mpr hne) complete.tail run
  rw [stands.indents] at hi
  exact Nat.lt_of_le_of_lt (sound.le_head hhead i hi) hhere

/-- Lines before the text below a value lose blank lines on their own. -/
theorem Below.split {body rest : List Char} {atStart : Bool} (below : Below column n text)
    (thin : Thinned atStart (body ++ (spaces n ++ text)) rest) :
    ∃ body' rest', rest = body' ++ (spaces n ++ rest') ∧ Thinned atStart body body' ∧
      Thinned false text rest' := by
  rcases below with ⟨rfl, rfl⟩ | ⟨-, hbegins⟩
  · refine ⟨rest, [], by simp [spaces], ?_, .nil false⟩
    simpa [spaces] using thin
  · have hfeed : '\n' ∉ spaces n := by simp [spaces]
    obtain ⟨body', u, rfl, hbody, hu⟩ := thin.split (hbegins.solid.prepend hfeed)
    obtain ⟨rest', rfl, hrest⟩ := hu.inLine hfeed
    exact ⟨body', rest', rfl, hbody, hrest⟩

/-- The scanner after a literal. -/
theorem OnMark.literal {ts : List Token} {is : List Nat} {s : List Char} (hhead : is.head? = some column)
    (hs : Style.allowsLiteral s = true) (below : Below column n text)
    (h : OnMark r ts is column fresh
      (' ' :: (endLine (literalText (column + 2) s) ++ (spaces n ++ text)))) :
    ∃ (s' : Scan) (read rest : List Char) (line : Nat), Stands s' (ts ++ [.scalar false read]) is ∧
      s'.candidate = none ∧ Thinned false text rest ∧ s'.Ends r ∧
      (s'.skipped = (⟨rest, line, n⟩, true) ∨
        ∃ c more here, column < here ∧ s'.skipped = (⟨c :: more, line, here⟩, true)) := by
  simp only [Style.allowsLiteral, Style.isTidy, Bool.and_eq_true] at hs
  obtain ⟨more, hmore, hempty, hlast⟩ := endLine_literalText (column + 2) hs.1.1.1
  obtain ⟨hints, hhints, hchars⟩ := hints_literalHead s
  rw [hmore, hhints] at h
  simp only [List.cons_append, List.append_assoc] at h
  obtain ⟨s₁, s₂, rest, line, here, stands, hcursor, hcolumn, hallowed, hfresh, -, thin, hdispatch, run⟩ :=
    h.next hhead (by decide) (by decide) (by decide) (by decide)
  have hfeed : '\n' ∉ hints := fun hmem => absurd (hchars _ hmem) (by decide)
  obtain ⟨rest, rfl, hfirst⟩ := thin.inLine hfeed
  obtain ⟨rest, rfl, hbody⟩ := hfirst.cons
  rw [← List.append_assoc] at hbody
  obtain ⟨body, tail, rfl, hthinned, htail⟩ := below.split hbody
  have hblock : s₁.dispatch '|' (hints ++ '\n' :: (body ++ (spaces n ++ tail))) = s₁.block false := by
    simp [dispatch, hcursor, not_limit_of_ne, inFlow_eq stands.outer]
  rw [hblock] at hdispatch
  obtain ⟨s₃, hdrop, hdispatch⟩ := Option.bind_eq_some_iff.mp hdispatch
  obtain ⟨found, hfound, hdispatch⟩ := Option.bind_eq_some_iff.mp hdispatch
  cases dropKey_eq_some hdrop
  have hleast : s₁.leastIndent = column + 1 := leastIndent_of_head (by rw [stands.indents, hhead])
  change readBlock false s₁.leastIndent s₁.cursor = some found at hfound
  rw [hleast, hcursor, ← List.cons_append, ← hhints] at hfound
  obtain ⟨indent, lines, hindent, hlines, hrest, hplace⟩ := readBlock_literal hfound
  have hdeep := deep_of_thinned hs.1.1.1 hempty hlast hthinned
  rw [physicalLines_append _ fun l hl => by obtain ⟨b, hb, -⟩ := (hdeep l hl).ended; rw [hb]; rfl] at hlines
  have hbelow : tail = [] ∧ n = 0 ∨ n < indent ∧ ∃ c t, tail = c :: t ∧ isSpace c = false ∧
      isBreak c = false ∧ c ≠ '#' ∧ c ≠ byteOrderMark := by
    rcases below with ⟨rfl, rfl⟩ | ⟨hn, hbegins⟩
    · exact .inl ⟨htail.eq_nil, rfl⟩
    · obtain ⟨c, t, rfl, hc⟩ := hbegins.first
      obtain ⟨t', rfl, -⟩ := htail.cons
      exact .inr ⟨by omega, c, t', rfl, hc⟩
  obtain ⟨line', hskip⟩ := skipSpace_literal (Nat.succ_pos (column + 1)) hdeep hbelow hlines found.cursor.line
  refine ⟨s₂, found.text, tail, line', ⟨?_, ?_, ?_⟩, ?_, htail, run, ?_⟩ <;> cases hdispatch
  · exact stands.outer
  · rw [← stands.tokens]
    exact tokens_append_bare (by simp [push])
  · exact stands.indents
  · rfl
  · have hcursor : skipSpace false true false found.cursor.line found.cursor.column found.cursor.rest =
        skipSpace false true false found.cursor.line lines.column (PhysicalLine.join lines.after) := by
      rw [hrest, hplace]
    rw [skipped]
    simp only [push, inFlow, stands.outer, List.isEmpty_nil, Bool.not_true, hcursor]
    rcases hskip with hskip | ⟨c, more, here, hhere, hskip⟩
    · exact .inl hskip
    · exact .inr ⟨c, more, here, by omega, hskip⟩

/-- A literal, if the run is not stuck in it. -/
theorem AtMark.literal {s : List Char} (loose : ¬Stuck r) (hs : Style.allowsLiteral s = true)
    (below : Below column n text)
    (h : AtMark r column fresh (' ' :: (endLine (literalText (column + 2) s) ++ (spaces n ++ text)))) :
    AfterValue r n text := by
  obtain ⟨ts, is, sound, hhead, h⟩ := h
  have hne := ne_nil_of_head hhead
  obtain ⟨s', read, rest, line, stands, hcandidate, thin, run, hskip⟩ := h.literal hhead hs below
  have sound' := sound.part hne (t := .scalar false read) rfl
  have complete : Complete (ts ++ [.scalar false read]) :=
    Complete.append (by simp [Complete, Token.endsNode]) (by simp)
  rcases hskip with hskip | ⟨c, more, here, hhere, hskip⟩
  · exact ⟨_, is, sound', hne, complete, s', rest, line, stands, thin, hskip, by simp [hcandidate], run⟩
  · exact absurd (sound'.stuck hhead stands complete hcandidate hskip hhere run) loose

theorem OnKey.inline {ts pre : List Token} {is : List Nat} {c g : Char} {x after : List Char}
    (inline : Inline x) (hdeep : ∀ i, is.head? = some i → i ≤ column)
    (hgap : isSpace g = true ∨ isBreak g = true) (htext : x ++ ':' :: g :: text = c :: after)
    (hpre : ∀ t ∈ pre, t.isPart = true) (h : OnKey r ts is column pre c after) :
    ∃ key, OnMark r (ts ++ opening column .blockMappingStart is ++ .key :: (key ++ [.value]))
      (opened column is) column false (g :: text) ∧ Balanced key := by
  induction inline generalizing pre c after with
  | leaf leaf => exact ⟨pre ++ _, h.value hdeep leaf hgap htext, (balanced_parts hpre).append leaf.balanced⟩
  | tagged t inline ih =>
    obtain ⟨w, hw, hbroken⟩ := unbroken_written t
    obtain ⟨d, y, rfl, hspace, hbreak, hhash, hmark⟩ := inline.first
    rw [hw] at htext
    simp only [List.cons_append, List.append_assoc] at htext
    obtain ⟨rfl, rfl⟩ := List.cons.inj htext
    obtain ⟨handle, suffix, h⟩ := h.tag hdeep hbroken hspace hbreak hhash hmark
    refine ih rfl (fun u hu => ?_) h
    rcases List.mem_append.mp hu with hu | hu
    · exact hpre u hu
    · rw [List.mem_singleton.mp hu]
      rfl

/-- A key of a mapping and the colon after it. -/
theorem Sound.key {ts : List Token} {is : List Nat} (sound : Sound ts is) {g : Char} {x : List Char}
    (inline : Inline x) (hgap : isSpace g = true ∨ isBreak g = true) (hroot : is = [] → column = 0)
    (h : OnLine r ts is column (x ++ ':' :: g :: text)) : AtMark r column false (g :: text) := by
  obtain ⟨c, t, rfl, -, hbreak, -⟩ := inline.first
  have hc : c ≠ '\n' := by rintro rfl; cases hbreak
  obtain ⟨-, -, -, -, hkept⟩ := splitIndents_spec column is
  obtain ⟨key, hmark, hkey⟩ := (h.key hc).inline inline hkept hgap rfl (by simp)
  have hentered : Sound (ts ++ closing column is ++ opening column .blockMappingStart (kept column is))
      (opened column (kept column is)) := sound.enter rfl fun h => ⟨hroot h, rfl⟩
  refine ⟨_, _, hentered.balanced (opened_ne_nil _ _) ?_, head_opened _ _, hmark⟩
  exact fun n => .part rfl ((hkey n).append (.part rfl (.nil _)))

/-- A collection that begins after its mark, in the same line or the next. -/
theorem AtMark.open {compact : Bool} {indent : Nat} (hindent : compact = true → indent = column + 2)
    (hfresh : compact = true → fresh = true) (hbegins : Begins text)
    (h : AtMark r column fresh (memberLead compact indent ++ text)) :
    ∃ ts is, Sound ts is ∧ is ≠ [] ∧ OnLine r ts is indent text := by
  obtain ⟨ts, is, sound, hhead, h⟩ := h
  refine ⟨ts, is, sound, ne_nil_of_head hhead, ?_⟩
  cases compact with
  | true =>
    cases hfresh rfl
    rw [hindent rfl]
    exact h.compact hbegins
  | false => exact h.newLine hbegins

/-- A scalar after its mark. -/
theorem AtMark.scalar {v : Value} (loose : ¬Stuck r) (hscalar : v.isScalar = true)
    (below : Below column n text)
    (h : AtMark r column fresh
      (' ' :: (endLine (scalarText (column + 2) v) ++ (spaces n ++ text)))) : AfterValue r n text := by
  by_cases hv : ∀ s, v = .str s → Style.ofString s ≠ .literal
  · obtain ⟨us, leaf⟩ := leaf_scalarText (column + 2) hscalar hv
    rw [endLine, last_scalarText hv] at h
    simp only [Bool.false_eq_true, if_false, List.append_assoc, List.singleton_append] at h
    exact h.value leaf below
  · simp only [not_forall, not_not] at hv
    obtain ⟨s, rfl, hstyle⟩ := hv
    have htext : scalarText (column + 2) (.str s) = literalText (column + 2) s := by
      rw [scalarText, stringText, hstyle]
    rw [htext] at h
    exact h.literal loose (allowsLiteral_of_literal hstyle) below

theorem Begins.of_mark {c : Char} (hspace : isSpace c = false) (hbreak : isBreak c = false) (hhash : c ≠ '#')
    (hmark : c ≠ byteOrderMark) (hblank : isBlank c = false) (text : List Char) : Begins (c :: text) :=
  ⟨⟨c, text, rfl, hspace, hbreak, hhash, hmark⟩, ⟨[], c, text, rfl, by simp, hblank⟩⟩

theorem begins_entryText (indent : Nat) (key value : Value) (rest : List Char) :
    Begins (entryText indent key value ++ rest) := by
  unfold entryText
  cases hkey : simpleKey? key with
  | some s =>
    obtain ⟨c, t, rfl, hfirst⟩ := (inline_of_simpleKey hkey).first
    have hfeed := (oneLine_of_simpleKey hkey).1
    refine ⟨⟨c, _, rfl, hfirst⟩, ⟨c :: t, ':', nodeText indent true false value ++ rest, ?_, hfeed, ?_⟩⟩
    · simp
    · decide
  | none => exact .of_mark (by decide) (by decide) (by decide) (by decide) (by decide) _

theorem Below.weaken {deeper : Nat} (h : Below column n text) (hle : column ≤ deeper) :
    Below deeper n text :=
  h.imp_right fun ⟨hn, hbegins⟩ => ⟨Nat.le_trans hn hle, hbegins⟩

/-- A value begins with a gap after its mark. -/
theorem nodeText_gap (indent : Nat) (inMapping compact : Bool) (v : Value) :
    ∃ g t, nodeText indent inMapping compact v = g :: t ∧ (isSpace g = true ∨ isBreak g = true) := by
  have hlead : ∀ (compact : Bool) (indent : Nat) (s : List Char), ∃ g t,
      memberLead compact indent ++ s = g :: t ∧ (isSpace g = true ∨ isBreak g = true) := by
    intro compact indent s
    cases compact
    · exact ⟨'\n', _, rfl, .inr rfl⟩
    · exact ⟨' ', _, rfl, .inl rfl⟩
  match v with
  | .tagged t v => exact ⟨' ', _, by rw [nodeText]; rfl, .inl rfl⟩
  | .seq [] => exact ⟨' ', _, by rw [nodeText], .inl rfl⟩
  | .seq (item :: items) =>
    rw [nodeText, List.append_assoc]
    exact hlead _ _ _
  | .map [] => exact ⟨' ', _, by rw [nodeText], .inl rfl⟩
  | .map ((k, x) :: entries) =>
    rw [nodeText, entriesText_cons, List.append_assoc]
    · exact hlead _ _ _
    · simp
  | .null | .bool _ | .int _ | .float _ | .str _ =>
    rw [nodeText] <;> first | exact ⟨' ', _, rfl, .inl rfl⟩ | simp

/-- A value after the mark of its collection. -/
theorem Sound.markNode {ts : List Token} {is : List Nat} (sound : Sound ts is) {c : Char}
    {start mark : Token} (hmark : BlockMark c start mark)
    (hroot : is = [] → column = 0 ∧ start = .blockMappingStart) {inMapping compact : Bool} {v : Value}
    (h : OnLine r ts is column (c :: (nodeText column inMapping compact v ++ text))) :
    AtMark r column true (nodeText column inMapping compact v ++ text) := by
  obtain ⟨g, t, hg, hgap⟩ := nodeText_gap column inMapping compact v
  rw [hg] at h ⊢
  exact sound.mark hmark hgap hroot h

/-- A value after a key of its mapping. -/
theorem Sound.keyNode {ts : List Token} {is : List Nat} (sound : Sound ts is) {x : List Char}
    (inline : Inline x) (hroot : is = [] → column = 0) {inMapping compact : Bool} {v : Value}
    (h : OnLine r ts is column (x ++ ':' :: (nodeText column inMapping compact v ++ text))) :
    AtMark r column false (nodeText column inMapping compact v ++ text) := by
  obtain ⟨g, t, hg, hgap⟩ := nodeText_gap column inMapping compact v
  rw [hg] at h ⊢
  exact sound.key inline hgap hroot h

mutual

/-- The scanner goes through a value. -/
theorem AtMark.node (loose : ¬Stuck r) (inMapping : Bool) {compact : Bool} (v : Value) {column n : Nat}
    {fresh : Bool} {text : List Char} (below : Below column n text) (hfresh : compact = true → fresh = true)
    (h : AtMark r column fresh (nodeText column inMapping compact v ++ (spaces n ++ text))) :
    AfterValue r n text := by
  match v with
  | .tagged t v =>
    obtain ⟨g, u, hg, hgap⟩ := nodeText_gap column inMapping false v
    rw [nodeText, hg] at h
    simp only [List.append_assoc, List.cons_append] at h
    have htag := h.tag hgap t
    rw [← List.cons_append, ← hg] at htag
    exact htag.node loose inMapping v below (by simp)
  | .seq [] => exact h.value .emptySequence below
  | .seq (item :: items) =>
    rw [nodeText] at h
    simp only [List.append_assoc, List.cons_append] at h
    have hlead := h.open (fun hcompact => by simp [hcompact]) hfresh
      (.of_mark (by decide) (by decide) (by decide) (by decide) (by decide) _)
    obtain ⟨ts, is, sound, hne, h⟩ := hlead
    refine AfterValue.items loose item items (below.weaken ?_) sound hne h
    split <;> omega
  | .map [] => exact h.value .emptyMapping below
  | .map ((k, x) :: entries) =>
    rw [nodeText, entriesText_cons] at h
    · simp only [List.append_assoc] at h
      obtain ⟨ts, is, sound, hne, h⟩ := h.open (fun _ => rfl) hfresh (begins_entryText _ k x _)
      exact AfterValue.entries loose k x entries (below.weaken (by omega)) sound
        (fun hnil => absurd hnil hne) h
    · simp
  | .null => exact h.scalar loose (v := .null) rfl below
  | .bool b => exact h.scalar loose (v := .bool b) rfl below
  | .int i => exact h.scalar loose (v := .int i) rfl below
  | .float y => exact h.scalar loose (v := .float y) rfl below
  | .str s => exact h.scalar loose (v := .str s) rfl below
termination_by sizeOf v

/-- The scanner goes through items. -/
theorem AfterValue.items (loose : ¬Stuck r) (item : Value) (items : List Value) {ts : List Token}
    {is : List Nat} {indent n : Nat} {text : List Char} (below : Below indent n text)
    (sound : Sound ts is) (hne : is ≠ [])
    (h : OnLine r ts is indent
      ('-' :: (nodeText indent false true item ++ (itemsText indent items ++ (spaces n ++ text))))) :
    AfterValue r n text := by
  have hmark := sound.markNode .item (fun hnil => absurd hnil hne) h
  match items with
  | [] => exact hmark.node loose false item below fun _ => rfl
  | next :: items =>
    rw [itemsText] at hmark
    simp only [List.append_assoc, List.cons_append] at hmark
    have hnext := hmark.node loose false item
      (.inr ⟨Nat.le_refl _, .of_mark (by decide) (by decide) (by decide) (by decide) (by decide) _⟩)
      fun _ => rfl
    obtain ⟨ts, is, sound, hne, -, h⟩ := hnext
    exact AfterValue.items loose next items below sound hne h
termination_by 1 + sizeOf item + sizeOf items

/-- The scanner goes through entries. -/
theorem AfterValue.entries (loose : ¬Stuck r) (key value : Value) (entries : List (Value × Value))
    {ts : List Token} {is : List Nat} {indent n : Nat} {text : List Char} (below : Below indent n text)
    (sound : Sound ts is) (hroot : is = [] → indent = 0)
    (h : OnLine r ts is indent
      (entryText indent key value ++ (entriesText indent (spaces indent) entries ++ (spaces n ++ text)))) :
    AfterValue r n text := by
  have hvalue : ∃ fresh compact, (compact = true → fresh = true) ∧ AtMark r indent fresh
      (nodeText indent true compact value ++
        (entriesText indent (spaces indent) entries ++ (spaces n ++ text))) := by
    unfold entryText at h
    cases hkey : simpleKey? key with
    | some s =>
      rw [hkey] at h
      simp only [List.append_assoc, List.cons_append] at h
      exact ⟨false, false, by simp, sound.keyNode (inline_of_simpleKey hkey) hroot h⟩
    | none =>
      rw [hkey] at h
      simp only [List.append_assoc, List.cons_append] at h
      have hmark := sound.markNode .key (fun hnil => ⟨hroot hnil, rfl⟩) h
      have hnext := hmark.node loose true key
        (.inr ⟨Nat.le_refl _, .of_mark (by decide) (by decide) (by decide) (by decide) (by decide) _⟩)
        fun _ => rfl
      obtain ⟨ts, is, sound, hne, -, h⟩ := hnext
      exact ⟨true, true, fun _ => rfl, sound.markNode .value (fun hnil => absurd hnil hne) h⟩
  obtain ⟨fresh, compact, hfresh, hvalue⟩ := hvalue
  match entries with
  | [] => exact hvalue.node loose true value below hfresh
  | (k, x) :: entries =>
    rw [entriesText_cons] at hvalue
    simp only [List.append_assoc] at hvalue
    have hnext := hvalue.node loose true value (.inr ⟨Nat.le_refl _, begins_entryText _ k x _⟩) hfresh
    obtain ⟨ts, is, sound, hne, -, h⟩ := hnext
    exact AfterValue.entries loose k x entries below sound (fun hnil => absurd hnil hne) h
termination_by 1 + sizeOf key + sizeOf value + sizeOf entries

end

end

end FrontToc.Yaml.Token.Scan
