import FrontToc.Proofs.LineFilter
import FrontToc.Proofs.WrittenScalars

/-!
# Where blank lines of strings are kept

Only literals have blank lines in written YAML. If each string with one has its head right after a colon
or a hyphen, and no other breaks than line feeds, then the filter leaves the whole text as it is.
-/
namespace FrontToc.Yaml

open Text

mutual

/-- Whether every string with blank lines that is written as a literal has its head after a colon or a
hyphen, and no literal has line separators. `headed` says that the value itself stands so: a value after
a tag does not, and neither does a key after a question mark. -/
def Value.keepsBlankLines (headed : Bool) : Value → Bool
  | .str s =>
    Style.ofString s ≠ .literal ||
      ((s.all fun c => c = '\n' || !Style.isLineBreak c) &&
        (headed || (splitLines s).all fun l => !isBlankText l))
  | .tagged _ v => v.keepsBlankLines false
  | .seq items => itemsKeepBlankLines items
  | .map entries => entriesKeepBlankLines entries
  | _ => true

def itemsKeepBlankLines : List Value → Bool
  | [] => true
  | v :: rest => v.keepsBlankLines true && itemsKeepBlankLines rest

def entriesKeepBlankLines : List (Value × Value) → Bool
  | [] => true
  | (k, v) :: rest =>
    k.keepsBlankLines false && v.keepsBlankLines true && entriesKeepBlankLines rest

end

/-- A line that has begun with text and is not indented deeper than `indent`. -/
structure Begun (indent : Nat) (line : List Char) : Prop where
  visible : ∃ c ∈ line, isBlank c = false
  shallow : indentation line ≤ indent

theorem Begun.append {indent : Nat} {line : List Char} (h : Begun indent line) (t : List Char) :
    Begun indent (line ++ t) := by
  obtain ⟨⟨c, hc, hblank⟩, hle⟩ := h
  refine ⟨⟨c, List.mem_append_left t hc, hblank⟩, ?_⟩
  rwa [indentation_append ⟨c, hc, by rintro rfl; cases hblank⟩]

/-- A mark after spaces or after text begins a line. -/
theorem begun_mark {indent : Nat} {line : List Char} (h : indentation line ≤ indent) (mark : Char)
    (hmark : isBlank mark = false) : Begun indent (line ++ [mark]) := by
  refine ⟨⟨mark, by simp, hmark⟩, ?_⟩
  rwa [indentation_append_cons _ (by rintro rfl; cases hmark)]

theorem indentation_spaces (n : Nat) : indentation (spaces n) = n := by
  simp [indentation, spaces]

/-- A line with text in it passes the filter. -/
theorem Begun.after_line {indent : Nat} {line : List Char} (h : Begun indent line)
    (parent : Option Nat) {t : List Char} (ht : '\n' ∉ t) :
    ∃ after, Sieve.after? ⟨parent, line⟩ (t ++ ['\n']) = some ⟨after, []⟩ := by
  obtain ⟨after, hafter⟩ := afterLine_of_nonblank parent (h.append (t ++ ['\n'])).visible
  exact ⟨after, Sieve.after_line ⟨parent, line⟩ ht (by simpa using hafter)⟩

theorem endLine_append (s : List Char) {t : List Char} (ht : t ≠ []) :
    endLine (s ++ t) = s ++ endLine t := by
  have hlast : (s ++ t).getLast? = t.getLast? := by
    rw [List.getLast?_append, List.getLast?_eq_some_getLast ht]
    rfl
  rw [endLine, endLine, hlast]
  split
  · rfl
  · rw [List.append_assoc]

theorem endLine_of_last {s : List Char} (h : s.getLast?.any Style.isLineBreak = false) :
    endLine s = s ++ ['\n'] := by
  rw [endLine, h]
  rfl

/-- A line of a literal without its break; an empty one is not indented. -/
def indentedLine (indent : Nat) (p : List Char) : List Char :=
  if p = [] then [] else spaces indent ++ p

theorem literalBody_inside (indent : Nat) {p : List Char}
    (hp : ∀ c ∈ p, Style.isLineBreak c = false) (rest : List Char) :
    literalBody indent false (p ++ rest) = p ++ literalBody indent false rest := by
  induction p with
  | nil => rfl
  | cons c p ih =>
    have hc : Style.isLineBreak c = false := hp c List.mem_cons_self
    simp [literalBody, hc, ih fun d hd => hp d (List.mem_cons_of_mem c hd)]

theorem literalBody_line (indent : Nat) {p : List Char}
    (hp : ∀ c ∈ p, Style.isLineBreak c = false) (rest : List Char) :
    literalBody indent true (p ++ '\n' :: rest) =
      indentedLine indent p ++ '\n' :: literalBody indent true rest := by
  have hfeed : ∀ b, literalBody indent b ('\n' :: rest) = '\n' :: literalBody indent true rest := by
    intro b
    rw [literalBody, if_pos (by decide)]
  cases p with
  | nil => exact hfeed true
  | cons c p =>
    have hc : Style.isLineBreak c = false := hp c List.mem_cons_self
    have hinside := literalBody_inside indent (fun d hd => hp d (List.mem_cons_of_mem c hd))
      ('\n' :: rest)
    rw [hfeed] at hinside
    simp [literalBody, hc, hinside, indentedLine]

theorem literalBody_last (indent : Nat) {p : List Char}
    (hp : ∀ c ∈ p, Style.isLineBreak c = false) :
    literalBody indent true p = indentedLine indent p := by
  cases p with
  | nil => rfl
  | cons c p =>
    have hc : Style.isLineBreak c = false := hp c List.mem_cons_self
    have hinside := literalBody_inside indent (fun d hd => hp d (List.mem_cons_of_mem c hd)) []
    rw [List.append_nil] at hinside
    simp [literalBody, hc, hinside, indentedLine]

theorem literalBody_ne_nil (indent : Nat) (atStart : Bool) {s : List Char} (h : s ≠ []) :
    literalBody indent atStart s ≠ [] := by
  cases s with
  | nil => exact absurd rfl h
  | cons c s =>
    rw [literalBody]
    split <;> simp

/-- Every line of a literal stays if the filter is in its block, or if none is blank. -/
theorem afterLine_literal {indent : Nat} {parent : Option Nat} {p : List Char}
    (hp : ∀ c ∈ p, Style.isLineBreak c = false)
    (h : (∃ q, parent = some q ∧ q < indent) ∨ isBlankText p = false) :
    ∃ after, afterLine parent (indentedLine indent p ++ ['\n']) = some after ∧
      ((∃ q, parent = some q ∧ q < indent) → after = parent) := by
  by_cases hin : ∃ q, parent = some q ∧ q < indent
  · obtain ⟨q, rfl, hq⟩ := hin
    refine ⟨some q, afterLine_inside ?_ ?_, fun _ => rfl⟩
    · intro c hc
      have hbreak : Style.isLineBreak c = false := by
        unfold indentedLine at hc
        split at hc
        · cases hc
        · rcases List.mem_append.mp hc with hc | hc
          · rw [List.eq_of_mem_replicate hc]
            decide
          · exact hp c hc
      constructor <;> rintro rfl <;> cases hbreak
    · unfold indentedLine
      split
      · exact .inl rfl
      · refine .inr (Nat.lt_of_lt_of_le hq ?_)
        simp [indentation, spaces]
  · have hblank := h.resolve_left hin
    obtain ⟨c, hc, hvisible⟩ := List.all_eq_false.mp hblank
    have hmem : c ∈ indentedLine indent p ++ ['\n'] := by
      rw [indentedLine, if_neg (List.ne_nil_of_mem hc)]
      simp [hc]
    obtain ⟨after, hafter⟩ := afterLine_of_nonblank parent ⟨c, hmem, by simpa using hvisible⟩
    exact ⟨after, hafter, fun hq => absurd hq hin⟩

/-- The lines of a literal pass the filter, the last with the line feed that is added to it. -/
theorem passes_literalBody {indent : Nat} {ls : List (List Char)} (hls : AreLines ls) (hne : ls ≠ [])
    (hbreaks : ∀ l ∈ ls, ∀ c ∈ l, c = '\n' ∨ Style.isLineBreak c = false) {parent : Option Nat}
    (h : (∃ q, parent = some q ∧ q < indent) ∨ ∀ l ∈ ls, isBlankText l = false) :
    ∃ after, Sieve.after? ⟨parent, []⟩ (endLine (literalBody indent true ls.flatten)) =
      some ⟨after, []⟩ := by
  have hclean : ∀ {p l : List Char}, l ∈ ls → (∀ c ∈ p, c ∈ l) → '\n' ∉ p →
      ∀ c ∈ p, Style.isLineBreak c = false := by
    intro p l hl hsub hp c hc
    exact (hbreaks l hl c (hsub c hc)).resolve_left fun he => hp (he ▸ hc)
  have hfeed : ∀ {p : List Char}, '\n' ∉ p → '\n' ∉ indentedLine indent p := by
    intro p hp
    unfold indentedLine
    split <;> simp [spaces, hp]
  induction hls generalizing parent with
  | nil => exact absurd rfl hne
  | last l hnil hl =>
    have hbreak := hclean List.mem_cons_self (fun c hc => hc) hl
    obtain ⟨after, hafter, -⟩ := afterLine_literal hbreak
      (h.imp_right fun hblank => hblank l List.mem_cons_self)
    have hlast : (indentedLine indent l).getLast?.any Style.isLineBreak = false := by
      rw [indentedLine, if_neg hnil, List.getLast?_append, List.getLast?_eq_some_getLast hnil]
      exact hbreak _ (List.getLast_mem hnil)
    rw [List.flatten_singleton, literalBody_last indent hbreak, endLine_of_last hlast]
    exact ⟨after, Sieve.after_line ⟨parent, []⟩ (hfeed hl) hafter⟩
  | cons p ls hp hls ih =>
    have hbreak := hclean List.mem_cons_self (fun c hc => List.mem_append_left _ hc) hp
    obtain ⟨after, hafter, hstays⟩ := afterLine_literal hbreak
      (h.imp_right fun hblank => by
        have hline := hblank _ List.mem_cons_self
        rw [isBlankText, List.all_append] at hline
        simpa [isBlankText, isBlank] using hline)
    have hpass := Sieve.after_line ⟨parent, []⟩ (hfeed hp) hafter
    rw [List.flatten_cons, List.append_assoc, List.singleton_append, literalBody_line indent hbreak]
    by_cases hmore : ls = []
    · subst hmore
      refine ⟨after, ?_⟩
      rw [← hpass, endLine]
      simp [literalBody, Style.isLineBreak, isBreak]
    · have hbody := literalBody_ne_nil indent true (hls.flatten_ne_nil hmore)
      have hrest : (∃ q, after = some q ∧ q < indent) ∨ ∀ l ∈ ls, isBlankText l = false :=
        h.elim (fun hq => .inl (hstays hq ▸ hq))
          fun hblank => .inr fun l hl => hblank l (List.mem_cons_of_mem _ hl)
      obtain ⟨last, hlast⟩ := ih hmore (fun l hl => hbreaks l (List.mem_cons_of_mem _ hl)) hrest
        (fun hl => hclean (List.mem_cons_of_mem _ hl))
      refine ⟨last, ?_⟩
      rw [← List.singleton_append, ← List.append_assoc, endLine_append _ hbody,
        Sieve.after_append hpass, hlast]

/-- What stands between a mark and the first member of a collection. -/
theorem passes_memberLead {indent : Nat} {line : List Char} (h : Begun indent line)
    (parent : Option Nat) (compact : Bool) {inner : Nat} (hinner : indent ≤ inner) :
    ∃ after line', Sieve.after? ⟨parent, line⟩ (memberLead compact inner) = some ⟨after, line'⟩ ∧
      indentation line' ≤ inner := by
  unfold memberLead
  cases compact with
  | true =>
    exact ⟨parent, line ++ [' '], Sieve.after_of_not_mem _ (by simp),
      Nat.le_trans (h.append [' ']).shallow hinner⟩
  | false =>
    obtain ⟨after, hafter⟩ := h.after_line parent (t := []) (by simp)
    refine ⟨after, spaces inner, ?_, Nat.le_of_eq (indentation_spaces inner)⟩
    have hspaces : '\n' ∉ spaces inner := by simp [spaces]
    exact (Sieve.after_append hafter _).trans (Sieve.after_of_not_mem _ hspaces)

theorem allowsLiteral_ne_nil {s : List Char} (h : Style.ofString s = .literal) : s ≠ [] := by
  rintro rfl
  exact absurd h (by decide)

/-- A literal passes after its head, in the block that the head opens or without blank lines. -/
theorem passes_literal {indent : Nat} {line : List Char} (h : Begun indent line)
    (parent : Option Nat) {s : List Char} (hs : s ≠ [])
    (hbreaks : (s.all fun c => c = '\n' || !Style.isLineBreak c) = true)
    (hkept : (∃ before mark, line = before ++ [mark] ∧ (mark = ':' ∨ mark = '-')) ∨
      ((splitLines s).all fun l => !isBlankText l) = true) :
    ∃ after, Sieve.after? ⟨parent, line⟩ (' ' :: endLine (literalText (indent + 2) s)) =
      some ⟨after, []⟩ := by
  have hbreak : ∀ l ∈ splitLines s, ∀ c ∈ l, c = '\n' ∨ Style.isLineBreak c = false := by
    intro l hl c hc
    have hmem : c ∈ s := flatten_splitLines s ▸ List.mem_flatten.mpr ⟨l, hl, hc⟩
    simpa using List.all_eq_true.mp hbreaks c hmem
  have hfeed : '\n' ∉ ' ' :: literalHead s := by simpa using not_mem_literalHead s
  have htext : ' ' :: endLine (literalText (indent + 2) s) =
      (' ' :: literalHead s) ++ ['\n'] ++ endLine (literalBody (indent + 2) true s) := by
    rw [literalText, ← List.singleton_append (x := '\n'), ← List.append_assoc,
      endLine_append _ (literalBody_ne_nil _ _ hs)]
    simp
  have hne : splitLines s ≠ [] := by
    intro hnil
    exact hs (by rw [← flatten_splitLines s, hnil]; rfl)
  rw [htext]
  rcases hkept with ⟨before, mark, rfl, hmark⟩ | hblank
  · obtain ⟨hints, hhead, hhints⟩ := hints_literalHead s
    obtain ⟨p, hp, hafter⟩ := afterLine_head parent before hmark (.inl rfl) hhints
    have hpass : Sieve.after? ⟨parent, before ++ [mark]⟩ ((' ' :: literalHead s) ++ ['\n']) =
        some ⟨some p, []⟩ :=
      Sieve.after_line _ hfeed (by rw [hhead]; simpa using hafter)
    have hp' : p < indent + 2 := by
      have := h.shallow
      omega
    rw [Sieve.after_append hpass, ← flatten_splitLines s]
    exact passes_literalBody (areLines_splitLines s) hne hbreak (.inl ⟨p, rfl, hp'⟩)
  · obtain ⟨after, hpass⟩ := h.after_line parent hfeed
    rw [Sieve.after_append hpass, ← flatten_splitLines s]
    refine passes_literalBody (areLines_splitLines s) hne hbreak (.inr fun l hl => ?_)
    simpa using List.all_eq_true.mp hblank l hl

/-- A scalar passes; a literal does if its blank lines are kept. -/
theorem passes_scalar {indent : Nat} {line : List Char} (h : Begun indent line)
    (parent : Option Nat) {headed : Bool} {v : Value} (hv : v.keepsBlankLines headed = true)
    (hhead : headed = true → ∃ before mark, line = before ++ [mark] ∧ (mark = ':' ∨ mark = '-')) :
    ∃ after, Sieve.after? ⟨parent, line⟩ (' ' :: endLine (scalarText (indent + 2) v)) =
      some ⟨after, []⟩ := by
  by_cases hstyle : ∀ s, v = .str s → Style.ofString s ≠ .literal
  · have hfeed : '\n' ∉ ' ' :: scalarText (indent + 2) v := by
      simpa using not_mem_scalarText hstyle (indent + 2)
    rw [endLine_of_last (last_scalarText hstyle _)]
    exact h.after_line parent hfeed
  · obtain ⟨s, rfl, hliteral⟩ : ∃ s, v = .str s ∧ Style.ofString s = .literal := by
      simpa using hstyle
    rw [Value.keepsBlankLines, hliteral] at hv
    simp only [ne_eq, not_true_eq_false, decide_false, Bool.false_or, Bool.and_eq_true,
      Bool.or_eq_true] at hv
    rw [scalarText, stringText, hliteral]
    exact passes_literal h parent (allowsLiteral_ne_nil hliteral) hv.1 (hv.2.imp_left hhead)

mutual

/-- A node passes the filter from inside of any line, and ends its last line. `headed` says that the
line ends in a colon or a hyphen before it. -/
theorem passes_nodeText (indent : Nat) (inMapping compact headed : Bool) (v : Value)
    (hv : v.keepsBlankLines headed = true) {line : List Char} (hline : Begun indent line)
    (hhead : headed = true → ∃ before mark, line = before ++ [mark] ∧ (mark = ':' ∨ mark = '-'))
    (parent : Option Nat) :
    ∃ after, Sieve.after? ⟨parent, line⟩ (nodeText indent inMapping compact v) =
      some ⟨after, []⟩ := by
  match v with
  | .tagged t v =>
    have htag : '\n' ∉ ' ' :: t.written := by simpa using (oneLine_tag t).1
    rw [nodeText, Sieve.after_append (Sieve.after_of_not_mem _ htag)]
    exact passes_nodeText indent inMapping false false v (by simpa [Value.keepsBlankLines] using hv)
      (hline.append _) (by simp) parent
  | .seq [] =>
    rw [nodeText]
    exact hline.after_line parent (t := [' ', '[', ']']) (by decide)
  | .seq (item :: items) =>
    rw [Value.keepsBlankLines, itemsKeepBlankLines, Bool.and_eq_true] at hv
    obtain ⟨inner, hinner, hdef⟩ : ∃ inner, indent ≤ inner ∧
        inner = if inMapping && !compact then indent else indent + 2 :=
      ⟨_, by split <;> omega, rfl⟩
    obtain ⟨first, line', hlead, hline'⟩ := passes_memberLead hline parent compact hinner
    obtain ⟨second, hitem⟩ := passes_nodeText inner false true true item hv.1
      (begun_mark hline' '-' (by decide)) (fun _ => ⟨_, _, rfl, .inr rfl⟩) first
    obtain ⟨after, hitems⟩ := passes_itemsText inner items hv.2 second
    have hmark : Sieve.after? ⟨first, line'⟩ ['-'] = some ⟨first, line' ++ ['-']⟩ :=
      Sieve.after_of_not_mem _ (by decide)
    refine ⟨after, ?_⟩
    rw [nodeText, ← hdef, List.append_assoc, Sieve.after_append hlead, ← List.singleton_append,
      List.append_assoc, Sieve.after_append hmark, Sieve.after_append hitem, hitems]
  | .map [] =>
    rw [nodeText]
    exact hline.after_line parent (t := [' ', '\x7b', '\x7d']) (by decide)
  | .map (entry :: entries) =>
    obtain ⟨first, line', hlead, hline'⟩ := passes_memberLead hline parent compact
      (Nat.le_add_right indent 2)
    rw [nodeText]
    · exact passes_entriesText (indent + 2) _ (entry :: entries)
        (by rwa [Value.keepsBlankLines] at hv) hlead hline' (by simp)
    · simp
  | .null => exact passes_scalar hline parent hv hhead
  | .bool b => exact passes_scalar hline parent hv hhead
  | .int n => exact passes_scalar hline parent hv hhead
  | .float x => exact passes_scalar hline parent hv hhead
  | .str s => exact passes_scalar hline parent hv hhead

theorem passes_itemsText (indent : Nat) (items : List Value)
    (hv : itemsKeepBlankLines items = true) (parent : Option Nat) :
    ∃ after, Sieve.after? ⟨parent, []⟩ (itemsText indent items) = some ⟨after, []⟩ := by
  match items with
  | [] => exact ⟨parent, rfl⟩
  | item :: items =>
    rw [itemsKeepBlankLines, Bool.and_eq_true] at hv
    have hmark : Sieve.after? ⟨parent, []⟩ (spaces indent ++ ['-']) =
        some ⟨parent, spaces indent ++ ['-']⟩ := Sieve.after_of_not_mem _ (by simp [spaces])
    obtain ⟨first, hitem⟩ := passes_nodeText indent false true true item hv.1
      (begun_mark (Nat.le_of_eq (indentation_spaces indent)) '-' (by decide))
      (fun _ => ⟨_, _, rfl, .inr rfl⟩) parent
    obtain ⟨after, hitems⟩ := passes_itemsText indent items hv.2 first
    refine ⟨after, ?_⟩
    rw [itemsText, ← List.singleton_append, ← List.append_assoc, List.append_assoc,
      Sieve.after_append hmark, Sieve.after_append hitem, hitems]

theorem passes_entriesText (indent : Nat) (lead : List Char) (entries : List (Value × Value))
    (hv : entriesKeepBlankLines entries = true) {parent first : Option Nat} {line line' : List Char}
    (hlead : Sieve.after? ⟨parent, line⟩ lead = some ⟨first, line'⟩)
    (hline' : indentation line' ≤ indent) (hne : entries = [] → line = []) :
    ∃ after, Sieve.after? ⟨parent, line⟩ (entriesText indent lead entries) = some ⟨after, []⟩ := by
  match entries with
  | [] => exact ⟨parent, by rw [hne rfl]; rfl⟩
  | (key, value) :: entries =>
    rw [entriesKeepBlankLines, Bool.and_eq_true, Bool.and_eq_true] at hv
    obtain ⟨⟨hkey, hvalue⟩, hrest⟩ := hv
    have hentry : ∃ after, Sieve.after? ⟨first, line'⟩ (entryText indent key value) =
        some ⟨after, []⟩ := by
      unfold entryText
      cases hsimple : simpleKey? key with
      | some s =>
        have hshallow : indentation (line' ++ s) ≤ indent := by
          have hspace := head_of_simpleKey hsimple
          cases s with
          | nil => simpa using hline'
          | cons c s => rwa [indentation_append_cons _ (by simpa using hspace)]
        have hmark : Sieve.after? ⟨first, line'⟩ (s ++ [':']) = some ⟨first, line' ++ s ++ [':']⟩ := by
          rw [Sieve.after_of_not_mem _ (by simpa using (oneLine_of_simpleKey hsimple).1)]
          simp
        obtain ⟨after, hafter⟩ := passes_nodeText indent true false true value hvalue
          (begun_mark hshallow ':' (by decide)) (fun _ => ⟨_, _, rfl, .inl rfl⟩) first
        refine ⟨after, ?_⟩
        dsimp only
        rw [← List.singleton_append, ← List.append_assoc, Sieve.after_append hmark, hafter]
      | none =>
        have hmark : Sieve.after? ⟨first, line'⟩ ['?'] = some ⟨first, line' ++ ['?']⟩ :=
          Sieve.after_of_not_mem _ (by decide)
        obtain ⟨second, hkeyText⟩ := passes_nodeText indent true true false key hkey
          (begun_mark hline' '?' (by decide)) (by simp) first
        have hcolon : Sieve.after? ⟨second, []⟩ (spaces indent ++ [':']) =
            some ⟨second, spaces indent ++ [':']⟩ := Sieve.after_of_not_mem _ (by simp [spaces])
        obtain ⟨after, hafter⟩ := passes_nodeText indent true true true value hvalue
          (begun_mark (Nat.le_of_eq (indentation_spaces indent)) ':' (by decide))
          (fun _ => ⟨_, _, rfl, .inl rfl⟩) second
        refine ⟨after, ?_⟩
        dsimp only
        rw [← List.singleton_append, List.append_assoc, List.append_assoc, Sieve.after_append hmark,
          Sieve.after_append hkeyText, ← List.singleton_append, ← List.append_assoc,
          Sieve.after_append hcolon, hafter]
    obtain ⟨second, hsecond⟩ := hentry
    have hspaces : Sieve.after? ⟨second, []⟩ (spaces indent) = some ⟨second, spaces indent⟩ :=
      Sieve.after_of_not_mem _ (by simp [spaces])
    obtain ⟨after, hafter⟩ := passes_entriesText indent (spaces indent) entries hrest hspaces
      (Nat.le_of_eq (indentation_spaces indent)) (fun _ => rfl)
    refine ⟨after, ?_⟩
    rw [entriesText_cons, List.append_assoc, Sieve.after_append hlead, Sieve.after_append hsecond,
      hafter]

end

/-- The filter leaves the YAML of a mapping as it is if its strings keep their blank lines. -/
theorem collapse_mappingText {m : Mapping} (h : entriesKeepBlankLines m = true) :
    collapseBlankLines m.text = m.text := by
  obtain ⟨after, hafter⟩ : ∃ after, Sieve.after? ⟨none, []⟩ m.text = some ⟨after, []⟩ := by
    unfold Mapping.text
    split
    · exact ⟨_, rfl⟩
    · exact passes_entriesText 0 [] m h rfl (Nat.le_refl 0) fun _ => rfl
  exact collapse_of_after hafter

end FrontToc.Yaml
