import FrontToc.Proofs.ScannedDocument

/-!
# The tokens of a table of contents

The entry `headings` is the last of its document, so its tokens are the last ones, and they are known
one by one.
-/
namespace FrontToc.Yaml.Token.Scan

open Text

section

variable {r : Scan} {ts : List Token} {is : List Nat}

/-- At the end of the text all open collections end. -/
theorem OnLine.last {column : Nat} (h : OnLine r ts is column []) :
    r.tokens = ts ++ List.replicate is.length .blockEnd := by
  obtain ⟨s, rest, line, stands, thin, skip, -, run⟩ := h
  obtain ⟨s', next, hend, -⟩ := run.next stands.outer
  have hrest : s'.cursor.rest = [] := by rw [next.cursor, skip, thin.eq_nil]
  have hr := dropKey_eq_some (hend hrest)
  obtain ⟨closed, his, hlength, -⟩ := splitIndents_spec s.skipped.1.column s.indents
  have hcount : is.length = closed.length + s'.indents.length := by
    rw [next.indents, ← List.length_append, ← his, stands.indents]
  have hnext : s'.tokens = ts ++ List.replicate closed.length .blockEnd := by
    rw [tokens, next.lexemes, List.flatMap_append, tokens_ends, hlength, ← tokens, stands.tokens]
  have hlast : r.tokens = s'.tokens ++ List.replicate s'.indents.length .blockEnd := by
    rw [hr, unindentAll, inFlow_eq next.outer, pushEnds_eq]
    simp only [Bool.false_eq_true, if_false, tokens, Array.toList_append, List.flatMap_append]
    congr 1
    rw [Array.toList_replicate]
    exact tokens_ends _
  rw [hlast, hnext, hcount, List.append_assoc, List.replicate_append_replicate]

/-- A key without quotes. -/
theorem OnLine.plainKey {column : Nat} {x text : List Char} {g : Char} (plain : PlainText x)
    (hgap : isSpace g = true ∨ isBreak g = true) (h : OnLine r ts is column (x ++ ':' :: g :: text)) :
    OnMark r (ts ++ closing column is ++ opening column .blockMappingStart (kept column is) ++
        [.key, .scalar true x, .value]) (opened column (kept column is)) column false (g :: text) := by
  have leaf := Leaf.plain plain
  obtain ⟨c, t, rfl, -, hbreak, -⟩ := leaf.first
  have hc : c ≠ '\n' := by rintro rfl; cases hbreak
  obtain ⟨-, -, -, -, hkept⟩ := splitIndents_spec column is
  exact (h.key hc).value hkept leaf hgap rfl

theorem nodeText_scalar {v : Value} (hv : v.isScalar = true) (indent : Nat) (inMapping compact : Bool) :
    nodeText indent inMapping compact v = ' ' :: endLine (scalarText (indent + 2) v) := by
  cases v with
  | seq | map | tagged => cases hv
  | null | bool | int | float | str => rw [nodeText] <;> simp

/-- An entry whose key has no quotes and whose value is in the line of the key. -/
theorem OnLine.entry {column n : Nat} {x text : List Char} {v : Value} {us : List Token}
    (plain : PlainText x) (hkey : simpleKey? (.str x) = some x) (hscalar : v.isScalar = true)
    (leaf : Leaf (scalarText (column + 2) v) us) (hv : ∀ s, v = .str s → Style.ofString s ≠ .literal)
    (below : Below column n text)
    (h : OnLine r ts is column (entryText column (.str x) v ++ (spaces n ++ text))) :
    OnLine r (ts ++ closing column is ++ opening column .blockMappingStart (kept column is) ++
        .key :: .scalar true x :: .value :: us) (opened column (kept column is)) n text := by
  rw [entryText, hkey, nodeText_scalar hscalar, endLine, last_scalarText hv] at h
  simp only [Bool.false_eq_true, if_false, List.append_assoc, List.cons_append, List.nil_append] at h
  have hvalue := (h.plainKey plain (.inl rfl)).value leaf (head_opened _ _) below
  simpa using hvalue

/-- An entry whose value is a string without line feeds. -/
theorem OnLine.stringEntry {column n : Nat} {x s text : List Char} (plain : PlainText x)
    (hkey : simpleKey? (.str x) = some x) (hs : '\n' ∉ s) (below : Below column n text)
    (h : OnLine r ts is column (entryText column (.str x) (.str s) ++ (spaces n ++ text))) :
    OnLine r (ts ++ closing column is ++ opening column .blockMappingStart (kept column is) ++
        [.key, .scalar true x, .value, .scalar (decide (Style.ofString s = .plain)) s])
      (opened column (kept column is)) n text := by
  have hstyle := ofString_ne_literal hs
  have leaf : Leaf (scalarText (column + 2) (.str s)) [.scalar (decide (Style.ofString s = .plain)) s] :=
    leaf_stringText _ hstyle
  exact h.entry plain hkey rfl leaf (by rintro _ ⟨⟩; exact hstyle) below

end

/-- The tokens of one heading. -/
def headingTokens (h : Heading) : List Token :=
  [.blockEntry, .blockMappingStart,
    .key, .scalar true "title".toList, .value, .scalar (decide (Style.ofString h.title = .plain)) h.title,
    .key, .scalar true "slug".toList, .value, .scalar (decide (Style.ofString h.slug = .plain)) h.slug,
    .key, .scalar true "depth".toList, .value, .scalar true (intText h.depth),
    .blockEnd]

/-- A heading is written in three lines after the hyphen of its item. -/
theorem nodeText_heading (h : Heading) :
    nodeText 0 false true h.toValue =
      ' ' :: (entryText 2 (.str "title".toList) (.str h.title) ++ (spaces 2 ++
        (entryText 2 (.str "slug".toList) (.str h.slug) ++ (spaces 2 ++
          (entryText 2 (.str "depth".toList) (.int h.depth)))))) := by
  rw [Heading.toValue, nodeText, entriesText_cons, entriesText_cons, entriesText_cons, entriesText]
  · simp [memberLead]
  · simp

/-- The tokens of one heading, from its hyphen to the next line. -/
theorem OnLine.heading {r : Scan} {ts : List Token} {is : List Nat} {text : List Char} {h : Heading}
    (htitle : '\n' ∉ h.title) (hslug : '\n' ∉ h.slug) (his : kept 0 is = [0]) (below : Below 0 0 text)
    (hline : OnLine r ts is 0 ('-' :: nodeText 0 false true h.toValue ++ text)) :
    OnLine r (ts ++ closing 0 is ++ (headingTokens h).dropLast) [2, 0] 0 text := by
  rw [nodeText_heading] at hline
  simp only [List.cons_append, List.append_assoc] at hline
  have hmark := hline.mark .item (.inl rfl)
  rw [his] at hmark
  have hfirst := hmark.compact (begins_entryText _ _ _ _)
  have hkeys : ∀ x ∈ ["title".toList, "slug".toList, "depth".toList],
      PlainText x ∧ simpleKey? (.str x) = some x := by
    have hplain : ∀ x ∈ ["title".toList, "slug".toList, "depth".toList],
        Style.allowsPlain x = true ∧ x ≠ [] ∧ simpleKey? (.str x) = some x := by decide
    exact fun x hx => ⟨plainText_of_allowsPlain (hplain x hx).1 (hplain x hx).2.1, (hplain x hx).2.2⟩
  obtain ⟨htitlePlain, htitleKey⟩ := hkeys "title".toList (by simp)
  obtain ⟨hslugPlain, hslugKey⟩ := hkeys "slug".toList (by simp)
  obtain ⟨hdepthPlain, hdepthKey⟩ := hkeys "depth".toList (by simp)
  have hsecond := hfirst.stringEntry htitlePlain htitleKey htitle
    (.inr ⟨Nat.le_refl _, begins_entryText _ _ _ _⟩)
  have hthird := hsecond.stringEntry hslugPlain hslugKey hslug
    (.inr ⟨Nat.le_refl _, begins_entryText _ _ _ _⟩)
  have hdepth : Leaf (scalarText (2 + 2) (.int h.depth)) [.scalar true (intText h.depth)] :=
    .plain (plainText_intText _)
  have hlast := hthird.entry hdepthPlain hdepthKey rfl hdepth (by simp) (below.weaken (Nat.zero_le 2))
  simpa [closing, kept, splitIndents, opening, opened, headingTokens] using hlast

/-- The tokens of a table of contents that is not empty, and the end of the text. -/
theorem OnLine.headings {r : Scan} {hs : List Heading}
    (hfeeds : ∀ h ∈ hs, '\n' ∉ h.title ∧ '\n' ∉ h.slug) {ts : List Token} {is : List Nat}
    (his : kept 0 is = [0]) (h : OnLine r ts is 0 (itemsText 0 (hs.map Heading.toValue))) :
    r.tokens = ts ++ closing 0 is ++ hs.flatMap headingTokens ++ [.blockEnd] := by
  induction hs generalizing ts is with
  | nil =>
    obtain ⟨closed, hsplit, hlength, -⟩ := splitIndents_spec 0 is
    have hcount : is.length = (splitIndents 0 is).1 + 1 := by
      change is = closed ++ kept 0 is at hsplit
      rw [← hlength, hsplit, his]
      simp
    rw [h.last, hcount, List.replicate_succ', closing]
    simp
  | cons x hs ih =>
    simp only [List.forall_mem_cons] at hfeeds
    rw [List.map_cons, itemsText] at h
    have below : Below 0 0 (itemsText 0 (hs.map Heading.toValue)) := by
      cases hs with
      | nil => exact .inl ⟨rfl, rfl⟩
      | cons y hs =>
        refine .inr ⟨Nat.le_refl _, ?_⟩
        rw [List.map_cons, itemsText]
        exact .of_mark (by decide) (by decide) (by decide) (by decide) (by decide) _
    have hnext := OnLine.heading hfeeds.1.1 hfeeds.1.2 his below h
    rw [ih hfeeds.2 rfl hnext]
    simp [closing, splitIndents, headingTokens]

/-- The tokens of the entry of a table of contents. -/
def tableTokens (hs : List Heading) : List Token :=
  .key :: .scalar true headingsKey :: .value ::
    ((if hs.isEmpty then [.flowSequenceStart, .flowSequenceEnd] else hs.flatMap headingTokens) ++ [.blockEnd])

/-- The last entry of a document. -/
theorem OnLine.table {r : Scan} {hs : List Heading}
    (hfeeds : ∀ h ∈ hs, '\n' ∉ h.title ∧ '\n' ∉ h.slug) {ts : List Token} {is : List Nat}
    (his : opened 0 (kept 0 is) = [0])
    (h : OnLine r ts is 0 (entryText 0 (.str headingsKey) (.seq (hs.map Heading.toValue)))) :
    r.tokens = ts ++ closing 0 is ++ opening 0 .blockMappingStart (kept 0 is) ++ tableTokens hs := by
  have hkey : simpleKey? (.str headingsKey) = some headingsKey := by decide
  have hplain : PlainText headingsKey := plainText_of_allowsPlain (by decide) (by decide)
  rw [entryText, hkey] at h
  cases hs with
  | nil =>
    have hmark := h.plainKey hplain (g := ' ') (.inl rfl)
    rw [his] at hmark
    have hend : Below 0 0 [] := .inl ⟨rfl, rfl⟩
    have hvalue := hmark.value .emptySequence rfl hend
    rw [hvalue.last]
    simp [tableTokens]
  | cons x hs =>
    have htext : nodeText 0 true false (.seq ((x :: hs).map Heading.toValue)) =
        '\n' :: (spaces 0 ++ itemsText 0 ((x :: hs).map Heading.toValue)) := by
      rw [List.map_cons, nodeText, itemsText]
      rfl
    dsimp only at h
    rw [htext] at h
    have hmark := h.plainKey hplain (.inr rfl)
    rw [his] at hmark
    have hbegins : Begins (itemsText 0 ((x :: hs).map Heading.toValue)) := by
      rw [List.map_cons, itemsText]
      exact .of_mark (by decide) (by decide) (by decide) (by decide) (by decide) _
    rw [(hmark.newLine hbegins).headings hfeeds rfl]
    simp [closing, splitIndents, tableTokens]

/-- Only the outermost collection is open if the innermost is at column 0. -/
theorem Sound.eq_zero {ts : List Token} {is : List Nat} (sound : Sound ts is) (h : is.head? = some 0) :
    is = [0] := by
  cases is with
  | nil => cases h
  | cons i is =>
    cases h
    cases is with
    | nil => rfl
    | cons j is =>
      exact absurd (List.rel_of_pairwise_cons sound.sorted List.mem_cons_self) (Nat.not_lt_zero j)

/-- Before the table of contents finished entries of the outermost mapping have been read. -/
theorem Sound.table {r : Scan} {hs : List Heading} (hfeeds : ∀ h ∈ hs, '\n' ∉ h.title ∧ '\n' ∉ h.slug)
    {ts : List Token} {is : List Nat} (sound : Sound ts is) (complete : Complete ts)
    (hroot : is = [] → ts = [])
    (h : OnLine r ts is 0 (entryText 0 (.str headingsKey) (.seq (hs.map Heading.toValue)))) :
    ∃ before, r.tokens = .blockMappingStart :: before ++ tableTokens hs ∧ Nested 1 before 1 ∧
      Complete before := by
  have hentered : Sound (ts ++ closing 0 is ++ opening 0 .blockMappingStart (kept 0 is))
      (opened 0 (kept 0 is)) := sound.enter rfl fun _ => ⟨rfl, rfl⟩
  have his := hentered.eq_zero (head_opened 0 (kept 0 is))
  have htokens := OnLine.table hfeeds his h
  rw [his] at hentered
  obtain ⟨before, hbefore, nested⟩ := hentered.root (by simp)
  refine ⟨before, by rw [htokens, hbefore], nested, ?_⟩
  by_cases hnil : is = []
  · rw [hroot hnil, hnil] at hbefore
    have : before = [] := by simpa [closing, splitIndents, opening, kept] using hbefore.symm
    simp [this, Complete]
  · obtain ⟨first, rfl, -⟩ := sound.root hnil
    have hkept : (kept 0 is).head? = some 0 := by
      unfold opened at his
      split at his
      · assumption
      · exact absurd (List.cons.inj his).2 (sound.kept_ne_nil hnil 0)
    rw [opening, if_pos hkept, List.append_nil, List.cons_append] at hbefore
    rw [← (List.cons.inj hbefore).2]
    by_cases hclosing : closing 0 is = []
    · rw [hclosing, List.append_nil]
      exact complete.tail
    · refine Complete.append (fun t ht => ?_) hclosing
      rw [List.eq_of_mem_replicate (List.mem_of_getLast? ht)]
      rfl

theorem entriesText_append (as bs : List (Value × Value)) :
    entriesText 0 [] (as ++ bs) = entriesText 0 [] as ++ entriesText 0 [] bs := by
  induction as with
  | nil => rfl
  | cons entry as ih =>
    have hzero : spaces 0 = [] := rfl
    rw [List.cons_append, entriesText_cons, entriesText_cons, hzero, ih]
    simp

/-- The tokens of a document that ends in a table of contents. -/
theorem tokens_of_document {m : Mapping} {hs : List Heading}
    (hfeeds : ∀ h ∈ hs, '\n' ∉ h.title ∧ '\n' ∉ h.slug) {text : List Char}
    (thin : Thinned true
      (entriesText 0 [] (m ++ [(.str headingsKey, .seq (hs.map Heading.toValue))])) text)
    {r : Scan} (run : (Scan.start text).Ends r) (loose : ¬Stuck r) :
    ∃ before, r.tokens = .blockMappingStart :: before ++ tableTokens hs ∧ Nested 1 before 1 ∧
      Complete before := by
  have hstart : ∀ {whole : List Char}, Begins whole → Thinned true whole text →
      OnLine r [] [] 0 whole := fun hbegins thin =>
    ⟨Scan.start text, text, 0, ⟨rfl, rfl, rfl⟩, thin.solid hbegins.solid,
      hbegins.skipSpace (thin.solid hbegins.solid) _ _ _ _, by simp [Scan.start], run⟩
  have sound : Sound [] [] := ⟨.nil 0, by simp, by simp⟩
  have hzero : spaces 0 = [] := rfl
  cases m with
  | nil =>
    rw [List.nil_append, entriesText_cons, entriesText, List.nil_append] at thin
    have h := hstart (begins_entryText _ _ _ _) thin
    rw [List.append_nil] at h
    exact sound.table hfeeds (by simp [Complete]) (fun _ => rfl) h
  | cons entry m =>
    rw [List.cons_append, entriesText_cons, hzero, entriesText_append, List.nil_append] at thin
    have h := hstart (begins_entryText _ _ _ _) thin
    have htable : entriesText 0 [] [(.str headingsKey, .seq (hs.map Heading.toValue))] =
        spaces 0 ++ entryText 0 (.str headingsKey) (.seq (hs.map Heading.toValue)) := by
      rw [entriesText_cons, entriesText, hzero]
      simp
    rw [htable, ← hzero] at h
    have below : Below 0 0 (entryText 0 (.str headingsKey) (.seq (hs.map Heading.toValue))) := by
      have hbegins := begins_entryText 0 (.str headingsKey) (.seq (hs.map Heading.toValue)) []
      rw [List.append_nil] at hbegins
      exact .inr ⟨Nat.le_refl _, hbegins⟩
    obtain ⟨ts, is, sound, hne, complete, h⟩ :=
      AfterValue.entries loose entry.1 entry.2 m below sound (fun _ => rfl) h
    exact sound.table hfeeds complete (fun hnil => absurd hnil hne) h

end FrontToc.Yaml.Token.Scan
