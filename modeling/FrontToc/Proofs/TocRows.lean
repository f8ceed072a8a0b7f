import FrontToc.Event
import FrontToc.Proofs.Lines
import FrontToc.Proofs.Paths
import FrontToc.Proofs.Search
import FrontToc.Proofs.TextRuns

/-!
# Tables of contents in a comment

What a comment has to hold to be a table of contents, and what each of its rows comes to: a row of three
fields with a depth in the last is a heading, and any other is told about once.
-/
namespace FrontToc

open Text

namespace TocMarkers

/-- `s` is a number in decimal: a plus sign, which may be missing, and one or more digits. -/
def Writes (s : List Char) (n : Nat) : Prop :=
  ∃ sign digits, s = sign ++ digits ∧ (sign = [] ∨ sign = ['+']) ∧ digits ≠ [] ∧
    (∀ c ∈ digits, c.isDigit = true) ∧ Nat.ofDigitChars 10 digits 0 = n

/-- A row with two bars, and its fields. -/
def HasFields (row title slug depth : List Char) : Prop :=
  row = title ++ '|' :: (slug ++ '|' :: depth) ∧ '|' ∉ title ∧ '|' ∉ slug ∧ '|' ∉ depth

/-- A field that gives a depth. -/
def GivesDepth (field : List Char) (n : Nat) : Prop :=
  ∃ number, Trimmed isBlank field number ∧ Writes number n ∧ 1 ≤ n ∧ n ≤ maxHeadingDepth

/-- A row that gives a heading. -/
def Gives (row : List Char) (h : Heading) : Prop :=
  ∃ title slug depth, HasFields row title slug depth ∧
    Trimmed (fun c => c = '-' || c = ' ') title h.title ∧ Trimmed isBlank slug h.slug ∧
    GivesDepth depth h.depth

/-- What is wrong with a row. -/
def RowFault.Of (row : List Char) : RowFault → Prop
  | .notThreeFields => row.count '|' ≠ 2
  | .invalidDepth => ∃ title slug depth, HasFields row title slug depth ∧ ∀ n, ¬GivesDepth depth n

/-- Rows, the headings that they give and what is told about the others, row by row. -/
inductive Listed : List (List Char) → List Heading → List Event → Prop where
  | nil : Listed [] [] []
  | heading {row : List Char} {rows : List (List Char)} {h : Heading} {hs : List Heading}
      {told : List Event} : Gives row h → Listed rows hs told → Listed (row :: rows) (h :: hs) told
  | skipped {row : List Char} {rows : List (List Char)} {hs : List Heading} {told : List Event}
      {fault : RowFault} : fault.Of row → Listed rows hs told →
      Listed (row :: rows) hs (.rowSkipped row fault :: told)

/-- The first comment of `text` holds the table `b`. -/
def Contains (text : List Char) (b : Block) : Prop :=
  ∃ before inner after, IsFirst commentStart text before after ∧ IsFirst commentEnd after inner b.rest ∧
    ((lines inner).map trim).filter (· ≠ []) = firstLine :: (b.rows ++ [lastLine])

theorem digitValue_ten (c : Char) :
    digitValue? 10 c = if c.isDigit = true then some (c.toNat - '0'.toNat) else none := by
  have hdigit : c.isDigit = true ↔ '0' ≤ c ∧ c ≤ '9' := by
    simp only [Char.isDigit, ge_iff_le, Bool.and_eq_true, decide_eq_true_eq, Char.le_def]
  unfold digitValue?
  by_cases h : '0' ≤ c ∧ c ≤ '9'
  · have hbelow : c.toNat - '0'.toNat < 10 := by
      have : c.toNat ≤ '9'.toNat := h.2
      change c.toNat ≤ 57 at this
      change c.toNat - 48 < 10
      omega
    rw [if_pos (hdigit.mpr h)]
    dsimp only
    rw [if_pos h, if_pos hbelow]
  · rw [if_neg (mt hdigit.mp h)]
    dsimp only
    rw [if_neg h]
    refine if_neg ?_
    split
    · omega
    · split <;> omega

theorem readDigitsFrom_ten {s : List Char} {acc n : Nat} :
    readDigitsFrom? 10 acc s = some n ↔
      (∀ c ∈ s, c.isDigit = true) ∧ Nat.ofDigitChars 10 s acc = n := by
  induction s generalizing acc with
  | nil => simp [readDigitsFrom?]
  | cons c s ih =>
    rw [readDigitsFrom?, digitValue_ten, Nat.ofDigitChars_cons, List.forall_mem_cons, Nat.mul_comm]
    cases hc : c.isDigit with
    | true => simp [ih]
    | false => simp

theorem readByte_eq_some {s : List Char} {n : Nat} : readByte? s = some n ↔ Writes s n ∧ n < 256 := by
  have hread : ∀ digits, (readDigits? 10 digits).filter (· < 256) = some n ↔
      (digits ≠ [] ∧ (∀ c ∈ digits, c.isDigit = true) ∧ Nat.ofDigitChars 10 digits 0 = n) ∧ n < 256 := by
    intro digits
    rw [Option.filter_eq_some_iff, readDigits?]
    cases digits with
    | nil => simp
    | cons c digits => simp [readDigitsFrom_ten]
  unfold readByte?
  dsimp only
  rw [hread]
  refine and_congr_left fun _ => ⟨?_, ?_⟩
  · split
    · next rest => exact fun h => ⟨['+'], rest, rfl, .inr rfl, h⟩
    · exact fun h => ⟨[], s, rfl, .inl rfl, h⟩
  · rintro ⟨sign, digits, rfl, rfl | rfl, hsome, hdigits, hn⟩
    · rw [List.nil_append]
      split
      · have := hdigits '+' List.mem_cons_self
        cases this
      · exact ⟨hsome, hdigits, hn⟩
    · exact ⟨hsome, hdigits, hn⟩

theorem readByte_depth {field : List Char} {n : Nat} :
    readByte? (trim field) = some n ∧ 1 ≤ n ∧ n ≤ maxHeadingDepth ↔ GivesDepth field n := by
  rw [readByte_eq_some]
  constructor
  · rintro ⟨⟨hwrites, -⟩, hbounds⟩
    exact ⟨_, trimmed_trimWhile isBlank field, hwrites, hbounds⟩
  · rintro ⟨number, htrim, hwrites, hbounds⟩
    obtain rfl : trim field = number := trimmed_iff.mp htrim
    have hbelow : n < 256 := Nat.lt_of_le_of_lt hbounds.2 (by decide)
    exact ⟨⟨hwrites, hbelow⟩, hbounds⟩

theorem splitOnChar_of_hasFields {row title slug depth : List Char} (h : HasFields row title slug depth) :
    splitOnChar '|' row = [title, slug, depth] := by
  obtain ⟨rfl, htitle, hslug, hdepth⟩ := h
  rw [splitOnChar_eq_splitOn, List.splitOn_append_cons_self, List.splitOn_append_cons_self,
    List.splitOn_eq_singleton htitle, List.splitOn_eq_singleton hslug, List.splitOn_eq_singleton hdepth]
  rfl

theorem hasFields_of_splitOnChar {row title slug depth : List Char}
    (h : splitOnChar '|' row = [title, slug, depth]) : HasFields row title slug depth := by
  have hbar : ∀ field ∈ [title, slug, depth], '|' ∉ field := by
    rw [← h]
    exact fun field => not_mem_of_mem_splitOnChar
  refine ⟨?_, hbar _ (by simp), hbar _ (by simp), hbar _ (by simp)⟩
  calc
    row = ['|'].intercalate (splitOnChar '|' row) := by
      rw [splitOnChar_eq_splitOn, List.intercalate_splitOn]
    _ = title ++ '|' :: (slug ++ '|' :: depth) := by
      rw [h]
      simp [List.intercalate]

theorem HasFields.unique {row title slug depth title' slug' depth' : List Char}
    (h : HasFields row title slug depth) (h' : HasFields row title' slug' depth') :
    title = title' ∧ slug = slug' ∧ depth = depth' := by
  have := (splitOnChar_of_hasFields h).symm.trans (splitOnChar_of_hasFields h')
  simpa using this

/-- The number of bars and the number of pieces between them. -/
theorem length_splitOnChar (c : Char) (s : List Char) : (splitOnChar c s).length = s.count c + 1 := by
  induction s with
  | nil => rfl
  | cons d s ih =>
    rw [splitOnChar, List.count_cons]
    split
    · next h => simp [ih, h]
    · next h =>
      cases hpieces : splitOnChar c s with
      | nil =>
        rw [hpieces] at ih
        cases ih
      | cons p ps =>
        rw [hpieces, List.length_cons] at ih
        simp [ih, h]

theorem HasFields.count {row title slug depth : List Char} (h : HasFields row title slug depth) :
    row.count '|' = 2 := by
  have := length_splitOnChar '|' row
  rw [splitOnChar_of_hasFields h] at this
  exact (Nat.succ.inj this).symm

/-- What a row comes to: a heading or a fault. -/
theorem parseRow_spec (row : List Char) :
    (∃ h, parseRow row = .ok h ∧ Gives row h) ∨ ∃ fault, parseRow row = .error fault ∧ fault.Of row := by
  unfold parseRow
  split
  · next title slug depth hfields =>
    have hrow := hasFields_of_splitOnChar hfields
    split
    · next n hn =>
      split
      · next hbounds =>
        exact .inl ⟨_, rfl, title, slug, depth, hrow, trimmed_trimWhile _ title,
          trimmed_trimWhile isBlank slug, readByte_depth.mp ⟨hn, hbounds⟩⟩
      · next hbounds =>
        refine .inr ⟨_, rfl, title, slug, depth, hrow, fun m hm => ?_⟩
        obtain ⟨hm, hlow⟩ := readByte_depth.mpr hm
        rw [hn, Option.some.injEq] at hm
        exact hbounds (hm ▸ hlow)
    · next hn =>
      refine .inr ⟨_, rfl, title, slug, depth, hrow, fun m hm => ?_⟩
      rw [(readByte_depth.mpr hm).1] at hn
      cases hn
  · next hother =>
    refine .inr ⟨_, rfl, fun hcount => ?_⟩
    have hlength := length_splitOnChar '|' row
    rw [hcount] at hlength
    match hpieces : splitOnChar '|' row with
    | [title, slug, depth] => exact hother title slug depth hpieces
    | [] | [_] | [_, _] | _ :: _ :: _ :: _ :: _ => simp [hpieces] at hlength

theorem Gives.unique {row : List Char} {h h' : Heading} (hh : Gives row h) (hh' : Gives row h') : h = h' := by
  obtain ⟨title, slug, depth, hrow, htitle, hslug, hdepth⟩ := hh
  obtain ⟨title', slug', depth', hrow', htitle', hslug', hdepth'⟩ := hh'
  obtain ⟨rfl, rfl, rfl⟩ := hrow.unique hrow'
  have hsame := (readByte_depth.mpr hdepth).1.symm.trans (readByte_depth.mpr hdepth').1
  cases h
  cases h'
  simp only [Heading.mk.injEq]
  exact ⟨(trimmed_iff.mp htitle).symm.trans (trimmed_iff.mp htitle'),
    (trimmed_iff.mp hslug).symm.trans (trimmed_iff.mp hslug'), Option.some.inj hsame⟩

/-- No row both gives a heading and has a fault. -/
theorem Gives.not_of {row : List Char} {h : Heading} (hh : Gives row h) (fault : RowFault) :
    ¬fault.Of row := by
  obtain ⟨title, slug, depth, hrow, -, -, hdepth⟩ := hh
  cases fault with
  | notThreeFields => exact fun hcount => hcount hrow.count
  | invalidDepth =>
    rintro ⟨title', slug', depth', hrow', hno⟩
    obtain ⟨rfl, rfl, rfl⟩ := hrow.unique hrow'
    exact hno _ hdepth

theorem RowFault.Of.unique {row : List Char} {fault fault' : RowFault} (h : fault.Of row)
    (h' : fault'.Of row) : fault = fault' := by
  cases fault <;> cases fault'
  · rfl
  · obtain ⟨_, _, _, hrow, -⟩ := h'
    exact absurd hrow.count h
  · obtain ⟨_, _, _, hrow, -⟩ := h
    exact absurd hrow.count h'
  · rfl

/-- The headings of a table and what is told of its rows are those of the rows one by one, and no others
are. -/
theorem listed_iff {rows : List (List Char)} {rest : List Char} {hs : List Heading} {told : List Event} :
    Listed rows hs told ↔ hs = Block.headings ⟨rows, rest⟩ ∧ told = Block.events ⟨rows, rest⟩ := by
  induction rows generalizing hs told with
  | nil =>
    constructor
    · rintro ⟨⟩
      exact ⟨rfl, rfl⟩
    · rintro ⟨rfl, rfl⟩
      exact .nil
  | cons row rows ih =>
    rcases parseRow_spec row with ⟨h, hparse, hgives⟩ | ⟨fault, hparse, hfault⟩
    · have hhead : Block.headings ⟨row :: rows, rest⟩ = h :: Block.headings ⟨rows, rest⟩ := by
        simp [Block.headings, hparse, Except.toOption]
      have htold : Block.events ⟨row :: rows, rest⟩ = Block.events ⟨rows, rest⟩ := by
        simp [Block.events, Block.skipped, hparse]
      rw [hhead, htold]
      constructor
      · intro hlisted
        cases hlisted with
        | heading hh hrows =>
          obtain ⟨rfl, rfl⟩ := ih.mp hrows
          exact ⟨congrArg (· :: _) (hh.unique hgives), rfl⟩
        | skipped hfault _ => exact absurd hfault (hgives.not_of _)
      · rintro ⟨rfl, rfl⟩
        exact .heading hgives (ih.mpr ⟨rfl, rfl⟩)
    · have hhead : Block.headings ⟨row :: rows, rest⟩ = Block.headings ⟨rows, rest⟩ := by
        simp [Block.headings, hparse, Except.toOption]
      have htold : Block.events ⟨row :: rows, rest⟩ =
          .rowSkipped row fault :: Block.events ⟨rows, rest⟩ := by
        simp [Block.events, Block.skipped, hparse]
      rw [hhead, htold]
      constructor
      · intro hlisted
        cases hlisted with
        | heading hh _ => exact absurd hfault (hh.not_of _)
        | skipped hother hrows =>
          obtain ⟨rfl, rfl⟩ := ih.mp hrows
          obtain rfl := hother.unique hfault
          exact ⟨rfl, rfl⟩
      · rintro ⟨rfl, rfl⟩
        exact .skipped hfault (ih.mpr ⟨rfl, rfl⟩)

theorem commentLines_eq (inner : List Char) :
    commentLines inner = ((lines inner).map trim).filter (· ≠ []) := by
  unfold commentLines
  congr
  funext line
  cases line <;> rfl

theorem rows_eq_some {ls rows : List (List Char)} :
    rows? ls = some rows ↔ ls = firstLine :: (rows ++ [lastLine]) := by
  constructor
  · intro h
    unfold rows? at h
    split at h
    · next first second more =>
      split at h
      · next hmarkers =>
        cases h
        obtain ⟨rfl, hlast⟩ := hmarkers
        obtain ⟨rows, hrows⟩ := List.getLast?_eq_some_iff.mp hlast
        rw [hrows, List.dropLast_concat]
      · cases h
    · cases h
  · rintro rfl
    cases rows with
    | nil => rfl
    | cons row rows =>
      have hlast : (row :: (rows ++ [lastLine])).getLast? = some lastLine := by
        rw [← List.cons_append, List.getLast?_concat]
      have hinit : (row :: (rows ++ [lastLine])).dropLast = row :: rows := by
        rw [← List.cons_append, List.dropLast_concat]
      rw [List.cons_append, rows?, if_pos ⟨rfl, hlast⟩, hinit]

theorem contains_of_parse {text : List Char} {b : Block} (h : parse? text = some b) : Contains text b := by
  unfold parse? at h
  split at h
  · cases h
  · next before after hstart =>
    split at h
    · cases h
    · next inner rest hend =>
      obtain ⟨rows, hrows, rfl⟩ := Option.map_eq_some_iff.mp h
      refine ⟨before, inner, after, splitAtFirst_iff.mp hstart, splitAtFirst_iff.mp hend, ?_⟩
      rw [← commentLines_eq]
      exact rows_eq_some.mp hrows

theorem parse_of_contains {text : List Char} {b : Block} (h : Contains text b) : parse? text = some b := by
  obtain ⟨before, inner, after, hstart, hend, hrows⟩ := h
  rw [← commentLines_eq] at hrows
  rw [parse?, splitAtFirst_iff.mpr hstart]
  dsimp only
  rw [splitAtFirst_iff.mpr hend]
  dsimp only
  rw [rows_eq_some.mpr hrows]
  rfl

/-- A text has a table of contents exactly if there is one in its first comment: the comment ends where
it is first closed, and of its lines, without the white space at their ends and without blank ones, the
first and the last are markers. The rows are those between them, and what follows the comment is the
rest. Row by row, one with two bars and a depth after the second is a heading, and any other is left out
and told about once. -/
theorem parse_iff_and_rows_listed (text : List Char) (b : Block) :
    (parse? text = some b ↔ Contains text b) ∧
      ∀ hs told, Listed b.rows hs told ↔ hs = b.headings ∧ told = b.events :=
  ⟨⟨contains_of_parse, parse_of_contains⟩, fun _ _ => listed_iff⟩

/-- A title between hyphens, a depth with a plus sign, and two rows that give no heading. -/
example :
    (parse? "<!--BEGIN_TOC\n-- A - | a | +02\n\nB|b|257\r\nEND_TOC\nEND_TOC-->x".toList).map
        (fun b => (b.headings, b.events, b.rest)) =
      some ([⟨['A'], ['a'], 2⟩],
        [.rowSkipped "B|b|257".toList .invalidDepth, .rowSkipped "END_TOC".toList .notThreeFields],
        ['x']) := by
  decide +kernel

/-- The title and the slug of a row are parts of it. -/
theorem Gives.subset {row : List Char} {h : Heading} (hh : Gives row h) :
    h.title ⊆ row ∧ h.slug ⊆ row := by
  obtain ⟨title, slug, depth, ⟨rfl, -⟩, htitle, hslug, -⟩ := hh
  exact ⟨fun c hc => by simp [htitle.mem hc], fun c hc => by simp [hslug.mem hc]⟩

theorem Gives.depth {row : List Char} {h : Heading} (hh : Gives row h) :
    1 ≤ h.depth ∧ h.depth ≤ maxHeadingDepth := by
  obtain ⟨_, _, _, -, -, -, number, -, -, hbounds⟩ := hh
  exact hbounds

theorem gives_of_mem_headings {b : Block} {h : Heading} (hh : h ∈ b.headings) :
    ∃ row ∈ b.rows, Gives row h := by
  obtain ⟨row, hrow, hparse⟩ := List.mem_filterMap.mp hh
  refine ⟨row, hrow, ?_⟩
  rcases parseRow_spec row with ⟨h', hok, hgives⟩ | ⟨fault, herror, -⟩
  · rw [hok] at hparse
    cases hparse
    exact hgives
  · rw [herror] at hparse
    cases hparse

/-- No row of a table holds a line feed. -/
theorem Contains.feed_not_mem {text : List Char} {b : Block} (h : Contains text b) {row : List Char}
    (hrow : row ∈ b.rows) : '\n' ∉ row := by
  obtain ⟨before, inner, after, -, -, hrows⟩ := h
  have hmem : row ∈ ((lines inner).map trim).filter (· ≠ []) := by
    rw [hrows]
    simp [hrow]
  obtain ⟨line, hline, rfl⟩ := List.mem_map.mp (List.mem_filter.mp hmem).1
  exact fun hfeed => feed_not_mem_lines hline (mem_trimWhile hfeed)

end TocMarkers

end FrontToc
