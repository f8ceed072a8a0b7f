import FrontToc.Proofs.TomlValues

/-!
# Lines of a TOML document

A header begins its table, and a line with a key and a value puts the value into the table of the header
before it. So a document of tables, each with lines of entries, is read as these tables.
-/
namespace FrontToc.Toml

open Text

theorem skipSpaces_of_head {s : List Char} (head : ∀ c ∈ s.head?, isSpace c = false) :
    skipSpaces s = s := by
  have no_run : ∀ c ∈ ([] : List Char), isSpace c = true := by simp
  exact dropWhile_append_run no_run head

/-- The end of a document. -/
theorem lines_nil (fuel : Nat) (header : List (List Char)) (root : Table) :
    lines? (fuel + 1) header root [] = some root := rfl

/-- An empty line. -/
theorem lines_feed (fuel : Nat) (header : List (List Char)) (root : Table) (rest : List Char) :
    lines? (fuel + 1) header root ('\n' :: rest) = lines? fuel header root rest := rfl

/-- A key without quotes. -/
def IsBareKey (key : List Char) : Prop :=
  key ≠ [] ∧ key.all isBareKeyChar = true
deriving Decidable

/-- A key without quotes begins with none of the marks of other keys and lines. -/
theorem IsBareKey.first {key : List Char} (bare : IsBareKey key) {d : Char}
    (mark : isBareKeyChar d = false) (rest : List Char) : ∀ c ∈ (key ++ rest).head?, c ≠ d := by
  intro c first
  cases key with
  | nil => exact absurd rfl bare.1
  | cons k key =>
    cases first
    rintro rfl
    rw [List.all_eq_true.mp bare.2 c List.mem_cons_self] at mark
    cases mark

theorem IsBareKey.skipSpaces {key : List Char} (bare : IsBareKey key) (rest : List Char) :
    skipSpaces (key ++ rest) = key ++ rest := by
  apply skipSpaces_of_head
  intro c first
  simp [isSpace, bare.first (d := ' ') rfl rest c first, bare.first (d := '\t') rfl rest c first]

/-- A line with a key is not at its end. -/
theorem IsBareKey.endLine {key : List Char} (bare : IsBareKey key) (rest : List Char) :
    endLine? (key ++ rest) = none := by
  have no_comment : skipComment (key ++ rest) = key ++ rest := by
    unfold skipComment
    split
    · next same => exact absurd rfl (bare.first (d := '#') rfl rest '#' (by rw [same]; rfl))
    · rfl
  unfold endLine?
  rw [bare.skipSpaces, no_comment]
  split
  · next same => exact absurd (List.append_eq_nil_iff.mp same).1 bare.1
  · next same => exact absurd rfl (bare.first (d := '\n') rfl rest '\n' (by rw [same]; rfl))
  · next same => exact absurd rfl (bare.first (d := '\r') rfl rest '\r' (by rw [same]; rfl))
  · rfl

/-- A key without quotes is read up to the character that ends it. -/
theorem key_bare {key rest : List Char} (bare : IsBareKey key) (fuel : Nat)
    (ends : ∀ c ∈ rest.head?, isBareKeyChar c = false) (no_dot : (skipSpaces rest).head? ≠ some '.') :
    key? (fuel + 1) (key ++ rest) = some ([], key, skipSpaces rest) := by
  have part : keyPart? (key ++ rest) = some (key, rest) := by
    have taken := takeWhile_append_run (List.all_eq_true.mp bare.2) ends
    unfold keyPart?
    split
    · next same => exact absurd rfl (bare.first (d := '"') rfl rest '"' (by simp [same]))
    · next same => exact absurd rfl (bare.first (d := '\'') rfl rest '\'' (by simp [same]))
    · dsimp only
      rw [taken, if_neg (by simpa using bare.1), List.drop_left]
  rw [key?, bare.skipSpaces, part]
  dsimp only
  split
  · next dot => simp [dot] at no_dot
  · rfl

/-- A header begins its table. -/
theorem lines_header {key : List Char} (bare : IsBareKey key) (fuel : Nat)
    (header : List (List Char)) (root : Table) (rest : List Char) :
    lines? (fuel + 1) header root ('[' :: (key ++ ']' :: '\n' :: rest)) =
      (root.begin? [] key).bind fun root => lines? fuel [key] root rest := by
  have start : skipSpaces ('[' :: (key ++ ']' :: '\n' :: rest)) = '[' :: (key ++ ']' :: '\n' :: rest) :=
    rfl
  have ends : ∀ c ∈ (']' :: '\n' :: rest).head?, isBareKeyChar c = false := by
    rintro c ⟨⟩
    rfl
  have no_dot : (skipSpaces (']' :: '\n' :: rest)).head? ≠ some '.' := by
    rintro ⟨⟩
  have read := key_bare bare (key ++ ']' :: '\n' :: rest).length ends no_dot
  have at_end : skipSpaces (']' :: '\n' :: rest) = ']' :: '\n' :: rest := rfl
  have line_end : endLine? ('\n' :: rest) = some rest := rfl
  rw [lines?, start]
  split
  · next same => cases same
  · next same =>
    exact absurd rfl (bare.first (d := '[') rfl _ '[' (by rw [(List.cons.inj same).2]; rfl))
  · next same =>
    obtain rfl := (List.cons.inj same).2
    rw [read, at_end]
    simp only [line_end]
    cases root.begin? [] key <;> rfl
  · next no_bracket => exact absurd rfl (no_bracket _)

/-- An entry as it is written: its key, and a text that is read as its value. -/
structure WrittenEntry where
  key : List Char
  text : List Char
  value : Value
  bare : IsBareKey key
  reads : ReadsAs text value

namespace WrittenEntry

/-- The line of an entry. -/
def line (e : WrittenEntry) : List Char :=
  e.key ++ " = ".toList ++ e.text ++ ['\n']

/-- What an entry is in a table. -/
def entry (e : WrittenEntry) : List Char × Value :=
  (e.key, e.value)

end WrittenEntry

/-- A line with a key and a value puts it into the table that has been begun. -/
theorem lines_entry (e : WrittenEntry) (fuel : Nat) (header : List (List Char)) (root : Table)
    (rest : List Char) :
    lines? (fuel + 1) header root (e.line ++ rest) =
      (root.updateBegun header fun t => t.insert? [] e.key e.value).bind fun root =>
        lines? fuel header root rest := by
  have whole : e.line ++ rest = e.key ++ ' ' :: '=' :: ' ' :: (e.text ++ '\n' :: rest) := by
    simp [WrittenEntry.line]
  have ends : ∀ c ∈ (' ' :: '=' :: ' ' :: (e.text ++ '\n' :: rest)).head?, isBareKeyChar c = false := by
    rintro c ⟨⟩
    rfl
  have no_dot : (skipSpaces (' ' :: '=' :: ' ' :: (e.text ++ '\n' :: rest))).head? ≠ some '.' := by
    rintro ⟨⟩
  have at_equals : skipSpaces (' ' :: '=' :: ' ' :: (e.text ++ '\n' :: rest)) =
      '=' :: ' ' :: (e.text ++ '\n' :: rest) := rfl
  have no_space : skipSpaces (' ' :: (e.text ++ '\n' :: rest)) = e.text ++ '\n' :: rest := by
    change skipSpaces (e.text ++ '\n' :: rest) = _
    apply skipSpaces_of_head
    intro c first
    cases text : e.text with
    | nil =>
      rw [text] at first
      cases first
      rfl
    | cons d t =>
      rw [text] at first
      exact e.reads.no_space c (text ▸ first)
  have read_key := fun fuel => key_bare e.bare fuel ends no_dot
  have read_value := e.reads.read deepestNesting rest
  have line_end : endLine? ('\n' :: rest) = some rest := rfl
  rw [whole, lines?, e.bare.skipSpaces]
  split
  · next same => exact absurd (List.append_eq_nil_iff.mp same).1 e.bare.1
  · next same => exact absurd rfl (e.bare.first (d := '[') rfl _ '[' (by rw [same]; rfl))
  · next same => exact absurd rfl (e.bare.first (d := '[') rfl _ '[' (by rw [same]; rfl))
  · rw [e.bare.endLine]
    dsimp only
    rw [read_key, at_equals]
    simp only [no_space, read_value, line_end]
    cases root.updateBegun header (fun t => t.insert? [] e.key e.value) <;> rfl

/-! ### Tables that grow -/

namespace Table

variable {entries : List (List Char × Value)} {key : List Char}

theorem get_new (kind : TableKind) (new : key ∉ entries.map Prod.fst) :
    (⟨kind, entries⟩ : Table).get? key = none := by
  apply List.lookup_eq_none_iff.mpr
  intro entry member
  have other : key ≠ entry.1 := by
    rintro rfl
    exact new (List.mem_map_of_mem member)
  simpa using other

theorem get_last (kind : TableKind) (new : key ∉ entries.map Prod.fst) (value : Value) :
    (⟨kind, entries ++ [(key, value)]⟩ : Table).get? key = some value := by
  have before : entries.lookup key = none := get_new kind new
  simp [get?, List.lookup_append, before]

theorem set_new (kind : TableKind) (new : key ∉ entries.map Prod.fst) (value : Value) :
    (⟨kind, entries⟩ : Table).set key value = ⟨kind, entries ++ [(key, value)]⟩ := by
  rw [set, get_new kind new]
  rfl

theorem set_last (kind : TableKind) (new : key ∉ entries.map Prod.fst) (old value : Value) :
    (⟨kind, entries ++ [(key, old)]⟩ : Table).set key value = ⟨kind, entries ++ [(key, value)]⟩ := by
  have kept : entries.map (fun entry => if entry.1 = key then (key, value) else entry) = entries := by
    rw [List.map_congr_left, List.map_id]
    intro entry member
    have other : entry.1 ≠ key := by
      rintro rfl
      exact new (List.mem_map_of_mem member)
    exact if_neg other
  rw [set, get_last kind new]
  simp [kept]

/-- The table of a header is put behind the others. -/
theorem begin_new (kind : TableKind) (new : key ∉ entries.map Prod.fst) :
    (⟨kind, entries⟩ : Table).begin? [] key = some ⟨kind, entries ++ [(key, .table .explicit [])]⟩ := by
  rw [begin?, update, get_new kind new, set_new kind new]

/-- An entry with a new key is put behind the others of the table that has been begun. -/
theorem updateBegun_insert (kind : TableKind) (new : key ∉ entries.map Prod.fst)
    {begun : List (List Char × Value)} {name : List Char} (new_name : name ∉ begun.map Prod.fst)
    (value : Value) :
    (⟨kind, entries ++ [(key, .table .explicit begun)]⟩ : Table).updateBegun [key]
        (fun t => t.insert? [] name value) =
      some ⟨kind, entries ++ [(key, .table .explicit (begun ++ [(name, value)]))]⟩ := by
  have inserted : (⟨.explicit, begun⟩ : Table).insert? [] name value =
      some ⟨.explicit, begun ++ [(name, value)]⟩ := by
    rw [insert?, update, get_new .explicit new_name, set_new .explicit new_name]
    rfl
  rw [updateBegun, update, get_last kind new]
  change ((⟨.explicit, begun⟩ : Table).insert? [] name value).map _ = _
  rw [inserted, Option.map_some, toValue, set_last kind new]

end Table

/-- The lines of entries put them into the table that has been begun, in their order. -/
theorem lines_entries (entries : List WrittenEntry) (begun : List (List Char × Value))
    (distinct : (begun.map Prod.fst ++ entries.map WrittenEntry.key).Nodup) (fuel : Nat)
    (kind : TableKind) {tables : List (List Char × Value)} {key : List Char}
    (new : key ∉ tables.map Prod.fst) (rest : List Char) :
    lines? (fuel + entries.length) [key] ⟨kind, tables ++ [(key, .table .explicit begun)]⟩
        (entries.flatMap WrittenEntry.line ++ rest) =
      lines? fuel [key]
        ⟨kind, tables ++ [(key, .table .explicit (begun ++ entries.map WrittenEntry.entry))]⟩ rest := by
  induction entries generalizing begun with
  | nil => simp
  | cons e entries ih =>
    have new_name : e.key ∉ begun.map Prod.fst := by
      intro member
      exact (List.nodup_append.mp distinct).2.2 e.key member e.key List.mem_cons_self rfl
    have others : ((begun ++ [e.entry]).map Prod.fst ++ entries.map WrittenEntry.key).Nodup := by
      simpa [WrittenEntry.entry] using distinct
    have count : fuel + (e :: entries).length = fuel + entries.length + 1 := by simp; omega
    rw [count, List.flatMap_cons, List.append_assoc, lines_entry,
      Table.updateBegun_insert kind new new_name, Option.bind_some]
    change lines? (fuel + entries.length) [key]
      ⟨kind, tables ++ [(key, .table .explicit (begun ++ [e.entry]))]⟩ _ = _
    rw [ih (begun ++ [e.entry]) others, List.append_assoc]
    rfl

/-- A table as it is written: its header, and entries with different keys. -/
structure WrittenTable where
  key : List Char
  entries : List WrittenEntry
  bare : IsBareKey key
  distinct : (entries.map WrittenEntry.key).Nodup

namespace WrittenTable

/-- The lines of a table. -/
def text (t : WrittenTable) : List Char :=
  '[' :: (t.key ++ ']' :: '\n' :: t.entries.flatMap WrittenEntry.line)

/-- What a table is in a document. -/
def entry (t : WrittenTable) : List Char × Value :=
  (t.key, .table .explicit (t.entries.map WrittenEntry.entry))

theorem length_entries_lt (t : WrittenTable) : t.entries.length + 2 < t.text.length := by
  have lines : ∀ entries : List WrittenEntry,
      entries.length ≤ (entries.flatMap WrittenEntry.line).length := by
    intro entries
    induction entries with
    | nil => simp
    | cons e entries ih =>
      simp only [List.flatMap_cons, List.length_append, WrittenEntry.line, List.length_cons]
      omega
  have enough := lines t.entries
  simp only [text, List.length_cons, List.length_append]
  omega

end WrittenTable

/-- The lines of a table are read as one table more. -/
theorem lines_table (t : WrittenTable) (fuel : Nat) (header : List (List Char)) (kind : TableKind)
    {tables : List (List Char × Value)} (new : t.key ∉ tables.map Prod.fst) (rest : List Char) :
    lines? (fuel + t.entries.length + 1) header ⟨kind, tables⟩ (t.text ++ rest) =
      lines? fuel [t.key] ⟨kind, tables ++ [t.entry]⟩ rest := by
  have text : t.text ++ rest =
      '[' :: (t.key ++ ']' :: '\n' :: (t.entries.flatMap WrittenEntry.line ++ rest)) := by
    simp [WrittenTable.text]
  rw [text, lines_header t.bare, Table.begin_new kind new, Option.bind_some,
    lines_entries t.entries [] (by simpa using t.distinct) fuel kind new]
  rfl

/-- Tables after empty lines are read in their order. -/
theorem lines_tables (written : List WrittenTable) (tables : List (List Char × Value))
    (distinct : (tables.map Prod.fst ++ written.map WrittenTable.key).Nodup) {fuel : Nat}
    (enough : (written.flatMap fun t => '\n' :: t.text).length < fuel)
    (header : List (List Char)) (kind : TableKind) :
    lines? fuel header ⟨kind, tables⟩ (written.flatMap fun t => '\n' :: t.text) =
      some ⟨kind, tables ++ written.map WrittenTable.entry⟩ := by
  induction written generalizing tables fuel header with
  | nil =>
    obtain ⟨fuel, rfl⟩ := Nat.exists_eq_succ_of_ne_zero (Nat.ne_of_gt enough)
    simp [lines_nil]
  | cons t written ih =>
    have new : t.key ∉ tables.map Prod.fst := by
      intro member
      exact (List.nodup_append.mp distinct).2.2 t.key member t.key List.mem_cons_self rfl
    have others : ((tables ++ [t.entry]).map Prod.fst ++ written.map WrittenTable.key).Nodup := by
      simpa [WrittenTable.entry] using distinct
    -- a line is at least one character
    have shorter := t.length_entries_lt
    simp only [List.flatMap_cons, List.length_append, List.length_cons] at enough
    obtain ⟨left, rfl⟩ : ∃ left, fuel = left + t.entries.length + 1 + 1 :=
      ⟨fuel - t.entries.length - 2, by omega⟩
    rw [List.flatMap_cons, List.cons_append, lines_feed, lines_table t left header kind new,
      ih (tables ++ [t.entry]) others (by omega)]
    simp

/-- A document of tables with different names is read as these tables. -/
theorem read_tables (first : WrittenTable) (others : List WrittenTable)
    (distinct : ((first :: others).map WrittenTable.key).Nodup) :
    read? (first.text ++ others.flatMap fun t => '\n' :: t.text) =
      some ⟨.explicit, (first :: others).map WrittenTable.entry⟩ := by
  have read := lines_tables (first :: others) [] (by simpa using distinct) (Nat.lt_succ_self _) []
    .explicit
  simp only [List.flatMap_cons, List.cons_append, List.length_cons] at read
  rw [lines_feed] at read
  exact read

end FrontToc.Toml
