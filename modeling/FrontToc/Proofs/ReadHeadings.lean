import FrontToc.Proofs.ScannedHeadings
import FrontToc.Yaml.Read
import Mathlib.Tactic.IntervalCases

/-!
# A table of contents as it is read

From the tokens of the table the nodes follow, and from the nodes the values: these are the headings that
were written.
-/
namespace FrontToc.Yaml

open Text

/-- A text without quotes as a node. -/
def Node.plain {ρ : Type} (text : List Char) : Node ρ :=
  .scalar none none true text

/-- A string as a node, without quotes if it was written so. -/
def Node.ofString {ρ : Type} (s : List Char) : Node ρ :=
  .scalar none none (decide (Style.ofString s = .plain)) s

/-- The node of a heading. -/
def Node.ofHeading {ρ : Type} (h : Heading) : Node ρ :=
  .map none none
    [(.plain "title".toList, .ofString h.title), (.plain "slug".toList, .ofString h.slug),
      (.plain "depth".toList, .plain (intText h.depth))]

/-- The node of a table of contents. -/
def Node.ofHeadings {ρ : Type} (hs : List Heading) : Node ρ :=
  .seq none none (hs.map .ofHeading)

namespace Node

open Token.Scan

section

variable {h : Handles} {fuel depth : Nat}

theorem read_scalar {block indentless : Bool} {plain : Bool} {text : List Char} {ts rest : List Token}
    {x : Named}
    (hread : read h depth block indentless (.scalar plain text :: ts) = some (x, rest)) :
    x = .scalar none none plain text ∧ rest = ts := by
  cases depth with
  | zero => cases hread
  | succ depth =>
    simp only [read, properties?, Option.some.injEq, Prod.mk.injEq] at hread
    exact ⟨hread.1.symm, hread.2.symm⟩

/-- An entry of two scalars. -/
theorem blockEntries_scalars {k v : List Char} {p q : Bool} {ts rest : List Token}
    {entries : List (Named × Named)}
    (hread : blockEntries (read h depth) fuel (.key :: .scalar p k :: .value :: .scalar q v :: ts) =
      some (entries, rest)) :
    ∃ fuel' more, entries = (.scalar none none p k, .scalar none none q v) :: more ∧
      blockEntries (read h depth) fuel' ts = some (more, rest) := by
  cases fuel with
  | zero => cases hread
  | succ fuel =>
    simp only [blockEntries, readUnless, endsEntry] at hread
    split at hread
    · cases hread
    · next key after hkey =>
      obtain ⟨rfl, rfl⟩ := read_scalar hkey
      simp only [readValue, readUnless, endsEntry] at hread
      split at hread
      · cases hread
      · next value after hvalue =>
        obtain ⟨rfl, rfl⟩ := read_scalar hvalue
        obtain ⟨⟨more, end_⟩, hmore, heq⟩ := Option.map_eq_some_iff.mp hread
        cases heq
        exact ⟨fuel, more, rfl, hmore⟩

theorem blockEntries_end {ts rest : List Token} {entries : List (Named × Named)} {node : Reader}
    (hread : blockEntries node fuel (.blockEnd :: ts) = some (entries, rest)) : entries = [] ∧ rest = ts := by
  cases fuel <;> simp only [blockEntries, Option.some.injEq, Prod.mk.injEq] at hread <;>
    exact ⟨hread.1.symm, hread.2.symm⟩

/-- The tokens of a heading after the hyphen are its node. -/
theorem read_heading {x : Heading} {ts rest : List Token} {node : Named}
    (hread : read h depth true false ((headingTokens x).tail ++ ts) = some (node, rest)) :
    node = .ofHeading x ∧ rest = ts := by
  cases depth with
  | zero => cases hread
  | succ depth =>
    simp only [headingTokens, List.tail_cons, List.cons_append, List.nil_append, read, properties?,
      if_true] at hread
    obtain ⟨⟨entries, end_⟩, hentries, heq⟩ := Option.map_eq_some_iff.mp hread
    cases heq
    obtain ⟨fuel, more, rfl, hslug⟩ := blockEntries_scalars hentries
    obtain ⟨fuel, more, rfl, hdepth⟩ := blockEntries_scalars hslug
    obtain ⟨fuel, more, rfl, hend⟩ := blockEntries_scalars hdepth
    obtain ⟨rfl, rfl⟩ := blockEntries_end hend
    exact ⟨rfl, rfl⟩

/-- The items of a table of contents, unless there are too many to be read. -/
theorem indentlessItems_headings {hs : List Heading} {rest : List Token} {items : List Named}
    (hread : indentlessItems (read h depth) fuel (hs.flatMap headingTokens ++ [.blockEnd]) =
      some (items, rest)) :
    (items = hs.map .ofHeading ∧ rest = [.blockEnd]) ∨ ∃ ts, rest = .blockEntry :: ts := by
  induction hs generalizing fuel items with
  | nil =>
    cases fuel <;> simp [indentlessItems] at hread <;> simp [hread]
  | cons x hs ih =>
    have hlead : (x :: hs).flatMap headingTokens ++ [.blockEnd] =
        .blockEntry :: ((headingTokens x).tail ++ (hs.flatMap headingTokens ++ [.blockEnd])) := by
      simp [headingTokens]
    have hopens : ∀ ts, ∃ more, (headingTokens x).tail ++ ts = .blockMappingStart :: more :=
      fun ts => ⟨_, rfl⟩
    rw [hlead] at hread
    cases fuel with
    | zero =>
      simp only [indentlessItems, Option.some.injEq, Prod.mk.injEq] at hread
      exact .inr ⟨_, hread.2.symm⟩
    | succ fuel =>
      rw [indentlessItems] at hread
      split at hread
      · cases hread
      · next item after hitem =>
        have hitem : read h depth true false
            ((headingTokens x).tail ++ (hs.flatMap headingTokens ++ [.blockEnd])) = some (item, after) :=
          hitem
        obtain ⟨rfl, rfl⟩ := read_heading hitem
        obtain ⟨⟨more, end_⟩, hmore, heq⟩ := Option.map_eq_some_iff.mp hread
        cases heq
        rcases ih hmore with ⟨rfl, rfl⟩ | hrest
        · exact .inl ⟨rfl, rfl⟩
        · exact .inr hrest

/-- The value of the table's entry, unless there are too many headings to be read. -/
theorem readValue_table {hs : List Heading} {value : Named} {rest : List Token}
    (hread : readValue (read h depth) endsEntry true true ((tableTokens hs).drop 2) = some (value, rest)) :
    (value = .ofHeadings hs ∧ rest = [.blockEnd]) ∨ ∃ ts, rest = .blockEntry :: ts := by
  cases depth with
  | zero => cases hs <;> cases hread
  | succ depth =>
    cases hs with
    | nil =>
      have hnode : readValue (read h (depth + 1)) endsEntry true true ((tableTokens []).drop 2) =
          some (.ofHeadings [], [.blockEnd]) := by
        cases depth <;> rfl
      rw [hnode] at hread
      cases hread
      exact .inl ⟨rfl, rfl⟩
    | cons x hs =>
      have hnode : readValue (read h (depth + 1)) endsEntry true true ((tableTokens (x :: hs)).drop 2) =
          (indentlessItems (read h depth) depth ((x :: hs).flatMap headingTokens ++ [.blockEnd])).map
            fun found => (.seq none none found.1, found.2) := rfl
      rw [hnode] at hread
      obtain ⟨⟨items, end_⟩, hitems, heq⟩ := Option.map_eq_some_iff.mp hread
      cases heq
      rcases indentlessItems_headings hitems with ⟨rfl, rfl⟩ | hrest
      · exact .inl ⟨rfl, rfl⟩
      · exact .inr hrest

/-- The tokens of a table of contents are its entry. -/
theorem blockEntries_table {hs : List Heading} {rest : List Token} {entries : List (Named × Named)}
    (hread : blockEntries (read h depth) fuel (tableTokens hs) = some (entries, rest)) :
    entries = [(.plain headingsKey, .ofHeadings hs)] := by
  cases fuel with
  | zero => cases hread
  | succ fuel =>
    simp only [tableTokens, blockEntries, readUnless, endsEntry] at hread
    split at hread
    · cases hread
    · next key after hkey =>
      obtain ⟨rfl, rfl⟩ := read_scalar hkey
      split at hread
      · cases hread
      · next value after hvalue =>
        obtain ⟨⟨more, end_⟩, hmore, heq⟩ := Option.map_eq_some_iff.mp hread
        cases heq
        rcases readValue_table hvalue with ⟨rfl, rfl⟩ | ⟨ts, rfl⟩
        · obtain ⟨rfl, -⟩ := blockEntries_end hmore
          rfl
        · cases fuel <;> cases hmore

end

/-- A tree is numbered part by part. -/
theorem numberEntries_append {names names' : Names} {as bs : List (Named × Named)}
    {found : List (Node Nat × Node Nat)} (h : numberEntries? names (as ++ bs) = some (found, names')) :
    ∃ before after middle, found = before ++ after ∧ numberEntries? middle bs = some (after, names') := by
  induction as generalizing names found with
  | nil => exact ⟨[], found, names, rfl, h⟩
  | cons entry as ih =>
    rw [List.cons_append, numberEntries?] at h
    split at h
    · cases h
    · split at h
      · cases h
      · next key middle hkey _ value middle' hvalue =>
        obtain ⟨⟨rest, last⟩, hrest, heq⟩ := Option.map_eq_some_iff.mp h
        cases heq
        obtain ⟨before, after, middle, rfl, hafter⟩ := ih hrest
        exact ⟨_ :: before, after, middle, rfl, hafter⟩

theorem number_ofHeading (names : Names) (x : Heading) :
    number? names (.ofHeading x) = some (.ofHeading x, names) := rfl

theorem number_ofHeadings (names : Names) (hs : List Heading) :
    number? names (.ofHeadings hs) = some (.ofHeadings hs, names) := by
  have hitems : numberItems? names (hs.map .ofHeading) = some (hs.map .ofHeading, names) := by
    induction hs with
    | nil => rfl
    | cons x hs ih =>
      rw [List.map_cons, numberItems?, number_ofHeading]
      dsimp only
      rw [ih]
      rfl
  rw [ofHeadings, number?]
  dsimp only [numberAnchor]
  rw [hitems]
  rfl

end Node

theorem resolve_eq_str {s t : List Char} (h : Plain.resolve? s = some (.str t)) : t = s := by
  unfold Plain.resolve? at h
  split at h
  · cases h
  · split at h
    · cases h
    · split at h
      · cases h
      · cases h
      · split at h
        · cases h
        · cases h
          rfl

/-- A text that is written without quotes stands for itself. -/
theorem resolve_of_plain {s : List Char} (h : Style.ofString s = .plain) :
    Plain.resolve? s = some (.str s) := by
  have hother : Plain.isOther s = false := by
    unfold Style.ofString at h
    split at h
    · split at h <;> cases h
    · split at h
      · next hplain =>
        simp only [Style.isAmbiguous, Bool.and_eq_true, Bool.not_eq_true', Bool.or_eq_false_iff] at hplain
        exact hplain.2.1.1.1
      · split at h <;> cases h
  unfold Plain.isOther at hother
  split at hother
  · next t ht => rw [ht, resolve_eq_str ht]
  · cases hother

section

variable (targets : List (Nat × Node Nat)) (depth : Nat)

theorem nodeValue_scalar (inner : Option (Node Nat → Budgeted Value)) {plain : Bool} {text : List Char}
    {v : Value} (h : scalarValue? .none plain text = some v) :
    nodeValue targets inner (.scalar none none plain text) = pure v := by
  have hfollow : followAlias targets (.scalar none none plain text) =
      pure (.scalar none none plain text) := rfl
  rw [nodeValue, hfollow, pure_bind]
  dsimp only [TagKind.of]
  rw [h]
  rfl

theorem nodeValue_seq (value : Node Nat → Budgeted Value) (items : List (Node Nat)) :
    nodeValue targets (some value) (.seq none none items) =
      (fun vs => Value.seq vs) <$> items.mapM value := by
  have hfollow : followAlias targets (.seq none none items) = pure (.seq none none items) := rfl
  rw [nodeValue, hfollow, pure_bind]
  simp [TagKind.of, TagKind.wrap]

theorem nodeValue_map (value : Node Nat → Budgeted Value) (entries : List (Node Nat × Node Nat)) :
    nodeValue targets (some value) (.map none none entries) =
      (fun m => Value.map m) <$> mappingEntries value entries := by
  have hfollow : followAlias targets (.map none none entries) = pure (.map none none entries) := rfl
  rw [nodeValue, hfollow, pure_bind]
  simp [TagKind.of, TagKind.wrap]

theorem valueOf_scalar {plain : Bool} {text : List Char} {v : Value}
    (h : scalarValue? .none plain text = some v) :
    valueOf targets depth (.scalar none none plain text) = pure v := by
  cases depth <;> exact nodeValue_scalar targets _ h

theorem valueOf_ofString (s : List Char) : valueOf targets depth (.ofString s) = pure (.str s) := by
  refine valueOf_scalar targets depth ?_
  cases hstyle : decide (Style.ofString s = .plain) with
  | false => rfl
  | true => exact resolve_of_plain (of_decide_eq_true hstyle)

theorem valueOf_plain {text : List Char} {v : Value} (h : Plain.resolve? text = some v) :
    valueOf targets depth (.plain text) = pure v :=
  valueOf_scalar targets depth h

theorem resolve_depth {depth : Nat} (h : 1 ≤ depth ∧ depth ≤ maxHeadingDepth) :
    Plain.resolve? (intText depth) = some (.int depth) := by
  obtain ⟨hlow, hhigh⟩ := h
  have hhigh : depth ≤ 6 := hhigh
  interval_cases depth <;> rfl

/-- The value of a heading's node is the heading. -/
theorem valueOf_ofHeading {h : Heading} (hdepth : 1 ≤ h.depth ∧ h.depth ≤ maxHeadingDepth) :
    valueOf targets (depth + 1) (.ofHeading h) = pure h.toValue := by
  have hkeys : ∀ key ∈ ["title".toList, "slug".toList, "depth".toList],
      valueOf targets depth (.plain key) = pure (.str key) := by
    intro key hkey
    refine valueOf_plain targets depth ?_
    simp only [List.mem_cons, List.not_mem_nil, or_false] at hkey
    rcases hkey with rfl | rfl | rfl <;> rfl
  rw [valueOf, Node.ofHeading, nodeValue_map]
  simp [mappingEntries, hkeys, valueOf_ofString, valueOf_plain targets depth (resolve_depth hdepth),
    Mapping.hasKey, Value.same, Heading.toValue]

/-- The value of a table's node is the table. -/
theorem valueOf_ofHeadings {hs : List Heading}
    (hdepth : ∀ h ∈ hs, 1 ≤ h.depth ∧ h.depth ≤ maxHeadingDepth) :
    valueOf targets (depth + 2) (.ofHeadings hs) = pure (.seq (hs.map Heading.toValue)) := by
  have hitems : (hs.map Node.ofHeading).mapM (valueOf targets (depth + 1)) =
      pure (hs.map Heading.toValue) := by
    induction hs with
    | nil => rfl
    | cons h hs ih =>
      simp only [List.forall_mem_cons] at hdepth
      simp [valueOf_ofHeading targets depth hdepth.1, ih hdepth.2]
  rw [valueOf, Node.ofHeadings, nodeValue_seq, hitems]
  rfl

end

end FrontToc.Yaml
