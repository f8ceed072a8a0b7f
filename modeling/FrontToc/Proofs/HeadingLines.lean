import FrontToc.Heading
import FrontToc.Proofs.Lines
import FrontToc.Proofs.TextRuns

/-!
# The grammar of heading lines

Which lines are headings, and what their parts are, said without the order in which the parts are looked
for: one to six hashes, spaces or tabs, and the text of the heading, which ends in an anchor if it can be
cut so at all. Of several places to cut it the first counts.
-/
namespace FrontToc

open Text

namespace HeadingLine

/-- A run of spaces and tabs. -/
def Gaps (s : List Char) : Prop :=
  ∀ c ∈ s, isGap c = true

/-- The text `r` cut into `t`, spaces or tabs, an anchor with the id `id`, and spaces or tabs. -/
def Anchored (r t id : List Char) : Prop :=
  ∃ gap tail, r = t ++ (gap ++ '\x7b' :: '#' :: (id ++ '\x7d' :: tail)) ∧ gap ≠ [] ∧ Gaps gap ∧
    id ≠ [] ∧ '\x7d' ∉ id ∧ Gaps tail

/-- How the text of a heading is cut: at the first anchor that fills the rest, if there is any. -/
def Cut (r t : List Char) : Option (List Char) → Prop
  | some id => Anchored r t id ∧ ∀ t' id', Anchored r t' id' → t.length ≤ t'.length
  | none => t = r ∧ ∀ t' id', ¬Anchored r t' id'

/-- The line that a heading with these parts is written in. -/
def Spells (line : List Char) (x : HeadingLine) : Prop :=
  ∃ gap r t, line = List.replicate x.depth '#' ++ (gap ++ r) ∧
    1 ≤ x.depth ∧ x.depth ≤ maxHeadingDepth ∧ gap ≠ [] ∧ Gaps gap ∧
    (∀ c ∈ r.head?, isGap c = false) ∧ Cut r t x.anchor ∧ Trimmed isBlank t x.title ∧ x.title ≠ []

theorem bracedId_eq_some {s id : List Char} :
    bracedId? s = some id ↔
      ∃ tail, s = '\x7b' :: '#' :: (id ++ '\x7d' :: tail) ∧ id ≠ [] ∧ '\x7d' ∉ id ∧ Gaps tail := by
  constructor
  · intro h
    unfold bracedId? at h
    split at h
    · next s =>
      dsimp only at h
      split at h
      · next brace tail hdrop =>
        split at h
        · next hok =>
          cases h
          rw [drop_length_takeWhile] at hdrop
          have hsplit : s = s.takeWhile (· ≠ '\x7d') ++ brace :: tail := by
            rw [← hdrop, List.takeWhile_append_dropWhile]
          obtain rfl : brace = '\x7d' := by
            have := head_dropWhile (· ≠ '\x7d') s brace (by rw [hdrop]; rfl)
            simpa using this
          simp only [Bool.and_eq_true, Bool.not_eq_true', List.isEmpty_eq_false_iff] at hok
          refine ⟨tail, ?_, hok.1, fun hmem => ?_, List.all_eq_true.mp hok.2⟩
          · rw [← hsplit]
          · simpa using List.all_eq_true.mp List.all_takeWhile _ hmem
        · cases h
      · cases h
    · cases h
  · rintro ⟨tail, rfl, hid, hbrace, htail⟩
    have htake : (id ++ '\x7d' :: tail).takeWhile (· ≠ '\x7d') = id :=
      takeWhile_append_run (fun c hc => by simpa using fun he : c = '\x7d' => hbrace (he ▸ hc)) (by simp)
    have htail : tail.all isGap = true := List.all_eq_true.mpr htail
    rw [bracedId?, htake, List.drop_left]
    simp [hid, htail]

theorem anchorAfterGap_eq_some {s id : List Char} : anchorAfterGap? s = some id ↔ Anchored s [] id := by
  constructor
  · intro h
    cases s with
    | nil => cases h
    | cons c s =>
      rw [anchorAfterGap?] at h
      split at h
      · next hc =>
        obtain ⟨tail, hrest, hparts⟩ := bracedId_eq_some.mp h
        refine ⟨(c :: s).takeWhile isGap, tail, ?_, ?_, List.all_eq_true.mp List.all_takeWhile, hparts⟩
        · rw [← hrest, List.nil_append, List.takeWhile_append_dropWhile]
        · rw [List.takeWhile_cons_of_pos hc]
          simp
      · cases h
  · rintro ⟨gap, tail, rfl, hne, hgap, hparts⟩
    have hdrop : (gap ++ '\x7b' :: '#' :: (id ++ '\x7d' :: tail)).dropWhile isGap =
        '\x7b' :: '#' :: (id ++ '\x7d' :: tail) :=
      dropWhile_append_run hgap (by simp [isGap])
    cases gap with
    | nil => exact absurd rfl hne
    | cons c gap =>
      rw [List.nil_append, List.cons_append, anchorAfterGap?, if_pos (hgap c List.mem_cons_self),
        ← List.cons_append, hdrop]
      exact bracedId_eq_some.mpr ⟨tail, rfl, hparts⟩

theorem anchored_cons {c d : Char} {r t id : List Char} :
    Anchored (c :: r) (d :: t) id ↔ c = d ∧ Anchored r t id := by
  simp only [Anchored, List.cons_append, List.cons.injEq, and_assoc, exists_and_left]

theorem Anchored.eq_id {r t id id' : List Char} (h : Anchored r t id) (h' : Anchored r t id') :
    id = id' := by
  induction t generalizing r with
  | nil =>
    have heq := (anchorAfterGap_eq_some.mpr h).symm.trans (anchorAfterGap_eq_some.mpr h')
    exact Option.some.inj heq
  | cons d t ih =>
    cases r with
    | nil =>
      obtain ⟨gap, tail, heq, -⟩ := h
      cases heq
    | cons c r => exact ih (anchored_cons.mp h).2 (anchored_cons.mp h').2

theorem Anchored.isPrefix {r t id : List Char} (h : Anchored r t id) : t <+: r := by
  obtain ⟨gap, tail, rfl, -⟩ := h
  exact List.prefix_append _ _

/-- A text is cut in one way only. -/
theorem Cut.unique {r t t' : List Char} {anchor anchor' : Option (List Char)} (h : Cut r t anchor)
    (h' : Cut r t' anchor') : t = t' ∧ anchor = anchor' := by
  cases anchor with
  | none =>
    cases anchor' with
    | none => exact ⟨h.1.trans h'.1.symm, rfl⟩
    | some id' => exact absurd h'.1 (h.2 t' id')
  | some id =>
    cases anchor' with
    | none => exact absurd h.1 (h'.2 t id)
    | some id' =>
      have hlength : t.length = t'.length := Nat.le_antisymm (h.2 t' id' h'.1) (h'.2 t id h.1)
      obtain rfl : t = t' := by
        rw [List.prefix_iff_eq_take.mp h.1.isPrefix, List.prefix_iff_eq_take.mp h'.1.isPrefix, hlength]
      exact ⟨rfl, congrArg some (h.1.eq_id h'.1)⟩

/-- The search from left to right cuts a text without line feeds. -/
theorem cut_splitAnchor {r : List Char} (no_feed : '\n' ∉ r) :
    ∃ t anchor, splitAnchor? r = some (t, anchor) ∧ Cut r t anchor := by
  induction r with
  | nil =>
    refine ⟨[], none, rfl, rfl, ?_⟩
    rintro t id ⟨gap, tail, heq, -⟩
    simp at heq
  | cons c r ih =>
    have hc : c ≠ '\n' := fun he => no_feed (he ▸ List.mem_cons_self)
    rw [splitAnchor?]
    cases hanchor : anchorAfterGap? (c :: r) with
    | some id => exact ⟨[], some id, rfl, anchorAfterGap_eq_some.mp hanchor, fun _ _ _ => Nat.zero_le _⟩
    | none =>
      have hfirst : ∀ id, ¬Anchored (c :: r) [] id := by
        intro id h
        rw [anchorAfterGap_eq_some.mpr h] at hanchor
        cases hanchor
      obtain ⟨t, anchor, hsplit, hcut⟩ := ih fun hmem => no_feed (List.mem_cons_of_mem _ hmem)
      refine ⟨c :: t, anchor, by simp [hc, hsplit], ?_⟩
      cases anchor with
      | some id =>
        refine ⟨anchored_cons.mpr ⟨rfl, hcut.1⟩, fun t' id' h => ?_⟩
        cases t' with
        | nil => exact absurd h (hfirst id')
        | cons d t' => exact Nat.succ_le_succ (hcut.2 t' id' (anchored_cons.mp h).2)
      | none =>
        refine ⟨congrArg (c :: ·) hcut.1, fun t' id' h => ?_⟩
        cases t' with
        | nil => exact hfirst id' h
        | cons d t' => exact hcut.2 t' id' (anchored_cons.mp h).2

theorem splitAnchor_of_cut {r t : List Char} {anchor : Option (List Char)} (no_feed : '\n' ∉ r)
    (h : Cut r t anchor) : splitAnchor? r = some (t, anchor) := by
  obtain ⟨t', anchor', hsplit, hcut⟩ := cut_splitAnchor no_feed
  obtain ⟨rfl, rfl⟩ := hcut.unique h
  exact hsplit

/-- A heading that is read is written in the line. -/
theorem spells_of_parse {line : List Char} (no_feed : '\n' ∉ line) {x : HeadingLine}
    (h : parse? line = some x) : Spells line x := by
  have hline : line = List.replicate (line.takeWhile (· = '#')).length '#' ++ line.dropWhile (· = '#') := by
    rw [← takeWhile_eq_replicate, List.takeWhile_append_dropWhile]
  unfold parse? at h
  dsimp only at h
  rw [drop_length_takeWhile] at h
  generalize line.dropWhile (· = '#') = after at h hline
  generalize (line.takeWhile (· = '#')).length = depth at h hline
  subst hline
  split at h
  · next hok =>
    have hsplit := List.takeWhile_append_dropWhile (p := isGap) (l := after)
    have hrest : '\n' ∉ after.dropWhile isGap := by
      intro hmem
      refine no_feed (List.mem_append_right _ ?_)
      rw [← hsplit]
      exact List.mem_append_right _ hmem
    obtain ⟨t, anchor, htext, hcut⟩ := cut_splitAnchor hrest
    rw [htext] at h
    dsimp only at h
    split at h
    · cases h
    · next htitle =>
      cases h
      refine ⟨after.takeWhile isGap, after.dropWhile isGap, t, by rw [hsplit], hok.1, hok.2.1, ?_,
        List.all_eq_true.mp List.all_takeWhile, head_dropWhile isGap after, hcut,
        trimmed_trimWhile isBlank t, by simpa using htitle⟩
      intro hnil
      rw [hnil, List.nil_append] at hsplit
      rw [hsplit] at hok
      omega
  · cases h

/-- A heading that is written in the line is read. -/
theorem parse_of_spells {line : List Char} (no_feed : '\n' ∉ line) {x : HeadingLine}
    (h : Spells line x) : parse? line = some x := by
  obtain ⟨depth, title, anchor⟩ := x
  obtain ⟨gap, r, t, rfl, hlow, hhigh, hne, hgap, hr, hcut, htitle, hsome⟩ := h
  obtain ⟨c, gap, rfl⟩ := List.exists_cons_of_ne_nil hne
  have hc : c ≠ '#' := by
    rintro rfl
    have := hgap '#' List.mem_cons_self
    cases this
  have hhashes : (List.replicate depth '#' ++ (c :: gap ++ r)).takeWhile (· = '#') =
      List.replicate depth '#' :=
    takeWhile_append_run (by simp) (by simpa using hc)
  have htext : (c :: gap ++ r).dropWhile isGap = r := dropWhile_append_run hgap hr
  have hfeed : '\n' ∉ r := fun hmem => no_feed (by simp [hmem])
  unfold parse?
  dsimp only at hcut htitle hsome hlow hhigh ⊢
  rw [hhashes, List.drop_left, htext, splitAnchor_of_cut hfeed hcut]
  have htrim : trim t = title := trimmed_iff.mp htitle
  have hshorter : r.length < (c :: gap ++ r).length := by
    rw [List.length_append, List.length_cons]
    omega
  rw [List.length_replicate, if_pos ⟨hlow, hhigh, hshorter⟩]
  simp [htrim, hsome]

/-- A line without a line feed is read as a heading exactly if it is written so: one to six hashes,
which are the depth, spaces or tabs, and a text that does not begin with one. If the text can be cut
before an anchor, set off by spaces or tabs and with nothing else after it, then it is cut at the first
such place and the id of the anchor stays as it is; else the heading has no anchor. The title is what is
before the cut, or all of the text, without the white space at its ends, and must not be empty. -/
theorem parse_iff_spells (line : List Char) (no_feed : '\n' ∉ line) (x : HeadingLine) :
    parse? line = some x ↔ Spells line x :=
  ⟨spells_of_parse no_feed, parse_of_spells no_feed⟩

/-- Of two anchors the second is the one that nothing follows, so the first is part of the title. -/
theorem spells_two_anchors :
    Spells "##  A \x7b#b\x7d\t\x7b#c d\x7d ".toList
      { depth := 2, title := "A \x7b#b\x7d".toList, anchor := some "c d".toList } :=
  (parse_iff_spells "##  A \x7b#b\x7d\t\x7b#c d\x7d ".toList (by decide) _).mp rfl

/-- An anchor that is not set off is part of the title, and so is one that has no title before it. -/
example : parse? "# A\x7b#b\x7d".toList = some ⟨1, "A\x7b#b\x7d".toList, none⟩ ∧
    parse? "# \x7b#b\x7d".toList = some ⟨1, "\x7b#b\x7d".toList, none⟩ := ⟨rfl, rfl⟩

theorem Cut.subset {r t : List Char} {anchor : Option (List Char)} (h : Cut r t anchor) :
    t ⊆ r ∧ ∀ id ∈ anchor, id ⊆ r := by
  cases anchor with
  | none => exact ⟨h.1 ▸ List.Subset.refl r, by simp⟩
  | some id =>
    obtain ⟨⟨gap, tail, rfl, -⟩, -⟩ := h
    refine ⟨List.subset_append_left _ _, ?_⟩
    rintro _ ⟨⟩ c hc
    simp [hc]

/-- The parts of a heading are parts of its line. -/
theorem Spells.subset {line : List Char} {x : HeadingLine} (h : Spells line x) :
    x.title ⊆ line ∧ ∀ id ∈ x.anchor, id ⊆ line := by
  obtain ⟨gap, r, t, rfl, -, -, -, -, -, hcut, htitle, -⟩ := h
  obtain ⟨ht, hid⟩ := hcut.subset
  exact ⟨fun c hc => List.mem_append_right _ (List.mem_append_right _ (ht (htitle.mem hc))),
    fun id h c hc => List.mem_append_right _ (List.mem_append_right _ (hid id h hc))⟩

theorem Spells.depth {line : List Char} {x : HeadingLine} (h : Spells line x) :
    1 ≤ x.depth ∧ x.depth ≤ maxHeadingDepth := by
  obtain ⟨gap, r, t, -, hlow, hhigh, -⟩ := h
  exact ⟨hlow, hhigh⟩

end HeadingLine

/-- The heading lines of a text are written in its lines. -/
theorem spells_of_mem_headingLines {text : List Char} {x : HeadingLine} (h : x ∈ headingLines text) :
    ∃ line ∈ lines text, HeadingLine.Spells line x := by
  obtain ⟨line, hline, hparse⟩ := List.mem_filterMap.mp h
  exact ⟨line, hline, HeadingLine.spells_of_parse (feed_not_mem_lines hline) hparse⟩

end FrontToc
