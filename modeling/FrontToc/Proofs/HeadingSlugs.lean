import FrontToc.Proofs.Anchors
import FrontToc.Proofs.HeadingLines

/-!
# Slugs of headings

Every heading line of a text asks the same slugger for its anchor, in order, before any heading is left
out. So the slug of a heading is settled by the heading lines above it: the range of depths only chooses
among the headings, and text that follows only adds to them.
-/
namespace FrontToc

open Text

/-- The call on the slugger that a heading line makes. -/
def HeadingLine.call (line : HeadingLine) : Slugger.Call :=
  match line.anchor with
  | some id => .reserve id
  | none => .slug line.title

theorem Slugger.anchor_eq_call (s : Slugger) (line : HeadingLine) : s.anchor line = s.call line.call := by
  unfold anchor HeadingLine.call
  cases line.anchor <;> rfl

/-- The headings of lines after others: the slugger goes on from where it is after those. -/
theorem headingsFrom_append (s : Slugger) (above below : List HeadingLine) :
    headingsFrom s (above ++ below) =
      headingsFrom s above ++ headingsFrom (s.after (above.map HeadingLine.call)) below := by
  induction above generalizing s with
  | nil => rfl
  | cons line above ih =>
    rw [List.cons_append, headingsFrom, headingsFrom]
    dsimp only
    rw [ih, Slugger.anchor_eq_call]
    rfl

/-- Each line gives one heading, with its title and depth. -/
theorem headingsFrom_lines (s : Slugger) (ls : List HeadingLine) :
    List.Forall₂ (fun line h => h.title = line.title ∧ h.depth = line.depth) ls (headingsFrom s ls) := by
  induction ls generalizing s with
  | nil => exact .nil
  | cons line ls ih => exact .cons ⟨rfl, rfl⟩ (ih _)

theorem mem_headingsFrom {s : Slugger} {ls : List HeadingLine} {h : Heading} (hh : h ∈ headingsFrom s ls) :
    ∃ line ∈ ls, ∃ s' : Slugger,
      h = { title := line.title, slug := (s'.anchor line).1, depth := line.depth } := by
  induction ls generalizing s with
  | nil => cases hh
  | cons line ls ih =>
    rcases List.mem_cons.mp hh with rfl | hh
    · exact ⟨line, List.mem_cons_self, s, rfl⟩
    · obtain ⟨line', hline, s', hs'⟩ := ih hh
      exact ⟨line', List.mem_cons_of_mem _ hline, s', hs'⟩

/-- The headings of a text, none left out, for each way to treat repeated slugs. -/
theorem extractHeadings_every (text : List Char) (duplicateSlugs : DuplicateSlugs) :
    extractHeadings text { minDepth := 1, maxDepth := 6, duplicateSlugs } =
      headingsFrom (.new duplicateSlugs) (headingLines text) := by
  refine List.filter_eq_self.mpr fun h hh => ?_
  obtain ⟨line, hline, s, rfl⟩ := mem_headingsFrom hh
  obtain ⟨source, -, hspells⟩ := spells_of_mem_headingLines hline
  obtain ⟨hlow, hhigh⟩ := hspells.depth
  simp only [HeadingOptions.includes, Bool.and_eq_true, decide_eq_true_eq]
  exact ⟨hlow, hhigh⟩

/-- The range of depths chooses among the headings of a text and changes none. -/
theorem extractHeadings_eq_filter (text : List Char) (o : HeadingOptions) :
    extractHeadings text o =
      (extractHeadings text { minDepth := 1, maxDepth := 6, duplicateSlugs := o.duplicateSlugs }).filter
        fun h => o.includes h.depth := by
  rw [extractHeadings_every]
  rfl

theorem headingLines_append {above : List Char} (hend : above = [] ∨ above.getLast? = some '\n')
    (below : List Char) : headingLines (above ++ below) = headingLines above ++ headingLines below := by
  have hlines : splitLines (above ++ below) = splitLines above ++ splitLines below := by
    rcases hend with rfl | hend
    · rfl
    · have hls := areLines_splitLines above
      have := hls.splitLines_append (hls.closed (by rwa [flatten_splitLines])) below
      rwa [flatten_splitLines] at this
  rw [headingLines, lines, hlines, List.map_append, List.filterMap_append]
  rfl

/-- Text after the end of a line only adds headings. -/
theorem extractHeadings_prefix {above : List Char} (hend : above = [] ∨ above.getLast? = some '\n')
    (below : List Char) (o : HeadingOptions) :
    extractHeadings above o <+: extractHeadings (above ++ below) o := by
  rw [extractHeadings, extractHeadings, headingLines_append hend, headingsFrom_append, List.filter_append]
  exact List.prefix_append _ _

/-- A slug that is derived from a title is none of the ids before it. -/
theorem Slugger.Keeps.slug_not_mem {s : Slugger} {ids : List (List Char)} (keeps : s.Keeps ids)
    (title : List Char) : (s.slug title).1 ∉ ids := by
  rcases (keeps.call (.slug title)).1 with ⟨hnew, heq⟩ | ⟨-, k, hleast, heq⟩
  · rw [show (s.slug title).1 = slugify title from heq]
    exact hnew
  · rw [show (s.slug title).1 = suffixed (slugify title) k from heq]
    exact hleast.1.2

/-- With a slugger that keeps ids the derived slugs are new: none is an id kept before or the slug of a
heading line above. -/
theorem Slugger.Keeps.pairwise {s : Slugger} {ids : List (List Char)} (keeps : s.Keeps ids)
    (ls : List HeadingLine) :
    (∀ x ∈ ls.zip (headingsFrom s ls), x.1.anchor = none → x.2.slug ∉ ids) ∧
      (ls.zip (headingsFrom s ls)).Pairwise
        fun above below => below.1.anchor = none → below.2.slug ≠ above.2.slug := by
  induction ls generalizing s ids with
  | nil => exact ⟨by simp, .nil⟩
  | cons line ls ih =>
    have hstep : s.anchor line = s.call line.call := s.anchor_eq_call line
    have hkeeps : (s.anchor line).2.Keeps (ids ++ [(s.anchor line).1]) := by
      rw [hstep]
      exact (keeps.call line.call).2
    obtain ⟨hnew, hpairs⟩ := ih hkeeps
    have hzip : (line :: ls).zip (headingsFrom s (line :: ls)) =
        (line, { title := line.title, slug := (s.anchor line).1, depth := line.depth }) ::
          ls.zip (headingsFrom (s.anchor line).2 ls) := rfl
    rw [hzip]
    refine ⟨?_, List.pairwise_cons.mpr ⟨fun x hx hnone heq => ?_, hpairs⟩⟩
    · intro x hx hnone
      rcases List.mem_cons.mp hx with rfl | hx
      · have hslug : s.anchor line = s.slug line.title := by
          rw [Slugger.anchor, hnone]
        rw [show (s.anchor line).1 = (s.slug line.title).1 by rw [hslug]]
        exact keeps.slug_not_mem line.title
      · exact fun hmem => hnew x hx hnone (List.mem_append_left _ hmem)
    · refine hnew x hx hnone ?_
      rw [heq]
      simp

/-- The slug of a heading depends on the headings above it only. A range of depths, be it a valid one or
not, chooses among the headings of a text without touching them; text after the end of a line changes no
heading before it; and if repeats are told apart, then of all heading lines, listed or not, one without
an anchor of its own has another slug than each one above it. -/
theorem slugs_depend_on_headings_above (o : HeadingOptions) :
    (∀ text, extractHeadings text o =
      (extractHeadings text { minDepth := 1, maxDepth := 6, duplicateSlugs := o.duplicateSlugs }).filter
        fun h => o.minDepth.toNat ≤ h.depth ∧ h.depth ≤ o.maxDepth.toNat) ∧
    (∀ above below, (above = [] ∨ above.getLast? = some '\n') →
      extractHeadings above o <+: extractHeadings (above ++ below) o) ∧
    (o.duplicateSlugs = .suffix → ∀ text,
      List.Forall₂ (fun line h => h.title = line.title ∧ h.depth = line.depth) (headingLines text)
        (extractHeadings text { minDepth := 1, maxDepth := 6, duplicateSlugs := o.duplicateSlugs }) ∧
      ((headingLines text).zip
          (extractHeadings text { minDepth := 1, maxDepth := 6, duplicateSlugs := o.duplicateSlugs })).Pairwise
        fun above below => below.1.anchor = none → below.2.slug ≠ above.2.slug) := by
  refine ⟨fun text => ?_, fun above below hend => extractHeadings_prefix hend below o, fun hmode text => ?_⟩
  · rw [extractHeadings_eq_filter]
    congr 1
    funext h
    rw [HeadingOptions.includes, Bool.decide_and]
  · rw [extractHeadings_every, hmode]
    exact ⟨headingsFrom_lines _ _, (Slugger.keeps_new.pairwise (headingLines text)).2⟩

/-- A heading that is left out still takes its slug, so the next one of its title is numbered, and one
more below is numbered on. -/
theorem slugs_of_filtered_repeats :
    [⟨['A'], "a-1".toList, 2⟩] <+:
        extractHeadings ("# A\n## A\n".toList ++ "## B \x7b#a\x7d\n## A".toList)
          { minDepth := 2, duplicateSlugs := .suffix } ∧
      ((headingLines "# A\n## A\n".toList).zip
          [⟨['A'], ['a'], 1⟩, ⟨['A'], "a-1".toList, 2⟩]).Pairwise
        fun (above below : HeadingLine × Heading) =>
          below.1.anchor = none → below.2.slug ≠ above.2.slug := by
  obtain ⟨-, hprefix, hslugs⟩ :=
    slugs_depend_on_headings_above { minDepth := 2, duplicateSlugs := .suffix }
  have hlisted : extractHeadings "# A\n## A\n".toList { minDepth := 2, duplicateSlugs := .suffix } =
      [⟨['A'], "a-1".toList, 2⟩] := by decide +kernel
  have hevery : extractHeadings "# A\n## A\n".toList
      { minDepth := 1, maxDepth := 6, duplicateSlugs := .suffix } =
      [⟨['A'], ['a'], 1⟩, ⟨['A'], "a-1".toList, 2⟩] := by decide +kernel
  exact ⟨hlisted ▸ hprefix "# A\n## A\n".toList _ (.inr rfl), hevery ▸ (hslugs rfl "# A\n## A\n".toList).2⟩

theorem Text.not_blank_of_mem_words (s : List Char) : ∀ w ∈ words s, ∀ c ∈ w, isBlank c = false := by
  fun_induction words s with
  | case1 => simp
  | case2 c cs _ ih => exact ih
  | case3 c hc => simpa using hc
  | case4 c hc d ds _ ih => exact List.forall_mem_cons.mpr ⟨by simpa using hc, ih⟩
  | case5 c hc d ds _ hwords => simpa [hwords] using hc
  | case6 c hc d ds _ w ws hwords ih =>
    rw [hwords] at ih ⊢
    obtain ⟨hw, hws⟩ := List.forall_mem_cons.mp ih
    exact List.forall_mem_cons.mpr ⟨List.forall_mem_cons.mpr ⟨by simpa using hc, hw⟩, hws⟩

theorem Text.mem_intercalate {sep : List Char} {ws : List (List Char)} {c : Char}
    (h : c ∈ List.intercalate sep ws) : c ∈ sep ∨ ∃ w ∈ ws, c ∈ w := by
  induction ws with
  | nil => simp at h
  | cons w ws ih =>
    cases ws with
    | nil => exact .inr ⟨w, List.mem_cons_self, by simpa using h⟩
    | cons w' ws =>
      rw [List.intercalate_cons_cons, List.append_assoc] at h
      rcases List.mem_append.mp h with h | h
      · exact .inr ⟨w, List.mem_cons_self, h⟩
      · rcases List.mem_append.mp h with h | h
        · exact .inl h
        · exact (ih h).imp_right fun ⟨v, hv, hc⟩ => ⟨v, List.mem_cons_of_mem _ hv, hc⟩

theorem feed_not_mem_slugify (title : List Char) : '\n' ∉ slugify title := by
  intro hfeed
  rcases mem_intercalate (mem_trimWhile hfeed) with h | ⟨w, hw, h⟩
  · simp at h
  · have := not_blank_of_mem_words _ w hw '\n' h
    simp [isBlank] at this

theorem Slugger.feed_not_mem_slug (s : Slugger) (title : List Char) : '\n' ∉ (s.slug title).1 := by
  have hslug := feed_not_mem_slugify title
  unfold slug
  split
  · exact hslug
  · unfold unique
    split
    · exact hslug
    · intro hfeed
      rcases List.mem_append.mp hfeed with h | h
      · exact hslug h
      · rcases List.mem_cons.mp h with h | h
        · cases h
        · have := Nat.isDigit_of_mem_toDigits (by decide) (by decide) h
          cases this

/-- Headings are within one line each, and as deep as headings can be. -/
theorem inLine_of_mem_extractHeadings {text : List Char} {o : HeadingOptions} {h : Heading}
    (hh : h ∈ extractHeadings text o) :
    ('\n' ∉ h.title ∧ '\n' ∉ h.slug) ∧ 1 ≤ h.depth ∧ h.depth ≤ maxHeadingDepth := by
  obtain ⟨line, hline, s, rfl⟩ := mem_headingsFrom (List.mem_filter.mp hh).1
  obtain ⟨source, hsource, hspells⟩ := spells_of_mem_headingLines hline
  have hfeed := feed_not_mem_lines hsource
  obtain ⟨htitle, hid⟩ := hspells.subset
  refine ⟨⟨fun h => hfeed (htitle h), ?_⟩, hspells.depth⟩
  dsimp only
  unfold Slugger.anchor
  cases hanchor : line.anchor with
  | none => exact s.feed_not_mem_slug line.title
  | some id =>
    have hreserve : (s.reserve id).1 = id := by
      unfold Slugger.reserve
      split <;> rfl
    rw [hreserve]
    exact fun h => hfeed (hid id hanchor h)

end FrontToc
