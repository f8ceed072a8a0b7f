import FrontToc.Proofs.Reinjection

/-!
# Taking a table of contents from a comment a second time

A run that finds a table takes the comment and all before it out of the body, so the body becomes
shorter and no text comes out as it went in. A text is left as it is exactly if the first comment of its
body holds no table. What a second run looks through is what followed the comment.
-/
namespace FrontToc

open Text Yaml

/-- Text without the first character of what is looked for does not count. -/
theorem splitAtFirst_append_of_not_mem {c : Char} {lead : List Char} (hlead : c ∉ lead)
    (needle s : List Char) :
    splitAtFirst? (c :: needle) (lead ++ s) =
      (splitAtFirst? (c :: needle) s).map fun (before, after) => (lead ++ before, after) := by
  induction lead with
  | nil => simp
  | cons d lead ih =>
    obtain ⟨hd, hrest⟩ := not_or.mp (mt List.mem_cons.mpr hlead)
    have hstrip : stripStart? (c :: needle) (d :: (lead ++ s)) = none := by
      rw [stripStart?, if_neg hd]
    rw [List.cons_append, splitAtFirst?, hstrip]
    dsimp only
    rw [ih hrest, Option.map_map]
    rfl

/-- A table of contents is found whatever stands before the first angle bracket. -/
theorem TocMarkers.parse_append_of_not_mem {lead : List Char} (hlead : '<' ∉ lead) (text : List Char) :
    parse? (lead ++ text) = parse? text := by
  have hsplit := splitAtFirst_append_of_not_mem hlead ['!', '-', '-'] text
  change splitAtFirst? commentStart _ = (splitAtFirst? commentStart text).map _ at hsplit
  rw [parse?, parse?, hsplit]
  cases splitAtFirst? commentStart text <;> rfl

/-- A body is what is left of it after white space. -/
theorem eq_append_stripLeadingBlankLines (body : List Char) :
    ∃ lead, body = lead ++ stripLeadingBlankLines body ∧ ∀ c ∈ lead, isBlank c = true := by
  refine ⟨_, (flatten_takeWhile_append_strip body).symm, fun c hc => ?_⟩
  obtain ⟨line, hline, hc⟩ := List.mem_flatten.mp hc
  have hline : isBlankText line = true := List.mem_takeWhile_imp hline
  exact List.all_eq_true.mp hline c hc

/-- A rendered body has the table of contents of the body. -/
theorem parse_renderedBody (body : List Char) :
    TocMarkers.parse? (renderedBody body) = TocMarkers.parse? body := by
  obtain ⟨lead, hbody, hblank⟩ := eq_append_stripLeadingBlankLines body
  have hlead : '<' ∉ lead := fun hmem => absurd (hblank _ hmem) (by decide)
  have hfeeds : '<' ∉ ['\n', '\n'] := by decide
  calc
    TocMarkers.parse? (renderedBody body) = TocMarkers.parse? (stripLeadingBlankLines body) :=
      TocMarkers.parse_append_of_not_mem hfeeds _
    _ = TocMarkers.parse? (lead ++ stripLeadingBlankLines body) :=
      (TocMarkers.parse_append_of_not_mem hlead _).symm
    _ = TocMarkers.parse? body := by rw [← hbody]

/-- What a run does to a document whose block can be read. -/
theorem injectTocMarkers_of_split {content : List Char} {split : FrontMatterSplit}
    (hsplit : splitFrontMatter? content = some split) {m : Mapping}
    (hread : readFrontMatter split.block = .ok m) :
    injectTocMarkers content =
      match TocMarkers.parse? split.body with
      | none => .ok (.unchanged .missingTocMarkers)
      | some toc => (renderDocument m toc.headings toc.rest).map .rewritten := by
  cases htoc : TocMarkers.parse? split.body <;>
    simp only [injectTocMarkers, extractFrontMatter_eq_ok hsplit hread, htoc]

/-- A run that does not fail has read the block. -/
theorem readFrontMatter_of_injectTocMarkers {content : List Char} {result : Transform}
    (h : injectTocMarkers content = .ok result) {split : FrontMatterSplit}
    (hsplit : splitFrontMatter? content = some split) : ∃ m, readFrontMatter split.block = .ok m := by
  cases hread : readFrontMatter split.block with
  | ok m => exact ⟨m, rfl⟩
  | error fault =>
    rw [injectTocMarkers, extractFrontMatter_eq_error hsplit hread] at h
    cases h

/-- A run that finds a table leaves a shorter body: the comment is gone, and blank lines are at most
two. -/
theorem injectTocMarkers_shortens {content out : List Char}
    (h : injectTocMarkers content = .ok (.rewritten out)) :
    ∃ before after, splitFrontMatter? content = some before ∧ splitFrontMatter? out = some after ∧
      after.body.length < before.body.length := by
  obtain ⟨before, after, outer, inner, rest, hbefore, hafter, hbody, -, -, hrest⟩ :=
    injectTocMarkers_body h
  refine ⟨before, after, hbefore, hafter, ?_⟩
  obtain ⟨lead, hlead, -⟩ := eq_append_stripLeadingBlankLines rest
  have hle : (stripLeadingBlankLines rest).length ≤ rest.length := by
    conv_rhs => rw [hlead, List.length_append]
    omega
  have hstart : TocMarkers.commentStart.length = 4 := rfl
  have hend : TocMarkers.commentEnd.length = 3 := rfl
  rw [hrest, hbody, renderedBody]
  simp only [List.length_cons, List.length_append]
  omega

/-- A text that a run leaves as it is. -/
def KeptByMarkers (text : List Char) : Prop :=
  ∃ result, injectTocMarkers text = .ok result ∧ result.text text = text

/-- A text is left as it is exactly if it has no front matter, or one that can be read and no table in the
first comment of the body. -/
theorem keptByMarkers_iff (text : List Char) :
    KeptByMarkers text ↔ ∀ split, splitFrontMatter? text = some split →
      (∃ m, readFrontMatter split.block = .ok m) ∧ TocMarkers.parse? split.body = none := by
  constructor
  · rintro ⟨result, hrun, hsame⟩ split hsplit
    obtain ⟨m, hread⟩ := readFrontMatter_of_injectTocMarkers hrun hsplit
    refine ⟨⟨m, hread⟩, ?_⟩
    cases result with
    | rewritten out =>
      -- the text would be its own, shorter, successor
      obtain rfl : out = text := hsame
      obtain ⟨before, after, hbefore, hafter, hshorter⟩ := injectTocMarkers_shortens hrun
      rw [hbefore] at hafter
      cases hafter
      exact absurd hshorter (lt_irrefl _)
    | unchanged reason =>
      rw [injectTocMarkers_of_split hsplit hread] at hrun
      split at hrun
      · next hnone => exact hnone
      · cases hrender : renderDocument m _ _ <;> rw [hrender] at hrun <;> cases hrun
  · intro hkept
    cases hsplit : splitFrontMatter? text with
    | none =>
      refine ⟨.unchanged .missingFrontMatter, ?_, rfl⟩
      rw [injectTocMarkers, extractFrontMatter, hsplit]
    | some split =>
      obtain ⟨⟨m, hread⟩, htoc⟩ := hkept split hsplit
      refine ⟨.unchanged .missingTocMarkers, ?_, rfl⟩
      rw [injectTocMarkers_of_split hsplit hread, htoc]

/-- After a run that finds nothing the next finds nothing. After one that takes a table from a comment
the next leaves the text as it is exactly if the block that was written can be read and no table is in
the first comment of what followed; if there is one, its headings take the place of those written
before. The block can be read where the mapping is read back from what the writer makes of it and keeps
its blank lines. -/
theorem second_run_keeps_iff_no_table_left {content : List Char} {result : Transform}
    (h : injectTocMarkers content = .ok result) :
    (∃ reason, result = .unchanged reason ∧ KeptByMarkers (result.text content)) ∨
    ∃ out before after m toc, result = .rewritten out ∧
      splitFrontMatter? content = some before ∧ splitFrontMatter? out = some after ∧
      readFrontMatter before.block = .ok m ∧ TocMarkers.parse? before.body = some toc ∧
      toYaml (setHeadings m toc.headings) = .ok after.block ∧ after.body = renderedBody toc.rest ∧
      (KeptByMarkers (result.text content) ↔
        (∃ m', readFrontMatter after.block = .ok m') ∧ TocMarkers.parse? toc.rest = none) ∧
      (∀ m' toc', readFrontMatter after.block = .ok m' → TocMarkers.parse? toc.rest = some toc' →
        injectTocMarkers out = (renderDocument m' toc'.headings toc'.rest).map .rewritten) ∧
      (Yaml.read? (Mapping.text (setHeadings m toc.headings)) = some (.map (setHeadings m toc.headings)) →
        entriesKeepBlankLines (setHeadings m toc.headings) = true →
        ∃ m', readFrontMatter after.block = .ok m') := by
  cases result with
  | unchanged reason => exact .inl ⟨reason, rfl, _, h, rfl⟩
  | rewritten out =>
    obtain ⟨front, toc, hfront, htoc, hrender⟩ := injectTocMarkers_eq_rewritten h
    obtain ⟨before, hbefore, hread, hbody⟩ := extractFrontMatter_eq_some hfront
    obtain ⟨yaml, hyaml, -, hafter⟩ := renderDocument_eq_ok hrender
    refine .inr ⟨out, before, _, front.mapping, toc, rfl, hbefore, hafter, hread, hbody ▸ htoc, hyaml, rfl,
      ?_, ?_, fun hback hkeep => ⟨_, readFrontMatter_of_kept hyaml hback hkeep⟩⟩
    · show KeptByMarkers out ↔ _
      rw [keptByMarkers_iff, hafter]
      simp only [Option.some.injEq, forall_eq', parse_renderedBody]
    · intro m' toc' hread' htoc'
      rw [injectTocMarkers_of_split hafter hread', parse_renderedBody, htoc']

/-- A comment after the one with the table is kept. -/
theorem second_run_keeps_comment_after_table :
    KeptByMarkers "---\nheadings:\n- title: A\n  slug: a\n  depth: 1\n---\n\n<!-- z -->".toList := by
  have hfirst : injectTocMarkers "---\n---\n<!--\nBEGIN_TOC\nA|a|1\nEND_TOC\n-->\n\n<!-- z -->".toList =
      .ok (.rewritten "---\nheadings:\n- title: A\n  slug: a\n  depth: 1\n---\n\n<!-- z -->".toList) := rfl
  rcases second_run_keeps_iff_no_table_left hfirst with
    ⟨reason, hother, -⟩ | ⟨out, before, after, m, toc, -, hbefore, -, hread, htoc, -, -, hiff, -, hback⟩
  · cases hother
  · cases hbefore
    obtain rfl : m = [] := Except.ok.inj (hread.symm.trans rfl)
    obtain rfl : toc = ⟨["A|a|1".toList], "\n\n<!-- z -->".toList⟩ := Option.some.inj (htoc.symm.trans rfl)
    exact hiff.mpr ⟨hback (by decide +kernel) rfl, rfl⟩

/-- A second comment with a table is taken by the second run, and so is all before its end: other
headings, and less of the body. -/
theorem second_run_takes_second_table :
    injectTocMarkers
        "---\n---\n<!--\nBEGIN_TOC\nA|a|1\nEND_TOC\n-->\n<!--\nBEGIN_TOC\nEND_TOC\n-->\nx".toList =
      .ok (.rewritten
        "---\nheadings:\n- title: A\n  slug: a\n  depth: 1\n---\n\n<!--\nBEGIN_TOC\nEND_TOC\n-->\nx".toList) ∧
    injectTocMarkers
        "---\nheadings:\n- title: A\n  slug: a\n  depth: 1\n---\n\n<!--\nBEGIN_TOC\nEND_TOC\n-->\nx".toList =
      .ok (.rewritten "---\nheadings: []\n---\n\nx".toList) ∧
    ¬KeptByMarkers
      "---\nheadings:\n- title: A\n  slug: a\n  depth: 1\n---\n\n<!--\nBEGIN_TOC\nEND_TOC\n-->\nx".toList := by
  refine ⟨by decide +kernel, by decide +kernel, fun hkept => ?_⟩
  have hnone := ((keptByMarkers_iff _).mp hkept _ rfl).2
  exact absurd hnone (by decide +kernel)

/-- Two keys that differ in a blank line become the same where it is left out, and the second run cannot
read them. -/
example :
    injectTocMarkers
        "---\n? !t \"x\\n\\ny\"\n: 1\n? !t \"x\\ny\"\n: 2\n---\n<!--\nBEGIN_TOC\nEND_TOC\n-->".toList =
      .ok (.rewritten
        "---\n? !t |-\n  x\n  y\n: 1\n? !t |-\n  x\n  y\n: 2\nheadings: []\n---\n\n".toList) ∧
    injectTocMarkers "---\n? !t |-\n  x\n  y\n: 1\n? !t |-\n  x\n  y\n: 2\nheadings: []\n---\n\n".toList =
      .error (.malformedFrontMatter .invalidYaml) := by
  constructor <;> decide +kernel

end FrontToc
