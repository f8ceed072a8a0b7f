import FrontToc.Proofs.LeadingBlankLines
import FrontToc.Proofs.TocRows

/-!
# What a transformation keeps of the body

A document that is rewritten had front matter, and what comes out is rendered from it. Its body is the
body that went in, from the first line that is not blank on, for headings the whole of it and for a
comment what comes after it. The headings written are those of the lines outside of code.
-/
namespace FrontToc

open Text

theorem extractFrontMatter_eq_some {content : List Char} {front : FrontMatter}
    (h : extractFrontMatter content = .ok (some front)) :
    ∃ split, splitFrontMatter? content = some split ∧
      readFrontMatter split.block = .ok front.mapping ∧ front.body = split.body := by
  unfold extractFrontMatter at h
  split at h
  · cases h
  · next split hsplit =>
    split at h
    · cases h
    · next mapping hread =>
      cases h
      exact ⟨split, hsplit, hread, rfl⟩

theorem map_rewritten_iff {rendered : Except Error (List Char)} {out : List Char} :
    rendered.map Transform.rewritten = .ok (.rewritten out) ↔ rendered = .ok out := by
  constructor
  · intro h
    cases rendered with
    | error e => cases h
    | ok doc =>
      cases h
      rfl
  · rintro rfl
    rfl

/-- A document rewritten with its headings is rendered from its own front matter and body. -/
theorem injectHeadings_eq_rewritten {ids : IdSupply} {options : HeadingOptions}
    {content out : List Char} (h : injectHeadings ids options content = .ok (.rewritten out)) :
    ∃ front, extractFrontMatter content = .ok (some front) ∧
      renderDocument front.mapping (bodyHeadings ids options front.body)
        ((shield ids front.body).restore (shield ids front.body).text) = .ok out := by
  unfold injectHeadings at h
  split at h
  · cases h
  · cases h
  · next front hfront => exact ⟨front, hfront, map_rewritten_iff.mp h⟩

/-- A document rewritten from a comment is rendered from its front matter and the text after that. -/
theorem injectTocMarkers_eq_rewritten {content out : List Char}
    (h : injectTocMarkers content = .ok (.rewritten out)) :
    ∃ front toc, extractFrontMatter content = .ok (some front) ∧
      TocMarkers.parse? front.body = some toc ∧
      renderDocument front.mapping toc.headings toc.rest = .ok out := by
  unfold injectTocMarkers at h
  split at h
  · cases h
  · cases h
  · next front hfront =>
    split at h
    · cases h
    · next toc htoc => exact ⟨front, toc, hfront, htoc, map_rewritten_iff.mp h⟩

/-- The text after a table of contents is what follows the first comment. -/
theorem TocMarkers.parse_eq_some {text : List Char} {toc : TocMarkers.Block}
    (h : TocMarkers.parse? text = some toc) :
    ∃ before inner, text = before ++ commentStart ++ (inner ++ commentEnd ++ toc.rest) ∧
      ¬commentStart <:+: before ++ commentStart.dropLast ∧
      ¬commentEnd <:+: inner ++ commentEnd.dropLast := by
  obtain ⟨before, inner, after, hstart, hend, -⟩ := TocMarkers.contains_of_parse h
  refine ⟨before, inner, ?_, not_infix_of_splitAtFirst (by decide) (splitAtFirst_iff.mpr hstart),
    not_infix_of_splitAtFirst (by decide) (splitAtFirst_iff.mpr hend)⟩
  rw [← hend.1]
  exact hstart.1

/-- The headings of a body are those of its lines outside of code, whatever ids are drawn. -/
theorem bodyHeadings_eq {ids : IdSupply} (hids : ids.InOneLine) (options : HeadingOptions)
    (body : List Char) :
    bodyHeadings ids options body = extractHeadings (outsideText body) options := by
  rw [bodyHeadings, extractHeadings, extractHeadings, headingLines_shield hids]

/-- The front matter of a rewritten document is the one it had, with the headings that its lines
outside of code give. No line inside of a block takes part, and no id that is drawn. -/
theorem headings_written_are_outside_code {ids : IdSupply} (hids : ids.Hexadecimal)
    {options : HeadingOptions} {content out : List Char}
    (h : injectHeadings ids options content = .ok (.rewritten out)) :
    ∃ before after m, splitFrontMatter? content = some before ∧
      splitFrontMatter? out = some after ∧ readFrontMatter before.block = .ok m ∧
      bodyHeadings ids options before.body = extractHeadings (outsideText before.body) options ∧
      toYaml (setHeadings m (extractHeadings (outsideText before.body) options)) =
        .ok after.block := by
  obtain ⟨front, hfront, hrender⟩ := injectHeadings_eq_rewritten h
  obtain ⟨before, hbefore, hread, hbody⟩ := extractFrontMatter_eq_some hfront
  obtain ⟨yaml, hyaml, -, hafter⟩ := renderDocument_eq_ok hrender
  have hheadings := bodyHeadings_eq hids.inOneLine options front.body
  rw [hheadings, hbody] at hyaml
  exact ⟨before, _, front.mapping, hbefore, hafter, hread, hbody ▸ hheadings, hyaml⟩

/-- A heading in a code block takes no anchor from the one after it. -/
theorem headings_written_of_code_block :
    injectHeadings .lastDigit { duplicateSlugs := .suffix } "---\n---\n```\n# A\n```\n# A".toList =
      .ok (.rewritten
        "---\nheadings:\n- title: A\n  slug: a\n  depth: 1\n---\n\n```\n# A\n```\n# A".toList) ∧
    ∃ before after m, splitFrontMatter? "---\n---\n```\n# A\n```\n# A".toList = some before ∧
      splitFrontMatter?
        "---\nheadings:\n- title: A\n  slug: a\n  depth: 1\n---\n\n```\n# A\n```\n# A".toList =
        some after ∧
      readFrontMatter before.block = .ok m ∧
      bodyHeadings .lastDigit { duplicateSlugs := .suffix } before.body =
        extractHeadings (outsideText before.body) { duplicateSlugs := .suffix } ∧
      toYaml (setHeadings m
        (extractHeadings (outsideText before.body) { duplicateSlugs := .suffix })) = .ok after.block :=
  ⟨rfl, headings_written_are_outside_code IdSupply.hexadecimal_lastDigit rfl⟩

/-- The body of a document rewritten with its headings is the body it had, code included. -/
theorem injectHeadings_body {ids : IdSupply} (hids : ids.Hexadecimal) {options : HeadingOptions}
    {content out : List Char}
    (hdistinct : ∀ before, splitFrontMatter? content = some before → ids.DistinctFor before.body)
    (h : injectHeadings ids options content = .ok (.rewritten out)) :
    ∃ before after, splitFrontMatter? content = some before ∧ splitFrontMatter? out = some after ∧
      after.body = renderedBody before.body := by
  obtain ⟨front, hfront, hrender⟩ := injectHeadings_eq_rewritten h
  obtain ⟨before, hbefore, -, hbody⟩ := extractFrontMatter_eq_some hfront
  obtain ⟨yaml, -, -, hafter⟩ := renderDocument_eq_ok hrender
  refine ⟨before, _, hbefore, hafter, ?_⟩
  rw [hbody, restore_shield hids _ (hdistinct before hbefore)]

/-- The body of a document rewritten from a comment is what followed the comment. -/
theorem injectTocMarkers_body {content out : List Char}
    (h : injectTocMarkers content = .ok (.rewritten out)) :
    ∃ before after outer inner rest, splitFrontMatter? content = some before ∧
      splitFrontMatter? out = some after ∧
      before.body =
        outer ++ TocMarkers.commentStart ++ (inner ++ TocMarkers.commentEnd ++ rest) ∧
      ¬TocMarkers.commentStart <:+: outer ++ TocMarkers.commentStart.dropLast ∧
      ¬TocMarkers.commentEnd <:+: inner ++ TocMarkers.commentEnd.dropLast ∧
      after.body = renderedBody rest := by
  obtain ⟨front, toc, hfront, htoc, hrender⟩ := injectTocMarkers_eq_rewritten h
  obtain ⟨before, hbefore, -, hbody⟩ := extractFrontMatter_eq_some hfront
  obtain ⟨yaml, -, -, hafter⟩ := renderDocument_eq_ok hrender
  obtain ⟨outer, inner, htext, hfirst, hend⟩ := TocMarkers.parse_eq_some htoc
  exact ⟨before, _, outer, inner, toc.rest, hbefore, hafter, hbody ▸ htext, hfirst, hend, rfl⟩

/-- A rendered document has its second delimiter where it was written, whatever the YAML holds, and
after it a blank line and the body. So a document that is rewritten keeps its body, code included, and
one that is rewritten from a comment what followed the comment. Of a body only the blank lines that it
starts with are left out: what is written is what comes after them, from the first line's indentation
on. -/
theorem front_matter_ends_where_written :
    (∀ (m : Yaml.Mapping) (hs : List Heading) (body doc : List Char),
      renderDocument m hs body = .ok doc →
      ∃ inside, toYaml (setHeadings m hs) = .ok inside.flatten ∧
        (∀ l ∈ inside, isDelimiterLine l = false) ∧
        splitLines doc = (delimiter ++ ['\n'])
          :: (inside ++ (delimiter ++ ['\n']) :: ['\n']
            :: splitLines (stripLeadingBlankLines body)) ∧
        ∃ after, splitFrontMatter? doc = some after ∧ after.block = inside.flatten ∧
          after.body = '\n' :: '\n' :: stripLeadingBlankLines body) ∧
    (∀ (ids : IdSupply) (options : HeadingOptions) (content out : List Char), ids.Hexadecimal →
      (∀ before, splitFrontMatter? content = some before → ids.DistinctFor before.body) →
      injectHeadings ids options content = .ok (.rewritten out) →
      ∃ before after, splitFrontMatter? content = some before ∧
        splitFrontMatter? out = some after ∧
        after.body = '\n' :: '\n' :: stripLeadingBlankLines before.body) ∧
    (∀ content out, injectTocMarkers content = .ok (.rewritten out) →
      ∃ before after outer inner rest, splitFrontMatter? content = some before ∧
        splitFrontMatter? out = some after ∧
        before.body =
          outer ++ TocMarkers.commentStart ++ (inner ++ TocMarkers.commentEnd ++ rest) ∧
        ¬TocMarkers.commentStart <:+: outer ++ TocMarkers.commentStart.dropLast ∧
        ¬TocMarkers.commentEnd <:+: inner ++ TocMarkers.commentEnd.dropLast ∧
        after.body = '\n' :: '\n' :: stripLeadingBlankLines rest) ∧
    ∀ body kept, kept = stripLeadingBlankLines body ↔
      ∃ lead, splitLines body = lead ++ splitLines kept ∧ (∀ line ∈ lead, isBlankText line = true) ∧
        ∀ line ∈ (splitLines kept).head?, isBlankText line = false := by
  refine ⟨fun m hs body doc h => ?_, fun ids options content out hids hdistinct h =>
    injectHeadings_body hids hdistinct h, fun content out h => injectTocMarkers_body h,
    fun body kept => eq_strip_iff⟩
  obtain ⟨inside, hyaml, hno, hlines⟩ := lines_renderDocument h
  obtain ⟨yaml, hyaml', -, hsplit⟩ := renderDocument_eq_ok h
  rw [hyaml] at hyaml'
  cases hyaml'
  exact ⟨inside, hyaml, hno, hlines, _, hsplit, rfl, rfl⟩

/-- A value with a delimiter among its lines, a body of code, and a comment with a table of contents. -/
theorem front_matter_ends_after_delimiter_in_value :
    let quoted := "---\na: |-\n  x\n  ---\n  y\nheadings: []\n---\n\nb".toList
    let code := "---\nheadings: []\n---\n\n```\n# A\n```\n".toList
    let listed := "---\nheadings:\n- title: A\n  slug: a\n  depth: 1\n---\n\n x\n".toList
    (renderDocument [(.str "a".toList, .str "x\n---\ny".toList)] [] "\nb".toList = .ok quoted ∧
      ∃ after, splitFrontMatter? quoted = some after ∧
        after.block = "a: |-\n  x\n  ---\n  y\nheadings: []\n".toList ∧ after.body = "\n\nb".toList) ∧
    (injectHeadings .lastDigit {} "---\n---\n\n```\n# A\n```\n".toList = .ok (.rewritten code) ∧
      ∃ after, splitFrontMatter? code = some after ∧ after.body = "\n\n```\n# A\n```\n".toList) ∧
    injectTocMarkers "---\n---\n<!--\nBEGIN_TOC\nA|a|1\nEND_TOC\n-->\n \n x\n".toList =
        .ok (.rewritten listed) ∧
      ∃ after, splitFrontMatter? listed = some after ∧ after.body = "\n\n x\n".toList := by
  intro quoted code listed
  obtain ⟨hrender, hheadings, hmarkers, hstrip⟩ := front_matter_ends_where_written
  refine ⟨⟨rfl, ?_⟩, ⟨rfl, ?_⟩, rfl, ?_⟩
  · obtain ⟨inside, hyaml, -, -, after, hsplit, hblock, hbody⟩ :=
      hrender [(.str "a".toList, .str "x\n---\ny".toList)] [] "\nb".toList quoted rfl
    rw [← hblock] at hyaml
    exact ⟨after, hsplit, (Except.ok.inj hyaml).symm, hbody⟩
  · obtain ⟨before, after, hbefore, hsplit, hbody⟩ :=
      hheadings .lastDigit {} "---\n---\n\n```\n# A\n```\n".toList code
        IdSupply.hexadecimal_lastDigit
        (fun before h => by
          cases h
          exact IdSupply.distinctBelow_lastDigit.mono (by decide)) rfl
    cases hbefore
    exact ⟨after, hsplit, hbody⟩
  · obtain ⟨before, after, outer, inner, rest, hbefore, hsplit, hcut, hfirst, hend, hbody⟩ :=
      hmarkers "---\n---\n<!--\nBEGIN_TOC\nA|a|1\nEND_TOC\n-->\n \n x\n".toList listed rfl
    cases hbefore
    have hopened := splitAtFirst_of_not_infix hfirst (inner ++ TocMarkers.commentEnd ++ rest)
    rw [← hcut] at hopened
    have hinside : inner ++ TocMarkers.commentEnd ++ rest =
        "\nBEGIN_TOC\nA|a|1\nEND_TOC\n-->\n \n x\n".toList :=
      (congrArg Prod.snd (Option.some.inj hopened)).symm
    have hclosed := splitAtFirst_of_not_infix hend rest
    rw [hinside] at hclosed
    have hrest : rest = "\n \n x\n".toList := (congrArg Prod.snd (Option.some.inj hclosed)).symm
    have hkept : " x\n".toList = stripLeadingBlankLines rest :=
      (hstrip _ _).mpr ⟨["\n".toList, " \n".toList], by rw [hrest]; rfl, by decide, by decide⟩
    exact ⟨after, hsplit, by rw [hbody, ← hkept]; rfl⟩

end FrontToc
