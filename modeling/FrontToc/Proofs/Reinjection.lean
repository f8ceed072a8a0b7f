import FrontToc.Proofs.FrontMatterBounds
import FrontToc.Proofs.FrontMatterReadBack
import FrontToc.Proofs.LeadingBlankLines
import FrontToc.Proofs.RewrittenBody

/-!
# Injecting headings a second time

A document with its headings gives the same headings and the same body when they are put in again. So
it comes out the same exactly if its YAML does: if what the YAML is read as is again written so. Where
blank lines are kept it is; after a tag the second run writes another block head.
-/
namespace FrontToc

open Text Yaml

/-- Setting the same headings again changes nothing. -/
theorem setHeadings_setHeadings (m : Mapping) (hs hs' : List Heading) :
    setHeadings (setHeadings m hs) hs' = setHeadings m hs' := by
  have hkey : Value.text? (.str headingsKey) = some headingsKey := rfl
  simp [setHeadings, List.filter_filter, List.filter_append, hkey]

/-- The headings are injected into a document as a function of its block and its body. -/
theorem injectHeadings_of_split {ids : IdSupply} (hids : ids.Hexadecimal) (options : HeadingOptions)
    {content : List Char} {split : FrontMatterSplit} (hsplit : splitFrontMatter? content = some split)
    (hdistinct : ids.DistinctFor split.body) {m : Mapping}
    (hread : readFrontMatter split.block = .ok m) :
    injectHeadings ids options content =
      (renderDocument m (extractHeadings (outsideText split.body) options) split.body).map
        .rewritten := by
  have hheadings := bodyHeadings_eq hids.inOneLine options split.body
  rw [bodyHeadings] at hheadings
  rw [injectHeadings, extractFrontMatter_eq_ok hsplit hread]
  dsimp only
  rw [hheadings, restore_shield hids _ hdistinct]

/-- Rendering a body that was rendered before gives the document again exactly if its YAML is written
again. -/
theorem renderDocument_again {m : Mapping} {hs : List Heading} {body yaml : List Char} :
    renderDocument m hs (renderedBody body) =
        .ok (delimiter ++ '\n' :: yaml ++ delimiter ++ renderedBody body) ↔
      toYaml (setHeadings m hs) = .ok yaml := by
  rw [renderDocument]
  cases toYaml (setHeadings m hs) with
  | error e => simp
  | ok yaml' =>
    dsimp only
    rw [stripLeadingBlankLines_renderedBody, ← renderedBody, Except.ok.injEq, Except.ok.injEq]
    constructor
    · intro hdoc
      simpa using hdoc
    · rintro rfl
      rfl

/-- Injecting headings into a rendered document gives it again exactly if its block is what is written,
with the headings of its body, for the mapping it is read as. -/
theorem injectHeadings_rendered_iff {ids : IdSupply} (hids : ids.Hexadecimal)
    {options : HeadingOptions} {doc body : List Char} {split : FrontMatterSplit}
    (hdoc : doc = delimiter ++ '\n' :: split.block ++ delimiter ++ renderedBody body)
    (hsplit : splitFrontMatter? doc = some split) (hbody : split.body = renderedBody body)
    (hdistinct : ids.DistinctFor split.body) :
    injectHeadings ids options doc = .ok (.rewritten doc) ↔
      ∃ m, readFrontMatter split.block = .ok m ∧
        toYaml (setHeadings m (extractHeadings (outsideText body) options)) = .ok split.block := by
  have hread_iff : ∀ {m}, readFrontMatter split.block = .ok m →
      (injectHeadings ids options doc = .ok (.rewritten doc) ↔
        toYaml (setHeadings m (extractHeadings (outsideText body) options)) = .ok split.block) := by
    intro m hread
    rw [injectHeadings_of_split hids options hsplit hdistinct hread, hbody,
      extractHeadings_renderedBody, map_rewritten_iff, hdoc]
    exact renderDocument_again
  constructor
  · intro hsame
    obtain ⟨front, hfront, -⟩ := injectHeadings_eq_rewritten hsame
    obtain ⟨split', hsplit', hread, -⟩ := extractFrontMatter_eq_some hfront
    rw [hsplit] at hsplit'
    cases hsplit'
    exact ⟨front.mapping, hread, (hread_iff hread).mp hsame⟩
  · rintro ⟨m, hread, hyaml⟩
    exact (hread_iff hread).mpr hyaml

/-- YAML that is written for a mapping, keeps its blank lines and is read back is a block that reads as
the mapping. -/
theorem readFrontMatter_of_kept {m : Mapping} {hs : List Heading} {yaml : List Char}
    (hyaml : toYaml (setHeadings m hs) = .ok yaml)
    (hback : Yaml.read? (Mapping.text (setHeadings m hs)) = some (.map (setHeadings m hs)))
    (hkeep : entriesKeepBlankLines (setHeadings m hs) = true) :
    readFrontMatter yaml = .ok (setHeadings m hs) := by
  obtain ⟨-, hcollapse⟩ := toYaml_eq_ok hyaml
  have hvisible : isBlankText yaml = false := hcollapse ▸ visible_setHeadings m hs
  have hentries : setHeadings m hs ≠ [] := by simp [setHeadings]
  rw [readFrontMatter_eq_ok hvisible hentries, hcollapse, collapse_mappingText hkeep]
  exact hback

/-- A rewritten document is rewritten to itself exactly if its block is what is written for the mapping
it is read as. It is so if the mapping written first is read back from its YAML and keeps its blank
lines. -/
theorem injected_again_iff_block_written_again {ids ids' : IdSupply} (hids : ids.Hexadecimal)
    (hids' : ids'.Hexadecimal) {options : HeadingOptions} {content out : List Char}
    (hdistinct : ∀ before, splitFrontMatter? content = some before → ids.DistinctFor before.body)
    (hdistinct' : ∀ after, splitFrontMatter? out = some after → ids'.DistinctFor after.body)
    (h : injectHeadings ids options content = .ok (.rewritten out)) :
    ∃ before after m hs, splitFrontMatter? content = some before ∧
      splitFrontMatter? out = some after ∧ readFrontMatter before.block = .ok m ∧
      hs = extractHeadings (outsideText before.body) options ∧
      toYaml (setHeadings m hs) = .ok after.block ∧
      (injectHeadings ids' options out = .ok (.rewritten out) ↔
        ∃ m', readFrontMatter after.block = .ok m' ∧
          toYaml (setHeadings m' hs) = .ok after.block) ∧
      (Yaml.read? (Mapping.text (setHeadings m hs)) = some (.map (setHeadings m hs)) →
        entriesKeepBlankLines (setHeadings m hs) = true →
        injectHeadings ids' options out = .ok (.rewritten out)) := by
  obtain ⟨front, hfront, hrender⟩ := injectHeadings_eq_rewritten h
  obtain ⟨before, hbefore, hread, hbody⟩ := extractFrontMatter_eq_some hfront
  rw [hbody, restore_shield hids _ (hdistinct before hbefore),
    bodyHeadings_eq hids.inOneLine] at hrender
  obtain ⟨yaml, hyaml, hout, hafter⟩ := renderDocument_eq_ok hrender
  refine ⟨before, _, front.mapping, _, hbefore, hafter, hread, rfl, hyaml, ?_, ?_⟩
  · exact injectHeadings_rendered_iff hids' hout hafter rfl (hdistinct' _ hafter)
  · intro hback hkeep
    refine (injectHeadings_rendered_iff hids' hout hafter rfl (hdistinct' _ hafter)).mpr
      ⟨_, readFrontMatter_of_kept hyaml hback hkeep, ?_⟩
    rw [setHeadings_setHeadings]
    exact hyaml

/-- A document with a code block, and with a blank line in a string, is rewritten to itself. -/
theorem injected_again_of_blank_line_after_key :
    injectHeadings .lastDigit {}
        "---\na: |-\n  x\n\n  y\nheadings: []\n---\n\n```\n# A\n```\n".toList =
      .ok (.rewritten
        "---\na: |-\n  x\n\n  y\nheadings: []\n---\n\n```\n# A\n```\n".toList) := by
  have hdistinct : ∀ split, splitFrontMatter?
      "---\na: \"x\\n\\ny\"\n---\n```\n# A\n```\n".toList = some split →
      IdSupply.lastDigit.DistinctFor split.body := by
    intro split h
    cases h
    exact IdSupply.distinctBelow_lastDigit.mono (by decide)
  have hdistinct' : ∀ split, splitFrontMatter?
      "---\na: |-\n  x\n\n  y\nheadings: []\n---\n\n```\n# A\n```\n".toList = some split →
      IdSupply.lastDigit.DistinctFor split.body := by
    intro split h
    cases h
    exact IdSupply.distinctBelow_lastDigit.mono (by decide)
  have hfirst : injectHeadings .lastDigit {}
        "---\na: \"x\\n\\ny\"\n---\n```\n# A\n```\n".toList =
      .ok (.rewritten
        "---\na: |-\n  x\n\n  y\nheadings: []\n---\n\n```\n# A\n```\n".toList) := by
    decide +kernel
  obtain ⟨before, after, m, hs, hbefore, -, hread, rfl, -, -, hagain⟩ :=
    injected_again_iff_block_written_again IdSupply.hexadecimal_lastDigit
      IdSupply.hexadecimal_lastDigit hdistinct hdistinct' hfirst
  cases hbefore
  have hmapping : m = [(.str "a".toList, .str "x\n\ny".toList)] :=
    Except.ok.inj (hread.symm.trans (by decide +kernel))
  rw [← bodyHeadings_eq IdSupply.hexadecimal_lastDigit.inOneLine, hmapping] at hagain
  exact hagain (by decide +kernel) (by decide +kernel)

/-- A string after a tag is written with another block head the second time, since the blank line at its
end is left out the first time. -/
theorem not_injected_again_of_blank_line_after_tag :
    injectHeadings .lastDigit {} "---\nk: !t \"x\\n\\n\"\n---\n".toList =
        .ok (.rewritten "---\nk: !t |+\n  x\nheadings: []\n---\n\n".toList) ∧
      Yaml.read? (Mapping.text (setHeadings
          [(.str "k".toList, .tagged ⟨"t".toList⟩ (.str "x\n\n".toList))] [])) =
        some (.map (setHeadings
          [(.str "k".toList, .tagged ⟨"t".toList⟩ (.str "x\n\n".toList))] [])) ∧
      injectHeadings .lastDigit {} "---\nk: !t |+\n  x\nheadings: []\n---\n\n".toList =
        .ok (.rewritten "---\nk: !t |\n  x\nheadings: []\n---\n\n".toList) := by
  refine ⟨?_, ?_, ?_⟩ <;> decide +kernel

end FrontToc
