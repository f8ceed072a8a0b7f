import FrontToc.Proofs.KeptLines
import FrontToc.Proofs.RenderedDocument
import FrontToc.Proofs.ValueEq

/-!
# Front matter that is written and read back

A rendered document is read back as the mapping it was rendered from exactly if leaving out blank lines
does not change what the YAML is read as. It does not if all blank lines are kept; a string after a tag
loses its blank lines.
-/
namespace FrontToc

open Text Yaml

theorem extractFrontMatter_of_split {doc : List Char} {split : FrontMatterSplit}
    (h : splitFrontMatter? doc = some split) {m : Mapping} :
    (∃ front, extractFrontMatter doc = .ok (some front) ∧ front.mapping = m) ↔
      readFrontMatter split.block = .ok m := by
  unfold extractFrontMatter
  rw [h]
  dsimp only
  cases readFrontMatter split.block with
  | error fault => simp
  | ok mapping => simp

/-- A block that is not blank is read as the entries of its YAML. -/
theorem readFrontMatter_eq_ok {block : List Char} (hblock : isBlankText block = false) {m : Mapping}
    (hm : m ≠ []) : readFrontMatter block = .ok m ↔ Yaml.read? block = some (.map m) := by
  unfold readFrontMatter
  rw [if_neg (by simp [hblock])]
  split
  · next h => simp [h]
  · next entries h => simp [h]
  · next h => simp [h, Ne.symm hm]
  · next v hmap hnull h =>
    simp only [h, reduceCtorEq, false_iff, Option.some.injEq]
    exact fun hv => hmap m hv

theorem colon_mem_entriesText {indent : Nat} {lead : List Char} {entries : List (Value × Value)}
    (h : entries ≠ []) : ':' ∈ entriesText indent lead entries := by
  match entries with
  | [] => exact absurd rfl h
  | (key, value) :: entries =>
    rw [entriesText_cons, entryText]
    cases simpleKey? key <;> simp

/-- The YAML of a mapping with headings is not blank, also after blank lines are left out. -/
theorem visible_setHeadings (m : Mapping) (hs : List Heading) :
    isBlankText (collapseBlankLines (Mapping.text (setHeadings m hs))) = false := by
  have hcolon : ':' ∈ Mapping.text (setHeadings m hs) := by
    unfold Mapping.text
    rw [if_neg (by simp [setHeadings])]
    exact colon_mem_entriesText (by simp [setHeadings])
  exact List.all_eq_false.mpr ⟨':', mem_collapseBlankLines hcolon (by decide), by decide⟩

theorem renderDocument_of_write {m : Mapping} {hs : List Heading} {yaml : List Char}
    (h : write? (setHeadings m hs) = some yaml) (body : List Char) :
    yaml = Mapping.text (setHeadings m hs) ∧
      renderDocument m hs body = .ok (delimiter ++ '\n' :: collapseBlankLines yaml ++ delimiter
        ++ renderedBody body) := by
  have hyaml : toYaml (setHeadings m hs) = .ok (collapseBlankLines yaml) := by rw [toYaml, h]
  obtain ⟨hwrite, -⟩ := toYaml_eq_ok hyaml
  rw [h] at hwrite
  refine ⟨Option.some.inj hwrite, ?_⟩
  rw [renderDocument, hyaml]
  rfl

/-- What a rendered document is read back as: what its YAML without blank lines is read as. -/
theorem extract_renderDocument {m : Mapping} {hs : List Heading} {body doc : List Char}
    (h : renderDocument m hs body = .ok doc) {entries : Mapping} (hentries : entries ≠ []) :
    (∃ front, extractFrontMatter doc = .ok (some front) ∧ front.mapping = entries) ↔
      Yaml.read? (collapseBlankLines (Mapping.text (setHeadings m hs))) = some (.map entries) := by
  obtain ⟨yaml, hyaml, -, hsplit⟩ := renderDocument_eq_ok h
  obtain ⟨-, rfl⟩ := toYaml_eq_ok hyaml
  rw [extractFrontMatter_of_split hsplit]
  exact readFrontMatter_eq_ok (visible_setHeadings m hs) hentries

/-- A mapping that can be written, and is read back from what is written, is also read back from a
document, with `headings` as its last entry, exactly if the YAML without the blank lines that are left
out reads as the YAML with them. This is so if the strings of the mapping keep their blank lines. -/
theorem read_back_iff_blank_lines_do_not_count {m : Mapping} {hs : List Heading} {yaml : List Char}
    (hwrite : write? (setHeadings m hs) = some yaml)
    (hread : Yaml.read? yaml = some (.map (setHeadings m hs))) (body : List Char) :
    ∃ doc, renderDocument m hs body = .ok doc ∧
      ((∃ front, extractFrontMatter doc = .ok (some front) ∧
          front.mapping = m.filter (fun entry => entry.1.text? ≠ some headingsKey) ++
            [(.str headingsKey, .seq (hs.map Heading.toValue))]) ↔
        Yaml.read? (collapseBlankLines yaml) = Yaml.read? yaml) ∧
      (entriesKeepBlankLines (setHeadings m hs) = true →
        Yaml.read? (collapseBlankLines yaml) = Yaml.read? yaml) := by
  obtain ⟨rfl, hdoc⟩ := renderDocument_of_write hwrite body
  refine ⟨_, hdoc, ?_, fun hkeep => by rw [collapse_mappingText hkeep]⟩
  have hentries : setHeadings m hs ≠ [] := by simp [setHeadings]
  rw [hread, ← extract_renderDocument hdoc hentries, setHeadings]

/-- A string with a blank line right after its key is read back. -/
theorem read_back_of_blank_line_after_key :
    ∃ doc, renderDocument [(.str "a".toList, .str "x\n\ny".toList)] [] [] = .ok doc ∧
      ∃ front, extractFrontMatter doc = .ok (some front) ∧
        front.mapping = [(.str "a".toList, .str "x\n\ny".toList), (.str headingsKey, .seq [])] := by
  have hwrite : write? (setHeadings [(.str "a".toList, .str "x\n\ny".toList)] []) =
      some "a: |-\n  x\n\n  y\nheadings: []\n".toList := rfl
  obtain ⟨doc, hdoc, hiff, hkeep⟩ :=
    read_back_iff_blank_lines_do_not_count hwrite (by decide +kernel) []
  exact ⟨doc, hdoc, hiff.mpr (hkeep (by decide +kernel))⟩

/-- A string with a blank line after a tag is written so that it could be read back, but is not. -/
theorem not_read_back_of_blank_line_after_tag :
    write? (setHeadings [(.str "a".toList, .tagged ⟨"t".toList⟩ (.str "x\n\ny".toList))] []) =
        some "a: !t |-\n  x\n\n  y\nheadings: []\n".toList ∧
      Yaml.read? "a: !t |-\n  x\n\n  y\nheadings: []\n".toList =
        some (.map
          [(.str "a".toList, .tagged ⟨"t".toList⟩ (.str "x\n\ny".toList)),
            (.str headingsKey, .seq [])]) ∧
      ∃ doc, renderDocument [(.str "a".toList, .tagged ⟨"t".toList⟩ (.str "x\n\ny".toList))] [] [] =
          .ok doc ∧
        ¬∃ front, extractFrontMatter doc = .ok (some front) ∧
          front.mapping =
            [(.str "a".toList, .tagged ⟨"t".toList⟩ (.str "x\n\ny".toList)),
              (.str headingsKey, .seq [])] := by
  have hdoc : renderDocument [(.str "a".toList, .tagged ⟨"t".toList⟩ (.str "x\n\ny".toList))] [] [] =
      .ok "---\na: !t |-\n  x\n  y\nheadings: []\n---\n\n".toList := rfl
  refine ⟨rfl, by decide +kernel, _, hdoc, ?_⟩
  rw [extract_renderDocument hdoc (by simp)]
  decide +kernel

end FrontToc
