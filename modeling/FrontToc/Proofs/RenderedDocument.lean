import FrontToc.Document
import FrontToc.Proofs.WrittenLines

/-!
# A rendered document has one end of its front matter

The lines of the YAML in a rendered document are lines that the writer wrote, each with its line feed
and none of them a delimiter. So a reader finds the block and the body that the document was made of.
-/
namespace FrontToc

open Text Yaml

/-- Entries end as the value of the last one does, in whichever way its key is written. -/
theorem Yaml.getLast_entriesText {indent : Nat} {key value : Value} {c : Char}
    (h : ∀ compact, (nodeText indent true compact value).getLast? = some c)
    (kept : List (Value × Value)) (lead : List Char) :
    (entriesText indent lead (kept ++ [(key, value)])).getLast? = some c := by
  induction kept generalizing lead with
  | nil =>
    have hmark : ∀ (s : List Char) (compact : Bool),
        (s ++ ':' :: nodeText indent true compact value).getLast? = some c := by
      intro s compact
      rw [List.getLast?_append, List.getLast?_cons, h]
      rfl
    rw [List.nil_append, entriesText_cons, entriesText, List.append_nil, List.getLast?_append,
      entryText]
    cases simpleKey? key <;> simp only [hmark] <;> rfl
  | cons entry kept ih =>
    obtain ⟨k, v⟩ := entry
    rw [List.cons_append, entriesText_cons, List.getLast?_append, ih]
    rfl

theorem Yaml.getLast_endLine_intText (n : Int) : (endLine (intText n)).getLast? = some '\n' := by
  rw [endLine, last_of_number (number_intText n)]
  simp

/-- A heading ends with its depth and a line feed. -/
theorem Heading.getLast_nodeText (h : Heading) (indent : Nat) (inMapping compact : Bool) :
    (nodeText indent inMapping compact h.toValue).getLast? = some '\n' := by
  have hdepth : ∀ compact, (nodeText (indent + 2) true compact (.int h.depth)).getLast? =
      some '\n' := by
    intro compact
    change (' ' :: endLine (intText h.depth)).getLast? = some '\n'
    rw [List.getLast?_cons, Yaml.getLast_endLine_intText]
    rfl
  exact Yaml.getLast_entriesText hdepth
    [(.str "title".toList, .str h.title), (.str "slug".toList, .str h.slug)] _

theorem getLast_headingItems (indent : Nat) (hs : List Heading) (s : List Char)
    (hlast : s.getLast? = some '\n') :
    (s ++ itemsText indent (hs.map Heading.toValue)).getLast? = some '\n' := by
  induction hs generalizing s with
  | nil => simpa [itemsText] using hlast
  | cons h hs ih =>
    rw [List.map_cons, itemsText, ← List.append_assoc]
    refine ih _ ?_
    rw [List.getLast?_append, List.getLast?_append, List.getLast?_cons, h.getLast_nodeText]
    rfl

/-- The list of headings ends with a line feed, be it empty or not. -/
theorem getLast_headingsText (hs : List Heading) (compact : Bool) :
    (nodeText 0 true compact (.seq (hs.map Heading.toValue))).getLast? = some '\n' := by
  cases hs with
  | nil => rfl
  | cons h hs =>
    rw [List.map_cons, nodeText]
    refine getLast_headingItems _ hs _ ?_
    rw [List.getLast?_append, List.getLast?_cons, h.getLast_nodeText]
    rfl

/-- The YAML of a mapping with headings ends with a line feed. -/
theorem getLast_setHeadings (m : Mapping) (hs : List Heading) :
    (Mapping.text (setHeadings m hs)).getLast? = some '\n' := by
  unfold Mapping.text
  rw [if_neg (by simp [setHeadings])]
  exact Yaml.getLast_entriesText (getLast_headingsText hs) _ []

/-- Leaving blank lines out keeps a part of the lines. -/
theorem collapseFrom_sublist (parent : Option Nat) (ls : List (List Char)) :
    (collapseFrom parent ls).Sublist ls := by
  fun_induction collapseFrom parent ls with
  | case1 => exact .slnil
  | case2 parent line rest _ _ ih => exact ih.cons_cons line
  | case3 parent line rest _ _ _ ih => exact ih.cons line
  | case4 parent line rest _ _ _ ih => exact ih.cons_cons line

theorem splitLines_collapseBlankLines (yaml : List Char) :
    splitLines (collapseBlankLines yaml) = collapseFrom none (splitLines yaml) :=
  ((areLines_splitLines yaml).sublist (collapseFrom_sublist _ _)).splitLines_flatten

theorem toYaml_eq_ok {m : Mapping} {yaml : List Char} (h : toYaml m = .ok yaml) :
    write? m = some m.text ∧ yaml = collapseBlankLines m.text := by
  unfold toYaml at h
  split at h
  · cases h
  · next text hwrite =>
    have htext : text = m.text := by
      unfold write? at hwrite
      split at hwrite
      · exact (Option.some.inj hwrite).symm
      · cases hwrite
    subst htext
    cases h
    exact ⟨hwrite, rfl⟩

theorem not_isDelimiterLine {l : List Char} (h : ¬delimiter <+: l) : isDelimiterLine l = false := by
  rw [isDelimiterLine, decide_eq_false_iff_not]
  intro htrim
  exact h (htrim ▸ trimLineEnd_isPrefix l)

/-- The lines of the YAML in a document: each with its line feed, and none of them a delimiter. -/
theorem lines_toYaml {m : Mapping} {hs : List Heading} {yaml : List Char}
    (h : toYaml (setHeadings m hs) = .ok yaml) :
    AreLines (splitLines yaml) ∧ (∀ l ∈ splitLines yaml, l.getLast? = some '\n') ∧
      ∀ l ∈ splitLines yaml, isDelimiterLine l = false := by
  obtain ⟨-, rfl⟩ := toYaml_eq_ok h
  have hsub := splitLines_collapseBlankLines (Mapping.text (setHeadings m hs)) ▸
    collapseFrom_sublist none (splitLines (Mapping.text (setHeadings m hs)))
  have hlines := areLines_splitLines (Mapping.text (setHeadings m hs))
  refine ⟨areLines_splitLines _, fun l hl => ?_, fun l hl => ?_⟩
  · refine hlines.closed ?_ l (hsub.subset hl)
    rw [flatten_splitLines]
    exact getLast_setHeadings m hs
  · exact not_isDelimiterLine (not_prefix_mappingText _ l (hsub.subset hl))

/-- The lines of a document: the delimiter, the lines inside, the delimiter, and those of the rest. -/
theorem splitLines_document {inside : List (List Char)} (hlines : AreLines inside)
    (hclosed : ∀ l ∈ inside, l.getLast? = some '\n') (rest : List Char) :
    splitLines (delimiter ++ '\n' :: inside.flatten ++ delimiter ++ '\n' :: rest) =
      (delimiter ++ ['\n']) :: (inside ++ (delimiter ++ ['\n']) :: splitLines rest) := by
  have hfeed : '\n' ∉ delimiter := by decide
  rw [List.append_assoc, List.append_assoc, List.cons_append, splitLines_append_feed hfeed,
    hlines.splitLines_append hclosed, splitLines_append_feed hfeed]

/-- A document is cut at the delimiter after its YAML. -/
theorem splitFrontMatter_document {inside : List (List Char)} (hlines : AreLines inside)
    (hclosed : ∀ l ∈ inside, l.getLast? = some '\n')
    (hno : ∀ l ∈ inside, isDelimiterLine l = false) (rest : List Char) :
    splitFrontMatter? (delimiter ++ '\n' :: inside.flatten ++ delimiter ++ '\n' :: rest) =
      some
        { block := inside.flatten
          endOffset := byteLength (delimiter ++ '\n' :: inside.flatten ++ delimiter)
          body := '\n' :: rest } := by
  have hdelimiter : isDelimiterLine (delimiter ++ ['\n']) = true := by decide
  have htake : (inside ++ (delimiter ++ ['\n']) :: splitLines rest).takeWhile
      (fun line => !isDelimiterLine line) = inside := by
    rw [List.takeWhile_append_of_pos fun l hl => by rw [hno l hl]; rfl,
      List.takeWhile_cons_of_neg (by rw [hdelimiter]; simp), List.append_nil]
  rw [splitFrontMatter?, splitLines_document hlines hclosed]
  simp only [hdelimiter, if_true, htake, List.drop_left, flatten_splitLines]
  congr 2

/-- The body of a rendered document, less its blank lines, after one blank line. -/
def renderedBody (body : List Char) : List Char :=
  '\n' :: '\n' :: stripLeadingBlankLines body

/-- A rendered document is cut into the YAML and the body that it was made of. -/
theorem renderDocument_eq_ok {m : Mapping} {hs : List Heading} {body doc : List Char}
    (h : renderDocument m hs body = .ok doc) :
    ∃ yaml, toYaml (setHeadings m hs) = .ok yaml ∧
      doc = delimiter ++ '\n' :: yaml ++ delimiter ++ renderedBody body ∧
      splitFrontMatter? doc = some
        { block := yaml
          endOffset := byteLength (delimiter ++ '\n' :: yaml ++ delimiter)
          body := renderedBody body } := by
  unfold renderDocument at h
  split at h
  · cases h
  · next yaml hyaml =>
    cases h
    obtain ⟨hlines, hclosed, hno⟩ := lines_toYaml hyaml
    have hsplit := splitFrontMatter_document hlines hclosed hno ('\n' :: stripLeadingBlankLines body)
    rw [flatten_splitLines] at hsplit
    exact ⟨yaml, hyaml, rfl, hsplit⟩

/-- The first delimiter after the first line of a rendered document is the one written after the YAML:
no line of the YAML is one. A blank line follows, and the body from its first line that is not blank. -/
theorem lines_renderDocument {m : Mapping} {hs : List Heading} {body doc : List Char}
    (h : renderDocument m hs body = .ok doc) :
    ∃ inside, toYaml (setHeadings m hs) = .ok inside.flatten ∧
      (∀ l ∈ inside, isDelimiterLine l = false) ∧
      splitLines doc = (delimiter ++ ['\n'])
        :: (inside ++ (delimiter ++ ['\n']) :: ['\n'] :: splitLines (stripLeadingBlankLines body)) := by
  obtain ⟨yaml, hyaml, rfl, -⟩ := renderDocument_eq_ok h
  obtain ⟨hlines, hclosed, hno⟩ := lines_toYaml hyaml
  refine ⟨splitLines yaml, ?_, hno, ?_⟩
  · rw [flatten_splitLines, hyaml]
  · have hdocument := splitLines_document hlines hclosed ('\n' :: stripLeadingBlankLines body)
    rw [flatten_splitLines] at hdocument
    rw [renderedBody, hdocument, splitLines, if_pos rfl]

end FrontToc
