import FrontToc.Proofs.FrontMatterReadBack
import FrontToc.Proofs.HeadingSlugs
import FrontToc.Proofs.ReadHeadings
import FrontToc.Proofs.RewrittenBody
import FrontToc.Proofs.TocRows
import FrontToc.Proofs.WrittenCharacters

/-!
# The headings written are the headings read back

Whatever the front matter of a document holds beside it: if what a transformation wrote can be read, the
last entry is the table of contents that was written. Nothing before the table needs to be read as it was
meant, it only has to be read.
-/
namespace FrontToc.Yaml

open Text

section

variable (targets : List (Nat × Node Nat)) (depth : Nat)

/-- The last of several entries, when all of them have values. -/
theorem mappingEntries_concat {value : Node Nat → Budgeted Value} {before : List (Node Nat × Node Nat)}
    {key val : Node Nat} {k v : Value} (hkey : value key = pure k) (hval : value val = pure v)
    {m : Mapping} {budget rest : Nat}
    (h : mappingEntries value (before ++ [(key, val)]) budget = some (m, rest)) :
    ∃ entries, m = entries ++ [(k, v)] := by
  rw [mappingEntries, List.foldlM_append] at h
  obtain ⟨⟨entries, left⟩, -, hlast⟩ := Option.bind_eq_some_iff.mp h
  simp only [List.foldlM_cons, List.foldlM_nil, hkey, hval, pure_bind, bind_pure] at hlast
  split at hlast
  · cases hlast
  · cases hlast
    exact ⟨entries, rfl⟩

end

/-- The value of a document whose last entry is a table of contents. -/
theorem Node.value_of_table {before : List (Node.Named × Node.Named)} {hs : List Heading}
    (hdepth : ∀ h ∈ hs, 1 ≤ h.depth ∧ h.depth ≤ maxHeadingDepth) {v : Value}
    (h : Node.value? (.map none none (before ++ [(.plain headingsKey, .ofHeadings hs)])) = some v) :
    ∃ entries, v = .map (entries ++ [(.str headingsKey, .seq (hs.map Heading.toValue))]) := by
  unfold Node.value? at h
  split at h
  · cases h
  · next node names hnumber =>
    rw [Node.number?] at hnumber
    obtain ⟨⟨numbered, names'⟩, hentries, heq⟩ := Option.map_eq_some_iff.mp hnumber
    cases heq
    obtain ⟨front, last, middle, rfl, hlast⟩ := Node.numberEntries_append hentries
    obtain rfl : last = [(.plain headingsKey, .ofHeadings hs)] := by
      rw [Node.numberEntries?, Node.plain, Node.number?] at hlast
      dsimp only [Node.numberAnchor] at hlast
      rw [Node.number_ofHeadings] at hlast
      cases hlast
      rfl
    obtain ⟨⟨value, left⟩, hvalue, rfl⟩ := Option.map_eq_some_iff.mp h
    generalize hbudget : aliasesPerEvent * _ = budget at hvalue
    generalize htargets : Node.targets _ = targets at hvalue
    rw [deepestNesting, valueOf, nodeValue_map] at hvalue
    obtain ⟨⟨m, rest⟩, hm, heq⟩ := Option.bind_eq_some_iff.mp hvalue
    cases heq
    have hkey : valueOf targets 127 (.plain headingsKey) = pure (.str headingsKey) :=
      valueOf_plain targets 127 rfl
    obtain ⟨entries, rfl⟩ := mappingEntries_concat hkey (valueOf_ofHeadings targets 125 hdepth) hm
    exact ⟨entries, rfl⟩

/-- What reading a text takes if no character of it is altered. -/
theorem tokens_of_read {text : List Char} (unaltered : Unaltered text) {v : Value}
    (h : read? text = some v) :
    ∃ r node, (Token.Scan.start text).Ends r ∧ Node.ofTokens? r.tokens = some node ∧
      node.value? = some v := by
  unfold read? at h
  rw [unaltered.dropByteOrderMark_eq] at h
  dsimp only at h
  rw [unaltered.unifyBreaks_eq] at h
  split at h
  · split at h
    · cases h
    · next tokens htokens =>
      obtain ⟨r, hrun, rfl⟩ := Option.map_eq_some_iff.mp htokens
      obtain ⟨node, hnode, hvalue⟩ := Option.bind_eq_some_iff.mp h
      exact ⟨r, node, ⟨_, hrun⟩, hnode, hvalue⟩
  · cases h

/-- Written YAML with a table of contents, less some of its blank lines, reads as a mapping that ends in
the table, if it reads as anything. -/
theorem read_of_table {m : Mapping} {hs : List Heading}
    (hfeeds : ∀ h ∈ hs, '\n' ∉ h.title ∧ '\n' ∉ h.slug)
    (hdepth : ∀ h ∈ hs, 1 ≤ h.depth ∧ h.depth ≤ maxHeadingDepth) {text : List Char}
    (unaltered : Unaltered text)
    (thin : Thinned true
      (entriesText 0 [] (m ++ [(.str headingsKey, .seq (hs.map Heading.toValue))])) text)
    {v : Value} (h : read? text = some v) :
    ∃ entries, v = .map (entries ++ [(.str headingsKey, .seq (hs.map Heading.toValue))]) := by
  obtain ⟨r, node, run, hnode, hvalue⟩ := tokens_of_read unaltered h
  have loose : ¬Token.Scan.Stuck r := by
    intro stuck
    rw [stuck.ofTokens] at hnode
    cases hnode
  obtain ⟨before, htokens, nested, complete⟩ := Token.Scan.tokens_of_document hfeeds thin run loose
  have foreign : Node.Foreign 1 (Token.Scan.tableTokens hs) :=
    ⟨.key, _, rfl, by simp, by simp, by simp, fun _ => rfl⟩
  rw [htokens, List.cons_append] at hnode
  obtain ⟨depth, fuel, front, last, rest, rfl, hlast⟩ :=
    Node.entries_of_document foreign ⟨before, rfl, nested, complete⟩ hnode
  rw [Node.blockEntries_table hlast] at hvalue
  exact Node.value_of_table hdepth hvalue

end FrontToc.Yaml

namespace FrontToc

open Text Yaml

/-- Leaving blank lines out of written YAML leaves no character that is altered before it is read. -/
theorem unaltered_collapseBlankLines (m : Mapping) : Unaltered (collapseBlankLines m.text) := by
  intro c hc
  obtain ⟨line, hline, hc⟩ := List.mem_flatten.mp hc
  refine unaltered_mappingText m c ?_
  rw [← flatten_splitLines m.text]
  exact List.mem_flatten.mpr ⟨line, (collapseFrom_sublist none _).subset hline, hc⟩

/-- If a rendered document can be read, the last entry of its front matter is the table of contents that
it was rendered with. -/
theorem last_entry_of_rendered {m : Mapping} {hs : List Heading} {body doc : List Char}
    (hfeeds : ∀ h ∈ hs, '\n' ∉ h.title ∧ '\n' ∉ h.slug)
    (hdepth : ∀ h ∈ hs, 1 ≤ h.depth ∧ h.depth ≤ maxHeadingDepth)
    (h : renderDocument m hs body = .ok doc) {read : Option FrontMatter}
    (hread : extractFrontMatter doc = .ok read) :
    ∃ front entries, read = some front ∧
      front.mapping = entries ++ [(.str headingsKey, .seq (hs.map Heading.toValue))] := by
  obtain ⟨yaml, hyaml, -, hsplit⟩ := renderDocument_eq_ok h
  obtain ⟨-, rfl⟩ := toYaml_eq_ok hyaml
  have hthin : Thinned true
      (entriesText 0 [] (m.filter (fun entry => entry.1.text? ≠ some headingsKey) ++
        [(.str headingsKey, .seq (hs.map Heading.toValue))]))
      (collapseBlankLines (Mapping.text (setHeadings m hs))) := by
    have := Thinned.collapseBlankLines (getLast_setHeadings m hs)
    rwa [Mapping.text, if_neg (by simp [setHeadings]), setHeadings] at this ⊢
  have htable : ∀ v, Yaml.read? (collapseBlankLines (Mapping.text (setHeadings m hs))) = some v →
      ∃ entries, v = .map (entries ++ [(.str headingsKey, .seq (hs.map Heading.toValue))]) :=
    fun v => read_of_table hfeeds hdepth (unaltered_collapseBlankLines _) hthin
  unfold extractFrontMatter at hread
  rw [hsplit] at hread
  dsimp only at hread
  unfold readFrontMatter at hread
  rw [if_neg (by simp [visible_setHeadings])] at hread
  cases hvalue : Yaml.read? (collapseBlankLines (Mapping.text (setHeadings m hs))) with
  | none =>
    rw [hvalue] at hread
    cases hread
  | some v =>
    obtain ⟨entries, rfl⟩ := htable v hvalue
    rw [hvalue] at hread
    cases hread
    exact ⟨_, entries, rfl, rfl⟩

/-- The headings that a mode takes from a body. -/
def Mode.headings? (mode : Mode) (ids : IdSupply) (body : List Char) : Option (List Heading) :=
  match mode with
  | .headings options => some (bodyHeadings ids options body)
  | .tocMarkers => (TocMarkers.parse? body).map TocMarkers.Block.headings

/-- The headings written are the headings read back. Whatever the mode, and whatever its front matter
holds: if a document is rewritten and what comes out can be read, then the last entry of the front matter
is `headings`, and its value has the headings that were taken from the body, in their order: each with
its title and slug as strings, character by character, and its depth as a number. -/
theorem headings_written_are_read_back {mode : Mode} {ids : IdSupply} {content out : List Char}
    (h : mode.transform ids content = .ok (.rewritten out)) {read : Option FrontMatter}
    (hread : extractFrontMatter out = .ok read) :
    ∃ before after hs entries, extractFrontMatter content = .ok (some before) ∧ read = some after ∧
      mode.headings? ids before.body = some hs ∧
      after.mapping = entries ++ [(.str "headings".toList, .seq (hs.map fun h => .map
        [(.str "title".toList, .str h.title), (.str "slug".toList, .str h.slug),
          (.str "depth".toList, .int h.depth)]))] := by
  cases mode with
  | headings options =>
    obtain ⟨before, hbefore, hrender⟩ := injectHeadings_eq_rewritten h
    have hlisted : ∀ x ∈ bodyHeadings ids options before.body, ('\n' ∉ x.title ∧ '\n' ∉ x.slug) ∧
        1 ≤ x.depth ∧ x.depth ≤ maxHeadingDepth :=
      fun _ => inLine_of_mem_extractHeadings
    obtain ⟨after, entries, rfl, hlast⟩ := last_entry_of_rendered
      (fun x hx => (hlisted x hx).1) (fun x hx => (hlisted x hx).2) hrender hread
    exact ⟨before, after, _, entries, hbefore, rfl, rfl, hlast⟩
  | tocMarkers =>
    obtain ⟨before, toc, hbefore, htoc, hrender⟩ := injectTocMarkers_eq_rewritten h
    have hrows := TocMarkers.contains_of_parse htoc
    have hlisted : ∀ x ∈ toc.headings, ('\n' ∉ x.title ∧ '\n' ∉ x.slug) ∧
        1 ≤ x.depth ∧ x.depth ≤ maxHeadingDepth := by
      intro x hx
      obtain ⟨row, hrow, hgives⟩ := TocMarkers.gives_of_mem_headings hx
      have hfeed := hrows.feed_not_mem hrow
      exact ⟨⟨fun hmem => hfeed (hgives.subset.1 hmem), fun hmem => hfeed (hgives.subset.2 hmem)⟩,
        hgives.depth⟩
    obtain ⟨after, entries, rfl, hlast⟩ := last_entry_of_rendered
      (fun x hx => (hlisted x hx).1) (fun x hx => (hlisted x hx).2) hrender hread
    refine ⟨before, after, _, entries, hbefore, rfl, ?_, hlast⟩
    rw [Mode.headings?, htoc]
    rfl

/-- A title that looks like a boolean, and one that looks like the head of a block. -/
theorem read_back_of_titles_like_yaml :
    ∃ after entries,
      extractFrontMatter ("---\na: x\nheadings:\n- title: 'true'\n  slug: 'true'\n  depth: 1\n" ++
          "- title: '- |'\n  slug: '~'\n  depth: 2\n---\n\n# true\n## - | \x7b#~\x7d").toList =
        .ok (some after) ∧
      after.mapping = entries ++ [(.str "headings".toList, .seq
        [.map [(.str "title".toList, .str "true".toList), (.str "slug".toList, .str "true".toList),
            (.str "depth".toList, .int 1)],
          .map [(.str "title".toList, .str "- |".toList), (.str "slug".toList, .str "~".toList),
            (.str "depth".toList, .int 2)]])] := by
  generalize hdoc : ("---\na: x\nheadings:\n- title: 'true'\n  slug: 'true'\n  depth: 1\n" ++
    "- title: '- |'\n  slug: '~'\n  depth: 2\n---\n\n# true\n## - | \x7b#~\x7d").toList = out
  have hout : Mode.transform (.headings {}) .lastDigit
      "---\na: x\n---\n# true\n## - | \x7b#~\x7d".toList = .ok (.rewritten out) := by
    rw [← hdoc]
    decide +kernel
  obtain ⟨read, hread⟩ : ∃ read, extractFrontMatter out = .ok read := by
    have hok : (extractFrontMatter out).isOk = true := by
      rw [← hdoc]
      decide +kernel
    cases hread : extractFrontMatter out with
    | error e =>
      rw [hread] at hok
      cases hok
    | ok read => exact ⟨read, rfl⟩
  have hlisted : (extractFrontMatter "---\na: x\n---\n# true\n## - | \x7b#~\x7d".toList).toOption.join.bind
      (fun front => Mode.headings? (.headings {}) .lastDigit front.body) =
      some [⟨"true".toList, "true".toList, 1⟩, ⟨"- |".toList, "~".toList, 2⟩] := by
    decide +kernel
  obtain ⟨before, after, hs, entries, hbefore, rfl, hheadings, hlast⟩ :=
    headings_written_are_read_back hout hread
  rw [hbefore] at hlisted
  obtain rfl := Option.some.inj (hheadings.symm.trans hlisted)
  exact ⟨after, entries, hread, hlast⟩

end FrontToc
