import FrontToc.Proofs.DrawnIds
import FrontToc.Proofs.FrontMatterBounds
import FrontToc.Proofs.TextRuns

/-!
# Line endings do not matter

A text with a carriage return before each line feed has the same lines but for their endings. It is cut
at the same places, the same fences open and close in it, its YAML and its comment are read alike. So a
document with such line endings becomes what it becomes without, with the line endings of the body kept.
-/
namespace FrontToc

open Text

/-- A text with a carriage return before each line feed. -/
def withCrlf (s : List Char) : List Char :=
  s.flatMap fun c => if c = '\n' then ['\r', '\n'] else [c]

theorem withCrlf_feed (s : List Char) : withCrlf ('\n' :: s) = '\r' :: '\n' :: withCrlf s :=
  rfl

theorem withCrlf_cons {c : Char} (other : c ≠ '\n') (s : List Char) :
    withCrlf (c :: s) = c :: withCrlf s := by
  simp [withCrlf, other]

theorem withCrlf_append (s t : List Char) : withCrlf (s ++ t) = withCrlf s ++ withCrlf t :=
  List.flatMap_append

theorem withCrlf_of_not_mem {s : List Char} (no_feed : '\n' ∉ s) : withCrlf s = s := by
  induction s with
  | nil => rfl
  | cons c s ih =>
    rw [List.mem_cons, not_or] at no_feed
    rw [withCrlf_cons (Ne.symm no_feed.1), ih no_feed.2]

theorem withCrlf_flatten (ls : List (List Char)) : withCrlf ls.flatten = (ls.map withCrlf).flatten := by
  induction ls with
  | nil => rfl
  | cons l ls ih => rw [List.flatten_cons, withCrlf_append, ih, List.map_cons, List.flatten_cons]

theorem isBlankText_withCrlf (s : List Char) : isBlankText (withCrlf s) = isBlankText s := by
  induction s with
  | nil => rfl
  | cons c s ih =>
    rw [isBlankText] at ih ⊢
    by_cases feed : c = '\n'
    · subst feed
      rw [withCrlf_feed, List.all_cons, List.all_cons, ih]
      rfl
    · rw [withCrlf_cons feed, List.all_cons, ih]
      rfl

/-! ## Lines -/

/-- A line without carriage returns, with or without its line feed. -/
structure IsLfLine (l : List Char) : Prop where
  parts : ∃ p, '\n' ∉ p ∧ (l = p ∨ l = p ++ ['\n'])
  no_return : '\r' ∉ l

theorem isLfLine_of_mem {s l : List Char} (no_return : '\r' ∉ s) (member : l ∈ splitLines s) :
    IsLfLine l := by
  have within : '\r' ∉ l := fun inside =>
    no_return (flatten_splitLines s ▸ List.mem_flatten_of_mem member inside)
  have lines := areLines_splitLines s
  generalize splitLines s = ls at member lines
  refine ⟨?_, within⟩
  induction lines with
  | nil => cases member
  | last l' _ no_feed =>
    rw [List.mem_singleton] at member
    exact ⟨l, member ▸ no_feed, .inl rfl⟩
  | cons p ls no_feed _ ih =>
    rcases List.mem_cons.mp member with rfl | member
    · exact ⟨p, no_feed, .inr rfl⟩
    · exact ih member

theorem splitLines_withCrlf (s : List Char) : splitLines (withCrlf s) = (splitLines s).map withCrlf := by
  have lines := areLines_splitLines s
  have whole := flatten_splitLines s
  generalize splitLines s = ls at lines whole
  subst whole
  induction lines with
  | nil => rfl
  | last l some_char no_feed =>
    rw [List.flatten_singleton, List.map_singleton, withCrlf_of_not_mem no_feed,
      splitLines_of_not_mem no_feed some_char]
  | cons p ls no_feed _ ih =>
    have line : withCrlf (p ++ ['\n']) = (p ++ ['\r']) ++ ['\n'] := by
      rw [withCrlf_append, withCrlf_of_not_mem no_feed, List.append_assoc]
      rfl
    rw [List.flatten_cons, withCrlf_append, List.map_cons, line, List.append_assoc, List.singleton_append,
      splitLines_append_feed (by simp [no_feed]), ih]

namespace IsLfLine

variable {l : List Char}

theorem trimLineEnd (line : IsLfLine l) : Text.trimLineEnd (withCrlf l) = Text.trimLineEnd l := by
  obtain ⟨⟨p, no_feed, rfl | rfl⟩, no_return⟩ := line
  · rw [withCrlf_of_not_mem no_feed]
  · rw [withCrlf_append, withCrlf_of_not_mem no_feed, withCrlf_feed]
    have no_return : '\r' ∉ p := fun inside => no_return (List.mem_append_left _ inside)
    have first : p ++ '\r' :: '\n' :: withCrlf [] = (p ++ ['\r']) ++ ['\n'] := by
      rw [List.append_assoc]
      rfl
    rw [first, Text.trimLineEnd, Text.trimLineEnd, dropFinal_concat_self, dropFinal_concat_self,
      dropFinal_concat_self, dropFinal_of_not_mem no_return]

theorem lineEnd (line : IsLfLine l) : Text.lineEnd (withCrlf l) = withCrlf (Text.lineEnd l) := by
  have whole : withCrlf (Text.trimLineEnd l) ++ withCrlf (Text.lineEnd l) = withCrlf l := by
    rw [← withCrlf_append, trimLineEnd_append_lineEnd]
  have no_feed : '\n' ∉ Text.trimLineEnd l := by
    obtain ⟨⟨p, no_feed, rfl | rfl⟩, -⟩ := line
    · exact fun inside => no_feed ((trimLineEnd_isPrefix l).subset inside)
    · rw [Text.trimLineEnd, dropFinal_concat_self]
      exact fun inside => no_feed ((dropFinal_isPrefix '\r' p).subset inside)
  rw [withCrlf_of_not_mem no_feed] at whole
  exact lineEnd_eq whole.symm line.trimLineEnd

theorem lineContent (line : IsLfLine l) : Text.lineContent (withCrlf l) = Text.lineContent l := by
  obtain ⟨⟨p, no_feed, rfl | rfl⟩, no_return⟩ := line
  · rw [withCrlf_of_not_mem no_feed]
  · have no_return : '\r' ∉ p := fun inside => no_return (List.mem_append_left _ inside)
    have first : withCrlf (p ++ ['\n']) = (p ++ ['\r']) ++ ['\n'] := by
      rw [withCrlf_append, withCrlf_of_not_mem no_feed, List.append_assoc]
      rfl
    rw [first, Text.lineContent, Text.lineContent, List.getLast?_concat, List.getLast?_concat,
      if_pos rfl, if_pos rfl, List.dropLast_concat, List.dropLast_concat, dropFinal_concat_self,
      dropFinal_of_not_mem no_return]

theorem isDelimiterLine (line : IsLfLine l) :
    FrontToc.isDelimiterLine (withCrlf l) = FrontToc.isDelimiterLine l := by
  rw [FrontToc.isDelimiterLine, FrontToc.isDelimiterLine, line.trimLineEnd]

end IsLfLine

theorem lines_withCrlf {s : List Char} (no_return : '\r' ∉ s) : lines (withCrlf s) = lines s := by
  rw [lines, lines, splitLines_withCrlf, List.map_map]
  exact List.map_congr_left fun l member => (isLfLine_of_mem no_return member).lineContent

/-- Lines up to the first of some kind, taken with other line endings. -/
theorem takeWhile_withCrlf {test : List Char → Bool} {ls : List (List Char)}
    (same : ∀ l ∈ ls, test (withCrlf l) = test l) :
    (ls.map withCrlf).takeWhile test = (ls.takeWhile test).map withCrlf := by
  induction ls with
  | nil => rfl
  | cons l ls ih =>
    rw [List.map_cons, List.takeWhile_cons, List.takeWhile_cons, same l List.mem_cons_self,
      ih fun l' member => same l' (List.mem_cons_of_mem _ member)]
    split <;> rfl

theorem dropWhile_withCrlf {test : List Char → Bool} {ls : List (List Char)}
    (same : ∀ l ∈ ls, test (withCrlf l) = test l) :
    (ls.map withCrlf).dropWhile test = (ls.dropWhile test).map withCrlf := by
  induction ls with
  | nil => rfl
  | cons l ls ih =>
    rw [List.map_cons, List.dropWhile_cons, List.dropWhile_cons, same l List.mem_cons_self,
      ih fun l' member => same l' (List.mem_cons_of_mem _ member)]
    split <;> rfl

theorem stripLeadingBlankLines_withCrlf (body : List Char) :
    stripLeadingBlankLines (withCrlf body) = withCrlf (stripLeadingBlankLines body) := by
  rw [stripLeadingBlankLines, stripLeadingBlankLines, splitLines_withCrlf,
    dropWhile_withCrlf fun l _ => isBlankText_withCrlf l, withCrlf_flatten]

/-! ## Front matter -/

/-- Block and body are parts of the document. -/
theorem splitFrontMatter?_parts {content : List Char} {split : FrontMatterSplit}
    (cut : splitFrontMatter? content = some split) :
    ∃ opening closing, content = opening ++ split.block ++ closing ++ split.body := by
  obtain ⟨ending, -, -, whole, -⟩ := (isCut_of_split cut).parts
  exact ⟨delimiter ++ ending, delimiter, whole⟩

/-- A document is cut at the same lines. -/
theorem splitFrontMatter?_withCrlf {content : List Char} (no_return : '\r' ∉ content) :
    (splitFrontMatter? (withCrlf content)).map (fun split => (split.block, split.body)) =
      (splitFrontMatter? content).map fun split => (withCrlf split.block, withCrlf split.body) := by
  have lf (l : List Char) (member : l ∈ splitLines content) : IsLfLine l :=
    isLfLine_of_mem no_return member
  rw [splitFrontMatter?, splitFrontMatter?, splitLines_withCrlf]
  generalize splitLines content = ls at lf
  cases ls with
  | nil => rfl
  | cons first rest =>
    have inside : (rest.map withCrlf).takeWhile (fun line => !isDelimiterLine line) =
        (rest.takeWhile fun line => !isDelimiterLine line).map withCrlf :=
      takeWhile_withCrlf fun l member => by rw [(lf l (List.mem_cons_of_mem _ member)).isDelimiterLine]
    simp only [List.map_cons, (lf first List.mem_cons_self).isDelimiterLine, inside, List.length_map,
      ← List.map_drop]
    split
    · generalize dropped : rest.drop _ = after
      cases after with
      | nil => rfl
      | cons closing after =>
        have within : closing ∈ first :: rest :=
          List.mem_cons_of_mem _ (List.mem_of_mem_drop (dropped ▸ List.mem_cons_self))
        simp only [List.map_cons, Option.map_some, (lf closing within).lineEnd, withCrlf_flatten,
          withCrlf_append]
    · rfl

theorem unifyBreaks_withCrlf {s : List Char} (no_return : '\r' ∉ s) :
    Yaml.unifyBreaks (withCrlf s) = Yaml.unifyBreaks s := by
  induction s with
  | nil => rfl
  | cons c s ih =>
    rw [List.mem_cons, not_or] at no_return
    have rest := ih no_return.2
    by_cases feed : c = '\n'
    · subst feed
      rw [withCrlf_feed, Yaml.unifyBreaks, rest]
      rfl
    · rw [withCrlf_cons feed]
      by_cases next_line : c = '\x85'
      · subst next_line
        rw [Yaml.unifyBreaks, Yaml.unifyBreaks, rest]
      · rw [Yaml.unifyBreaks, Yaml.unifyBreaks, rest] <;> simp_all [eq_comm]

/-- YAML is read alike. -/
theorem yamlRead_withCrlf {s : List Char} (no_return : '\r' ∉ s) :
    Yaml.read? (withCrlf s) = Yaml.read? s := by
  have mark : Yaml.dropByteOrderMark (withCrlf s) = withCrlf (Yaml.dropByteOrderMark s) := by
    cases s with
    | nil => rfl
    | cons c s =>
      by_cases feed : c = '\n'
      · subst feed
        rfl
      · rw [withCrlf_cons feed, Yaml.dropByteOrderMark, Yaml.dropByteOrderMark]
        split
        · rfl
        · rw [withCrlf_cons feed]
  have within : '\r' ∉ Yaml.dropByteOrderMark s := by
    cases s with
    | nil => exact no_return
    | cons c s =>
      rw [Yaml.dropByteOrderMark]
      split
      · exact fun inside => no_return (List.mem_cons_of_mem _ inside)
      · exact no_return
  have allowed (t : List Char) : (withCrlf t).all Yaml.isAllowed = t.all Yaml.isAllowed := by
    induction t with
    | nil => rfl
    | cons c t ih =>
      by_cases feed : c = '\n'
      · subst feed
        rw [withCrlf_feed, List.all_cons, List.all_cons, List.all_cons, ih]
        rfl
      · rw [withCrlf_cons feed, List.all_cons, List.all_cons, ih]
  rw [Yaml.read?, Yaml.read?]
  simp only [mark, allowed, unifyBreaks_withCrlf within]

theorem readFrontMatter_withCrlf {block : List Char} (no_return : '\r' ∉ block) :
    readFrontMatter (withCrlf block) = readFrontMatter block := by
  rw [readFrontMatter, readFrontMatter, isBlankText_withCrlf, yamlRead_withCrlf no_return]

/-- The front matter of a document is the same, and the text after it has the other line endings. -/
theorem extractFrontMatter_withCrlf {content : List Char} (no_return : '\r' ∉ content) :
    (extractFrontMatter (withCrlf content)).map (Option.map fun front => (front.mapping, front.body)) =
      (extractFrontMatter content).map
        (Option.map fun front => (front.mapping, withCrlf front.body)) := by
  have cuts := splitFrontMatter?_withCrlf no_return
  rw [extractFrontMatter, extractFrontMatter]
  cases cut : splitFrontMatter? content with
  | none =>
    rw [cut, Option.map_none, Option.map_eq_none_iff] at cuts
    rw [cuts]
    rfl
  | some split =>
    rw [cut, Option.map_some] at cuts
    obtain ⟨split', cut', same⟩ := Option.map_eq_some_iff.mp cuts
    obtain ⟨block, body⟩ := Prod.mk.inj same
    obtain ⟨opening, closing, parts⟩ := splitFrontMatter?_parts cut
    have within : '\r' ∉ split.block := fun inside => no_return (by simp [parts, inside])
    simp only [cut', block, readFrontMatter_withCrlf within]
    cases readFrontMatter split.block with
    | error fault => rfl
    | ok mapping =>
      simp only [Except.map, Option.map_some, body]

/-! ## Headings -/

theorem outsideLines_withCrlf {ls : List (List Char)} (lf : ∀ l ∈ ls, IsLfLine l) :
    outsideLines (ls.map withCrlf) = (outsideLines ls).map withCrlf := by
  fun_induction outsideLines ls with
  | case1 => rw [List.map_nil, outsideLines]
  | case2 l ls fence opens ih =>
    have skipped : skipBlock fence (ls.map withCrlf) = (skipBlock fence ls).map withCrlf := by
      rw [skipBlock, skipBlock, dropWhile_withCrlf fun l member => by
        rw [(lf l (List.mem_cons_of_mem _ member)).trimLineEnd], List.map_tail]
    rw [List.map_cons, outsideLines_opening ((lf l List.mem_cons_self).trimLineEnd.symm ▸ opens), skipped,
      ih fun l member => lf l (List.mem_cons_of_mem _ ((skipBlock_sublist fence _).subset member))]
  | case3 l ls plain ih =>
    rw [List.map_cons, outsideLines_plain ((lf l List.mem_cons_self).trimLineEnd.symm ▸ plain),
      ih fun l member => lf l (List.mem_cons_of_mem _ member), List.map_cons]

/-- The headings outside of code are the same. -/
theorem extractHeadings_withCrlf {body : List Char} (no_return : '\r' ∉ body)
    (options : HeadingOptions) :
    extractHeadings (outsideText (withCrlf body)) options =
      extractHeadings (outsideText body) options := by
  have lf (l : List Char) (member : l ∈ splitLines body) : IsLfLine l :=
    isLfLine_of_mem no_return member
  have same : headingLines (outsideText (withCrlf body)) = headingLines (outsideText body) := by
    rw [headingLines_eq, headingLines_eq, splitLines_outsideText, splitLines_outsideText,
      splitLines_withCrlf, outsideLines_withCrlf lf, List.filterMap_map]
    refine List.filterMap_congr fun l member => ?_
    rw [Function.comp_apply, lineHeading?, lineHeading?,
      (lf l ((outsideLines_sublist _).subset member)).lineContent]
  rw [extractHeadings, extractHeadings, same]

/-! ## Comments -/

section

variable {needle : List Char} (no_feed : '\n' ∉ needle) (no_return : '\r' ∉ needle)

include no_feed no_return in
theorem stripStart?_withCrlf (s : List Char) :
    stripStart? needle (withCrlf s) = (stripStart? needle s).map withCrlf := by
  induction needle generalizing s with
  | nil => cases s <;> rfl
  | cons n ns ih =>
    rw [List.mem_cons, not_or] at no_feed no_return
    cases s with
    | nil => rfl
    | cons c s =>
      by_cases feed : c = '\n'
      · subst feed
        rw [withCrlf_feed, stripStart?, stripStart?, if_neg (Ne.symm no_return.1),
          if_neg (Ne.symm no_feed.1)]
        rfl
      · rw [withCrlf_cons feed, stripStart?, stripStart?]
        split
        · exact ih no_feed.2 no_return.2 s
        · rfl

include no_feed no_return in
/-- A text without line feeds is found at the same place. -/
theorem splitAtFirst?_withCrlf (some_char : needle ≠ []) (s : List Char) :
    splitAtFirst? needle (withCrlf s) =
      (splitAtFirst? needle s).map fun (before, after) => (withCrlf before, withCrlf after) := by
  obtain ⟨n, ns, rfl⟩ := List.exists_cons_of_ne_nil some_char
  induction s with
  | nil => rfl
  | cons c s ih =>
    have here := stripStart?_withCrlf no_feed no_return (c :: s)
    by_cases feed : c = '\n'
    · subst feed
      rw [List.mem_cons, not_or] at no_feed no_return
      have at_return (t : List Char) : stripStart? (n :: ns) ('\r' :: t) = none := by
        rw [stripStart?, if_neg (Ne.symm no_return.1)]
      have at_feed (t : List Char) : stripStart? (n :: ns) ('\n' :: t) = none := by
        rw [stripStart?, if_neg (Ne.symm no_feed.1)]
      rw [withCrlf_feed, splitAtFirst?, splitAtFirst?, splitAtFirst?, at_return, at_feed, at_feed, ih]
      simp only [Option.map_map]
      rfl
    · rw [withCrlf_cons feed] at here ⊢
      rw [splitAtFirst?, splitAtFirst?, here, ih]
      cases stripStart? (n :: ns) (c :: s) with
      | some rest => rfl
      | none =>
        simp only [Option.map_none, Option.map_map]
        refine congrFun (congrArg _ (funext fun _ => ?_)) _
        simp only [Function.comp_apply, withCrlf_cons feed]

end

/-- A comment gives the same rows, and the text after it has the other line endings. -/
theorem tocMarkers_parse?_withCrlf {body : List Char} (no_return : '\r' ∉ body) :
    TocMarkers.parse? (withCrlf body) =
      (TocMarkers.parse? body).map fun toc => { toc with rest := withCrlf toc.rest } := by
  rw [TocMarkers.parse?, TocMarkers.parse?, splitAtFirst?_withCrlf (by decide) (by decide) (by decide)]
  cases opened : splitAtFirst? TocMarkers.commentStart body with
  | none => rfl
  | some parts =>
    obtain ⟨before, after⟩ := parts
    have closes : splitAtFirst? TocMarkers.commentEnd (withCrlf after) = _ :=
      splitAtFirst?_withCrlf (by decide) (by decide) (by decide) after
    simp only [Option.map_some, closes]
    cases closed : splitAtFirst? TocMarkers.commentEnd after with
    | none => rfl
    | some parts =>
      obtain ⟨inner, rest⟩ := parts
      have within : '\r' ∉ inner := by
        intro inside
        rw [splitAtFirst_eq_some opened, splitAtFirst_eq_some closed] at no_return
        simp [inside] at no_return
      simp only [Option.map_some, TocMarkers.commentLines, lines_withCrlf within]
      cases TocMarkers.rows? _ <;> rfl

/-! ## Documents -/

/-- Two documents with the same front matter, from the opening to the closing line, and bodies of which
the second is the first with other line endings. The blank line before a body is a mere line feed. -/
def SameButEndings (out out' : List Char) : Prop :=
  ∃ yaml body, (splitFrontMatter? out).map FrontMatterSplit.block = some yaml ∧
    (splitFrontMatter? out').map FrontMatterSplit.block = some yaml ∧
    out = delimiter ++ '\n' :: yaml ++ delimiter ++ '\n' :: '\n' :: body ∧
    out' = delimiter ++ '\n' :: yaml ++ delimiter ++ '\n' :: '\n' :: withCrlf body

/-- Two results of the same kind: the same error, the same reason to leave a document as it is, or
documents that differ in the line endings of their bodies. -/
inductive SameResult : Except Error Transform → Except Error Transform → Prop where
  | error (e : Error) : SameResult (.error e) (.error e)
  | unchanged (reason : SkipReason) : SameResult (.ok (.unchanged reason)) (.ok (.unchanged reason))
  | rewritten {out out' : List Char} (same : SameButEndings out out') :
    SameResult (.ok (.rewritten out)) (.ok (.rewritten out'))

/-- A document is rendered with the same YAML, before a body with the other line endings. -/
theorem renderDocument_withCrlf (mapping : Yaml.Mapping) (headings : List Heading) (body : List Char) :
    SameResult ((renderDocument mapping headings body).map .rewritten)
      ((renderDocument mapping headings (withCrlf body)).map .rewritten) := by
  cases rendered : renderDocument mapping headings body with
  | error e =>
    have failed : toYaml (setHeadings mapping headings) = .error e := by
      rw [renderDocument] at rendered
      split at rendered
      · next failed =>
        cases rendered
        exact failed
      · cases rendered
    rw [renderDocument, failed]
    exact .error e
  | ok out =>
    obtain ⟨yaml, written, out_eq, cut⟩ := renderDocument_eq_ok rendered
    have rendered' : renderDocument mapping headings (withCrlf body) =
        .ok (delimiter ++ '\n' :: yaml ++ delimiter ++
          '\n' :: '\n' :: withCrlf (stripLeadingBlankLines body)) := by
      rw [renderDocument, written, stripLeadingBlankLines_withCrlf]
    obtain ⟨yaml', written', -, cut'⟩ := renderDocument_eq_ok rendered'
    cases written.symm.trans written'
    rw [rendered']
    exact .rewritten
      ⟨yaml, stripLeadingBlankLines body, by rw [cut]; rfl, by rw [cut']; rfl, out_eq, rfl⟩

/-- A document whose line feeds become line endings of two characters comes to the same result: the same
error, the same reason to leave it as it is, or a text with the same front matter and with a body that
keeps its line endings. -/
theorem line_endings_do_not_matter {ids ids' : IdSupply} {content : List Char}
    (no_return : '\r' ∉ content) (suits : ids.Suits content) (suits' : ids'.Suits (withCrlf content))
    (mode : Mode) :
    SameResult (mode.transform ids content) (mode.transform ids' (withCrlf content)) := by
  have fronts := extractFrontMatter_withCrlf no_return
  cases extracted : extractFrontMatter content with
  | error e =>
    have extracted' : extractFrontMatter (withCrlf content) = .error e := by
      cases found : extractFrontMatter (withCrlf content) <;> simp_all [Except.map]
    cases mode <;>
    · simp only [Mode.transform, injectHeadings, injectTocMarkers, extracted, extracted']
      exact .error e
  | ok front? =>
    cases front? with
    | none =>
      have extracted' : extractFrontMatter (withCrlf content) = .ok none := by
        cases found : extractFrontMatter (withCrlf content) <;> simp_all [Except.map]
      cases mode <;>
      · simp only [Mode.transform, injectHeadings, injectTocMarkers, extracted, extracted']
        exact .unchanged _
    | some front =>
      obtain ⟨front', extracted', mapping, body⟩ : ∃ front',
          extractFrontMatter (withCrlf content) = .ok (some front') ∧
            front'.mapping = front.mapping ∧ front'.body = withCrlf front.body := by
        rcases found : extractFrontMatter (withCrlf content) with _ | _ | front' <;>
          simp_all [Except.map]
      obtain ⟨split, cut, -, from_split⟩ := extractFrontMatter_eq_some extracted
      obtain ⟨opening, closing, parts⟩ := splitFrontMatter?_parts cut
      have no_return_body : '\r' ∉ front.body := fun inside =>
        no_return (by simp [parts, ← from_split, inside])
      cases mode with
      | headings options =>
        rw [Mode.transform, Mode.transform, suits.injectHeadings_eq, suits'.injectHeadings_eq, extracted,
          extracted']
        dsimp only
        rw [mapping, body, extractHeadings_withCrlf no_return_body]
        exact renderDocument_withCrlf _ _ _
      | tocMarkers =>
        rw [Mode.transform, Mode.transform, injectTocMarkers, injectTocMarkers, extracted, extracted']
        dsimp only
        rw [mapping, body, tocMarkers_parse?_withCrlf no_return_body]
        cases TocMarkers.parse? front.body with
        | none => exact .unchanged _
        | some toc => exact renderDocument_withCrlf _ _ _

/-- A document with a text of two lines and with code, and the same one with other line endings. -/
theorem line_endings_do_not_matter_of_code :
    let content := "---\nk: |\n  x\n  y\n---\n~~~\n# B\n~~~\n# A\n".toList
    let out :=
      "---\nk: |\n  x\n  y\nheadings:\n- title: A\n  slug: a\n  depth: 1\n---\n\n~~~\n# B\n~~~\n# A\n".toList
    '\r' ∉ content ∧ (Mode.headings {}).transform .lastDigit content = .ok (.rewritten out) ∧
      ∃ out', (Mode.headings {}).transform .lastDigit (withCrlf content) = .ok (.rewritten out') ∧
        SameButEndings out out' := by
  intro content out
  have no_return : '\r' ∉ content := by decide
  have body : (splitFrontMatter? content).map FrontMatterSplit.body =
      some "\n~~~\n# B\n~~~\n# A\n".toList := by decide +kernel
  have body' : (splitFrontMatter? (withCrlf content)).map FrontMatterSplit.body =
      some "\r\n~~~\r\n# B\r\n~~~\r\n# A\r\n".toList := by decide +kernel
  have agree := line_endings_do_not_matter no_return
    (IdSupply.hexadecimal_lastDigit.suits body (IdSupply.distinctBelow_lastDigit.mono (by decide)))
    (IdSupply.hexadecimal_lastDigit.suits body' (IdSupply.distinctBelow_lastDigit.mono (by decide)))
    (.headings {})
  have made : (Mode.headings {}).transform .lastDigit content = .ok (.rewritten out) := by decide +kernel
  rw [made] at agree
  refine ⟨no_return, made, ?_⟩
  generalize (Mode.headings {}).transform .lastDigit (withCrlf content) = result at agree ⊢
  cases agree with
  | rewritten same => exact ⟨_, rfl, same⟩

end FrontToc
