import FrontToc.FrontMatter
import FrontToc.Proofs.Lines
import FrontToc.Proofs.TextRuns
import FrontToc.Proofs.ValueEq
import Mathlib.Data.List.Basic

/-!
# Where front matter begins and ends

A document has front matter if its first line and a later one are delimiters. The block lies between the
first line and the first later one that is a delimiter. The body begins right behind the hyphens of that
line, at a byte where a character begins, with the ending of the line.
-/
namespace FrontToc

open Text

/-- What may end a line. A last line may have a carriage return alone, or nothing. -/
def IsEnding (s : List Char) : Prop :=
  s = [] ∨ s = ['\r'] ∨ s = ['\n'] ∨ s = ['\r', '\n']

/-- A line that is exactly the delimiter, its ending apart. -/
def IsDelimiter (line : List Char) : Prop :=
  ∃ ending, line = delimiter ++ ending ∧ IsEnding ending

/-- A document cut at its first line, which is a delimiter, and at the first later line that is one. The
body begins with the ending of that line. -/
structure IsCut (content : List Char) (cut : FrontMatterSplit) : Prop where
  parts : ∃ ending, IsEnding ending ∧ '\n' ∈ ending ∧
    content = delimiter ++ ending ++ cut.block ++ delimiter ++ cut.body ∧
    cut.endOffset = byteLength (delimiter ++ ending ++ cut.block ++ delimiter)
  whole_lines : cut.block = [] ∨ cut.block.getLast? = some '\n'
  no_delimiter : ∀ l ∈ splitLines cut.block, ¬IsDelimiter l
  body : ∃ ending after, cut.body = ending ++ after ∧ IsEnding ending ∧ ('\n' ∈ ending ∨ after = [])

theorem trimLineEnd_delimiter {ending : List Char} (h : IsEnding ending) :
    trimLineEnd (delimiter ++ ending) = delimiter := by
  rcases h with rfl | rfl | rfl | rfl <;> decide

theorem isDelimiterLine_iff {line : List Char} : isDelimiterLine line = true ↔ IsDelimiter line := by
  rw [isDelimiterLine, decide_eq_true_iff]
  constructor
  · intro htrim
    rw [trimLineEnd] at htrim
    rcases dropFinal_cases '\n' line with hfeed | hfeed <;>
      rcases dropFinal_cases '\r' (dropFinal '\n' line) with hreturn | hreturn <;>
      rw [htrim] at hreturn
    · exact ⟨['\r', '\n'], by rw [hfeed, hreturn]; rfl, by simp [IsEnding]⟩
    · exact ⟨['\n'], by rw [hfeed, hreturn], by simp [IsEnding]⟩
    · exact ⟨['\r'], by rw [hfeed, hreturn], by simp [IsEnding]⟩
    · exact ⟨[], by rw [hfeed, hreturn]; rfl, by simp [IsEnding]⟩
  · rintro ⟨ending, rfl, h⟩
    exact trimLineEnd_delimiter h

theorem not_isDelimiter_iff {line : List Char} : ¬IsDelimiter line ↔ isDelimiterLine line = false := by
  rw [← isDelimiterLine_iff, Bool.not_eq_true]

/-- A document is cut at lines: the first, which is a delimiter, those that are none, and the next that
is. -/
theorem splitFrontMatter?_eq_some {content : List Char} {cut : FrontMatterSplit} :
    splitFrontMatter? content = some cut ↔
      ∃ first inside closing after, splitLines content = first :: (inside ++ closing :: after) ∧
        isDelimiterLine first = true ∧ (∀ l ∈ inside, isDelimiterLine l = false) ∧
        isDelimiterLine closing = true ∧
        cut =
          { block := inside.flatten
            endOffset := byteLength (first ++ inside.flatten ++ delimiter)
            body := lineEnd closing ++ after.flatten } := by
  rw [splitFrontMatter?]
  constructor
  · intro h
    split at h
    · cases h
    · next first rest hlines =>
      split at h
      · next hfirst =>
        dsimp only at h
        rw [drop_length_takeWhile] at h
        split at h
        · cases h
        · next closing after hrest =>
          cases h
          refine ⟨first, _, closing, after, ?_, hfirst, fun l hl => ?_, ?_, rfl⟩
          · rw [hlines, ← hrest, List.takeWhile_append_dropWhile]
          · simpa using List.all_eq_true.mp List.all_takeWhile l hl
          · have := List.head?_dropWhile_not (fun line => !isDelimiterLine line) rest
            rw [hrest] at this
            simpa using this
      · cases h
  · rintro ⟨first, inside, closing, after, hlines, hfirst, hinside, hclosing, rfl⟩
    have htake : (inside ++ closing :: after).takeWhile (fun line => !isDelimiterLine line) = inside := by
      rw [List.takeWhile_append_of_pos fun l hl => by rw [hinside l hl]; rfl,
        List.takeWhile_cons_of_neg (by rw [hclosing]; simp), List.append_nil]
    rw [hlines]
    simp only [hfirst, if_true, htake, List.drop_left]

/-- Of lines that hold a delimiter one is the first. -/
theorem exists_first_delimiter {ls : List (List Char)} {l : List Char} (hl : l ∈ ls)
    (hdelimiter : isDelimiterLine l = true) :
    ∃ inside closing after, ls = inside ++ closing :: after ∧
      (∀ l ∈ inside, isDelimiterLine l = false) ∧ isDelimiterLine closing = true := by
  have hfound : (ls.find? isDelimiterLine).isSome = true := List.find?_isSome.mpr ⟨l, hl, hdelimiter⟩
  obtain ⟨closing, hclosing⟩ := Option.isSome_iff_exists.mp hfound
  obtain ⟨hclosing, inside, after, hsplit, hinside⟩ := List.find?_eq_some_iff_append.mp hclosing
  exact ⟨inside, closing, after, hsplit, fun l hl => by simpa using hinside l hl, hclosing⟩

/-- A document is not cut if its first line or all later ones are no delimiters. -/
theorem splitFrontMatter?_eq_none {content : List Char} :
    splitFrontMatter? content = none ↔
      ∀ first later, splitLines content = first :: later → IsDelimiter first →
        ∀ l ∈ later, ¬IsDelimiter l := by
  constructor
  · intro hnone first later hlines hfirst l hl hdelimiter
    obtain ⟨inside, closing, after, rfl, hinside, hclosing⟩ :=
      exists_first_delimiter hl (isDelimiterLine_iff.mpr hdelimiter)
    rw [splitFrontMatter?_eq_some.mpr ⟨first, inside, closing, after, hlines,
      isDelimiterLine_iff.mpr hfirst, hinside, hclosing, rfl⟩] at hnone
    cases hnone
  · intro hno
    rw [Option.eq_none_iff_forall_ne_some]
    intro cut hcut
    obtain ⟨first, inside, closing, after, hlines, hfirst, -, hclosing, -⟩ :=
      splitFrontMatter?_eq_some.mp hcut
    exact hno _ _ hlines (isDelimiterLine_iff.mp hfirst) closing (by simp)
      (isDelimiterLine_iff.mp hclosing)

/-- Lines that others follow end in line feeds. -/
theorem Text.AreLines.closed_of_append {ls more : List (List Char)} (h : AreLines (ls ++ more))
    (hmore : more ≠ []) : (∀ l ∈ ls, ∃ p, l = p ++ ['\n'] ∧ '\n' ∉ p) ∧ AreLines ls ∧ AreLines more := by
  induction ls with
  | nil => exact ⟨by simp, .nil, h⟩
  | cons l ls ih =>
    rw [List.cons_append] at h
    generalize hrest : ls ++ more = rest at h
    cases h with
    | last => exact absurd (List.append_eq_nil_iff.mp hrest).2 hmore
    | cons p _ hp hrest' =>
      obtain ⟨hclosed, hls, hafter⟩ := ih (hrest ▸ hrest')
      refine ⟨fun l hl => ?_, .cons p ls hp hls, hafter⟩
      rcases List.mem_cons.mp hl with rfl | hl
      · exact ⟨p, rfl, hp⟩
      · exact hclosed l hl

/-- A line that is first has its ending, or nothing comes after it. -/
theorem Text.AreLines.feed_or_last {l : List Char} {ls : List (List Char)} (h : AreLines (l :: ls)) :
    '\n' ∈ l ∨ ls = [] := by
  cases h with
  | last => exact .inr rfl
  | cons p => exact .inl (by simp)

theorem isCut_of_split {content : List Char} {cut : FrontMatterSplit}
    (h : splitFrontMatter? content = some cut) : IsCut content cut := by
  obtain ⟨first, inside, closing, after, hlines, hfirst, hinside, hclosing, rfl⟩ :=
    splitFrontMatter?_eq_some.mp h
  have hall := areLines_splitLines content
  rw [hlines, ← List.singleton_append] at hall
  obtain ⟨hfirst_closed, -, hlater⟩ := hall.closed_of_append (by simp)
  obtain ⟨hinside_closed, hinside_lines, hclosing_lines⟩ := hlater.closed_of_append (by simp)
  obtain ⟨opening, rfl, hopening⟩ := isDelimiterLine_iff.mp hfirst
  obtain ⟨ending, rfl, hending⟩ := isDelimiterLine_iff.mp hclosing
  have hbody : lineEnd (delimiter ++ ending) = ending := lineEnd_eq rfl (trimLineEnd_delimiter hending)
  refine ⟨⟨opening, hopening, ?_, ?_, rfl⟩, ?_, ?_, ending, after.flatten, by rw [hbody], hending, ?_⟩
  · obtain ⟨p, hp, -⟩ := hfirst_closed _ List.mem_cons_self
    have hfeed : '\n' ∈ delimiter ++ opening := by simp [hp]
    simpa [delimiter] using hfeed
  · have hwhole := flatten_splitLines content
    rw [hlines] at hwhole
    simp only [← hwhole, hbody, List.flatten_cons, List.flatten_append, List.append_assoc]
  · rcases List.eq_nil_or_concat' inside with rfl | ⟨ls, l, rfl⟩
    · exact .inl rfl
    · obtain ⟨p, rfl, -⟩ := hinside_closed l (by simp)
      exact .inr (by simp)
  · dsimp only
    rw [hinside_lines.splitLines_flatten]
    exact fun l hl => not_isDelimiter_iff.mpr (hinside l hl)
  · rcases hclosing_lines.feed_or_last with hfeed | rfl
    · refine .inl ?_
      simpa [delimiter] using hfeed
    · exact .inr rfl

theorem IsEnding.of_feed {s : List Char} (h : IsEnding s) (hfeed : '\n' ∈ s) :
    ∃ p, s = p ++ ['\n'] ∧ '\n' ∉ p := by
  rcases h with rfl | rfl | rfl | rfl
  · cases hfeed
  · simp at hfeed
  · exact ⟨[], rfl, by simp⟩
  · exact ⟨['\r'], rfl, by simp⟩

/-- The lines of a text that begins with a delimiter and its ending. -/
theorem splitLines_delimiter {ending after : List Char} (hending : IsEnding ending)
    (hafter : '\n' ∈ ending ∨ after = []) :
    splitLines (delimiter ++ ending ++ after) = (delimiter ++ ending) :: splitLines after := by
  by_cases hfeed : '\n' ∈ ending
  · obtain ⟨p, rfl, hp⟩ := hending.of_feed hfeed
    have hline : '\n' ∉ delimiter ++ p := by simp [delimiter, hp]
    have := splitLines_append_feed hline after
    simpa using this
  · obtain rfl := hafter.resolve_left hfeed
    rw [List.append_nil]
    exact splitLines_of_not_mem (by simp [delimiter, hfeed]) (by simp [delimiter])

theorem split_of_isCut {content : List Char} {cut : FrontMatterSplit} (h : IsCut content cut) :
    splitFrontMatter? content = some cut := by
  obtain ⟨⟨opening, hopening, hfeed, rfl, hoffset⟩, hwhole, hno, ending, after, hbody, hending, hafter⟩ := h
  have hclosed : ∀ l ∈ splitLines cut.block, l.getLast? = some '\n' := by
    rcases hwhole with hempty | hlast
    · simp [hempty, splitLines]
    · refine (areLines_splitLines _).closed ?_
      rw [flatten_splitLines]
      exact hlast
  have hinside := (areLines_splitLines cut.block).splitLines_append hclosed
    (delimiter ++ ending ++ after)
  rw [flatten_splitLines, splitLines_delimiter hending hafter] at hinside
  refine splitFrontMatter?_eq_some.mpr ⟨delimiter ++ opening, splitLines cut.block, delimiter ++ ending,
    splitLines after, ?_, isDelimiterLine_iff.mpr ⟨_, rfl, hopening⟩,
    fun l hl => not_isDelimiter_iff.mp (hno l hl), isDelimiterLine_iff.mpr ⟨_, rfl, hending⟩, ?_⟩
  · rw [← hinside, ← splitLines_delimiter hopening (.inl hfeed), hbody]
    simp only [List.append_assoc]
  · rw [flatten_splitLines, flatten_splitLines, lineEnd_eq rfl (trimLineEnd_delimiter hending), ← hbody,
      ← hoffset]

theorem extractFrontMatter_eq_none {content : List Char} :
    extractFrontMatter content = .ok none ↔ splitFrontMatter? content = none := by
  unfold extractFrontMatter
  cases splitFrontMatter? content with
  | none => simp
  | some cut =>
    dsimp only
    cases readFrontMatter cut.block <;> simp

theorem Text.byteLength_eq (s : List Char) : byteLength s = (String.ofList s).utf8ByteSize := by
  induction s with
  | nil => rfl
  | cons c s ih =>
    have hsplit : String.ofList (c :: s) = String.singleton c ++ String.ofList s := by
      rw [String.singleton_eq_ofList, ← String.ofList_append]
      rfl
    rw [byteLength, ih, hsplit, String.utf8ByteSize_append, String.utf8ByteSize_singleton]

/-- The byte offset behind the closing hyphens is a place in the document, and the body is what follows
it. -/
theorem IsCut.endOffset_spec {content : List Char} {cut : FrontMatterSplit} (h : IsCut content cut) :
    cut.endOffset ≤ (String.ofList content).utf8ByteSize ∧
      String.Pos.Raw.IsValid (String.ofList content) ⟨cut.endOffset⟩ ∧
      (String.ofList content).toUTF8.extract cut.endOffset (String.ofList content).utf8ByteSize =
        (String.ofList cut.body).toUTF8 := by
  obtain ⟨ending, -, -, hcontent, hoffset⟩ := h.parts
  generalize delimiter ++ ending ++ cut.block ++ delimiter = before at hcontent hoffset
  have htext : String.ofList content = String.ofList before ++ String.ofList cut.body := by
    rw [hcontent, String.ofList_append]
  rw [byteLength_eq] at hoffset
  refine ⟨?_, ?_, ?_⟩
  · rw [htext, String.utf8ByteSize_append, hoffset]
    exact Nat.le_add_right _ _
  · rw [String.Pos.Raw.isValid_iff_exists_append]
    exact ⟨_, _, htext, by rw [hoffset]; rfl⟩
  · rw [htext, hoffset, String.utf8ByteSize_append]
    show (_ ++ _ : String).toByteArray.extract _ _ = _
    rw [String.toByteArray_append]
    exact ByteArray.extract_append_eq_right rfl rfl

theorem extractFrontMatter_eq_ok {content : List Char} {cut : FrontMatterSplit}
    (hsplit : splitFrontMatter? content = some cut) {m : Yaml.Mapping} (hread : readFrontMatter cut.block = .ok m) :
    extractFrontMatter content = .ok (some ⟨m, cut.endOffset, cut.body⟩) := by
  simp only [extractFrontMatter, hsplit, hread]

theorem extractFrontMatter_eq_error {content : List Char} {cut : FrontMatterSplit}
    (hsplit : splitFrontMatter? content = some cut) {fault : FrontMatterFault}
    (hread : readFrontMatter cut.block = .error fault) :
    extractFrontMatter content = .error (.malformedFrontMatter fault) := by
  simp only [extractFrontMatter, hsplit, hread]

/-- Front matter is cut out at the right bytes. There is none exactly if the first line or all later
ones are no delimiters. Else the document is cut in one way at its first line and the first later
delimiter; the offset given is a place in the document, behind which the body stands; and the block is
read as YAML, where a block without a value is an empty mapping and one with any other value than a
mapping an error. -/
theorem front_matter_is_cut_at_first_delimiters (content : List Char) :
    (extractFrontMatter content = .ok none ↔
      ∀ first later, splitLines content = first :: later → IsDelimiter first →
        ∀ l ∈ later, ¬IsDelimiter l) ∧
    (extractFrontMatter content ≠ .ok none → ∃! cut, IsCut content cut) ∧
    ∀ cut, IsCut content cut →
      (cut.endOffset ≤ (String.ofList content).utf8ByteSize ∧
        String.Pos.Raw.IsValid (String.ofList content) ⟨cut.endOffset⟩ ∧
        (String.ofList content).toUTF8.extract cut.endOffset (String.ofList content).utf8ByteSize =
          (String.ofList cut.body).toUTF8) ∧
      (isBlankText cut.block = true ∨ Yaml.read? cut.block = some .null →
        extractFrontMatter content = .ok (some ⟨[], cut.endOffset, cut.body⟩)) ∧
      (∀ m, isBlankText cut.block = false → Yaml.read? cut.block = some (.map m) →
        extractFrontMatter content = .ok (some ⟨m, cut.endOffset, cut.body⟩)) ∧
      (isBlankText cut.block = false → Yaml.read? cut.block ≠ some .null →
        (∀ m, Yaml.read? cut.block ≠ some (.map m)) →
        ∃ fault, extractFrontMatter content = .error (.malformedFrontMatter fault)) := by
  refine ⟨extractFrontMatter_eq_none.trans splitFrontMatter?_eq_none, fun hsome => ?_, fun cut hcut => ?_⟩
  · obtain ⟨cut, hcut⟩ := Option.ne_none_iff_exists'.mp (mt extractFrontMatter_eq_none.mpr hsome)
    refine ⟨cut, isCut_of_split hcut, fun other hother => ?_⟩
    exact Option.some.inj ((split_of_isCut hother).symm.trans hcut)
  · have hsplit := split_of_isCut hcut
    refine ⟨hcut.endOffset_spec, fun hempty => extractFrontMatter_eq_ok hsplit ?_, fun m hvisible hmap =>
      extractFrontMatter_eq_ok hsplit ?_, fun hvisible hnull hmap => ?_⟩
    · rcases hempty with hblank | hnull
      · rw [readFrontMatter, if_pos hblank]
      · simp [readFrontMatter, hnull]
    · rw [readFrontMatter, if_neg (by simp [hvisible]), hmap]
    · have hfault : ∃ fault, readFrontMatter cut.block = .error fault := by
        rw [readFrontMatter, if_neg (by simp [hvisible])]
        cases hread : Yaml.read? cut.block with
        | none => exact ⟨_, rfl⟩
        | some value =>
          cases value with
          | null => exact absurd hread hnull
          | map m => exact absurd hread (hmap m)
          | _ => exact ⟨_, rfl⟩
      obtain ⟨fault, hfault⟩ := hfault
      exact ⟨fault, extractFrontMatter_eq_error hsplit hfault⟩

/-- The place behind the closing hyphens is counted in bytes, of which one character here has two. -/
theorem front_matter_is_cut_after_two_byte_character :
    IsCut "---\r\nt: é\n---\r\nx".toList ⟨"t: é\n".toList, 14, "\r\nx".toList⟩ ∧
      String.Pos.Raw.IsValid "---\r\nt: é\n---\r\nx" ⟨14⟩ ∧
      extractFrontMatter "---\r\nt: é\n---\r\nx".toList =
        .ok (some ⟨[(.str ['t'], .str ['é'])], 14, "\r\nx".toList⟩) := by
  have hcut : IsCut "---\r\nt: é\n---\r\nx".toList ⟨"t: é\n".toList, 14, "\r\nx".toList⟩ :=
    isCut_of_split (by decide +kernel)
  obtain ⟨-, -, hspec⟩ := front_matter_is_cut_at_first_delimiters "---\r\nt: é\n---\r\nx".toList
  obtain ⟨⟨-, hvalid, -⟩, -, hmap, -⟩ := hspec _ hcut
  exact ⟨hcut, hvalid, hmap _ (by decide +kernel) (by decide +kernel)⟩

end FrontToc
