import FrontToc.Proofs.Lines
import FrontToc.Transform

/-!
# Headings come from the lines outside of code

The lines of a text outside of every fenced block, found block by block, and the proof that a shielded
text has exactly their heading lines, whatever the placeholders are made of. Blank lines at the start of
a text are outside of every block and no headings.
-/
namespace FrontToc

open Text

/-- The lines after the first one that closes a block of `fence`; none if no line does. -/
def skipBlock (fence : Fence) (ls : List (List Char)) : List (List Char) :=
  (ls.dropWhile fun l => !fence.closes (trimLineEnd l)).tail

theorem skipBlock_sublist (fence : Fence) (ls : List (List Char)) :
    (skipBlock fence ls).Sublist ls :=
  (List.tail_sublist _).trans (List.dropWhile_sublist _)

/-- The lines outside of every fenced block: a line that opens a block goes, and with it all lines up
to the one that closes the block, or all that are left. -/
def outsideLines : List (List Char) → List (List Char)
  | [] => []
  | l :: ls =>
    match Fence.opening? (trimLineEnd l) with
    | some fence => outsideLines (skipBlock fence ls)
    | none => l :: outsideLines ls
termination_by ls => ls.length
decreasing_by
  · exact Nat.lt_succ_of_le (skipBlock_sublist fence ls).length_le
  · exact Nat.lt_succ_self _

/-- The text outside of every fenced block. -/
def outsideText (text : List Char) : List Char :=
  (outsideLines (splitLines text)).flatten

theorem outsideLines_opening {l : List Char} {ls : List (List Char)} {fence : Fence}
    (h : Fence.opening? (trimLineEnd l) = some fence) :
    outsideLines (l :: ls) = outsideLines (skipBlock fence ls) := by
  rw [outsideLines, h]

theorem outsideLines_plain {l : List Char} {ls : List (List Char)}
    (h : Fence.opening? (trimLineEnd l) = none) :
    outsideLines (l :: ls) = l :: outsideLines ls := by
  rw [outsideLines, h]

theorem outsideLines_sublist (ls : List (List Char)) : (outsideLines ls).Sublist ls := by
  fun_induction outsideLines ls with
  | case1 => exact .slnil
  | case2 l ls fence _ ih => exact (ih.trans (skipBlock_sublist fence ls)).cons l
  | case3 l ls _ ih => exact ih.cons_cons l

/-- The text outside of blocks has no other lines than the ones it was made of. -/
theorem splitLines_outsideText (text : List Char) :
    splitLines (outsideText text) = outsideLines (splitLines text) :=
  ((areLines_splitLines text).sublist (outsideLines_sublist _)).splitLines_flatten

/-- The heading that a line gives, read as `lines` reads it. -/
def lineHeading? (l : List Char) : Option HeadingLine :=
  HeadingLine.parse? (lineContent l)

theorem headingLines_eq (text : List Char) :
    headingLines text = (splitLines text).filterMap lineHeading? := by
  rw [headingLines, lines, List.filterMap_map]
  rfl

theorem lineContent_isPrefix (l : List Char) : lineContent l <+: l := by
  unfold lineContent
  split
  · exact (dropFinal_isPrefix _ _).trans (List.dropLast_prefix l)
  · exact List.prefix_rfl

/-- A heading line starts with a hash. -/
theorem head_of_lineHeading {l : List Char} {h : HeadingLine} (hl : lineHeading? l = some h) :
    l.head? = some '#' := by
  unfold lineHeading? HeadingLine.parse? at hl
  dsimp only at hl
  split at hl
  · next hcond =>
    obtain ⟨t, ht⟩ := lineContent_isPrefix l
    cases hc : lineContent l with
    | nil => simp [hc] at hcond
    | cons c s =>
      by_cases hash : c = '#'
      · rw [← ht, hc, hash]; rfl
      · simp [hc, hash] at hcond
  · cases hl

theorem lineHeading_of_head {l : List Char} (h : l.head? ≠ some '#') : lineHeading? l = none := by
  cases hl : lineHeading? l with
  | none => rfl
  | some x => exact absurd (head_of_lineHeading hl) h

theorem placeholder_eq (ids : IdSupply) (n : Nat) :
    ids.placeholder n = 'C' :: ("ODE_BLOCK_".toList ++ ids n) := rfl

/-- A line that begins with a placeholder is no heading. -/
theorem lineHeading_placeholder (ids : IdSupply) (n : Nat) (e : List Char) :
    lineHeading? (ids.placeholder n ++ e) = none :=
  lineHeading_of_head (by rw [placeholder_eq]; simp)

/-- Ids that keep a placeholder in one line. -/
def IdSupply.InOneLine (ids : IdSupply) : Prop :=
  ∀ n, '\n' ∉ ids n

theorem IdSupply.InOneLine.placeholder {ids : IdSupply} (h : ids.InOneLine) (n : Nat) :
    '\n' ∉ ids.placeholder n := by
  rw [placeholder_eq]
  simpa using h n

/-- The text of pieces with placeholders for the blocks, drawn from the `n`-th id on. -/
def drawnText (ids : IdSupply) (source : List Char) (n : Nat) (ps : List Piece) : List Char :=
  (Shielded.draw ids source n ps).flatMap (·.2)

theorem drawnText_nil (ids : IdSupply) (source : List Char) (n : Nat) :
    drawnText ids source n [] = [] := rfl

theorem drawnText_outside (ids : IdSupply) (source : List Char) (n : Nat) (t : List Char)
    (ps : List Piece) :
    drawnText ids source n (.outside t :: ps) = t ++ drawnText ids source n ps := by
  simp [drawnText, Shielded.draw]

theorem drawnText_block (ids : IdSupply) (source : List Char) (n : Nat) (t : List Char)
    (ps : List Piece) :
    drawnText ids source n (.block t :: ps) =
      ids.placeholder (ids.fresh source source.length n)
        ++ drawnText ids source (ids.fresh source source.length n + 1) ps := by
  simp [drawnText, Shielded.draw]

theorem splitLines_placeholder {ids : IdSupply} (hids : ids.InOneLine) (n : Nat) (e s : List Char)
    (he : '\n' ∉ e) :
    splitLines (ids.placeholder n ++ e ++ '\n' :: s) =
      (ids.placeholder n ++ (e ++ ['\n'])) :: splitLines s := by
  rw [splitLines_append_feed (by simp [hids.placeholder n, he]), List.append_assoc]

/-- A text that ends with a placeholder and an ending without line feed has no heading there. -/
theorem headings_placeholder_end {ids : IdSupply} (hids : ids.InOneLine) (n : Nat) (e : List Char)
    (he : '\n' ∉ e) :
    (splitLines (ids.placeholder n ++ e)).filterMap lineHeading? = [] := by
  rw [splitLines_of_not_mem (by simp [hids.placeholder n, he]) (by simp [placeholder_eq])]
  simp [lineHeading_placeholder]

/-- The lines that the scanner still takes for lines outside: after an open block those past its end. -/
def outsideAfter : Option (Fence × List Char) → List (List Char) → List (List Char)
  | none, ls => outsideLines ls
  | some (fence, _), ls => outsideLines (skipBlock fence ls)

theorem outsideAfter_closing {fence : Fence} {block l : List Char} {ls : List (List Char)}
    (h : fence.closes (trimLineEnd l)) :
    outsideAfter (some (fence, block)) (l :: ls) = outsideAfter none ls := by
  simp [outsideAfter, skipBlock, h]

theorem outsideAfter_inside {fence : Fence} {block block' l : List Char} {ls : List (List Char)}
    (h : ¬fence.closes (trimLineEnd l)) :
    outsideAfter (some (fence, block)) (l :: ls) = outsideAfter (some (fence, block')) ls := by
  simp [outsideAfter, skipBlock, h]

theorem piecesFrom_opening {l : List Char} {ls : List (List Char)} {fence : Fence}
    (h : Fence.opening? (trimLineEnd l) = some fence) :
    piecesFrom none (l :: ls) = piecesFrom (some (fence, l)) ls := by
  rw [piecesFrom, h]

theorem piecesFrom_plain {l : List Char} {ls : List (List Char)}
    (h : Fence.opening? (trimLineEnd l) = none) :
    piecesFrom none (l :: ls) = .outside l :: piecesFrom none ls := by
  rw [piecesFrom, h]

theorem piecesFrom_closing {fence : Fence} {block l : List Char} {ls : List (List Char)}
    (h : fence.closes (trimLineEnd l)) :
    piecesFrom (some (fence, block)) (l :: ls) =
      .block (block ++ trimLineEnd l) :: .outside (lineEnd l) :: piecesFrom none ls := by
  rw [piecesFrom, if_pos h]

theorem piecesFrom_inside {fence : Fence} {block l : List Char} {ls : List (List Char)}
    (h : ¬fence.closes (trimLineEnd l)) :
    piecesFrom (some (fence, block)) (l :: ls) = piecesFrom (some (fence, block ++ l)) ls := by
  rw [piecesFrom, if_neg h]

/-- What is drawn from no further lines: nothing, or the placeholder of a block that never closes. -/
theorem headings_drawnText_end {ids : IdSupply} (hids : ids.InOneLine) (source : List Char) (n : Nat)
    (inside : Option (Fence × List Char)) :
    (splitLines (drawnText ids source n (piecesFrom inside []))).filterMap lineHeading? = [] := by
  cases inside with
  | none => rfl
  | some opened =>
    rw [piecesFrom, drawnText_block, drawnText_nil]
    exact headings_placeholder_end hids _ [] (by simp)

/-- The scanner's invariant: pieces drawn from the lines to come have the heading lines of the lines
outside of blocks, whether a block is open or not. -/
theorem headings_drawnText {ids : IdSupply} (hids : ids.InOneLine) (source : List Char) (n : Nat)
    (inside : Option (Fence × List Char)) {ls : List (List Char)} (hls : AreLines ls) :
    (splitLines (drawnText ids source n (piecesFrom inside ls))).filterMap lineHeading? =
      (outsideAfter inside ls).filterMap lineHeading? := by
  induction hls generalizing n inside with
  | nil =>
    rw [headings_drawnText_end hids]
    cases inside <;> simp [outsideAfter, skipBlock, outsideLines]
  | last l hne hl =>
    cases inside with
    | none =>
      cases hopen : Fence.opening? (trimLineEnd l) with
      | none =>
        rw [piecesFrom_plain hopen, drawnText_outside, piecesFrom, drawnText_nil, List.append_nil,
          splitLines_of_not_mem hl hne, outsideAfter, outsideLines_plain hopen, outsideLines]
      | some fence =>
        rw [piecesFrom_opening hopen, headings_drawnText_end hids, outsideAfter,
          outsideLines_opening hopen]
        simp [skipBlock, outsideLines]
    | some opened =>
      obtain ⟨fence, block⟩ := opened
      by_cases hclose : fence.closes (trimLineEnd l)
      · have hend : '\n' ∉ lineEnd l := by
          rcases lineEnd_of_not_mem hl with h | h <;> simp [h]
        rw [piecesFrom_closing hclose, drawnText_block, drawnText_outside, piecesFrom, drawnText_nil,
          List.append_nil, headings_placeholder_end hids _ _ hend, outsideAfter_closing hclose]
        simp [outsideAfter, outsideLines]
      · rw [piecesFrom_inside hclose, headings_drawnText_end hids, outsideAfter_inside hclose]
        · simp [outsideAfter, skipBlock, outsideLines]
        · exact block
  | cons p ls hp _ ih =>
    cases inside with
    | none =>
      cases hopen : Fence.opening? (trimLineEnd (p ++ ['\n'])) with
      | none =>
        rw [piecesFrom_plain hopen, drawnText_outside, List.append_assoc, List.singleton_append,
          splitLines_append_feed hp, outsideAfter, outsideLines_plain hopen, List.filterMap_cons,
          List.filterMap_cons, ih n none, outsideAfter]
      | some fence =>
        rw [piecesFrom_opening hopen, ih, outsideAfter, outsideAfter, outsideLines_opening hopen]
    | some opened =>
      obtain ⟨fence, block⟩ := opened
      by_cases hclose : fence.closes (trimLineEnd (p ++ ['\n']))
      · obtain ⟨e, hfeed, hend⟩ : ∃ e, '\n' ∉ e ∧ lineEnd (p ++ ['\n']) = e ++ ['\n'] := by
          rcases lineEnd_concat_feed p with h | h
          · exact ⟨['\r'], by simp, h⟩
          · exact ⟨[], by simp, h⟩
        rw [piecesFrom_closing hclose, drawnText_block, drawnText_outside, hend,
          List.append_assoc, List.singleton_append, ← List.append_assoc,
          splitLines_placeholder hids _ _ _ hfeed, List.filterMap_cons, lineHeading_placeholder,
          ih _ none, outsideAfter_closing hclose]
      · rw [piecesFrom_inside hclose, ih, outsideAfter_inside hclose]

/-- A shielded text has the heading lines of the text outside of fenced blocks. -/
theorem headingLines_shield {ids : IdSupply} (hids : ids.InOneLine) (text : List Char) :
    headingLines (shield ids text).text = headingLines (outsideText text) := by
  rw [headingLines_eq, headingLines_eq, splitLines_outsideText]
  exact headings_drawnText hids text 0 none (areLines_splitLines text)

end FrontToc
