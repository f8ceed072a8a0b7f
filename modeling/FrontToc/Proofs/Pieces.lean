import FrontToc.Proofs.Lines
import FrontToc.Proofs.OutsideLines
import FrontToc.Proofs.Restore

/-!
# Shielding is undone

The pieces of a text put together give the text. A block stands on lines of its own and begins with a
blank or a fence character, and so does it end unless it is the last piece of all. So no placeholder can
reach into a block or across its ends, and restoring a shielded text gives the text back.
-/
namespace FrontToc

open Text

/-- The characters at the ends of a closed block. -/
def isFenceEdge (c : Char) : Bool :=
  isBlank c || c = '\x60' || c = '~'

theorem not_mem_placeholder_of_edge {ids : IdSupply} (hids : ids.Hexadecimal) {c : Char}
    (hc : isFenceEdge c) (n : Nat) : c ∉ ids.placeholder n := by
  intro hmem
  have hedge := List.all_eq_true.mp
    (by decide : placeholderChars.all (!isFenceEdge ·) = true) c (hids.mem_placeholderChars hmem)
  rw [hc] at hedge
  cases hedge

theorem IdSupply.Hexadecimal.inOneLine {ids : IdSupply} (hids : ids.Hexadecimal) : ids.InOneLine :=
  fun n hmem => absurd ((hids n).2 _ hmem) (by decide)

/-- A fence that the scanner can have opened. -/
def Fence.Valid (fence : Fence) : Prop :=
  isFenceEdge fence.marker ∧ 0 < fence.length

theorem Fence.eq_of_unindent {line rest : List Char} (h : Fence.unindent? line = some rest) :
    rest = line.dropWhile (· = ' ') := by
  rw [Fence.unindent?] at h
  split at h
  · exact (Option.some.inj h).symm
  · cases h

theorem Fence.valid_of_opening {line : List Char} {fence : Fence}
    (h : Fence.opening? line = some fence) :
    fence.Valid ∧ ∃ c ∈ line.head?, isFenceEdge c := by
  rw [Fence.opening?] at h
  split at h
  · next c rest hun =>
    dsimp only at h
    split at h
    · next hcond =>
      cases Option.some.inj h
      have hmarker : isFenceEdge c := by
        rcases hcond.1 with rfl | rfl <;> decide
      refine ⟨⟨hmarker, Nat.lt_of_lt_of_le (by decide) hcond.2.1⟩, ?_⟩
      have hdrop := Fence.eq_of_unindent hun
      cases line with
      | nil => cases hdrop
      | cons d line =>
        refine ⟨d, rfl, ?_⟩
        by_cases hd : d = ' '
        · subst hd; decide
        · simp [hd] at hdrop
          rwa [← hdrop.1]
    · cases h
  · cases h

theorem Fence.edge_of_closes {line : List Char} {fence : Fence} (hv : fence.Valid)
    (h : fence.closes line) : ∃ c ∈ line.getLast?, isFenceEdge c := by
  rw [Fence.closes] at h
  split at h
  · cases h
  · next rest hun =>
    dsimp only at h
    rw [Bool.and_eq_true, decide_eq_true_eq] at h
    obtain ⟨hlen, hblank⟩ := h
    have hsplit := List.prefix_iff_eq_append.mp
      (List.takeWhile_prefix (· = fence.marker) (l := rest))
    have hedge : ∀ c ∈ rest, isFenceEdge c := by
      intro c hc
      rw [← hsplit] at hc
      rcases List.mem_append.mp hc with hc | hc
      · have hmarker : c = fence.marker := by
          simpa using List.all_eq_true.mp List.all_takeWhile c hc
        exact hmarker ▸ hv.1
      · have hb : isBlank c := List.all_eq_true.mp hblank c hc
        simp [isFenceEdge, hb]
    have hne : rest ≠ [] := by
      rintro rfl
      have := hv.2
      simp at hlen
      omega
    obtain ⟨d, hd⟩ := List.getLast?_isSome.mpr hne |> Option.isSome_iff_exists.mp
    have hsuffix : rest <:+ line := Fence.eq_of_unindent hun ▸ List.dropWhile_suffix _
    refine ⟨d, ?_, hedge d (List.mem_of_getLast? hd)⟩
    obtain ⟨x, rfl⟩ := hsuffix
    rw [List.getLast?_append_of_ne_nil _ hne]
    exact hd

/-- How the pieces of a text follow each other. A line outside and the ending after a block end in a
line feed unless they are last; a block without an ending is last. -/
inductive Laid : List Piece → Prop where
  | nil : Laid []
  | line (p : List Char) (ps : List Piece) :
      '\n' ∉ p → Laid ps → Laid (.outside (p ++ ['\n']) :: ps)
  | lastLine (l : List Char) : '\n' ∉ l → Laid [.outside l]
  | block (b e : List Char) (ps : List Piece) :
      (∃ c ∈ b.head?, isFenceEdge c) → (∃ c ∈ b.getLast?, isFenceEdge c) → e = [] ∨ e = ['\r'] →
      Laid ps → Laid (.block b :: .outside (e ++ ['\n']) :: ps)
  | lastBlock (b e : List Char) :
      (∃ c ∈ b.head?, isFenceEdge c) → e = [] ∨ e = ['\r'] → Laid [.block b, .outside e]
  | openBlock (b : List Char) : Laid [.block b]

/-- The open fence and the block so far, as the scanner can hold them. -/
def ValidInside : Option (Fence × List Char) → Prop
  | none => True
  | some (fence, block) => fence.Valid ∧ ∃ c ∈ block.head?, isFenceEdge c

theorem head_append {p : Char → Bool} {s : List Char} (t : List Char) (h : ∃ c ∈ s.head?, p c) :
    ∃ c ∈ (s ++ t).head?, p c := by
  obtain ⟨c, hc, hp⟩ := h
  obtain ⟨m, rfl⟩ := List.head?_eq_some_iff.mp hc
  exact ⟨c, rfl, hp⟩

theorem validInside_opening {l : List Char} {fence : Fence}
    (h : Fence.opening? (trimLineEnd l) = some fence) : ValidInside (some (fence, l)) := by
  obtain ⟨hv, hhead⟩ := Fence.valid_of_opening h
  refine ⟨hv, ?_⟩
  rw [← trimLineEnd_append_lineEnd l]
  exact head_append _ hhead

theorem getLast_append {p : Char → Bool} (s : List Char) {t : List Char}
    (h : ∃ c ∈ t.getLast?, p c) : ∃ c ∈ (s ++ t).getLast?, p c := by
  obtain ⟨c, hc, hp⟩ := h
  obtain ⟨m, rfl⟩ := List.getLast?_eq_some_iff.mp hc
  exact ⟨c, by simp, hp⟩

/-- The pieces of lines are laid out so. -/
theorem laid_piecesFrom {ls : List (List Char)} (hls : AreLines ls)
    (inside : Option (Fence × List Char)) (hin : ValidInside inside) : Laid (piecesFrom inside ls) := by
  have hend : ∀ inside, Laid (piecesFrom inside []) := by
    rintro (_ | ⟨fence, block⟩)
    · exact .nil
    · exact .openBlock block
  induction hls generalizing inside with
  | nil => exact hend inside
  | last l _ hl =>
    rcases inside with _ | ⟨fence, block⟩
    · cases hopen : Fence.opening? (trimLineEnd l) with
      | none => rw [piecesFrom_plain hopen]; exact .lastLine l hl
      | some fence => rw [piecesFrom_opening hopen]; exact hend _
    · by_cases hclose : fence.closes (trimLineEnd l)
      · rw [piecesFrom_closing hclose]
        exact .lastBlock _ _ (head_append _ hin.2) (lineEnd_of_not_mem hl).symm
      · rw [piecesFrom_inside hclose]; exact hend _
  | cons p ls hp _ ih =>
    rcases inside with _ | ⟨fence, block⟩
    · cases hopen : Fence.opening? (trimLineEnd (p ++ ['\n'])) with
      | none =>
        rw [piecesFrom_plain hopen]
        exact .line p _ hp (ih none trivial)
      | some fence =>
        rw [piecesFrom_opening hopen]
        exact ih _ (validInside_opening hopen)
    · by_cases hclose : fence.closes (trimLineEnd (p ++ ['\n']))
      · have hedge := getLast_append block (Fence.edge_of_closes hin.1 hclose)
        rw [piecesFrom_closing hclose]
        rcases lineEnd_concat_feed p with he | he
        · rw [he]
          exact .block _ ['\r'] _ (head_append _ hin.2) hedge (.inr rfl) (ih none trivial)
        · rw [he]
          exact .block _ [] _ (head_append _ hin.2) hedge (.inl rfl) (ih none trivial)
      · rw [piecesFrom_inside hclose]
        exact ih _ ⟨hin.1, head_append _ hin.2⟩

/-- The pieces put together are the text. -/
theorem flatMap_piecesFrom (inside : Option (Fence × List Char)) (ls : List (List Char)) :
    (piecesFrom inside ls).flatMap Piece.text = (inside.elim [] Prod.snd) ++ ls.flatten := by
  fun_induction piecesFrom inside ls with
  | case1 => rfl
  | case2 fence block => simp [Piece.text]
  | case3 line rest fence _ ih => simpa using ih
  | case4 line rest _ ih => simpa [Piece.text] using ih
  | case5 fence block line rest _ ih =>
    conv_rhs => rw [List.flatten_cons, ← trimLineEnd_append_lineEnd line]
    simp [Piece.text, ih]
  | case6 fence block line rest _ ih => simpa using ih

theorem flatMap_pieces (text : List Char) : (pieces text).flatMap Piece.text = text := by
  rw [pieces, flatMap_piecesFrom, flatten_splitLines]
  rfl

/-- The number of ids drawn, up to and with the one for the last block, those passed over included. -/
def nextId (ids : IdSupply) (source : List Char) : (n : Nat) → List Piece → Nat
  | n, [] => n
  | n, .outside _ :: rest => nextId ids source n rest
  | n, .block _ :: rest => nextId ids source (ids.fresh source source.length n + 1) rest

/-- The ids that are drawn for one shield of the text differ from each other. -/
def IdSupply.DistinctFor (ids : IdSupply) (text : List Char) : Prop :=
  ids.DistinctBelow (nextId ids text 0 (pieces text))

theorem le_nextId (ids : IdSupply) (source : List Char) (n : Nat) (ps : List Piece) :
    n ≤ nextId ids source n ps := by
  fun_induction nextId ids source n ps with
  | case1 => exact le_rfl
  | case2 n t rest ih => exact ih
  | case3 n t rest ih =>
    have hfresh := (ids.fresh_spec source source.length n).1
    omega

/-- The placeholders with their blocks, as they are drawn. -/
def drawnBlocks (ids : IdSupply) (source : List Char) (n : Nat) (ps : List Piece) :
    List (List Char × List Char) :=
  (Shielded.draw ids source n ps).filterMap Shielded.blockOf?

theorem drawnBlocks_outside (ids : IdSupply) (source : List Char) (n : Nat) (t : List Char)
    (ps : List Piece) :
    drawnBlocks ids source n (.outside t :: ps) = drawnBlocks ids source n ps := rfl

theorem drawnBlocks_block (ids : IdSupply) (source : List Char) (n : Nat) (t : List Char)
    (ps : List Piece) :
    drawnBlocks ids source n (.block t :: ps) =
      (ids.placeholder (ids.fresh source source.length n), t)
        :: drawnBlocks ids source (ids.fresh source source.length n + 1) ps := rfl

/-- Where a drawn placeholder comes from. -/
theorem mem_drawnBlocks {ids : IdSupply} {source : List Char} {n : Nat} {ps : List Piece}
    {x : List Char × List Char} (hx : x ∈ drawnBlocks ids source n ps) :
    ∃ m, n ≤ m ∧ ids.fresh source source.length m < nextId ids source n ps ∧
      x.1 = ids.placeholder (ids.fresh source source.length m) := by
  fun_induction nextId ids source n ps with
  | case1 => cases hx
  | case2 n t rest ih => exact ih hx
  | case3 n t rest ih =>
    rw [drawnBlocks_block, List.mem_cons] at hx
    rcases hx with rfl | hx
    · exact ⟨n, le_rfl, le_nextId _ _ _ _, rfl⟩
    · obtain ⟨m, hm, hlt, hp⟩ := ih hx
      have hfresh := (ids.fresh_spec source source.length n).1
      exact ⟨m, by omega, hlt, hp⟩

/-- The parts of a shielded text. -/
def drawnSegments (ids : IdSupply) (source : List Char) : (n : Nat) → List Piece → List Segment
  | _, [] => []
  | n, .outside t :: rest => .text t :: drawnSegments ids source n rest
  | n, .block _ :: rest =>
    .hole (ids.placeholder (ids.fresh source source.length n))
      :: drawnSegments ids source (ids.fresh source source.length n + 1) rest

theorem renderAll_drawnSegments (ids : IdSupply) (source : List Char) (n : Nat) (ps : List Piece) :
    Segment.renderAll (drawnSegments ids source n ps) = drawnText ids source n ps := by
  fun_induction drawnSegments ids source n ps with
  | case1 => rfl
  | case2 n t rest ih => rw [Segment.renderAll_text, ih, drawnText_outside]
  | case3 n t rest ih => rw [Segment.renderAll_hole, ih, drawnText_block]

theorem IdSupply.DistinctBelow.mono {ids : IdSupply} {m n : Nat} (h : ids.DistinctBelow n)
    (hmn : m ≤ n) : ids.DistinctBelow m :=
  fun i j hi hj hij => h i j (Nat.lt_of_lt_of_le hi hmn) (Nat.lt_of_lt_of_le hj hmn) hij

section

variable {ids : IdSupply} (hids : ids.Hexadecimal) {source : List Char}

include hids

/-- A drawn placeholder does not occur in the text. -/
theorem not_infix_of_mem_drawnBlocks {n : Nat} {ps : List Piece} {x : List Char × List Char}
    (hd : ids.DistinctBelow (nextId ids source n ps)) (hx : x ∈ drawnBlocks ids source n ps) :
    ¬x.1 <:+: source := by
  obtain ⟨m, _, hlt, hp⟩ := mem_drawnBlocks hx
  rw [hp]
  exact hids.placeholder_fresh source m (hd.mono hlt)

omit hids in
/-- Placeholders made from ids that differ are different. -/
theorem distinct_drawnBlocks (n : Nat) (ps : List Piece)
    (hd : ids.DistinctBelow (nextId ids source n ps)) :
    (drawnBlocks ids source n ps).Pairwise fun x y => x.1 ≠ y.1 := by
  fun_induction nextId ids source n ps with
  | case1 => exact .nil
  | case2 n t rest ih => exact ih hd
  | case3 n t rest ih =>
    rw [drawnBlocks_block, List.pairwise_cons]
    refine ⟨fun y hy heq => ?_, ih hd⟩
    obtain ⟨m, hm, hlt, hp⟩ := mem_drawnBlocks hy
    have hle := (ids.fresh_spec source source.length m).1
    have hsame := hd _ _ (by omega) hlt (IdSupply.placeholder_injective (heq.trans hp))
    omega

/-- Every block is shut to the placeholders drawn after its own, if none of them occurs in the text. -/
theorem shut_drawnBlocks {ps : List Piece} (hlaid : Laid ps) (n : Nat)
    (hin : ∀ x ∈ ps, x.text <:+: source)
    (hfresh : ∀ x ∈ drawnBlocks ids source n ps, ¬x.1 <:+: source) :
    (drawnBlocks ids source n ps).Pairwise fun x y => Segment.ShutTo y.1 x.2 := by
  induction hlaid generalizing n with
  | nil => exact .nil
  | line p ps _ _ ih => exact ih n (fun x hx => hin x (List.mem_cons_of_mem _ hx)) hfresh
  | lastLine l _ => exact .nil
  | block b e ps hfirst hlast _ _ ih =>
    rw [drawnBlocks_block, drawnBlocks_outside] at hfresh ⊢
    rw [List.pairwise_cons]
    refine ⟨fun y hy => ?_, ih _ (fun x hx => hin x (by simp [hx])) fun x hx =>
      hfresh x (List.mem_cons_of_mem _ hx)⟩
    obtain ⟨m, -, -, hp⟩ := mem_drawnBlocks hy
    refine ⟨?_, ?_, fun hinside => ?_⟩
    · obtain ⟨c, hc, hedge⟩ := hfirst
      exact ⟨c, hc, hp ▸ not_mem_placeholder_of_edge hids hedge _⟩
    · obtain ⟨c, hc, hedge⟩ := hlast
      exact ⟨c, hc, hp ▸ not_mem_placeholder_of_edge hids hedge _⟩
    · exact hfresh y (List.mem_cons_of_mem _ hy)
        (hinside.trans (hin (.block b) List.mem_cons_self))
  | lastBlock b e _ _ => exact List.pairwise_singleton _ _
  | openBlock b => exact List.pairwise_singleton _ _

/-- Text free of a placeholder that is empty or ends in a line feed. -/
structure AtLineStart (p before : List Char) : Prop where
  free : ¬p <:+: before
  start : before = [] ∨ ∃ b, before = b ++ ['\n']

omit hids in
theorem AtLineStart.append {p before t : List Char} (h : AtLineStart p before) (hp : '\n' ∉ p)
    (ht : ¬p <:+: t) : ¬p <:+: before ++ t := by
  intro hin
  rcases h.start with rfl | ⟨b, rfl⟩
  · exact ht hin
  · rw [List.append_assoc, List.singleton_append] at hin
    rcases infix_of_barrier hp hin with hb | ht'
    · exact h.free (hb.trans (List.prefix_append _ _).isInfix)
    · exact ht ht'

omit hids in
theorem AtLineStart.line {p before t : List Char} (h : AtLineStart p before) (hp : '\n' ∉ p)
    (ht : ¬p <:+: t ++ ['\n']) : AtLineStart p (before ++ (t ++ ['\n'])) :=
  ⟨h.append hp ht, .inr ⟨before ++ t, by simp⟩⟩

theorem not_infix_placeholder {i j : Nat} (h : ids.placeholder i ≠ ids.placeholder j) :
    ¬ids.placeholder i <:+: ids.placeholder j := fun hin =>
  h (hin.eq_of_length (by rw [hids.length_placeholder, hids.length_placeholder]))

/-- Another placeholder with the ending after it is free of a placeholder. -/
theorem not_infix_placeholder_line {i j : Nat} (h : ids.placeholder i ≠ ids.placeholder j)
    {e : List Char} (he : ∀ c ∈ e, isFenceEdge c) :
    ¬ids.placeholder i <:+: ids.placeholder j ++ e := by
  intro hin
  cases e with
  | nil => exact not_infix_placeholder hids h (by simpa using hin)
  | cons c e =>
    have hc := not_mem_placeholder_of_edge hids (he c List.mem_cons_self) i
    rcases infix_of_barrier hc hin with hin | hin
    · exact not_infix_placeholder hids h hin
    · obtain ⟨d, hd⟩ := List.exists_mem_of_ne_nil _ (ids.placeholder_ne_nil i)
      exact not_mem_placeholder_of_edge hids
        (he d (List.mem_cons_of_mem _ (hin.subset hd))) i hd

/-- In a shielded text a placeholder occurs only where it was put. -/
theorem clear_drawnSegments {ps : List Piece} (hlaid : Laid ps) (n : Nat)
    (hin : ∀ x ∈ ps, x.text <:+: source) {i : Nat} (hfresh : ¬ids.placeholder i <:+: source)
    {before : List Char} (hbefore : AtLineStart (ids.placeholder i) before) :
    Segment.Clear (ids.placeholder i) before (drawnSegments ids source n ps) := by
  have hfeed : '\n' ∉ ids.placeholder i := hids.inOneLine.placeholder i
  have houtside : ∀ {t}, Piece.outside t ∈ ps → ¬ids.placeholder i <:+: t := fun ht hocc =>
    hfresh (hocc.trans (hin _ ht))
  have hempty : AtLineStart (ids.placeholder i) [] :=
    ⟨fun h => ids.placeholder_ne_nil i (List.infix_nil.mp h), .inl rfl⟩
  have hending : ∀ {e : List Char}, e = [] ∨ e = ['\r'] → ∀ c ∈ e ++ ['\n'], isFenceEdge c := by
    rintro e (rfl | rfl) <;> exact List.all_eq_true.mp (by decide)
  induction hlaid generalizing n before with
  | nil => exact hbefore.free
  | line p ps _ _ ih =>
    have hline := hbefore.line hfeed (houtside List.mem_cons_self)
    exact ih n (fun x hx => hin x (List.mem_cons_of_mem _ hx)) hline
      (fun ht => houtside (List.mem_cons_of_mem _ ht))
  | lastLine l _ => exact hbefore.append hfeed (houtside List.mem_cons_self)
  | block b e ps _ _ he _ ih =>
    have hrest : ∀ before, AtLineStart (ids.placeholder i) before →
        Segment.Clear (ids.placeholder i) before (drawnSegments ids source
          (ids.fresh source source.length n + 1) ps) := fun before hb =>
      ih _ (fun x hx => hin x (by simp [hx])) hb (fun ht => houtside (by simp [ht]))
    rw [drawnSegments, drawnSegments, Segment.Clear, Segment.Clear]
    split
    · have hline := hempty.line hfeed (t := e) (houtside (by simp))
      exact ⟨hbefore.free, hrest _ hline⟩
    · next hne =>
      have hline := hbefore.line hfeed (t := ids.placeholder _ ++ e)
        (by simpa using not_infix_placeholder_line hids (Ne.symm hne) (hending he))
      simpa [Segment.Clear] using hrest _ hline
  | lastBlock b e _ he =>
    rw [drawnSegments, drawnSegments, drawnSegments, Segment.Clear, Segment.Clear]
    split
    · exact ⟨hbefore.free, houtside (by simp)⟩
    · next hne =>
      rw [Segment.Clear, List.append_assoc]
      refine hbefore.append hfeed (not_infix_placeholder_line hids (Ne.symm hne) ?_)
      exact fun c hc => hending he c (List.mem_append_left _ hc)
  | openBlock b =>
    rw [drawnSegments, drawnSegments, Segment.Clear]
    split
    · exact ⟨hbefore.free, hempty.free⟩
    · next hne =>
      exact hbefore.append hfeed (not_infix_placeholder hids (Ne.symm hne))

end

theorem lookup_of_mem {blocks : List (List Char × List Char)}
    (h : blocks.Pairwise fun x y => x.1 ≠ y.1) {x : List Char × List Char} (hx : x ∈ blocks) :
    blocks.lookup x.1 = some x.2 := by
  induction blocks with
  | nil => cases hx
  | cons y rest ih =>
    obtain ⟨p, b⟩ := y
    rw [List.pairwise_cons] at h
    rcases List.mem_cons.mp hx with rfl | hx
    · simp
    · have hne : (x.1 == p) = false := beq_false_of_ne (Ne.symm (h.1 x hx))
      simp [List.lookup_cons, hne, ih h.2 hx]

/-- Filling every place of a shielded text gives the pieces back. -/
theorem renderAll_fillFrom {ids : IdSupply} {source : List Char} {n : Nat} {ps : List Piece}
    {blocks : List (List Char × List Char)}
    (h : ∀ x ∈ drawnBlocks ids source n ps, blocks.lookup x.1 = some x.2) :
    Segment.renderAll ((drawnSegments ids source n ps).map (Segment.fillFrom blocks)) =
      ps.flatMap Piece.text := by
  fun_induction drawnSegments ids source n ps with
  | case1 => rfl
  | case2 n t rest ih => simpa [Segment.fillFrom, Piece.text] using ih h
  | case3 n t rest ih =>
    rw [drawnBlocks_block] at h
    have hlookup := h _ List.mem_cons_self
    simpa [Segment.fillFrom, hlookup, Piece.text] using
      ih fun x hx => h x (List.mem_cons_of_mem _ hx)

theorem infix_of_mem_pieces {text : List Char} {x : Piece} (hx : x ∈ pieces text) :
    x.text <:+: text := by
  obtain ⟨before, after, hsplit⟩ := List.append_of_mem hx
  refine ⟨before.flatMap Piece.text, after.flatMap Piece.text, ?_⟩
  rw [← flatMap_pieces text, hsplit]
  simp

section

variable {ids : IdSupply} (hids : ids.Hexadecimal) {text : List Char}
  (hdistinct : (shield ids text).blocks.Pairwise fun x y => x.1 ≠ y.1)
  (hfresh : ∀ x ∈ (shield ids text).blocks, ¬x.1 <:+: text)

include hids hdistinct hfresh

/-- Restoring fills the places of a text in which no placeholder occurs but where it was put. -/
theorem restore_of_clear (segs : List Segment)
    (hclear : ∀ x ∈ (shield ids text).blocks, Segment.Clear x.1 [] segs) :
    (shield ids text).restore (Segment.renderAll segs) =
      Segment.renderAll (segs.map (Segment.fillFrom (shield ids text).blocks)) := by
  have hlaid : Laid (pieces text) := laid_piecesFrom (areLines_splitLines text) none trivial
  have hshut : (shield ids text).blocks.Pairwise fun x y => Segment.ShutTo y.1 x.2 :=
    shut_drawnBlocks hids hlaid 0 (fun _ => infix_of_mem_pieces) hfresh
  refine Segment.restore_renderAll _ segs (hdistinct.and hshut) fun x hx => ?_
  obtain ⟨m, -, -, hp⟩ := mem_drawnBlocks hx
  refine ⟨?_, ?_, hclear x hx⟩
  · rw [hp]
    exact hids.unbordered _
  · rw [hp]
    exact ids.placeholder_ne_nil _

/-- A shielded text is restored to the text, if its placeholders are distinct and foreign to it. -/
theorem restore_shield_of_fresh : (shield ids text).restore (shield ids text).text = text := by
  have hlaid : Laid (pieces text) := laid_piecesFrom (areLines_splitLines text) none trivial
  have hrestore := restore_of_clear hids hdistinct hfresh (drawnSegments ids text 0 (pieces text))
    fun x hx => by
      have hforeign := hfresh x hx
      obtain ⟨m, -, -, hp⟩ := mem_drawnBlocks hx
      rw [hp] at hforeign ⊢
      exact clear_drawnSegments hids hlaid 0 (fun _ => infix_of_mem_pieces) hforeign
        ⟨fun h => ids.placeholder_ne_nil _ (List.infix_nil.mp h), .inl rfl⟩
  rw [renderAll_drawnSegments, renderAll_fillFrom fun x hx => lookup_of_mem hdistinct hx,
    flatMap_pieces] at hrestore
  exact hrestore

end

/-- Restoring a shielded text gives the text back. -/
theorem restore_shield {ids : IdSupply} (hids : ids.Hexadecimal) (text : List Char)
    (hd : ids.DistinctFor text) : (shield ids text).restore (shield ids text).text = text :=
  restore_shield_of_fresh hids (distinct_drawnBlocks 0 (pieces text) hd) fun _ =>
    not_infix_of_mem_drawnBlocks hids hd

end FrontToc
