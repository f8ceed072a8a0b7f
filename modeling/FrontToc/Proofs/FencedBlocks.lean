import FrontToc.Proofs.Pieces
import FrontToc.Proofs.TextRuns

/-!
# What a fenced block is

The division of a text into lines outside of code and fenced blocks, said without the scanner: what
opens a block, what closes it, and that only the last one may stay open. Every text has exactly one such
division, and shielding a text finds it.
-/
namespace FrontToc

open Text

/-- A line that opens a block: at most three spaces, three or more backticks or tildes, and a text that
does not go on with them. After backticks there is no backtick at all. -/
def OpensFence (marker : Char) (length : Nat) (line : List Char) : Prop :=
  ∃ indent info, line = List.replicate indent ' ' ++ (List.replicate length marker ++ info) ∧
    indent ≤ 3 ∧ 3 ≤ length ∧ (marker = '\x60' ∨ marker = '~') ∧ info.head? ≠ some marker ∧
    (marker = '\x60' → '\x60' ∉ info)

/-- A line that closes a block: at most three spaces, at least as many markers as the block was opened
with, and nothing but blanks after them. -/
def ClosesFence (marker : Char) (length : Nat) (line : List Char) : Prop :=
  ∃ indent run blanks, line = List.replicate indent ' ' ++ (List.replicate run marker ++ blanks) ∧
    indent ≤ 3 ∧ length ≤ run ∧ ∀ c ∈ blanks, isBlank c

theorem head_dropWhile_ne (c : Char) (s : List Char) : (s.dropWhile (· = c)).head? ≠ some c :=
  fun head => by simpa using head_dropWhile (· = c) s c head

section

variable {c : Char} {s : List Char} (stop : s.head? ≠ some c)

include stop

theorem takeWhile_run (n : Nat) : (List.replicate n c ++ s).takeWhile (· = c) = List.replicate n c :=
  takeWhile_append_run (by simp) fun _ head => decide_eq_false fun same => stop (same ▸ head)

theorem dropWhile_run (n : Nat) : (List.replicate n c ++ s).dropWhile (· = c) = s :=
  dropWhile_append_run (by simp) fun _ head => decide_eq_false fun same => stop (same ▸ head)

end

/-- The indentation of a line is all its leading spaces, and there are at most three of them. -/
theorem Fence.unindent_eq_some_iff {line rest : List Char} :
    Fence.unindent? line = some rest ↔
      ∃ indent, line = List.replicate indent ' ' ++ rest ∧ indent ≤ 3 ∧ rest.head? ≠ some ' ' := by
  constructor
  · intro unindented
    have rest_eq := Fence.eq_of_unindent unindented
    have line_eq : line = List.replicate (line.takeWhile (· = ' ')).length ' ' ++ rest := by
      rw [← takeWhile_eq_replicate, rest_eq, List.takeWhile_append_dropWhile]
    refine ⟨_, line_eq, ?_, rest_eq ▸ head_dropWhile_ne ' ' line⟩
    rw [Fence.unindent?, ← rest_eq] at unindented
    split at unindented
    · next few =>
      have count := congrArg List.length line_eq
      rw [List.length_append, List.length_replicate] at count
      omega
    · cases unindented
  · rintro ⟨indent, rfl, few, stop⟩
    rw [Fence.unindent?, dropWhile_run stop, if_pos (by simpa using few)]

/-- The scanner takes for an opening fence what opens a block, and knows its marker and length. -/
theorem Fence.opening_eq_some_iff {line : List Char} {fence : Fence} :
    Fence.opening? line = some fence ↔ OpensFence fence.marker fence.length line := by
  constructor
  · intro opened
    rw [Fence.opening?] at opened
    split at opened
    · next c rest unindented =>
      obtain ⟨indent, rfl, few, -⟩ := Fence.unindent_eq_some_iff.mp unindented
      dsimp only at opened
      rw [drop_length_takeWhile] at opened
      split at opened
      · next fits =>
        obtain ⟨marker, long, plain⟩ := fits
        cases opened
        refine ⟨indent, (c :: rest).dropWhile (· = c), ?_, few, long, marker, head_dropWhile_ne c _,
          fun backtick occurs => plain ⟨backtick, occurs⟩⟩
        rw [← takeWhile_eq_replicate, List.takeWhile_append_dropWhile]
      · cases opened
    · cases opened
  · rintro ⟨indent, info, rfl, few, long, marker, stop, plain⟩
    obtain ⟨c, length⟩ := fence
    dsimp only at long marker stop plain ⊢
    have not_space : c ≠ ' ' := by
      rintro rfl
      rcases marker with same | same <;> exact absurd same (by decide)
    obtain ⟨n, rfl⟩ : ∃ n, length = n + 1 := ⟨length - 1, by omega⟩
    have unindented : Fence.unindent?
        (List.replicate indent ' ' ++ (List.replicate (n + 1) c ++ info)) =
          some (c :: (List.replicate n c ++ info)) :=
      Fence.unindent_eq_some_iff.mpr ⟨indent, rfl, few, by simpa using not_space⟩
    rw [Fence.opening?, unindented]
    dsimp only
    rw [drop_length_takeWhile, ← List.cons_append, ← List.replicate_succ, takeWhile_run stop,
      dropWhile_run stop, List.length_replicate, if_pos ⟨marker, long, fun h => plain h.1 h.2⟩]

/-- The scanner takes for a closing fence what closes a block. -/
theorem Fence.closes_iff {fence : Fence} {opener line : List Char}
    (opens : OpensFence fence.marker fence.length opener) :
    fence.closes line = true ↔ ClosesFence fence.marker fence.length line := by
  obtain ⟨-, -, -, -, long, marker, -, -⟩ := opens
  obtain ⟨c, length⟩ := fence
  dsimp only at long marker
  constructor
  · intro closes
    rw [Fence.closes] at closes
    split at closes
    · cases closes
    · next rest unindented =>
      obtain ⟨indent, rfl, few, -⟩ := Fence.unindent_eq_some_iff.mp unindented
      dsimp only at closes
      rw [drop_length_takeWhile, Bool.and_eq_true, decide_eq_true_eq] at closes
      refine ⟨indent, _, rest.dropWhile (· = c), ?_, few, closes.1,
        List.all_eq_true.mp closes.2⟩
      rw [← takeWhile_eq_replicate, List.takeWhile_append_dropWhile]
  · rintro ⟨indent, run, blanks, rfl, few, enough, blank⟩
    have not_blank : ¬isBlank c := by rcases marker with rfl | rfl <;> decide
    have not_space : c ≠ ' ' := by
      rintro rfl
      exact not_blank (by decide)
    have stop : blanks.head? ≠ some c := fun head => not_blank (blank c (List.mem_of_head? head))
    obtain ⟨n, rfl⟩ : ∃ n, run = n + 1 := ⟨run - 1, by dsimp only at enough; omega⟩
    have unindented : Fence.unindent?
        (List.replicate indent ' ' ++ (List.replicate (n + 1) c ++ blanks)) =
          some (List.replicate (n + 1) c ++ blanks) :=
      Fence.unindent_eq_some_iff.mpr ⟨indent, rfl, few, by simpa [List.replicate_succ] using not_space⟩
    rw [Fence.closes, unindented]
    dsimp only
    rw [drop_length_takeWhile, takeWhile_run stop, dropWhile_run stop, List.length_replicate,
      Bool.and_eq_true, decide_eq_true_eq]
    exact ⟨enough, List.all_eq_true.mpr blank⟩

/-- A part of a text: a line outside of code, or the lines of a fenced block with the one that opens it
and the one that closes it, if there is one. -/
inductive Part where
  | outside (line : List Char)
  | closed (opener : List Char) (inside : List (List Char)) (closer : List Char)
  | unclosed (opener : List Char) (inside : List (List Char))
deriving DecidableEq, Repr

namespace Part

/-- The lines of a part. -/
def lines : Part → List (List Char)
  | .outside l => [l]
  | .closed opener inside closer => opener :: (inside ++ [closer])
  | .unclosed opener inside => opener :: inside

/-- The stretches of text that a part is made of. The ending of the line that closes a block stays
outside of the block. -/
def pieces : Part → List Piece
  | .outside l => [.outside l]
  | .closed opener inside closer =>
    [.block (opener ++ inside.flatten ++ trimLineEnd closer), .outside (lineEnd closer)]
  | .unclosed opener inside => [.block (opener ++ inside.flatten)]

/-- What the lines of a part have to be: a line outside opens no block; the first line of a block opens
it, and of the lines after it none but its last one closes it. -/
def Fits : Part → Prop
  | .outside l => ¬∃ marker length, OpensFence marker length (trimLineEnd l)
  | .closed opener inside closer => ∃ marker length, OpensFence marker length (trimLineEnd opener) ∧
      (∀ l ∈ inside, ¬ClosesFence marker length (trimLineEnd l)) ∧
      ClosesFence marker length (trimLineEnd closer)
  | .unclosed opener inside => ∃ marker length, OpensFence marker length (trimLineEnd opener) ∧
      ∀ l ∈ inside, ¬ClosesFence marker length (trimLineEnd l)

end Part

/-- A division of lines into lines outside of code and fenced blocks. Only the last block may stay
open. -/
structure IsDivision (ls : List (List Char)) (parts : List Part) : Prop where
  lines : parts.flatMap Part.lines = ls
  fits : ∀ part ∈ parts, part.Fits
  unclosed_last : ∀ opener inside, .unclosed opener inside ∉ parts.dropLast

/-- The division found by reading the lines in order: after a line that opens a block comes the first
one that closes it. -/
def divide : List (List Char) → List Part
  | [] => []
  | l :: ls =>
    match Fence.opening? (trimLineEnd l) with
    | none => .outside l :: divide ls
    | some fence =>
      match ls.find? fun l => fence.closes (trimLineEnd l) with
      | none => [.unclosed l ls]
      | some closer =>
        .closed l (ls.takeWhile fun l => !fence.closes (trimLineEnd l)) closer
          :: divide (skipBlock fence ls)
termination_by ls => ls.length
decreasing_by
  · exact Nat.lt_succ_self _
  · exact Nat.lt_succ_of_le (skipBlock_sublist fence ls).length_le

theorem divide_plain {l : List Char} {ls : List (List Char)}
    (plain : Fence.opening? (trimLineEnd l) = none) : divide (l :: ls) = .outside l :: divide ls := by
  rw [divide, plain]

theorem takeWhile_stays {fence : Fence} {inside rest : List (List Char)} {closer : List Char}
    (stays : ∀ l ∈ inside, ¬fence.closes (trimLineEnd l)) (closes : fence.closes (trimLineEnd closer)) :
    (inside ++ closer :: rest).takeWhile (fun l => !fence.closes (trimLineEnd l)) = inside := by
  rw [List.takeWhile_append_of_pos (by simpa using stays)]
  simp [closes]

theorem skipBlock_stays {fence : Fence} {inside rest : List (List Char)} {closer : List Char}
    (stays : ∀ l ∈ inside, ¬fence.closes (trimLineEnd l)) (closes : fence.closes (trimLineEnd closer)) :
    skipBlock fence (inside ++ closer :: rest) = rest := by
  rw [skipBlock, List.dropWhile_append_of_pos (by simpa using stays)]
  simp [closes]

/-- Lines with one that closes a block are the lines before the first such line, that line, and the
lines after the block. -/
theorem split_at_closing {fence : Fence} {ls : List (List Char)} {closer : List Char}
    (found : ls.find? (fun l => fence.closes (trimLineEnd l)) = some closer) :
    ls = ls.takeWhile (fun l => !fence.closes (trimLineEnd l)) ++ closer :: skipBlock fence ls ∧
      (∀ l ∈ ls.takeWhile (fun l => !fence.closes (trimLineEnd l)),
        ¬fence.closes (trimLineEnd l)) ∧
      fence.closes (trimLineEnd closer) := by
  obtain ⟨closes, inside, rest, rfl, before⟩ := List.find?_eq_some_iff_append.mp found
  have stays : ∀ l ∈ inside, ¬fence.closes (trimLineEnd l) := by simpa using before
  rw [takeWhile_stays stays closes, skipBlock_stays stays closes]
  exact ⟨rfl, stays, closes⟩

theorem divide_closed {opener closer : List Char} {inside rest : List (List Char)} {fence : Fence}
    (opens : Fence.opening? (trimLineEnd opener) = some fence)
    (stays : ∀ l ∈ inside, ¬fence.closes (trimLineEnd l)) (closes : fence.closes (trimLineEnd closer)) :
    divide (opener :: (inside ++ closer :: rest)) = .closed opener inside closer :: divide rest := by
  have found : (inside ++ closer :: rest).find? (fun l => fence.closes (trimLineEnd l)) =
      some closer := by
    rw [List.find?_append, List.find?_eq_none.mpr stays, Option.none_or]
    simp [closes]
  rw [divide, opens]
  simp only [found, takeWhile_stays stays closes, skipBlock_stays stays closes]

theorem divide_unclosed {opener : List Char} {inside : List (List Char)} {fence : Fence}
    (opens : Fence.opening? (trimLineEnd opener) = some fence)
    (stays : ∀ l ∈ inside, ¬fence.closes (trimLineEnd l)) :
    divide (opener :: inside) = [.unclosed opener inside] := by
  rw [divide, opens]
  simp only [List.find?_eq_none.mpr stays]

/-- Any division of lines is the one found by reading them in order. -/
theorem IsDivision.eq_divide {ls : List (List Char)} {parts : List Part}
    (division : IsDivision ls parts) : parts = divide ls := by
  induction parts generalizing ls with
  | nil =>
    obtain rfl := division.lines
    rw [List.flatMap_nil, divide]
  | cons part rest ih =>
    have rest_divides : IsDivision (rest.flatMap Part.lines) rest := by
      refine ⟨rfl, fun p member => division.fits p (List.mem_cons_of_mem _ member), ?_⟩
      intro opener inside member
      have more : rest ≠ [] := List.ne_nil_of_mem (List.mem_of_mem_dropLast member)
      refine division.unclosed_last opener inside ?_
      rw [List.dropLast_cons_of_ne_nil more]
      exact List.mem_cons_of_mem _ member
    have lines_eq := division.lines
    have fits := division.fits part List.mem_cons_self
    rw [List.flatMap_cons] at lines_eq
    cases part with
    | outside l =>
      have plain : Fence.opening? (trimLineEnd l) = none := by
        rw [Option.eq_none_iff_forall_ne_some]
        exact fun fence opens => fits ⟨_, _, Fence.opening_eq_some_iff.mp opens⟩
      rw [← lines_eq, Part.lines, List.singleton_append, divide_plain plain, ← ih rest_divides]
    | closed opener inside closer =>
      obtain ⟨marker, length, opens, stays, closes⟩ := fits
      have opening : Fence.opening? (trimLineEnd opener) = some ⟨marker, length⟩ :=
        Fence.opening_eq_some_iff.mpr opens
      rw [← lines_eq, Part.lines, List.cons_append, List.append_assoc, List.singleton_append,
        divide_closed opening (fun l member => mt (Fence.closes_iff opens).mp (stays l member))
          ((Fence.closes_iff opens).mpr closes), ← ih rest_divides]
    | unclosed opener inside =>
      obtain ⟨marker, length, opens, stays⟩ := fits
      obtain rfl : rest = [] := by
        by_contra more
        exact division.unclosed_last opener inside (by simp [List.dropLast_cons_of_ne_nil more])
      have opening : Fence.opening? (trimLineEnd opener) = some ⟨marker, length⟩ :=
        Fence.opening_eq_some_iff.mpr opens
      rw [← lines_eq, Part.lines, List.flatMap_nil, List.append_nil,
        divide_unclosed opening fun l member => mt (Fence.closes_iff opens).mp (stays l member)]

theorem IsDivision.cons {ls : List (List Char)} {parts : List Part} (division : IsDivision ls parts)
    {part : Part} (fits : part.Fits) (ends : ∀ opener inside, part ≠ .unclosed opener inside) :
    IsDivision (part.lines ++ ls) (part :: parts) := by
  refine ⟨by rw [List.flatMap_cons, division.lines], ?_, fun opener inside member => ?_⟩
  · intro other member
    rcases List.mem_cons.mp member with rfl | member
    · exact fits
    · exact division.fits other member
  · cases parts with
    | nil => cases member
    | cons next more =>
      rcases List.mem_cons.mp member with same | member
      · exact ends opener inside same.symm
      · exact division.unclosed_last opener inside member

/-- Reading lines in order divides them. -/
theorem isDivision_divide (ls : List (List Char)) : IsDivision ls (divide ls) := by
  fun_induction divide ls with
  | case1 => exact ⟨rfl, by simp, by simp⟩
  | case2 l ls plain ih =>
    have fits : (Part.outside l).Fits := by
      rintro ⟨marker, length, opens⟩
      have opening : Fence.opening? (trimLineEnd l) = some ⟨marker, length⟩ :=
        Fence.opening_eq_some_iff.mpr opens
      rw [plain] at opening
      cases opening
    exact ih.cons fits (by simp)
  | case3 l ls fence opening none_closes =>
    have opens := Fence.opening_eq_some_iff.mp opening
    refine ⟨by simp [Part.lines], fun part member => ?_, by simp⟩
    obtain rfl := List.mem_singleton.mp member
    exact ⟨_, _, opens, fun l member => mt (Fence.closes_iff opens).mpr
      (List.find?_eq_none.mp none_closes l member)⟩
  | case4 l ls fence opening closer found ih =>
    have opens := Fence.opening_eq_some_iff.mp opening
    obtain ⟨ls_eq, stays, closes⟩ := split_at_closing found
    have fits : (Part.closed l (ls.takeWhile fun l => !fence.closes (trimLineEnd l)) closer).Fits :=
      ⟨_, _, opens, fun l member => mt (Fence.closes_iff opens).mpr (stays l member),
        (Fence.closes_iff opens).mp closes⟩
    have divided := ih.cons fits (by simp)
    rwa [Part.lines, List.cons_append, List.append_assoc, List.singleton_append, ← ls_eq] at divided

/-- Lines that do not close a block go into it. -/
theorem piecesFrom_stays {fence : Fence} {inside : List (List Char)}
    (stays : ∀ l ∈ inside, ¬fence.closes (trimLineEnd l)) (block : List Char)
    (rest : List (List Char)) :
    piecesFrom (some (fence, block)) (inside ++ rest) =
      piecesFrom (some (fence, block ++ inside.flatten)) rest := by
  induction inside generalizing block with
  | nil => simp
  | cons l inside ih =>
    rw [List.cons_append, piecesFrom_inside (stays l List.mem_cons_self),
      ih fun l member => stays l (List.mem_cons_of_mem _ member)]
    simp

/-- The pieces that the scanner finds are those of the division. -/
theorem flatMap_pieces_divide (ls : List (List Char)) :
    (divide ls).flatMap Part.pieces = piecesFrom none ls := by
  fun_induction divide ls with
  | case1 => rfl
  | case2 l ls plain ih => rw [piecesFrom_plain plain, ← ih]; rfl
  | case3 l ls fence opening none_closes =>
    have scanned := piecesFrom_stays (List.find?_eq_none.mp none_closes) l []
    rw [List.append_nil] at scanned
    rw [piecesFrom_opening opening, scanned]
    rfl
  | case4 l ls fence opening closer found ih =>
    obtain ⟨ls_eq, stays, closes⟩ := split_at_closing found
    have scanned := piecesFrom_stays stays l (closer :: skipBlock fence ls)
    rw [← ls_eq, piecesFrom_closing closes] at scanned
    rw [piecesFrom_opening opening, scanned, List.flatMap_cons, ih]
    rfl

/-- Pieces with placeholders in the places of the blocks, one after the other. -/
def withPlaceholders : (placeholders : List (List Char)) → List Piece → List Char
  | _, [] => []
  | placeholders, .outside t :: rest => t ++ withPlaceholders placeholders rest
  | placeholders, .block _ :: rest =>
    placeholders.head?.getD [] ++ withPlaceholders placeholders.tail rest

/-- The block of a piece that is one. -/
def Piece.block? : Piece → Option (List Char)
  | .outside _ => none
  | .block t => some t

theorem drawnText_eq_withPlaceholders (ids : IdSupply) (source : List Char) (n : Nat)
    (ps : List Piece) :
    drawnText ids source n ps =
      withPlaceholders ((drawnBlocks ids source n ps).map Prod.fst) ps := by
  fun_induction nextId ids source n ps with
  | case1 => rfl
  | case2 n t rest ih => rw [drawnText_outside, ih, drawnBlocks_outside, withPlaceholders]
  | case3 n t rest ih =>
    rw [drawnText_block, ih, drawnBlocks_block, withPlaceholders]
    rfl

theorem drawnBlocks_eq (ids : IdSupply) (source : List Char) (n : Nat) (ps : List Piece) :
    (drawnBlocks ids source n ps).map Prod.snd = ps.filterMap Piece.block? := by
  fun_induction nextId ids source n ps with
  | case1 => rfl
  | case2 n t rest ih => rw [drawnBlocks_outside, ih]; rfl
  | case3 n t rest ih => rw [drawnBlocks_block, List.map_cons, ih]; rfl

/-- Shielding a text finds its only division into lines outside of code and fenced blocks: the blocks
are taken out in order, and what is outside stays as it is around their placeholders. -/
theorem shield_finds_only_division (ids : IdSupply) (text : List Char) :
    ∃ parts, IsDivision (splitLines text) parts ∧
      (∀ other, IsDivision (splitLines text) other → other = parts) ∧
      (parts.flatMap Part.pieces).flatMap Piece.text = text ∧
      (shield ids text).blocks.map Prod.snd = (parts.flatMap Part.pieces).filterMap Piece.block? ∧
      (shield ids text).text = withPlaceholders ((shield ids text).blocks.map Prod.fst)
        (parts.flatMap Part.pieces) := by
  have found : (divide (splitLines text)).flatMap Part.pieces = pieces text :=
    flatMap_pieces_divide (splitLines text)
  refine ⟨divide (splitLines text), isDivision_divide _, fun other => IsDivision.eq_divide, ?_⟩
  rw [found]
  exact ⟨flatMap_pieces text, drawnBlocks_eq ids text 0 _, drawnText_eq_withPlaceholders ids text 0 _⟩

end FrontToc
