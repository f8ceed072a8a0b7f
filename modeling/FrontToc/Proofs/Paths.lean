import FrontToc.Files.Path

/-!
# The text of paths

The pieces of a path and the path made from pieces belong together. So a name joined to a path and the
directory of a path can be told by their pieces: up to idle ones at the end, the name comes after those
of the path, and the directory has all but the last.
-/
namespace FrontToc

open Text

theorem splitOnChar_eq_splitOn (c : Char) (s : List Char) : splitOnChar c s = s.splitOn c := by
  induction s with
  | nil => rfl
  | cons d s ih =>
    rw [splitOnChar, ih, List.splitOn_cons_eq_if_modifyHead]
    simp only [beq_iff_eq]
    split
    · rfl
    · cases pieces : s.splitOn c with
      | nil => exact absurd pieces (List.splitOn_ne_nil c s)
      | cons p ps => rfl

theorem not_mem_of_mem_splitOnChar {c : Char} {s piece : List Char} (member : piece ∈ splitOnChar c s) :
    c ∉ piece := by
  induction s generalizing piece with
  | nil =>
    rw [List.mem_singleton.mp member]
    exact List.not_mem_nil
  | cons d s ih =>
    rw [splitOnChar] at member
    split at member
    · rcases List.mem_cons.mp member with rfl | member
      · exact List.not_mem_nil
      · exact ih member
    · next other =>
      cases pieces : splitOnChar c s with
      | nil => exact absurd (splitOnChar_eq_splitOn c s ▸ pieces) (List.splitOn_ne_nil c s)
      | cons p ps =>
        rw [pieces] at member ih
        rcases List.mem_cons.mp member with rfl | member
        · simpa [Ne.symm other] using ih List.mem_cons_self
        · exact ih (List.mem_cons_of_mem _ member)

namespace Path

theorem pieces_eq_splitOn (p : Path) : p.pieces = p.splitOn '/' :=
  splitOnChar_eq_splitOn '/' p

theorem pieces_ne_nil (p : Path) : p.pieces ≠ [] :=
  p.pieces_eq_splitOn ▸ List.splitOn_ne_nil '/' p

theorem slash_not_mem {p : Path} {piece : List Char} (member : piece ∈ p.pieces) : '/' ∉ piece :=
  not_mem_of_mem_splitOnChar member

theorem intercalate_pieces (p : Path) : List.intercalate ['/'] p.pieces = p := by
  rw [pieces_eq_splitOn, List.intercalate_splitOn]

theorem pieces_intercalate {ps : List (List Char)} (some_piece : ps ≠ [])
    (no_slash : ∀ piece ∈ ps, '/' ∉ piece) : pieces (List.intercalate ['/'] ps) = ps := by
  rw [pieces_eq_splitOn, List.splitOn_intercalate '/' no_slash some_piece]

theorem pieces_append_slash (p q : Path) : pieces (p ++ '/' :: q) = p.pieces ++ pieces q := by
  simp only [pieces_eq_splitOn, List.splitOn_append_cons_self]

theorem pieces_of_name {name : List Char} (no_slash : '/' ∉ name) : pieces name = [name] := by
  rw [pieces_eq_splitOn, List.splitOn_eq_singleton no_slash]

/-- A name joined to a path is its last piece, after those of the path less an empty one at the end. -/
theorem pieces_join {p : Path} (some_char : p ≠ []) {name : List Char} (no_slash : '/' ∉ name) :
    ∃ front idle, (p.join name).pieces = front ++ [name] ∧ p.pieces = front ++ idle ∧
      ∀ piece ∈ idle, isIdle piece = true := by
  rw [join]
  split
  · next ends =>
    have last : p.getLast? = some '/' := by simpa [some_char] using ends
    obtain ⟨q, rfl⟩ := List.getLast?_eq_some_iff.mp last
    refine ⟨pieces q, [[]], ?_, pieces_append_slash q [], by simp [isIdle]⟩
    rw [List.append_assoc, List.singleton_append, pieces_append_slash, pieces_of_name no_slash]
  · refine ⟨p.pieces, [], ?_, (List.append_nil _).symm, by simp⟩
    rw [pieces_append_slash, pieces_of_name no_slash]

theorem mem_join {p : Path} {name : List Char} {c : Char} (member : c ∈ p.join name) :
    c ∈ p ∨ c = '/' ∨ c ∈ name := by
  rw [join] at member
  split at member
  · rcases List.mem_append.mp member with member | member
    · exact .inl member
    · exact .inr (.inr member)
  · rcases List.mem_append.mp member with member | member
    · exact .inl member
    · exact .inr (List.mem_cons.mp member)

theorem join_ne_nil {p : Path} (some_char : p ≠ []) (name : List Char) : p.join name ≠ [] := by
  rw [join]
  split <;> simp [some_char]

theorem isAbsolute_join {p : Path} (some_char : p ≠ []) (name : List Char) :
    (p.join name).isAbsolute = p.isAbsolute := by
  cases p with
  | nil => exact absurd rfl some_char
  | cons c p =>
    rw [join]
    split <;> rfl

/-- What `dropIdleEnd` takes away. -/
theorem dropIdleEnd_append (ps : List (List Char)) :
    ∃ idle, ps = dropIdleEnd ps ++ idle ∧ ∀ piece ∈ idle, isIdle piece = true := by
  refine ⟨(ps.reverse.takeWhile isIdle).reverse, ?_, ?_⟩
  · rw [dropIdleEnd, ← List.reverse_append, List.takeWhile_append_dropWhile, List.reverse_reverse]
  · intro piece member
    exact List.all_eq_true.mp List.all_takeWhile piece (List.mem_reverse.mp member)

theorem dropIdleEnd_concat (ps : List (List Char)) {last : List Char} (named : isIdle last = false) :
    dropIdleEnd (ps ++ [last]) = ps ++ [last] := by
  simp [dropIdleEnd, named]

theorem dropIdleEnd_cons {first : List Char} (named : isIdle first = false) (ps : List (List Char)) :
    dropIdleEnd (first :: ps) = first :: dropIdleEnd ps := by
  rw [dropIdleEnd, List.reverse_cons, List.dropWhile_append]
  split
  · next all_idle =>
    rw [dropIdleEnd, List.isEmpty_iff.mp all_idle]
    simp [named]
  · simp [dropIdleEnd]

theorem intercalate_cons (first : List Char) (rest : List (List Char)) :
    List.intercalate ['/'] (first :: rest) = first ++ rest.flatMap ('/' :: ·) := by
  induction rest generalizing first with
  | nil => simp
  | cons next rest ih =>
    rw [List.intercalate_cons_cons, ih]
    simp

theorem ofPieces_cons (first : List Char) (rest : List (List Char)) :
    ofPieces (first :: rest) =
      if first = [] ∧ rest = [] then ['/'] else first ++ rest.flatMap ('/' :: ·) := by
  simp only [ofPieces, intercalate_cons, List.cons.injEq]

theorem ofPieces_cons_ne_nil (first : List Char) (rest : List (List Char)) :
    ofPieces (first :: rest) ≠ [] := by
  rw [ofPieces_cons]
  split
  · simp
  · next other =>
    intro empty
    obtain ⟨rfl, none_left⟩ := List.append_eq_nil_iff.mp empty
    cases rest with
    | nil => exact other ⟨rfl, rfl⟩
    | cons next rest => simp at none_left

theorem ofPieces_cons_prefix (first last : List Char) (kept rest : List (List Char)) :
    ofPieces (first :: kept) <+: List.intercalate ['/'] (first :: (kept ++ rest ++ [last])) := by
  rw [ofPieces_cons, intercalate_cons]
  split
  · next root =>
    obtain ⟨rfl, rfl⟩ := root
    cases rest <;> simp
  · simp [List.prefix_append]

theorem isAbsolute_of_pieces {p : Path} {first next : List Char} {rest : List (List Char)}
    (pieces_eq : p.pieces = first :: next :: rest) : p.isAbsolute = first.isEmpty := by
  have no_slash : '/' ∉ first := slash_not_mem (pieces_eq ▸ List.mem_cons_self)
  rw [← p.intercalate_pieces, pieces_eq, intercalate_cons]
  cases first with
  | nil => rfl
  | cons c first =>
    have other : c ≠ '/' := fun same => no_slash (same ▸ List.mem_cons_self)
    simpa [isAbsolute] using other

theorem isAbsolute_ofPieces {first : List Char} (no_slash : '/' ∉ first) (rest : List (List Char)) :
    (ofPieces (first :: rest)).isAbsolute = first.isEmpty := by
  rw [ofPieces_cons]
  cases first with
  | nil => cases rest <;> rfl
  | cons c first =>
    have other : c ≠ '/' := fun same => no_slash (same ▸ List.mem_cons_self)
    simpa [isAbsolute] using other

/-- The pieces of a path made from pieces. The root has an idle one more. -/
theorem pieces_ofPieces {first : List Char} {rest : List (List Char)}
    (no_slash : ∀ piece ∈ first :: rest, '/' ∉ piece) :
    ∃ idle, pieces (ofPieces (first :: rest)) = first :: rest ++ idle ∧
      ∀ piece ∈ idle, isIdle piece = true := by
  rw [ofPieces]
  split
  · next root =>
    rw [root]
    exact ⟨[[]], rfl, by simp [isIdle]⟩
  · exact ⟨[], by rw [pieces_intercalate (by simp) no_slash, List.append_nil], by simp⟩

theorem parent?_of_pieces {p : Path} {first last : List Char} {middle : List (List Char)}
    (pieces_eq : p.pieces = first :: middle ++ [last]) (named : isIdle last = false) :
    p.parent? = some (ofPieces (first :: dropIdleEnd middle)) := by
  have some_char : p.isEmpty = false := by
    cases p with
    | nil => simp [pieces, splitOnChar] at pieces_eq
    | cons c p => rfl
  rw [parent?, pieces_eq, List.cons_append]
  simp only [some_char, Bool.false_eq_true, ↓reduceIte]
  cases idle : isIdle first with
  | true =>
    rw [if_pos rfl, if_pos rfl, dropIdleEnd_concat middle named]
    split
    · next none_left => exact absurd none_left (by simp)
    · rw [List.dropLast_concat, List.singleton_append]
  | false =>
    simp only [Bool.false_eq_true, ↓reduceIte]
    rw [← List.cons_append, dropIdleEnd_concat _ named]
    split
    · next none_left => exact absurd none_left (by simp)
    · rw [List.dropLast_concat, List.nil_append, dropIdleEnd_cons idle]

theorem parent?_of_name {p : Path} {last : List Char} (pieces_eq : p.pieces = [last])
    (named : isIdle last = false) : p.parent? = some [] := by
  have some_char : p.isEmpty = false := by
    cases p with
    | nil =>
      rw [show pieces [] = [[]] from rfl] at pieces_eq
      cases pieces_eq
      cases named
    | cons c p => rfl
  rw [parent?, pieces_eq]
  simp [some_char, named, dropIdleEnd, ofPieces]

/-- The directory of a path that ends in a name. Save for idle pieces at the end it has the pieces
before the name, and its text is a part of the path or the dot for the working directory. -/
theorem directory_of_pieces {p : Path} {front : List (List Char)} {last : List Char}
    (pieces_eq : p.pieces = front ++ [last]) (named : isIdle last = false) :
    ∃ kept idle idle', front = kept ++ idle ∧ p.directory.pieces = kept ++ idle' ∧
      (∀ piece ∈ idle ++ idle', isIdle piece = true) ∧ p.directory.isAbsolute = p.isAbsolute ∧
      p.directory ≠ [] ∧ (p.directory = ['.'] ∨ p.directory <+: p) := by
  cases front with
  | nil =>
    have directory_eq : p.directory = ['.'] := by
      rw [directory, parent?_of_name pieces_eq named]
    have relative : p.isAbsolute = false := by
      have no_slash : '/' ∉ last := slash_not_mem (p := p) (by rw [pieces_eq]; simp)
      rw [← p.intercalate_pieces, pieces_eq, List.nil_append, List.intercalate_singleton]
      cases last with
      | nil => rfl
      | cons c last =>
        have other : c ≠ '/' := fun same => no_slash (same ▸ List.mem_cons_self)
        simpa [isAbsolute] using other
    rw [directory_eq]
    exact ⟨[], [], [['.']], rfl, rfl, by simp [isIdle], relative ▸ rfl, by simp, .inl rfl⟩
  | cons first middle =>
    obtain ⟨idle, middle_eq, all_idle⟩ := dropIdleEnd_append middle
    have no_slash : ∀ piece ∈ first :: dropIdleEnd middle, '/' ∉ piece := by
      intro piece member
      refine slash_not_mem (p := p) ?_
      rw [pieces_eq, middle_eq]
      grind
    obtain ⟨idle', pieces_directory, all_idle'⟩ := pieces_ofPieces no_slash
    have some_char := ofPieces_cons_ne_nil first (dropIdleEnd middle)
    have directory_eq : p.directory = ofPieces (first :: dropIdleEnd middle) := by
      rw [directory, parent?_of_pieces pieces_eq named]
      grind
    rw [directory_eq]
    refine ⟨first :: dropIdleEnd middle, idle, idle', ?_, pieces_directory, ?_, ?_, some_char, .inr ?_⟩
    · rw [List.cons_append, ← middle_eq]
    · intro piece member
      rcases List.mem_append.mp member with member | member
      · exact all_idle piece member
      · exact all_idle' piece member
    · obtain ⟨next, rest, some_rest⟩ := List.exists_cons_of_ne_nil (l := middle ++ [last]) (by simp)
      rw [List.cons_append, some_rest] at pieces_eq
      rw [isAbsolute_ofPieces (no_slash first List.mem_cons_self), isAbsolute_of_pieces pieces_eq]
    · have start := ofPieces_cons_prefix first last (dropIdleEnd middle) idle
      rwa [← middle_eq, ← List.cons_append, ← pieces_eq, p.intercalate_pieces] at start

end Path

end FrontToc
