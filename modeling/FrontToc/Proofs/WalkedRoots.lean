import FrontToc.Proofs.ReplacedFile
import FrontToc.Proofs.WalkedPaths

/-!
# Where a walk starts

A walk follows the pieces of its root one by one. It gets to the directory that the root leads to, by a
path that is no longer than the root; only from dots at the start an empty piece leads nowhere.
-/
namespace FrontToc

open Text

theorem byteLength_le_of_sublist {s t : List Char} (part : s.Sublist t) : byteLength s ≤ byteLength t := by
  induction part with
  | slnil => exact Nat.le_refl _
  | cons c _ ih => exact Nat.le_trans ih (Nat.le_add_left _ _)
  | cons_cons c _ ih => exact Nat.add_le_add_left ih _

namespace FileTree

theorem pathFault?_of_sublist {p q : Path} (some_char : p ≠ []) (part : p.Sublist q)
    (no_fault : pathFault? q = none) : pathFault? p = none := by
  obtain ⟨null, -, short⟩ := pathFault?_eq_none.mp no_fault
  exact pathFault?_eq_none.mpr ⟨fun member => null (part.subset member), some_char,
    Nat.le_trans (byteLength_le_of_sublist part) short⟩

variable {t : FileTree}

theorem ne_nil_of_locate {p : Path} {loc : Location} (found : t.locate p = .ok loc) : p ≠ [] :=
  (pathFault?_eq_none.mp (locate_eq_ok.mp found).1).2.1

/-- One piece more leads on from where a path leads. -/
theorem locate_step_of_follow {here : Path} {dir loc : Location} {piece : List Char}
    (found : t.locate here = .ok dir) (no_slash : '/' ∉ piece)
    (no_fault : pathFault? (Walk.step here piece) = none) (led : t.follow dir [piece] = .ok loc) :
    t.locate (Walk.step here piece) = .ok loc := by
  obtain ⟨-, at_here⟩ := locate_eq_ok.mp found
  refine locate_eq_ok.mpr ⟨no_fault, ?_⟩
  rw [Walk.step] at no_fault ⊢
  split
  · next dot =>
    subst dot
    have same : dir = t.workingDirectory := follow_idle (by decide) at_here
    rw [Path.pieces_of_name no_slash, start_of_name no_slash, ← same]
    exact led
  · have some_char := ne_nil_of_locate found
    obtain ⟨front, idle, joined, pieces, all_idle⟩ := Path.pieces_join some_char no_slash
    rw [pieces] at at_here
    obtain ⟨middle, first, second⟩ := follow_append.mp at_here
    cases follow_idle all_idle second
    rw [joined, start_join some_char]
    exact follow_append.mpr ⟨dir, first, led⟩

end FileTree

namespace OnMachine

variable {machine : Machine} {p : Path} {loc : Location}

theorem kind?_of_locate (found : machine.tree.locate p = .ok loc) :
    ((Host.kind? p : OnMachine (Option EntryKind)) machine).1 = machine.tree.kindAt? loc := by
  show (machine.tree.lookup? p).map (fun entry => kindOf entry.2) = (machine.tree.get? loc).map kindOf
  simp only [FileTree.lookup?, found]
  cases machine.tree.get? loc <;> rfl

theorem isDirectory_of_error {fault : FileFault} (lost : machine.tree.locate p = .error fault) :
    ((Host.isDirectory p : OnMachine Bool) machine).1 = false := by
  show decide ((machine.tree.lookup? p).map (fun entry => kindOf entry.2) = some .directory) = false
  simp [FileTree.lookup?, lost]

theorem isDirectory_of_locate (found : machine.tree.locate p = .ok loc) :
    ((Host.isDirectory p : OnMachine Bool) machine).1 = decide (machine.tree.kindAt? loc = some .directory) := by
  show decide (((Host.kind? p : OnMachine (Option EntryKind)) machine).1 = some .directory) = _
  simp only [kind?_of_locate found]

theorem isFile_of_locate (found : machine.tree.locate p = .ok loc) :
    ((Host.isFile p : OnMachine Bool) machine).1 = decide (machine.tree.kindAt? loc = some .file) := by
  show decide (((Host.kind? p : OnMachine (Option EntryKind)) machine).1 = some .file) = _
  simp only [kind?_of_locate found]

end OnMachine

namespace Walk

variable {machine : Machine}

/-- A piece that leads from a directory to something is one that a walk follows. -/
theorem leadsOn_of_leads {here : Path} {dir next : Location} {piece : List Char}
    (found : machine.tree.locate here = .ok dir) (directory : machine.tree.kindAt? dir = some .directory)
    (leads : machine.tree.Leads dir piece next) (found' : machine.tree.locate (step here piece) = .ok next) :
    ((leadsOn here piece : OnMachine Bool) machine).1 = true := by
  rw [leadsOn]
  split
  · rw [OnMachine.isDirectory_of_locate found, decide_eq_true directory]
  · next not_special =>
    show ((Host.kind? (step here piece) : OnMachine (Option EntryKind)) machine).1.isSome = true
    rw [OnMachine.kind?_of_locate found']
    cases leads with
    | idle => rw [directory]; rfl
    | up up => exact absurd (.inr up) not_special
    | down _ _ _ there => exact there

/-- A walk follows pieces that lead to something, if no path on the way is at fault. -/
theorem follow?_of_follow {here : Path} {pieces : List (List Char)} {dir loc : Location}
    (found : machine.tree.locate here = .ok dir) (no_slash : ∀ piece ∈ pieces, '/' ∉ piece)
    (no_fault : ∀ front, front <+: pieces → front ≠ [] → FileTree.pathFault? (descend here front) = none)
    (led : machine.tree.follow dir pieces = .ok loc) :
    ((follow? here pieces : OnMachine (Option Path)) machine).1 = some (descend here pieces) ∧
      machine.tree.locate (descend here pieces) = .ok loc := by
  induction pieces generalizing here dir with
  | nil =>
    cases led
    exact ⟨rfl, found⟩
  | cons piece rest ih =>
    obtain ⟨directory, next, leads, led⟩ := FileTree.follow_cons_eq_ok.mp led
    have found' := FileTree.locate_step_of_follow found (no_slash piece List.mem_cons_self)
      (no_fault [piece] (by simp) (by simp)) (FileTree.follow_cons_eq_ok.mpr ⟨directory, next, leads, rfl⟩)
    rw [follow?, (asksOnly_leadsOn here piece).bind_eq, leadsOn_of_leads found directory leads found', if_pos rfl]
    refine ih found' (fun piece member => no_slash piece (List.mem_cons_of_mem _ member)) ?_ led
    intro front within _
    exact no_fault (piece :: front) (List.cons_prefix_cons.mpr ⟨rfl, within⟩) (by simp)

theorem descend_ne_nil {base : Path} (some_char : base ≠ []) {names : List (List Char)}
    (proper : ∀ name ∈ names, IsName name) : descend base names ≠ [] := by
  induction names generalizing base with
  | nil => exact some_char
  | cons name names ih =>
    have is_name := proper name List.mem_cons_self
    exact ih (step_ne some_char name fun _ => is_name.named).1 fun n member =>
      proper n (List.mem_cons_of_mem _ member)

theorem mem_descend {base : Path} {names : List (List Char)} {c : Char} (member : c ∈ descend base names) :
    c ∈ base ∨ c = '/' ∨ ∃ name ∈ names, c ∈ name := by
  induction names generalizing base with
  | nil => exact .inl member
  | cons name names ih =>
    rcases ih member with member | slash | ⟨n, among, member⟩
    · have part : c ∈ base ∨ c = '/' ∨ c ∈ name := by
        rw [step] at member
        split at member
        · exact .inr (.inr member)
        · exact Path.mem_join member
      exact part.imp id (Or.imp id fun member => ⟨name, List.mem_cons_self, member⟩)
    · exact .inr (.inl slash)
    · exact .inr (.inr ⟨n, List.mem_cons_of_mem _ among, member⟩)

/-- From the dot for the working directory, dots and then an empty piece lead nowhere. -/
theorem follow?_of_empty_piece {pieces : List (List Char)}
    (empty : (pieces.dropWhile (· = ['.'])).head? = some []) :
    ((follow? ['.'] pieces : OnMachine (Option Path)) machine).1 = none := by
  induction pieces with
  | nil => cases empty
  | cons piece rest ih =>
    rw [follow?, (asksOnly_leadsOn ['.'] piece).bind_eq]
    by_cases dot : piece = ['.']
    · subst dot
      split
      · exact ih empty
      · rfl
    · rw [List.dropWhile_cons_of_neg (by simpa using dot)] at empty
      obtain rfl : piece = [] := Option.some.inj empty
      rfl

/-- Pieces on the way down from a path make it no longer than with a slash before each. -/
theorem descend_sublist {here : Path} (some_char : here ≠ []) (no_dot : here ≠ ['.'])
    (pieces : List (List Char)) :
    descend here pieces ≠ [] ∧ (descend here pieces).Sublist (here ++ pieces.flatMap ('/' :: ·)) := by
  induction pieces generalizing here with
  | nil => exact ⟨some_char, by simp [descend]⟩
  | cons piece rest ih =>
    have next := step_ne some_char piece fun dot => absurd dot no_dot
    obtain ⟨some_char', part⟩ := ih next.1 next.2
    have joined : (step here piece).Sublist (here ++ '/' :: piece) := by
      rw [step, if_neg no_dot, Path.join]
      split
      · exact (List.sublist_cons_self _ _).append_left here
      · exact List.Sublist.refl _
    refine ⟨some_char', part.trans ?_⟩
    rw [List.flatMap_cons, ← List.append_assoc]
    exact joined.append_right _

/-- Pieces from the dot for the working directory make a path that is no longer than they are with slashes
between them. -/
theorem descend_dot_sublist {pieces : List (List Char)} (some_piece : pieces ≠ [])
    (not_empty : (pieces.dropWhile (· = ['.'])).head? ≠ some []) :
    descend ['.'] pieces ≠ [] ∧ (descend ['.'] pieces).Sublist (List.intercalate ['/'] pieces) := by
  induction pieces with
  | nil => exact absurd rfl some_piece
  | cons piece rest ih =>
    rw [Path.intercalate_cons]
    have first : descend ['.'] (piece :: rest) = descend piece rest := by
      rw [descend, List.foldl_cons, step, if_pos rfl, ← descend]
    rw [first]
    by_cases dot : piece = ['.']
    · subst dot
      cases rest with
      | nil => exact ⟨by simp [descend], by simp [descend]⟩
      | cons next rest =>
        obtain ⟨some_char, part⟩ := ih (by simp) not_empty
        refine ⟨some_char, part.trans ?_⟩
        rw [Path.intercalate_cons, List.flatMap_cons]
        exact (List.sublist_cons_self '/' _).trans (List.sublist_append_right ['.'] _)
    · rw [List.dropWhile_cons_of_neg (by simpa using dot), List.head?_cons] at not_empty
      exact descend_sublist (by simpa using not_empty) dot rest

/-- Pieces from the root of all files make a path that is no longer than they are with a slash before
each. -/
theorem descend_slash_sublist {pieces : List (List Char)} (some_piece : pieces ≠ []) :
    descend ['/'] pieces ≠ [] ∧ (descend ['/'] pieces).Sublist (pieces.flatMap ('/' :: ·)) := by
  obtain ⟨piece, rest, rfl⟩ := List.exists_cons_of_ne_nil some_piece
  have first : descend ['/'] (piece :: rest) = descend ('/' :: piece) rest := rfl
  rw [first, List.flatMap_cons]
  exact descend_sublist (by simp) (by simp) rest

/-- A walk starts at the root of all files if its root does, else at the dot for the working directory. -/
theorem start_cases {root : Path} (some_char : root ≠ []) :
    (∃ q, root = '/' :: q ∧ start root = (['/'], Path.pieces q)) ∨
      root.isAbsolute = false ∧ start root = (['.'], root.pieces) := by
  obtain ⟨c, q, rfl⟩ := List.exists_cons_of_ne_nil some_char
  by_cases slash : c = '/'
  · subst slash
    exact .inl ⟨q, rfl, rfl⟩
  · refine .inr ⟨by simpa [Path.isAbsolute] using slash, ?_⟩
    rw [start]
    split
    · next rest pieces_eq =>
      -- the root would start with a slash
      have text := Path.intercalate_pieces (c :: q)
      rw [pieces_eq, Path.intercalate_cons] at text
      cases rest with
      | nil => cases text
      | cons piece rest => exact absurd (List.cons.inj text).1.symm slash
    · rfl

/-- A root that a walk does not get to: the first of its pieces that is no dot is empty. -/
def Lost (root : Path) : Prop :=
  root.isAbsolute = false ∧ (root.pieces.dropWhile (· = ['.'])).head? = some []

instance (root : Path) : Decidable (Lost root) :=
  inferInstanceAs (Decidable (_ ∧ _))

/-- The path that the pieces of a root make one by one. -/
def base (root : Path) : Path :=
  descend (start root).1 (start root).2

/-- The pieces that a walk follows lead from where it starts to where the root leads. -/
theorem locate_start {t : FileTree} {root : Path} {dir : Location} (found : t.locate root = .ok dir) :
    ∃ here, t.locate (start root).1 = .ok here ∧ t.follow here (start root).2 = .ok dir := by
  obtain ⟨-, led⟩ := FileTree.locate_eq_ok.mp found
  rcases start_cases (FileTree.ne_nil_of_locate found) with ⟨q, rfl, start_eq⟩ | ⟨relative, start_eq⟩
  · have split_first : Path.pieces ('/' :: q) = [[]] ++ Path.pieces q := rfl
    have absolute : Path.isAbsolute ('/' :: q) = true := rfl
    rw [FileTree.start, if_pos absolute, split_first] at led
    obtain ⟨middle, first, second⟩ := FileTree.follow_append.mp led
    cases FileTree.follow_idle (by decide) first
    rw [start_eq]
    exact ⟨[], t.locate_slash, second⟩
  · rw [FileTree.start, relative, if_neg (by simp)] at led
    obtain ⟨first, rest, pieces_eq⟩ := List.exists_cons_of_ne_nil root.pieces_ne_nil
    obtain ⟨directory, -⟩ := FileTree.follow_cons_eq_ok.mp (pieces_eq ▸ led)
    have at_dot : t.locate ['.'] = .ok t.workingDirectory :=
      FileTree.locate_eq_ok.mpr ⟨by decide, FileTree.follow_idle_of_directory (by decide) directory⟩
    rw [start_eq]
    exact ⟨t.workingDirectory, at_dot, led⟩

theorem head?_dropWhile_of_prefix {front pieces : List (List Char)} {f : List Char → Bool} {piece : List Char}
    (within : front <+: pieces) (first : (front.dropWhile f).head? = some piece) :
    (pieces.dropWhile f).head? = some piece := by
  obtain ⟨rest, rfl⟩ := within
  rw [List.dropWhile_append]
  split
  · next none_left =>
    rw [List.isEmpty_iff.mp none_left] at first
    cases first
  · rw [List.head?_append, first]
    rfl

/-- No path on the way to a root is at fault if the root is not. -/
theorem pathFault?_descend_start {root : Path} (no_fault : FileTree.pathFault? root = none)
    (not_lost : ¬Lost root) {front : List (List Char)} (within : front <+: (start root).2)
    (some_piece : front ≠ []) : FileTree.pathFault? (descend (start root).1 front) = none := by
  have text := root.intercalate_pieces
  rcases start_cases (FileTree.pathFault?_eq_none.mp no_fault).2.1 with
    ⟨q, rfl, start_eq⟩ | ⟨relative, start_eq⟩
  · rw [start_eq] at within ⊢
    obtain ⟨some_char, part⟩ := descend_slash_sublist some_piece
    have split_first : Path.pieces ('/' :: q) = [] :: Path.pieces q := rfl
    rw [split_first, Path.intercalate_cons, List.nil_append] at text
    obtain ⟨rest, pieces_eq⟩ := within
    refine FileTree.pathFault?_of_sublist some_char (part.trans ?_) no_fault
    change front ++ rest = Path.pieces q at pieces_eq
    rw [← text, ← pieces_eq, List.flatMap_append]
    exact List.sublist_append_left _ _
  · rw [start_eq] at within ⊢
    obtain ⟨some_char, part⟩ := descend_dot_sublist some_piece fun empty =>
      not_lost ⟨relative, head?_dropWhile_of_prefix within empty⟩
    refine FileTree.pathFault?_of_sublist some_char (part.trans ?_) no_fault
    rw [← text]
    obtain ⟨piece, front, rfl⟩ := List.exists_cons_of_ne_nil some_piece
    obtain ⟨rest, pieces_eq⟩ := within
    change piece :: front ++ rest = root.pieces at pieces_eq
    rw [← pieces_eq, List.cons_append, Path.intercalate_cons, Path.intercalate_cons, List.flatMap_append]
    exact (List.sublist_append_left _ _).append_left piece

/-- A walk gets to where its root leads, unless an empty piece comes after dots. -/
theorem follow?_root {root : Path} {dir : Location} (found : machine.tree.locate root = .ok dir) :
    ((follow? (start root).1 (start root).2 : OnMachine (Option Path)) machine).1 =
        (if Lost root then none else some (base root)) ∧
      (¬Lost root → machine.tree.locate (base root) = .ok dir) := by
  have some_char := FileTree.ne_nil_of_locate found
  have no_fault := (FileTree.locate_eq_ok.mp found).1
  by_cases lost : Lost root
  · have start_eq : start root = (['.'], root.pieces) := by
      rcases start_cases some_char with ⟨q, rfl, -⟩ | ⟨-, start_eq⟩
      · cases lost.1
      · exact start_eq
    refine ⟨?_, absurd lost⟩
    rw [if_pos lost, start_eq]
    exact follow?_of_empty_piece lost.2
  · obtain ⟨here, at_start, led⟩ := locate_start found
    have no_slash (piece : List Char) (among : piece ∈ (start root).2) : '/' ∉ piece := by
      rcases start_cases some_char with ⟨q, -, start_eq⟩ | ⟨-, start_eq⟩ <;> rw [start_eq] at among <;>
        exact Path.slash_not_mem among
    obtain ⟨followed, at_base⟩ := follow?_of_follow at_start no_slash
      (fun front within some_piece => pathFault?_descend_start no_fault lost within some_piece) led
    exact ⟨by rw [if_neg lost, followed, base], fun _ => at_base⟩

end Walk

end FrontToc
