import FrontToc.Proofs.LineFilter
import FrontToc.Proofs.RenderedDocument

/-!
# Which blank lines go

The filter of blank lines goes through a text with one thing in mind: the indentation of the head of the
block that it is in, if any. Lines that are blank or indented deeper than the head belong to the block.
Blank lines go exactly where no block is open. As they leave that as it is, the filter meets the
remaining lines again as before, and a second run takes nothing away.
-/
namespace FrontToc

open Text

/-- How the content of the first line of a block scalar ends: in a bar or an angle bracket with digits
and signs after it, and before it nothing, or a colon or hyphen and a space. -/
def EndsInBlockHead (content : List Char) : Prop :=
  ∃ before bar hints, content = before ++ bar :: hints ∧ (bar = '|' ∨ bar = '>') ∧
    (∀ c ∈ hints, c.isDigit = true ∨ c = '+' ∨ c = '-') ∧
    (before = [] ∨ ∃ start mark, before = start ++ [mark, ' '] ∧ (mark = ':' ∨ mark = '-'))

/-- A line that opens a block, unless it lies in one. -/
def IsBlockHead (line : List Char) : Prop :=
  EndsInBlockHead (trimEnd (chompLine line))

/-- A line that belongs to a block whose head is indented by `parent`. -/
def InBlock (parent : Nat) (line : List Char) : Prop :=
  isBlankText line = true ∨ parent < indentation (chompLine line)

instance (parent : Nat) (line : List Char) : Decidable (InBlock parent line) :=
  inferInstanceAs (Decidable (_ ∨ _))

theorem hint_iff {c : Char} : isBlockHint c = true ↔ c.isDigit = true ∨ c = '+' ∨ c = '-' := by
  simp [isBlockHint, or_assoc]

theorem endsInBlockHead_iff {content : List Char} :
    endsInBlockHead content = true ↔ EndsInBlockHead content := by
  constructor
  · intro ends
    unfold endsInBlockHead at ends
    have parts : content = (content.reverse.dropWhile isBlockHint).reverse ++
        (content.reverse.takeWhile isBlockHint).reverse := by
      rw [← List.reverse_append, List.takeWhile_append_dropWhile, List.reverse_reverse]
    have hints : ∀ c ∈ (content.reverse.takeWhile isBlockHint).reverse,
        c.isDigit = true ∨ c = '+' ∨ c = '-' := fun c member =>
      hint_iff.mp (List.all_eq_true.mp List.all_takeWhile c (List.mem_reverse.mp member))
    split at ends
    · next bar before rest =>
      rw [rest, List.reverse_cons, List.append_assoc, List.singleton_append] at parts
      rw [Bool.and_eq_true, Bool.or_eq_true, decide_eq_true_eq, decide_eq_true_eq] at ends
      refine ⟨_, bar, _, parts, ends.1, hints, ?_⟩
      have lead := ends.2
      split at lead
      · exact .inl rfl
      · next space mark start =>
        simp only [Bool.and_eq_true, Bool.or_eq_true, decide_eq_true_eq] at lead
        obtain ⟨rfl, mark_eq⟩ := lead
        exact .inr ⟨start.reverse, mark, by simp, mark_eq⟩
      · cases lead
    · cases ends
  · rintro ⟨before, bar, hints, rfl, bar_eq, hints_eq, lead⟩
    have stop : isBlockHint bar = false := by rcases bar_eq with rfl | rfl <;> decide
    have rest : (before ++ bar :: hints).reverse.dropWhile isBlockHint = bar :: before.reverse := by
      rw [List.reverse_append, List.reverse_cons, List.append_assoc, List.singleton_append,
        List.dropWhile_append_of_pos fun c member =>
          hint_iff.mpr (hints_eq c (List.mem_reverse.mp member)),
        List.dropWhile_cons_of_neg (by simp [stop])]
    unfold endsInBlockHead
    rw [rest]
    rcases lead with rfl | ⟨start, mark, rfl, mark_eq⟩
    · simpa using bar_eq
    · simpa using ⟨bar_eq, mark_eq⟩

instance (line : List Char) : Decidable (IsBlockHead line) :=
  decidable_of_iff _ endsInBlockHead_iff

theorem isBlankText_trimEndWhile {p : Char → Bool} (only_blank : ∀ c, p c = true → isBlank c = true)
    (s : List Char) : isBlankText (trimEndWhile p s) = isBlankText s := by
  induction s using List.reverseRecOn with
  | nil => rfl
  | append_singleton s c ih =>
    cases trimmed : p c with
    | false => rw [trimEndWhile_of_last trimmed]
    | true =>
      rw [trimEndWhile_concat trimmed, ih]
      simp [isBlankText, only_blank c trimmed]

theorem isBlankText_chompLine (line : List Char) : isBlankText (chompLine line) = isBlankText line := by
  apply isBlankText_trimEndWhile
  intro c ending
  simp only [Bool.or_eq_true, decide_eq_true_eq] at ending
  rcases ending with rfl | rfl <;> decide

/-- The head of a block is not blank. -/
theorem IsBlockHead.visible {line : List Char} (head : IsBlockHead line) : isBlankText line = false := by
  obtain ⟨before, bar, hints, content, bar_eq, -⟩ := head
  rw [← isBlankText_chompLine, ← isBlankText_trimEndWhile (p := isBlank) (fun _ => id), ← trimEnd,
    content]
  rcases bar_eq with rfl | rfl <;> simp [isBlankText, show isBlank '|' = false by decide,
    show isBlank '>' = false by decide]

/-- The block that is open after a line; `parent` is the one before it. -/
def blockAfter (parent : Option Nat) (line : List Char) : Option Nat :=
  if ∃ p ∈ parent, InBlock p line then parent
  else if IsBlockHead line then some (indentation (chompLine line)) else none

/-- The block that is open after some lines, by the indentation of its head. -/
def openBlock (parent : Option Nat) (ls : List (List Char)) : Option Nat :=
  ls.foldl blockAfter parent

/-- A line that opens a block after other lines: it is a head, and no block is open that it belongs to. -/
def OpensBlock (before : List (List Char)) (line : List Char) : Prop :=
  IsBlockHead line ∧ ∀ p ∈ openBlock none before, ¬InBlock p line

theorem openBlock_cons (parent : Option Nat) (line : List Char) (ls : List (List Char)) :
    openBlock parent (line :: ls) = openBlock (blockAfter parent line) ls := rfl

theorem openBlock_append (parent : Option Nat) (before rest : List (List Char)) :
    openBlock parent (before ++ rest) = openBlock (openBlock parent before) rest :=
  List.foldl_append

theorem blockAfter_blank {line : List Char} (blank : isBlankText line = true) :
    blockAfter none line = none := by
  unfold blockAfter
  rw [if_neg (by simp), if_neg]
  intro head
  rw [head.visible] at blank
  cases blank

/-- The filter leaves a blank line out where no block is open. Every other line stays. -/
theorem afterLine_eq (parent : Option Nat) (line : List Char) :
    afterLine parent line =
      if parent = none ∧ isBlankText line = true then none else some (blockAfter parent line) := by
  have belongs : (parent.any fun p => isBlankText line || decide (p < indentation (chompLine line))) =
      decide (∃ p ∈ parent, InBlock p line) := by
    cases parent <;> simp [InBlock]
  unfold afterLine blockAfter
  dsimp only
  rw [isBlankText_chompLine, belongs]
  by_cases inside : ∃ p ∈ parent, InBlock p line
  · have not_out : ¬(parent = none ∧ isBlankText line = true) := by
      rintro ⟨rfl, -⟩
      simp at inside
    rw [if_pos (decide_eq_true inside), if_pos inside, if_neg not_out]
  · rw [if_neg (by simpa using inside), if_neg inside]
    cases blank : isBlankText line with
    | false =>
      have head : IsBlockHead line ↔ endsInBlockHead (trimEnd (chompLine line)) = true :=
        endsInBlockHead_iff.symm
      have stays : ¬(parent = none ∧ false = true) := by simp
      rw [if_neg Bool.false_ne_true, if_neg stays, if_congr head rfl rfl]
    | true =>
      have no_block : parent = none := by
        cases parent with
        | none => rfl
        | some p => exact absurd ⟨p, rfl, .inl blank⟩ inside
      rw [if_pos rfl, if_pos ⟨no_block, rfl⟩]

theorem collapseFrom_cons (parent : Option Nat) (line : List Char) (ls : List (List Char)) :
    collapseFrom parent (line :: ls) =
      if parent = none ∧ isBlankText line = true then collapseFrom none ls
      else line :: collapseFrom (blockAfter parent line) ls := by
  have step := afterLine_eq parent line
  split
  · next out => exact collapseFrom_left_out (by rw [step, if_pos out]) ls
  · next stays => exact collapseFrom_kept (by rw [step, if_neg stays]) ls

/-- The lines of two parts are filtered one part after the other, the second from the block on that the
first leaves open. -/
theorem collapseFrom_append (parent : Option Nat) (before rest : List (List Char)) :
    collapseFrom parent (before ++ rest) =
      collapseFrom parent before ++ collapseFrom (openBlock parent before) rest := by
  induction before generalizing parent with
  | nil => rfl
  | cons line before ih =>
    rw [List.cons_append, collapseFrom_cons, collapseFrom_cons, openBlock_cons]
    split
    · next out => rw [ih, out.1, blockAfter_blank out.2]
    · rw [ih, List.cons_append]

theorem collapseFrom_collapseFrom (parent : Option Nat) (ls : List (List Char)) :
    collapseFrom parent (collapseFrom parent ls) = collapseFrom parent ls := by
  induction ls generalizing parent with
  | nil => rfl
  | cons line ls ih =>
    rw [collapseFrom_cons]
    split
    · next out => rw [out.1, ih]
    · next stays => rw [collapseFrom_cons, if_neg stays, ih]

theorem visible_collapseFrom (parent : Option Nat) (ls : List (List Char)) :
    (collapseFrom parent ls).filter (!isBlankText ·) = ls.filter (!isBlankText ·) := by
  induction ls generalizing parent with
  | nil => rfl
  | cons line ls ih =>
    rw [collapseFrom_cons]
    split
    · next out => rw [ih, List.filter_cons_of_neg (by simp [out.2])]
    · rw [List.filter_cons, List.filter_cons, ih]

theorem blockAfter_inside {p : Nat} {line : List Char} (inside : InBlock p line) :
    blockAfter (some p) line = some p :=
  if_pos ⟨p, rfl, inside⟩

/-- Lines that belong to a block leave it open. -/
theorem openBlock_inside {p : Nat} {inside : List (List Char)} (belong : ∀ l ∈ inside, InBlock p l) :
    openBlock (some p) inside = some p := by
  induction inside with
  | nil => rfl
  | cons line inside ih =>
    obtain ⟨first, others⟩ := List.forall_mem_cons.mp belong
    rw [openBlock_cons, blockAfter_inside first, ih others]

/-- Lines that belong to a block stay. -/
theorem collapseFrom_inside {p : Nat} {inside : List (List Char)} (belong : ∀ l ∈ inside, InBlock p l) :
    collapseFrom (some p) inside = inside := by
  induction inside with
  | nil => rfl
  | cons line inside ih =>
    obtain ⟨first, others⟩ := List.forall_mem_cons.mp belong
    rw [collapseFrom_cons, if_neg (by simp), blockAfter_inside first, ih others]

theorem OpensBlock.after {before : List (List Char)} {head : List Char} (opens : OpensBlock before head) :
    blockAfter (openBlock none before) head = some (indentation (chompLine head)) := by
  unfold blockAfter
  rw [if_neg, if_pos opens.1]
  rintro ⟨p, is_open, inside⟩
  exact opens.2 p is_open inside

/-- A block that is open has been opened by its head, and only lines that belong to it came after that. -/
theorem openBlock_eq_some_iff {ls : List (List Char)} {p : Nat} :
    openBlock none ls = some p ↔ ∃ before head inside, ls = before ++ head :: inside ∧
      OpensBlock before head ∧ indentation (chompLine head) = p ∧ ∀ l ∈ inside, InBlock p l := by
  constructor
  · induction ls using List.reverseRecOn with
    | nil => intro none_open; cases none_open
    | append_singleton ls line ih =>
      intro is_open
      rw [openBlock_append] at is_open
      change blockAfter (openBlock none ls) line = some p at is_open
      by_cases inside : ∃ q ∈ openBlock none ls, InBlock q line
      · rw [blockAfter, if_pos inside] at is_open
        obtain ⟨before, head, members, rfl, opens, indented, belong⟩ := ih is_open
        obtain ⟨q, q_open, belongs⟩ := inside
        obtain rfl : p = q := Option.some.inj (is_open.symm.trans q_open)
        refine ⟨before, head, members ++ [line], by simp, opens, indented, ?_⟩
        simpa [or_imp, forall_and] using ⟨belong, belongs⟩
      · rw [blockAfter, if_neg inside] at is_open
        split at is_open
        · next head =>
          refine ⟨ls, line, [], rfl, ⟨head, ?_⟩, Option.some.inj is_open, by simp⟩
          intro q q_open belongs
          exact inside ⟨q, q_open, belongs⟩
        · cases is_open
  · rintro ⟨before, head, inside, rfl, opens, rfl, belong⟩
    rw [openBlock_append, openBlock_cons, opens.after, openBlock_inside belong]

/-- No block is open after some lines exactly if every block opened in them has been left again. -/
theorem openBlock_eq_none_iff {ls : List (List Char)} :
    openBlock none ls = none ↔ ∀ before head inside, ls = before ++ head :: inside →
      OpensBlock before head → ∃ l ∈ inside, ¬InBlock (indentation (chompLine head)) l := by
  constructor
  · intro none_open before head inside parts opens
    by_contra stays
    push Not at stays
    have is_open := openBlock_eq_some_iff.mpr ⟨before, head, inside, parts, opens, rfl, stays⟩
    rw [none_open] at is_open
    cases is_open
  · intro left
    cases is_open : openBlock none ls with
    | none => rfl
    | some p =>
      obtain ⟨before, head, inside, parts, opens, rfl, belong⟩ := openBlock_eq_some_iff.mp is_open
      obtain ⟨l, member, out⟩ := left before head inside parts opens
      exact absurd (belong l member) out

/-- The lines of a block stay, with what the filter makes of the lines before and after it. -/
theorem collapseFrom_block {before inside : List (List Char)} {head : List Char}
    (opens : OpensBlock before head)
    (belong : ∀ l ∈ inside, InBlock (indentation (chompLine head)) l) (rest : List (List Char)) :
    collapseFrom none (before ++ head :: (inside ++ rest)) = collapseFrom none before ++
      head :: (inside ++ collapseFrom (some (indentation (chompLine head))) rest) := by
  have stays : ¬(openBlock none before = none ∧ isBlankText head = true) := by
    rintro ⟨-, blank⟩
    rw [opens.1.visible] at blank
    cases blank
  rw [collapseFrom_append, collapseFrom_cons, if_neg stays, opens.after, collapseFrom_append,
    collapseFrom_inside belong, openBlock_inside belong]

/-- A blank line goes where no block is open. -/
theorem collapseFrom_blank {before : List (List Char)} {line : List Char}
    (none_open : openBlock none before = none) (blank : isBlankText line = true)
    (rest : List (List Char)) :
    collapseFrom none (before ++ line :: rest) =
      collapseFrom none before ++ collapseFrom none rest := by
  rw [collapseFrom_append, none_open, collapseFrom_cons, if_pos ⟨rfl, blank⟩]

/-- Some lines of a text are collapsed as a text of their own. -/
theorem collapse_flatten {text : List Char} {ls : List (List Char)}
    (some_lines : ls.Sublist (splitLines text)) :
    collapseBlankLines ls.flatten = (collapseFrom none ls).flatten := by
  rw [collapseBlankLines, ((areLines_splitLines text).sublist some_lines).splitLines_flatten]

/-- Collapsing takes blank lines away and nothing else: the others stay as they are, in their order. After
the head of a block all lines stay that are blank or indented deeper, up to the first that is neither.
Where every block has been left again a blank line does go, and what is before and after it is collapsed
apart. A second run changes nothing. -/
theorem only_blank_lines_collapse (text : List Char) :
    (splitLines (collapseBlankLines text)).Sublist (splitLines text) ∧
      (splitLines (collapseBlankLines text)).filter (!isBlankText ·) =
        (splitLines text).filter (!isBlankText ·) ∧
      (∀ before head inside rest, splitLines text = before ++ head :: (inside ++ rest) →
        OpensBlock before head → (∀ l ∈ inside, InBlock (indentation (chompLine head)) l) →
        ∃ start stop, start.Sublist before ∧ stop.Sublist rest ∧
          splitLines (collapseBlankLines text) = start ++ head :: (inside ++ stop)) ∧
      (∀ before line rest, splitLines text = before ++ line :: rest → isBlankText line = true →
        (∀ earlier head inside, before = earlier ++ head :: inside → OpensBlock earlier head →
          ∃ l ∈ inside, ¬InBlock (indentation (chompLine head)) l) →
        collapseBlankLines text =
          collapseBlankLines before.flatten ++ collapseBlankLines rest.flatten) ∧
      collapseBlankLines (collapseBlankLines text) = collapseBlankLines text := by
  refine ⟨?_, ?_, ?_, ?_, ?_⟩
  · rw [splitLines_collapseBlankLines]
    exact collapseFrom_sublist none _
  · rw [splitLines_collapseBlankLines]
    exact visible_collapseFrom none _
  · intro before head inside rest parts opens belong
    refine ⟨collapseFrom none before, collapseFrom (some (indentation (chompLine head))) rest,
      collapseFrom_sublist _ before, collapseFrom_sublist _ rest, ?_⟩
    rw [splitLines_collapseBlankLines, parts, collapseFrom_block opens belong]
  · intro before line rest parts blank left
    have before_lines : before.Sublist (splitLines text) := by
      rw [parts]
      exact List.sublist_append_left _ _
    have rest_lines : rest.Sublist (splitLines text) := by
      rw [parts]
      exact (List.sublist_cons_self line rest).trans (List.sublist_append_right _ _)
    rw [collapse_flatten before_lines, collapse_flatten rest_lines, ← List.flatten_append,
      ← collapseFrom_blank (openBlock_eq_none_iff.mpr left) blank, ← parts, collapseBlankLines]
  · rw [collapseBlankLines, splitLines_collapseBlankLines, collapseFrom_collapseFrom,
      collapseBlankLines]

end FrontToc
