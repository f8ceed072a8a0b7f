import FrontToc.Text.Blank

/-!
# Runs of characters

A text begins with a run of characters of one kind, which is taken from it or dropped. Trimmed it is what
lies between two such runs, and neither begins nor ends with such a character.
-/
namespace FrontToc.Text

variable {p : Char → Bool}

theorem takeWhile_eq_replicate (c : Char) (s : List Char) :
    s.takeWhile (· = c) = List.replicate (s.takeWhile (· = c)).length c :=
  List.eq_replicate_of_mem fun _ member => by
    simpa using List.all_eq_true.mp List.all_takeWhile _ member

theorem drop_length_takeWhile {α : Type} (p : α → Bool) (s : List α) :
    s.drop (s.takeWhile p).length = s.dropWhile p := by
  calc
    s.drop (s.takeWhile p).length =
        (s.takeWhile p ++ s.dropWhile p).drop (s.takeWhile p).length := by
      rw [List.takeWhile_append_dropWhile]
    _ = s.dropWhile p := List.drop_left

theorem head_dropWhile (p : Char → Bool) (s : List Char) : ∀ c ∈ (s.dropWhile p).head?, p c = false := by
  intro c hc
  have := List.head?_dropWhile_not p s
  rw [Option.mem_def.mp hc] at this
  simpa using this

/-- A run of characters is taken if what follows does not begin with one. -/
theorem takeWhile_append_run {run t : List Char} (hrun : ∀ c ∈ run, p c = true)
    (ht : ∀ c ∈ t.head?, p c = false) : (run ++ t).takeWhile p = run := by
  rw [List.takeWhile_append_of_pos hrun]
  cases t with
  | nil => rw [List.takeWhile_nil, List.append_nil]
  | cons c t => rw [List.takeWhile_cons_of_neg (by simp [ht c rfl]), List.append_nil]

/-- A run of characters is dropped if what follows does not begin with one. -/
theorem dropWhile_append_run {run t : List Char} (hrun : ∀ c ∈ run, p c = true)
    (ht : ∀ c ∈ t.head?, p c = false) : (run ++ t).dropWhile p = t := by
  rw [List.dropWhile_append_of_pos hrun]
  cases t with
  | nil => rfl
  | cons c t =>
    have hc := ht c rfl
    rw [List.dropWhile_cons_of_neg (by simp [hc])]

/-- `t` is `s` without the characters at both ends that satisfy `p`. -/
def Trimmed (p : Char → Bool) (s t : List Char) : Prop :=
  ∃ before after, s = before ++ t ++ after ∧ (∀ c ∈ before, p c = true) ∧ (∀ c ∈ after, p c = true) ∧
    (∀ c ∈ t.head?, p c = false) ∧ ∀ c ∈ t.getLast?, p c = false

theorem trimmed_trimWhile (p : Char → Bool) (s : List Char) : Trimmed p s (trimWhile p s) := by
  have hstart := head_dropWhile p s
  have hend := head_dropWhile p (s.dropWhile p).reverse
  have hparts : s.dropWhile p =
      trimWhile p s ++ ((s.dropWhile p).reverse.takeWhile p).reverse := by
    rw [trimWhile, trimEndWhile, ← List.reverse_append, List.takeWhile_append_dropWhile,
      List.reverse_reverse]
  refine ⟨s.takeWhile p, ((s.dropWhile p).reverse.takeWhile p).reverse, ?_,
    fun c hc => ?_, fun c hc => ?_, fun c hc => ?_, fun c hc => ?_⟩
  · rw [List.append_assoc, ← hparts, List.takeWhile_append_dropWhile]
  · exact List.all_eq_true.mp List.all_takeWhile c hc
  · exact List.all_eq_true.mp List.all_takeWhile c (List.mem_reverse.mp hc)
  · refine hstart c ?_
    rw [hparts, Option.mem_def, List.head?_append, Option.mem_def.mp hc]
    rfl
  · refine hend c ?_
    rwa [trimWhile, trimEndWhile, List.getLast?_reverse] at hc

/-- Trimming a text gives the only text that it trims to. -/
theorem trimmed_iff {s t : List Char} : Trimmed p s t ↔ trimWhile p s = t := by
  constructor
  · rintro ⟨before, after, rfl, hbefore, hafter, hstart, hend⟩
    rw [trimWhile, List.append_assoc, List.dropWhile_append_of_pos hbefore]
    cases t with
    | nil =>
      have hgone := dropWhile_append_run (t := []) hafter (by simp)
      rw [List.append_nil] at hgone
      rw [List.nil_append, hgone]
      rfl
    | cons c t =>
      have hc := hstart c rfl
      rw [List.cons_append, List.dropWhile_cons_of_neg (by simp [hc]), ← List.cons_append, trimEndWhile,
        List.reverse_append, dropWhile_append_run (fun d hd => hafter d (List.mem_reverse.mp hd)),
        List.reverse_reverse]
      rwa [List.head?_reverse]
  · rintro rfl
    exact trimmed_trimWhile p s

theorem Trimmed.mem {s t : List Char} (h : Trimmed p s t) {c : Char} (hc : c ∈ t) : c ∈ s := by
  obtain ⟨before, after, rfl, -⟩ := h
  simp [hc]

theorem mem_trimWhile {s : List Char} {c : Char} (hc : c ∈ trimWhile p s) : c ∈ s :=
  (trimmed_trimWhile p s).mem hc

end FrontToc.Text
