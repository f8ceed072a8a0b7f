import FrontToc.Proofs.WalkedPaths

/-!
# The order of paths

Paths that go down from one place by names are ordered as the names are: one by one, each by its
characters. So the order of such paths is a strict one.
-/
namespace FrontToc

open Text

/-- The order of lists is that of what they are made of. -/
theorem compareLex_map {α β : Type} [LT α] {f : α → β} {cmp : β → β → Ordering} {xs ys : List α}
    (before : ∀ x ∈ xs, ∀ y ∈ ys,
      (cmp (f x) (f y) = .lt ↔ x < y) ∧ (cmp (f x) (f y) = .eq ↔ x = y)) :
    (List.compareLex cmp (xs.map f) (ys.map f) = .lt ↔ xs < ys) ∧
      (List.compareLex cmp (xs.map f) (ys.map f) = .eq ↔ xs = ys) := by
  induction xs generalizing ys with
  | nil => cases ys <;> simp [List.compareLex_nil_nil, List.compareLex_nil_cons]
  | cons x xs ih =>
    cases ys with
    | nil => simp [List.compareLex_cons_nil]
    | cons y ys =>
      obtain ⟨lt_iff, eq_iff⟩ := before x List.mem_cons_self y List.mem_cons_self
      obtain ⟨rest_lt, rest_eq⟩ := @ih ys fun x' member y' member' =>
        before x' (List.mem_cons_of_mem _ member) y' (List.mem_cons_of_mem _ member')
      rw [List.map_cons, List.map_cons, List.compareLex_cons_cons]
      constructor
      · rw [Ordering.then_eq_lt, List.cons_lt_cons_iff, lt_iff, eq_iff, rest_lt]
      · rw [Ordering.then_eq_eq, List.cons.injEq, eq_iff, rest_eq]

theorem compare_append_left (k x y : List (List Nat)) : compare (k ++ x) (k ++ y) = compare x y := by
  induction k with
  | nil => rfl
  | cons n k ih =>
    rw [List.cons_append, List.cons_append, List.compare_eq_compareLex, List.compareLex_cons_cons,
      ← List.compare_eq_compareLex, ih]
    simp

namespace Path

/-- Names are ordered by their characters. -/
theorem compare_nameKey {a b : List Char} (is_name : IsName a) (is_name' : IsName b) :
    (compare (nameKey a) (nameKey b) = .lt ↔ a < b) ∧ (compare (nameKey a) (nameKey b) = .eq ↔ a = b) := by
  have chars (c d : Char) :
      (compare c.toNat d.toNat = .lt ↔ c < d) ∧ (compare c.toNat d.toNat = .eq ↔ c = d) := by
    rw [Nat.compare_eq_lt, Nat.compare_eq_eq]
    exact ⟨Iff.rfl, Char.toNat_inj⟩
  rw [nameKey, nameKey, if_neg is_name.not_up, if_neg is_name'.not_up, List.compare_eq_compareLex,
    List.compareLex_cons_cons]
  have same : compare 3 3 = Ordering.eq := rfl
  rw [same, Ordering.eq_then]
  exact compareLex_map fun c _ d _ => chars c d

/-- Lists of names are ordered name by name. -/
theorem compare_nameKeys {a b : List (List Char)} (names : ∀ name ∈ a, IsName name)
    (names' : ∀ name ∈ b, IsName name) :
    (compare (a.map nameKey) (b.map nameKey) = .lt ↔ a < b) ∧
      (compare (a.map nameKey) (b.map nameKey) = .eq ↔ a = b) :=
  compareLex_map fun x member y member' => compare_nameKey (names x member) (names' y member')

/-- The key of a path that has pieces. -/
theorem key_of_pieces {p : Path} (some_char : p ≠ []) {first : List Char} {rest : List (List Char)}
    (pieces_eq : p.pieces = first :: rest) :
    p.key = (if first.isEmpty then [[0]] else if first = ['.'] then [[1]] else [nameKey first]) ++
      (rest.filter fun piece => !isIdle piece).map nameKey := by
  rw [key, pieces_eq]
  simp [some_char]

theorem key_of_name {name : List Char} (is_name : IsName name) : key name = [nameKey name] := by
  have named := is_name.named
  simp only [isIdle, Bool.or_eq_false_iff, beq_eq_false_iff_ne] at named
  have some_char : name ≠ [] := by simpa using named.1
  rw [key_of_pieces some_char (pieces_of_name is_name.no_slash)]
  simp [named]

/-- A name joined to a path comes after the names of the path. -/
theorem key_join {p : Path} (some_char : p ≠ []) {name : List Char} (is_name : IsName name) :
    (p.join name).key = p.key ++ [nameKey name] := by
  obtain ⟨front, idle, joined, pieces_eq, all_idle⟩ := pieces_join some_char is_name.no_slash
  cases front with
  | nil =>
    -- there is a slash in the joined path
    have slash := slash_mem_join some_char name
    rw [← (p.join name).intercalate_pieces, joined] at slash
    exact absurd (by simpa using slash) is_name.no_slash
  | cons first middle =>
    have none_left : idle.filter (fun piece => !isIdle piece) = [] :=
      List.filter_eq_nil_iff.mpr fun piece member => by simp [all_idle piece member]
    rw [List.cons_append] at joined pieces_eq
    rw [key_of_pieces (join_ne_nil some_char name) joined, key_of_pieces some_char pieces_eq,
      List.filter_append, List.filter_append, none_left]
    simp [is_name.named]

protected theorem le_trans (p q r : Path) (first : p.le q = true) (second : q.le r = true) : p.le r = true :=
  Std.TransCmp.isLE_trans first second

protected theorem le_total (p q : Path) : (p.le q || q.le p) = true := by
  have swap : compare q.key p.key = (compare p.key q.key).swap := Std.OrientedCmp.eq_swap
  rw [le, le, swap]
  cases compare p.key q.key <;> rfl

end Path

namespace Walk

variable {base : Path} (some_char : base ≠ [])

include some_char

theorem key_descend (no_dot : base ≠ ['.']) {names : List (List Char)}
    (proper : ∀ name ∈ names, IsName name) :
    (descend base names).key = base.key ++ names.map Path.nameKey := by
  induction names generalizing base with
  | nil => exact (List.append_nil _).symm
  | cons name names ih =>
    have is_name := proper name List.mem_cons_self
    have next := step_ne some_char name fun dot => absurd dot no_dot
    have first : step base name = base.join name := by rw [step, if_neg no_dot]
    calc
      (descend base (name :: names)).key = (step base name).key ++ names.map Path.nameKey :=
        ih next.1 next.2 fun n member => proper n (List.mem_cons_of_mem _ member)
      _ = base.key ++ (name :: names).map Path.nameKey := by
        rw [first, Path.key_join some_char is_name, List.append_assoc, List.map_cons, List.singleton_append]

/-- Below one place the names on the way down come after what is the same for all. -/
theorem exists_key_descend : ∃ key, ∀ names : List (List Char), names ≠ [] →
    (∀ name ∈ names, IsName name) → (descend base names).key = key ++ names.map Path.nameKey := by
  by_cases dot : base = ['.']
  · refine ⟨[], fun names some_name proper => ?_⟩
    obtain ⟨name, names, rfl⟩ := List.exists_cons_of_ne_nil some_name
    have is_name := proper name List.mem_cons_self
    have first : descend base (name :: names) = descend name names := by
      rw [descend, List.foldl_cons, step, if_pos dot, ← descend]
    have next := step_ne some_char name fun _ => is_name.named
    rw [step, if_pos dot] at next
    rw [first, key_descend next.1 next.2 fun n member => proper n (List.mem_cons_of_mem _ member),
      Path.key_of_name is_name]
    rfl
  · exact ⟨base.key, fun names _ proper => key_descend some_char dot proper⟩

/-- Paths below one place are ordered as the names on the way down to them. -/
theorem le_descend {a b : List (List Char)} (some_name : a ≠ []) (proper : ∀ name ∈ a, IsName name)
    (some_name' : b ≠ []) (proper' : ∀ name ∈ b, IsName name) :
    (descend base a).le (descend base b) = true ↔ a < b ∨ a = b := by
  obtain ⟨key, key_eq⟩ := exists_key_descend some_char
  obtain ⟨lt_iff, eq_iff⟩ := Path.compare_nameKeys proper proper'
  rw [Path.le, key_eq a some_name proper, key_eq b some_name' proper', compare_append_left, ← lt_iff, ← eq_iff]
  cases compare (a.map Path.nameKey) (b.map Path.nameKey) <;> simp

/-- Paths that are sorted are those of the names on the way down in strict order. -/
theorem exists_sorted_ways {ways : List (List (List Char))} (once : ways.Nodup)
    (proper : ∀ way ∈ ways, way ≠ [] ∧ ∀ name ∈ way, IsName name) :
    ∃ sorted : List (List (List Char)), sorted.Perm ways ∧ sorted.Pairwise (· < ·) ∧
      (ways.map (descend base)).mergeSort Path.le = sorted.map (descend base) := by
  let before (a b : List (List Char)) : Bool := (descend base a).le (descend base b)
  have perm : (ways.mergeSort before).Perm ways := List.mergeSort_perm _ _
  refine ⟨ways.mergeSort before, perm, ?_,
    (List.map_mergeSort (r := before) (f := descend base) fun _ _ _ _ => rfl).symm⟩
  have ordered : (ways.mergeSort before).Pairwise fun a b => before a b = true :=
    List.pairwise_mergeSort (fun a b c => Path.le_trans (descend base a) (descend base b) (descend base c))
      (fun a b => Path.le_total (descend base a) (descend base b)) ways
  refine (ordered.and (perm.nodup_iff.mpr once)).imp_of_mem fun {a b} member member' le_ne => ?_
  obtain ⟨some_name, names⟩ := proper a (perm.mem_iff.mp member)
  obtain ⟨some_name', names'⟩ := proper b (perm.mem_iff.mp member')
  exact ((le_descend some_char some_name names some_name' names').mp le_ne.1).resolve_right le_ne.2

end Walk

/-- There is one way to put names in strict order. -/
theorem sorted_ways_unique {ways ways' : List (List (List Char))} (same : ways.Perm ways')
    (sorted : ways.Pairwise (· < ·)) (sorted' : ways'.Pairwise (· < ·)) : ways = ways' :=
  same.eq_of_pairwise (fun _ _ _ _ before after => absurd after (List.lt_asymm before)) sorted sorted'

end FrontToc
