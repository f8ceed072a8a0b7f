import FrontToc.Slug
import Mathlib.Data.List.Induction
import Mathlib.Data.List.Nodup
import Mathlib.Data.List.Perm.Subperm
import Mathlib.Order.Bounds.Basic
import Mathlib.Order.Defs.LinearOrder

/-!
# Anchors of one document

Calls on one slugger in `suffix` mode, in any order. What the slugger keeps are the ids returned so far,
and for each a number up to which every suffix is taken. So the suffix that it finds next is the least
free one of all, and no derived slug repeats an id.
-/
namespace FrontToc

open Text

namespace Slugger

/-- A call on a slugger: for the id of a title, or with an id of its own. -/
inductive Call where
  | slug (title : List Char)
  | reserve (id : List Char)
deriving DecidableEq, Repr

/-- The id that a call returns, and the slugger after it. -/
def call (s : Slugger) : Call → List Char × Slugger
  | .slug title => s.slug title
  | .reserve id => s.reserve id

/-- The ids that calls return, one after the other. -/
def answers : Slugger → List Call → List (List Char)
  | _, [] => []
  | s, c :: rest => (s.call c).1 :: answers (s.call c).2 rest

/-- The slugger after calls. -/
def after (s : Slugger) (calls : List Call) : Slugger :=
  calls.foldl (fun s c => (s.call c).2) s

theorem answers_concat (s : Slugger) (calls : List Call) (c : Call) :
    s.answers (calls ++ [c]) = s.answers calls ++ [((s.after calls).call c).1] := by
  induction calls generalizing s with
  | nil => rfl
  | cons first rest ih =>
    rw [List.cons_append, answers, ih, answers, List.cons_append]
    rfl

theorem after_concat (s : Slugger) (calls : List Call) (c : Call) :
    s.after (calls ++ [c]) = ((s.after calls).call c).2 := by
  rw [after, List.foldl_concat]
  rfl

/-- The search for a suffix without a bound: the numbers after `k` are tried one by one, and the first
one that is free ends the search. -/
inductive SearchEnds (s : Slugger) (base : List Char) : (k found : Nat) → Prop
  | free (k : Nat) : s.taken (suffixed base (k + 1)) = false → SearchEnds s base k (k + 1)
  | next (k found : Nat) : s.taken (suffixed base (k + 1)) = true →
      SearchEnds s base (k + 1) found → SearchEnds s base k found

theorem taken_iff {s : Slugger} {id : List Char} :
    s.taken id = true ↔ id ∈ s.counts.map Prod.fst := by
  rw [taken, List.lookup_isSome_iff, List.mem_map]
  constructor
  · rintro ⟨entry, member, same⟩
    exact ⟨entry, member, (eq_of_beq same).symm⟩
  · rintro ⟨entry, member, rfl⟩
    exact ⟨entry, member, beq_self_eq_true _⟩

theorem suffixed_injective {base : List Char} {m n : Nat} (same : suffixed base m = suffixed base n) :
    m = n :=
  decimal_injective (List.cons_inj_right _ |>.mp (List.append_cancel_left same))

/-- Among one number more than there are ids, one has a free suffix. -/
theorem exists_free (s : Slugger) (base : List Char) (k : Nat) :
    ∃ i, k < i ∧ i ≤ k + s.counts.length + 1 ∧ s.taken (suffixed base i) = false := by
  by_contra none
  have all_taken : ∀ i, k < i → i ≤ k + s.counts.length + 1 →
      suffixed base i ∈ s.counts.map Prod.fst := by
    intro i above within
    by_contra free
    exact none ⟨i, above, within, Bool.eq_false_iff.mpr (mt taken_iff.mp free)⟩
  have distinct : ((List.range (s.counts.length + 1)).map fun i =>
      suffixed base (k + 1 + i)).Nodup := by
    refine List.nodup_range.map fun i j same => ?_
    have := suffixed_injective same
    omega
  have inside : ((List.range (s.counts.length + 1)).map fun i => suffixed base (k + 1 + i)) ⊆
      s.counts.map Prod.fst := by
    intro id member
    obtain ⟨i, below, rfl⟩ := List.mem_map.mp member
    rw [List.mem_range] at below
    exact all_taken _ (by omega) (by omega)
  have count := (distinct.subperm inside).length_le
  simp only [List.length_map, List.length_range] at count
  omega

/-- The bounded search is the search without a bound if a free suffix lies within the bound. -/
theorem searchEnds_of_free (s : Slugger) (base : List Char) {i : Nat}
    (free : s.taken (suffixed base i) = false) (fuel k : Nat) (above : k < i)
    (within : i ≤ k + fuel + 1) : SearchEnds s base k (s.freeSuffix base fuel k) := by
  induction fuel generalizing k with
  | zero =>
    obtain rfl : i = k + 1 := by omega
    exact .free k free
  | succ fuel ih =>
    rw [freeSuffix]
    split
    · next occupied =>
      have other : i ≠ k + 1 := by
        rintro rfl
        rw [free] at occupied
        cases occupied
      exact .next k _ occupied (ih (k + 1) (by omega) (by omega))
    · next vacant => exact .free k (by simpa using vacant)

/-- The search always ends, and within as many tries as there are ids and one more. -/
theorem searchEnds_freeSuffix (s : Slugger) (base : List Char) (k : Nat) :
    SearchEnds s base k (s.freeSuffix base s.counts.length k) := by
  obtain ⟨i, above, within, free⟩ := s.exists_free base k
  exact s.searchEnds_of_free base free _ k above within

/-- A search ends at the first free number. -/
theorem SearchEnds.first {s : Slugger} {base : List Char} {k found : Nat}
    (search : SearchEnds s base k found) :
    k < found ∧ s.taken (suffixed base found) = false ∧
      ∀ i, k < i → i < found → s.taken (suffixed base i) = true := by
  induction search with
  | free k vacant => exact ⟨Nat.lt_succ_self k, vacant, fun i above below => by omega⟩
  | next k found occupied _ ih =>
    obtain ⟨above, vacant, before⟩ := ih
    refine ⟨by omega, vacant, fun i hi below => ?_⟩
    rcases Nat.eq_or_lt_of_le (Nat.succ_le_of_lt hi) with rfl | later
    · exact occupied
    · exact before i later below

theorem slug_of_suffix {s : Slugger} (mode : s.mode = .suffix) (title : List Char) :
    s.slug title = s.unique (slugify title) := by
  rw [slug, mode]

theorem reserve_of_suffix {s : Slugger} (mode : s.mode = .suffix) (id : List Char) :
    s.reserve id = (id, if s.taken id then s else { s with counts := (id, 0) :: s.counts }) := by
  obtain ⟨_, counts⟩ := s
  cases mode
  rfl

/-- What a call has to return when `ids` were returned before: an id of its own as it is, and for a
title its slug, or else the slug with the least suffix that makes it new. -/
def Answers (ids : List (List Char)) : Call → List Char → Prop
  | .reserve id, answer => answer = id
  | .slug title, answer =>
    (slugify title ∉ ids ∧ answer = slugify title) ∨
      (slugify title ∈ ids ∧ ∃ k, IsLeast {k | 1 ≤ k ∧ suffixed (slugify title) k ∉ ids} k ∧
        answer = suffixed (slugify title) k)

/-- What a slugger in `suffix` mode keeps of the ids returned so far. The count of an id skips no free
suffix. -/
structure Keeps (s : Slugger) (ids : List (List Char)) : Prop where
  mode : s.mode = .suffix
  present : ∀ id, s.taken id = true ↔ id ∈ ids
  tried : ∀ base k, s.counts.lookup base = some k → ∀ i, 1 ≤ i → i ≤ k → suffixed base i ∈ ids

theorem keeps_new : (new .suffix).Keeps [] where
  mode := rfl
  present id := by simp [taken, new]
  tried base k found := by simp [new] at found

variable {s : Slugger} {ids : List (List Char)}

theorem Keeps.not_mem (keeps : s.Keeps ids) {id : List Char} (free : s.taken id = false) : id ∉ ids := by
  rw [← keeps.present, free]
  exact Bool.false_ne_true

/-- An id returned once more changes nothing. -/
theorem Keeps.append_mem (keeps : s.Keeps ids) {id : List Char} (present : id ∈ ids) :
    s.Keeps (ids ++ [id]) where
  mode := keeps.mode
  present other := by
    rw [keeps.present, List.mem_append, List.mem_singleton]
    constructor
    · exact .inl
    · rintro (member | rfl)
      · exact member
      · exact present
  tried base k found i low high := List.mem_append_left _ (keeps.tried base k found i low high)

/-- A new id is kept with no suffix tried. -/
theorem Keeps.cons (keeps : s.Keeps ids) (id : List Char) :
    Keeps { s with counts := (id, 0) :: s.counts } (ids ++ [id]) where
  mode := keeps.mode
  present other := by
    have before := keeps.present other
    rw [taken_iff] at before ⊢
    simp [← before, or_comm]
  tried base k found i low high := by
    rw [List.lookup_cons] at found
    split at found
    · cases found
      omega
    · exact List.mem_append_left _ (keeps.tried base k found i low high)

/-- The suffix found from the count of a taken id on is the least free one. -/
theorem Keeps.least (keeps : s.Keeps ids) {base : List Char} {k : Nat}
    (count : s.counts.lookup base = some k) :
    IsLeast {k | 1 ≤ k ∧ suffixed base k ∉ ids} (s.freeSuffix base s.counts.length k) := by
  obtain ⟨above, vacant, before⟩ := (s.searchEnds_freeSuffix base k).first
  refine ⟨⟨by omega, keeps.not_mem vacant⟩, ?_⟩
  rintro i ⟨low, free⟩
  by_contra below
  rw [not_le] at below
  rcases Nat.lt_or_ge k i with later | tried
  · exact free ((keeps.present _).mp (before i later below))
  · exact free (keeps.tried base k count i low tried)

/-- A suffixed id is kept, and its number as the count of its base. -/
theorem Keeps.cons_suffixed (keeps : s.Keeps ids) {base : List Char} {k : Nat}
    (count : s.counts.lookup base = some k) :
    Keeps (s.unique base).2 (ids ++ [(s.unique base).1]) := by
  obtain ⟨-, -, before⟩ := (s.searchEnds_freeSuffix base k).first
  have present : base ∈ ids := (keeps.present base).mp (by rw [taken, count]; rfl)
  rw [unique, count]
  refine ⟨keeps.mode, fun other => ?_, fun other n found i low high => ?_⟩
  · have old := keeps.present other
    rw [taken_iff] at old ⊢
    simp only [List.map_cons, List.mem_cons, old, List.mem_append, List.not_mem_nil, or_false]
    constructor
    · rintro (rfl | rfl | member)
      · exact .inr rfl
      · exact .inl present
      · exact .inl member
    · rintro (member | rfl)
      · exact .inr (.inr member)
      · exact .inl rfl
  · rw [List.lookup_cons] at found
    split at found
    · cases found
      omega
    · rw [List.lookup_cons] at found
      split at found
      · next same =>
        cases found
        obtain rfl := eq_of_beq same
        rcases Nat.lt_or_eq_of_le high with below | rfl
        · refine List.mem_append_left _ ?_
          rcases Nat.lt_or_ge k i with later | tried
          · exact (keeps.present _).mp (before i later below)
          · exact keeps.tried other k count i low tried
        · exact List.mem_append_right _ List.mem_cons_self
      · exact List.mem_append_left _ (keeps.tried other n found i low high)

/-- One call: the id that the rule asks for is returned, and kept with the others. -/
theorem Keeps.call (keeps : s.Keeps ids) (c : Call) :
    Answers ids c (s.call c).1 ∧ (s.call c).2.Keeps (ids ++ [(s.call c).1]) := by
  cases c with
  | slug title =>
    rw [Slugger.call, slug_of_suffix keeps.mode]
    cases count : s.counts.lookup (slugify title) with
    | none =>
      have free : s.taken (slugify title) = false := by rw [Slugger.taken, count]; rfl
      refine ⟨.inl ⟨keeps.not_mem free, ?_⟩, ?_⟩
      · rw [unique, count]
      · rw [unique, count]
        exact keeps.cons _
    | some k =>
      have present : s.taken (slugify title) = true := by rw [taken, count]; rfl
      refine ⟨.inr ⟨(keeps.present _).mp present, _, keeps.least count, ?_⟩, keeps.cons_suffixed count⟩
      rw [unique, count]
  | reserve id =>
    rw [Slugger.call, reserve_of_suffix keeps.mode]
    refine ⟨rfl, ?_⟩
    dsimp only
    split
    · next present => exact keeps.append_mem ((keeps.present id).mp present)
    · exact keeps.cons id

/-- After any calls a slugger in `suffix` mode keeps the ids that they returned. -/
theorem keeps_after (calls : List Call) :
    ((new .suffix).after calls).Keeps ((new .suffix).answers calls) := by
  induction calls using List.reverseRecOn with
  | nil => exact keeps_new
  | append_singleton calls c ih =>
    rw [after_concat, answers_concat]
    exact (ih.call c).2

/-- Whatever has been called before, the next call on a slugger in `suffix` mode returns what the rule
asks for: an id of its own unchanged, and for a title its slug or the slug with the least suffix that
was not returned before. The search for a suffix ends, and a derived id is always a new one. -/
theorem next_answer_is_least_free (calls : List Call) (c : Call) :
    ∃ answer, (new .suffix).answers (calls ++ [c]) = (new .suffix).answers calls ++ [answer] ∧
      Answers ((new .suffix).answers calls) c answer ∧
      (∀ title, c = .slug title → answer ∉ (new .suffix).answers calls) ∧
      ∀ base k, SearchEnds ((new .suffix).after calls) base k
        (((new .suffix).after calls).freeSuffix base ((new .suffix).after calls).counts.length k) := by
  have keeps := keeps_after calls
  have answered := (keeps.call c).1
  refine ⟨_, answers_concat _ calls c, answered, ?_, searchEnds_freeSuffix _⟩
  rintro title rfl
  rcases answered with ⟨free, same⟩ | ⟨-, k, least, same⟩
  · rwa [same]
  · rw [same]
    exact least.1.2

example : (new .suffix).answers
    [.slug "Intro 1".toList, .reserve "a".toList, .slug "Intro".toList, .slug "Intro".toList,
      .slug "A!".toList] =
    ["intro-1".toList, "a".toList, "intro".toList, "intro-2".toList, "a-1".toList] := by
  decide +kernel

end Slugger

end FrontToc
