import FrontToc.Proofs.Pieces
import Mathlib.Algebra.Group.Nat.Defs

/-!
# The search for placeholders ends

Placeholders that occur in a text begin at different places of it, and not where a block begins. So all
searches of one shield together look at no more ids than the text has bytes, if that many ids differ from
each other, and every search ends with a placeholder that does not occur in the text.
-/
namespace FrontToc

open Text

namespace IdSupply

/-- The search for a placeholder without a bound: the ids from the `n`-th on are tried one by one, and the
first one whose placeholder does not occur in the text ends the search. -/
inductive SearchEnds (ids : IdSupply) (text : List Char) : (n found : Nat) → Prop
  | free (n : Nat) : occursIn (ids.placeholder n) text = false → SearchEnds ids text n n
  | next (n found : Nat) : occursIn (ids.placeholder n) text = true →
      SearchEnds ids text (n + 1) found → SearchEnds ids text n found

/-- Searches one after the other, each from the id on that follows the one found before. -/
inductive SearchesEnd (ids : IdSupply) (text : List Char) : (n : Nat) → (found : List Nat) → Prop
  | nil (n : Nat) : SearchesEnd ids text n []
  | cons {n k : Nat} {found : List Nat} : ids.SearchEnds text n k →
      SearchesEnd ids text (k + 1) found → SearchesEnd ids text n (k :: found)

variable {ids : IdSupply} {text : List Char}

/-- A search ends at the first id whose placeholder is free. -/
theorem SearchEnds.first {n k : Nat} (search : ids.SearchEnds text n k) :
    n ≤ k ∧ ¬ids.placeholder k <:+: text ∧
      ∀ i, n ≤ i → i < k → ids.placeholder i <:+: text := by
  induction search with
  | free n vacant =>
    refine ⟨le_rfl, fun occurs => ?_, fun i above below => by omega⟩
    rw [occursIn_iff.mpr occurs] at vacant
    cases vacant
  | next n k occupied _ ih =>
    obtain ⟨above, vacant, before⟩ := ih
    refine ⟨by omega, vacant, fun i low high => ?_⟩
    rcases Nat.eq_or_lt_of_le low with rfl | later
    · exact occursIn_iff.mp occupied
    · exact before i later high

/-- The bounded search is the search without a bound if that ends within the bound. -/
theorem SearchEnds.fresh_eq {n k : Nat} (search : ids.SearchEnds text n k) (fuel : Nat)
    (within : k ≤ n + fuel) : ids.fresh text fuel n = k := by
  induction search generalizing fuel with
  | free n vacant =>
    cases fuel with
    | zero => rfl
    | succ fuel => rw [fresh, vacant, if_neg Bool.false_ne_true]
  | next n k occupied rest ih =>
    have above := rest.first.1
    obtain ⟨fuel, rfl⟩ : ∃ m, fuel = m + 1 := ⟨fuel - 1, by omega⟩
    rw [fresh, occupied, if_pos rfl]
    exact ih fuel (by omega)

/-- Among ids of which not all are taken the search ends. -/
theorem exists_searchEnds (ids : IdSupply) (text : List Char) {n m : Nat} (le : n ≤ m)
    (room : ids.takenBelow text m + n < ids.takenBelow text n + m) :
    ∃ k < m, ids.SearchEnds text n k := by
  -- downwards from `m`: an id that is passed over adds one to either side of `room`
  induction le using Nat.decreasingInduction with
  | self => omega
  | of_succ n below ih =>
    have counted := ids.takenBelow_succ text n
    cases occurs : occursIn (ids.placeholder n) text with
    | false => exact ⟨n, below, .free n occurs⟩
    | true =>
      rw [occurs, if_pos rfl] at counted
      obtain ⟨k, within, search⟩ := ih (by omega)
      exact ⟨k, within, .next n k occurs search⟩

/-- A search over distinct ids passes over no more of them than the text has characters. -/
theorem SearchEnds.le_add_length {n k : Nat} (hids : ids.Hexadecimal) (distinct : ids.DistinctBelow k)
    (search : ids.SearchEnds text n k) : k ≤ n + text.length := by
  obtain ⟨above, -, before⟩ := search.first
  have counted := takenBelow_add above before
  have few := hids.takenBelow_le distinct text
  have letters := List.count_le_length (a := 'C') (l := text)
  omega

/-- Searches for `count` placeholders end, if there are distinct ids for these and for the placeholders
that may occur in the text. -/
theorem exists_searchesEnd (hids : ids.Hexadecimal) {m : Nat} (distinct : ids.DistinctBelow m)
    (text : List Char) (count n : Nat) (le : n ≤ m)
    (room : n + text.count 'C' + count ≤ ids.takenBelow text n + m) :
    ∃ found, ids.SearchesEnd text n found ∧ found.length = count ∧ ∀ k ∈ found, k < m := by
  induction count generalizing n with
  | zero => exact ⟨[], .nil n, rfl, by simp⟩
  | succ count ih =>
    have few := hids.takenBelow_le distinct text
    obtain ⟨k, below, search⟩ := exists_searchEnds ids text le (by omega)
    obtain ⟨above, -, before⟩ := search.first
    -- ids passed over count on both sides of `room`, so there is room behind the one found for the rest
    have counted := takenBelow_add above before
    have step := ids.takenBelow_succ text k
    obtain ⟨found, searches, length, within⟩ := ih (k + 1) below (by omega)
    exact ⟨k :: found, .cons search searches, by rw [List.length_cons, length],
      by simpa using ⟨below, within⟩⟩

/-- What a shield draws is what the searches find. -/
theorem SearchesEnd.placeholders_drawn (hids : ids.Hexadecimal) {m : Nat} (distinct : ids.DistinctBelow m)
    {n : Nat} {found : List Nat} (searches : ids.SearchesEnd text n found) (ps : List Piece)
    (length : found.length = (drawnBlocks ids text n ps).length) (within : ∀ k ∈ found, k < m)
    (le : n ≤ m) :
    nextId ids text n ps ≤ m ∧
      (drawnBlocks ids text n ps).map Prod.fst = found.map ids.placeholder := by
  fun_induction nextId ids text n ps generalizing found with
  | case1 n =>
    obtain rfl : found = [] := List.length_eq_zero_iff.mp length
    exact ⟨le, rfl⟩
  | case2 n t rest ih => exact ih searches length within le
  | case3 n t rest ih =>
    rw [drawnBlocks_block] at length ⊢
    cases searches with
    | nil => cases length
    | @cons _ k found search searches =>
      have below := within k List.mem_cons_self
      have near := search.le_add_length hids (distinct.mono below.le)
      rw [search.fresh_eq text.length near] at ih length ⊢
      obtain ⟨drawn, placeholders⟩ := ih searches (Nat.succ.inj length)
        (fun i member => within i (List.mem_cons_of_mem k member)) below
      exact ⟨drawn, by rw [List.map_cons, List.map_cons, placeholders]⟩

end IdSupply

/-- Every block begins with a character of a fence, before it or as its first. -/
theorem edge_of_mem_piecesFrom {inside : Option (Fence × List Char)} {ls : List (List Char)}
    (valid : ValidInside inside) {b : List Char} (member : .block b ∈ piecesFrom inside ls) :
    ∃ c ∈ b.head?, isFenceEdge c := by
  fun_induction piecesFrom inside ls with
  | case1 => cases member
  | case2 fence block =>
    cases List.mem_singleton.mp member
    exact valid.2
  | case3 line rest fence opening ih => exact ih (validInside_opening opening) member
  | case4 line rest plain ih =>
    exact ih trivial ((List.mem_cons.mp member).resolve_left (by simp))
  | case5 fence block line rest closes ih =>
    rcases List.mem_cons.mp member with same | member
    · cases same
      exact head_append _ valid.2
    · exact ih trivial ((List.mem_cons.mp member).resolve_left (by simp))
  | case6 fence block line rest stays ih => exact ih ⟨valid.1, head_append _ valid.2⟩ member

/-- There are no more blocks than characters that a block can begin with. -/
theorem length_drawnBlocks_le (ids : IdSupply) (source : List Char) (n : Nat) (ps : List Piece)
    (edge : ∀ b, .block b ∈ ps → ∃ c ∈ b.head?, isFenceEdge c) :
    (drawnBlocks ids source n ps).length ≤ (ps.flatMap Piece.text).countP isFenceEdge := by
  fun_induction nextId ids source n ps with
  | case1 => exact le_rfl
  | case2 n t rest ih =>
    have counted := ih fun b member => edge b (List.mem_cons_of_mem _ member)
    rw [drawnBlocks_outside, List.flatMap_cons, List.countP_append]
    omega
  | case3 n t rest ih =>
    have counted := ih fun b member => edge b (List.mem_cons_of_mem _ member)
    obtain ⟨c, first, fence⟩ := edge t List.mem_cons_self
    have positive : 0 < t.countP isFenceEdge :=
      List.countP_pos_iff.mpr ⟨c, List.mem_of_head? first, fence⟩
    rw [drawnBlocks_block, List.length_cons, List.flatMap_cons, List.countP_append, Piece.text]
    omega

/-- Blocks and placeholders begin with different characters, so that both together are no more than the
text has characters. -/
theorem count_add_length_blocks_le (ids : IdSupply) (text : List Char) :
    text.count 'C' + (shield ids text).blocks.length ≤ text.length := by
  have blocks := length_drawnBlocks_le ids text 0 (pieces text) fun b member =>
    edge_of_mem_piecesFrom (show ValidInside none from trivial) member
  rw [flatMap_pieces] at blocks
  have others : text.count 'C' ≤ text.countP fun c => ¬isFenceEdge c := by
    refine List.countP_mono_left fun c _ same => ?_
    rw [eq_of_beq same]
    decide
  have all := List.length_eq_countP_add_countP isFenceEdge (l := text)
  change _ + (drawnBlocks ids text 0 (pieces text)).length ≤ _
  omega

/-- A search over distinct ids that ends passes over no more of them than the text has bytes, and finds a
placeholder that does not occur in the text; it does end if more distinct ids are left than the text has
bytes. The searches of a whole shield find placeholders that differ from each other and do not occur in
the text; as many distinct ids as the text has bytes are enough for all of them. -/
theorem placeholder_searches_end {ids : IdSupply} (hids : ids.Hexadecimal) {m : Nat}
    (distinct : ids.DistinctBelow m) (text : List Char) :
    (∀ n k, k < m → ids.SearchEnds text n k →
      k ≤ n + byteLength text ∧ ¬ids.placeholder k <:+: text ∧
        ids.fresh text text.length n = k) ∧
    (∀ n, n + byteLength text < m → ∃ k < m, ids.SearchEnds text n k) ∧
    (∀ found, (∀ k ∈ found, k < m) → ids.SearchesEnd text 0 found →
      found.length = (shield ids text).blocks.length →
      (shield ids text).blocks.map Prod.fst = found.map ids.placeholder ∧
        ((shield ids text).blocks.map Prod.fst).Nodup ∧
        ∀ p ∈ (shield ids text).blocks.map Prod.fst, ¬p <:+: text) ∧
    (byteLength text ≤ m →
      ∃ found, ids.SearchesEnd text 0 found ∧ found.length = (shield ids text).blocks.length ∧
        ∀ k ∈ found, k < byteLength text) := by
  have short := length_le_byteLength text
  refine ⟨fun n k below search => ?_, fun n room => ?_, fun found within searches length => ?_,
    fun enough => ?_⟩
  · have near := search.le_add_length hids (distinct.mono below.le)
    exact ⟨by omega, search.first.2.1, search.fresh_eq _ near⟩
  · have few := hids.takenBelow_le distinct text
    have letters := List.count_le_length (a := 'C') (l := text)
    exact IdSupply.exists_searchEnds ids text (show n ≤ m by omega) (by omega)
  · obtain ⟨drawn, placeholders⟩ :=
      searches.placeholders_drawn hids distinct (pieces text) length within (Nat.zero_le m)
    have distinct := distinct.mono drawn
    refine ⟨placeholders, List.pairwise_map.mpr (distinct_drawnBlocks 0 (pieces text) distinct),
      fun p member => ?_⟩
    obtain ⟨x, block, rfl⟩ := List.mem_map.mp member
    exact not_infix_of_mem_drawnBlocks hids distinct block
  · have room := count_add_length_blocks_le ids text
    obtain ⟨found, searches, length, within⟩ := IdSupply.exists_searchesEnd hids
      (distinct.mono (short.trans enough)) text (shield ids text).blocks.length 0 (Nat.zero_le _)
      (by omega)
    exact ⟨found, searches, length, fun k member => (within k member).trans_le short⟩

/-- The last `width` hexadecimal digits of `n`. -/
def lastHexDigits : (width n : Nat) → List Char
  | 0, _ => []
  | width + 1, n => lastHexDigits width (n / 16) ++ [Nat.digitChar (n % 16)]

theorem length_lastHexDigits (width n : Nat) : (lastHexDigits width n).length = width := by
  induction width generalizing n with
  | zero => rfl
  | succ width ih => rw [lastHexDigits, List.length_append, ih, List.length_singleton]

theorem mem_lastHexDigits {width n : Nat} {c : Char} (member : c ∈ lastHexDigits width n) :
    c ∈ idDigits := by
  induction width generalizing n with
  | zero => cases member
  | succ width ih =>
    rcases List.mem_append.mp member with front | last
    · exact ih front
    · rw [List.mem_singleton.mp last]
      exact digitChar_mem_idDigits n

theorem lastHexDigits_injective {width i j : Nat} (hi : i < 16 ^ width) (hj : j < 16 ^ width)
    (same : lastHexDigits width i = lastHexDigits width j) : i = j := by
  induction width generalizing i j with
  | zero => omega
  | succ width ih =>
    rw [pow_succ] at hi hj
    obtain ⟨front, last⟩ := List.append_inj' same rfl
    have quotients : i / 16 = j / 16 := ih (by omega) (by omega) front
    have remainders : i % 16 = j % 16 := mod_eq_of_digitChar_eq (List.singleton_inj.mp last)
    omega

/-- All ids of 32 hexadecimal digits in turn. -/
def IdSupply.inTurn : IdSupply :=
  lastHexDigits 32

theorem IdSupply.hexadecimal_inTurn : IdSupply.inTurn.Hexadecimal :=
  fun n => ⟨length_lastHexDigits 32 n, fun _ => mem_lastHexDigits⟩

theorem IdSupply.distinctBelow_inTurn : IdSupply.inTurn.DistinctBelow (16 ^ 32) :=
  fun _ _ => lastHexDigits_injective

/-- A text that holds the first placeholder of the supply outside of code and the third one inside. -/
def lookalikes : List Char :=
  IdSupply.inTurn.placeholder 0 ++ "\n```\n".toList ++ IdSupply.inTurn.placeholder 2
    ++ "\n```\n~~~\na".toList

/-- Both searches of a shield pass over a placeholder that is there already. -/
theorem placeholder_searches_end_among_lookalikes :
    IdSupply.inTurn.SearchEnds lookalikes 0 1 ∧ ¬IdSupply.inTurn.placeholder 1 <:+: lookalikes ∧
      ∃ found, IdSupply.inTurn.SearchesEnd lookalikes 0 found ∧
        (shield .inTurn lookalikes).blocks.map Prod.fst = found.map IdSupply.inTurn.placeholder ∧
        (shield .inTurn lookalikes).blocks.map Prod.fst =
          [IdSupply.inTurn.placeholder 1, IdSupply.inTurn.placeholder 3] ∧
        ∀ p ∈ (shield .inTurn lookalikes).blocks.map Prod.fst, ¬p <:+: lookalikes := by
  obtain ⟨search_found, search_ends, shield_drawn, shield_ends⟩ := placeholder_searches_end
    IdSupply.hexadecimal_inTurn IdSupply.distinctBelow_inTurn lookalikes
  have room : byteLength lookalikes < 16 ^ 32 := by decide +kernel
  obtain ⟨k, below, search⟩ := search_ends 0 (by rwa [Nat.zero_add])
  obtain ⟨-, vacant, fresh_eq⟩ := search_found 0 k below search
  have first : IdSupply.inTurn.fresh lookalikes lookalikes.length 0 = 1 := by decide +kernel
  obtain rfl : k = 1 := fresh_eq.symm.trans first
  obtain ⟨found, searches, length, within⟩ := shield_ends room.le
  obtain ⟨placeholders, -, absent⟩ :=
    shield_drawn found (fun i member => (within i member).trans room) searches length
  exact ⟨search, vacant, found, searches, placeholders, by decide +kernel, absent⟩

end FrontToc
