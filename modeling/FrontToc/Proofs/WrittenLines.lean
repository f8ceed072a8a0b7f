import FrontToc.Proofs.Lines
import FrontToc.Proofs.WrittenScalars

/-!
# A written mapping has no delimiter line

A scan that counts the hyphens at the start of each line never comes to three of them in the text of a
mapping. Entries and items leave the scan at the start of a line, or inside one after a literal whose
last break is a line separator; keys are texts of one line; every later line of a literal is indented.
-/
namespace FrontToc.Yaml

open Text

/-- Where the scan is in a line: at its start or after one or two hyphens there, anywhere else, or past
three hyphens at the start of some line. -/
inductive LinePlace where
  | start
  | hyphen
  | hyphens
  | inside
  | ruled
deriving DecidableEq

namespace LinePlace

/-- The scan after one more character. -/
def next : LinePlace → Char → LinePlace
  | .ruled, _ => .ruled
  | .start, c => if c = '\n' then .start else if c = '-' then .hyphen else .inside
  | .hyphen, c => if c = '\n' then .start else if c = '-' then .hyphens else .inside
  | .hyphens, c => if c = '\n' then .start else if c = '-' then .ruled else .inside
  | .inside, c => if c = '\n' then .start else .inside

/-- The scan after a text. -/
def after (p : LinePlace) (s : List Char) : LinePlace :=
  s.foldl next p

/-- The places at which an entry or an item begins and ends. -/
def Settled (p : LinePlace) : Prop :=
  p = .start ∨ p = .inside

@[simp] theorem after_nil (p : LinePlace) : p.after [] = p := rfl

@[simp] theorem after_cons (p : LinePlace) (c : Char) (s : List Char) :
    p.after (c :: s) = (p.next c).after s := rfl

@[simp] theorem after_append (p : LinePlace) (s t : List Char) :
    p.after (s ++ t) = (p.after s).after t := List.foldl_append

theorem ruled_after (s : List Char) : ruled.after s = ruled := by
  induction s with
  | nil => rfl
  | cons c s ih => exact ih

theorem Settled.ne_ruled {p : LinePlace} (h : p.Settled) : p ≠ ruled := by
  rcases h with rfl | rfl <;> simp

theorem next_feed {p : LinePlace} (h : p ≠ ruled) : p.next '\n' = start := by
  cases p <;> simp_all [next]

theorem next_other {p : LinePlace} (h : p ≠ ruled) {c : Char} (hfeed : c ≠ '\n') (hc : c ≠ '-') :
    p.next c = inside := by
  cases p <;> simp_all [next]

/-- A hyphen after the start or inside of a line is the first there, if it is one of those counted. -/
theorem Settled.next_ne_ruled {p : LinePlace} (h : p.Settled) (c : Char) : p.next c ≠ ruled := by
  rcases h with rfl | rfl <;> simp only [next] <;> split <;> try split
  all_goals simp

theorem inside_after {s : List Char} (h : '\n' ∉ s) : inside.after s = inside := by
  induction s with
  | nil => rfl
  | cons c s ih =>
    have hc : c ≠ '\n' := fun he => h (he ▸ List.mem_cons_self)
    rw [after_cons, next, if_neg hc]
    exact ih fun hmem => h (List.mem_cons_of_mem _ hmem)

/-- Once a line goes on with something else than a hyphen, no more are counted in it. -/
theorem after_other {p : LinePlace} (h : p ≠ ruled) {c : Char} {s : List Char} (hc : c ≠ '-')
    (hfeed : '\n' ∉ c :: s) : p.after (c :: s) = inside := by
  have hne : c ≠ '\n' := fun he => hfeed (he ▸ List.mem_cons_self)
  rw [after_cons, next_other h hne hc, inside_after fun hmem => hfeed (List.mem_cons_of_mem _ hmem)]

/-- Text of one line that does not begin with three hyphens keeps the scan going. -/
theorem Settled.after_oneLine {p : LinePlace} (h : p.Settled) {s : List Char} (hs : OneLine s) :
    p.after s ≠ ruled := by
  obtain ⟨hfeed, hrule⟩ := hs
  have hfeed' : ∀ a t, s = a :: t → '\n' ∉ t := by
    rintro a t rfl hmem
    exact hfeed (List.mem_cons_of_mem _ hmem)
  rcases h with rfl | rfl
  · cases s with
    | nil => simp
    | cons a s =>
      by_cases ha : a = '-'
      · subst ha
        cases s with
        | nil => simp [next]
        | cons b s =>
          have hfeed₂ := hfeed' _ _ rfl
          by_cases hb : b = '-'
          · subst hb
            cases s with
            | nil => simp [next]
            | cons c s =>
              have hc : c ≠ '-' := by
                rintro rfl
                exact hrule ⟨s, rfl⟩
              have hinside := after_other (p := hyphens) (by simp) hc
                fun hmem => hfeed₂ (List.mem_cons_of_mem _ hmem)
              change hyphens.after (c :: s) ≠ ruled
              rw [hinside]
              simp
          · have hinside := after_other (p := hyphen) (by simp) hb hfeed₂
            change hyphen.after (b :: s) ≠ ruled
            rw [hinside]
            simp
      · rw [after_other (by simp) ha hfeed]
        simp
  · rw [inside_after hfeed]
    simp

/-- Spaces leave the scan inside the line, or where it was if there are none. -/
theorem Settled.after_spaces {p : LinePlace} (h : p.Settled) (n : Nat) :
    (p.after (spaces n)).Settled := by
  induction n generalizing p with
  | zero => exact h
  | succ n ih =>
    rw [spaces, List.replicate_succ, after_cons, next_other h.ne_ruled (by decide) (by decide)]
    exact ih (.inr rfl)

end LinePlace

open LinePlace

theorem feed_ne_of_not_break {c : Char} (h : ¬Style.isLineBreak c = true) : c ≠ '\n' := by
  rintro rfl
  exact h (by decide)

/-- The lines of a literal. Only at the start of one is a character that is no break indented. -/
theorem settled_literalBody {indent : Nat} (hindent : 0 < indent) (s : List Char) (atStart : Bool)
    {p : LinePlace} (hp : p.Settled) (hinside : atStart = false → p = .inside) :
    (p.after (literalBody indent atStart s)).Settled := by
  induction s generalizing atStart p with
  | nil => exact hp
  | cons c s ih =>
    rw [literalBody]
    split
    · refine ih true ?_ (by simp)
      by_cases hc : c = '\n'
      · rw [hc, next_feed hp.ne_ruled]
        exact .inl rfl
      · by_cases hyphen : c = '-'
        · subst hyphen; contradiction
        · rw [next_other hp.ne_ruled hc hyphen]
          exact .inr rfl
    · next hbreak =>
      have hlead : p.after (if atStart then spaces indent else []) = .inside := by
        cases atStart with
        | false => simpa using hinside rfl
        | true =>
          obtain ⟨n, rfl⟩ := Nat.exists_eq_succ_of_ne_zero (Nat.ne_of_gt hindent)
          exact after_other hp.ne_ruled (by decide) (by simp)
      rw [after_append, hlead, after_cons, next, if_neg (feed_ne_of_not_break hbreak)]
      exact ih false (.inr rfl) (by simp)

theorem settled_of_not_mem {s : List Char} (h : '\n' ∉ s) :
    (LinePlace.inside.after s).Settled := by
  rw [inside_after h]
  exact .inr rfl

theorem settled_stringText {indent : Nat} (hindent : 0 < indent) (s : List Char) :
    (LinePlace.inside.after (stringText indent s)).Settled := by
  by_cases hs : '\n' ∈ s
  · unfold stringText
    rcases ofString_of_mem hs with hstyle | hstyle <;> rw [hstyle] <;> dsimp only
    · rw [literalText, after_append, inside_after (not_mem_literalHead s), after_cons]
      exact settled_literalBody hindent s true (.inl rfl) (by simp)
    · exact settled_of_not_mem (oneLine_doubleText s).1
  · exact settled_of_not_mem (oneLine_stringText hs indent).1

/-- A scalar after its mark, whatever value it is. -/
theorem settled_scalarText {indent : Nat} (hindent : 0 < indent) (v : Value) :
    (LinePlace.inside.after (scalarText indent v)).Settled := by
  unfold scalarText
  split
  · exact settled_of_not_mem (by decide)
  · split <;> exact settled_of_not_mem (by decide)
  · exact settled_of_not_mem (oneLine_intText _).1
  · exact settled_of_not_mem (oneLine_floatText _).1
  · exact settled_stringText hindent _
  · exact .inr rfl

theorem settled_endLine {s : List Char} (h : (LinePlace.inside.after s).Settled) :
    (LinePlace.inside.after (endLine s)).Settled := by
  rw [endLine]
  split
  · exact h
  · rw [after_append, after_cons, next_feed h.ne_ruled]
    exact .inl rfl

/-- What stands between a mark and the first member of a collection. -/
theorem settled_memberLead {p : LinePlace} (hp : p ≠ .ruled) (compact : Bool) (indent : Nat) :
    (p.after (memberLead compact indent)).Settled := by
  unfold memberLead
  cases compact with
  | true => exact .inr (next_other hp (by decide) (by decide))
  | false =>
    rw [if_neg (by simp), after_cons, next_feed hp]
    exact Settled.after_spaces (.inl rfl) indent

theorem settled_scalarNode {p : LinePlace} (hp : p ≠ .ruled) (indent : Nat) (v : Value) :
    (p.after (' ' :: endLine (scalarText (indent + 2) v))).Settled := by
  rw [after_cons, next_other hp (by decide) (by decide)]
  exact settled_endLine (settled_scalarText (by omega) v)

mutual

/-- A node leaves the scan where an entry or item can follow, wherever in a line it begins. -/
theorem settled_nodeText (indent : Nat) (inMapping compact : Bool) (v : Value) {p : LinePlace}
    (hp : p ≠ .ruled) : (p.after (nodeText indent inMapping compact v)).Settled := by
  match v with
  | .tagged t v =>
    rw [nodeText, after_append, after_cons, next_other hp (by decide) (by decide),
      inside_after (oneLine_tag t).1]
    exact settled_nodeText indent inMapping false v (by simp)
  | .seq [] =>
    rw [nodeText, after_cons, next_other hp (by decide) (by decide)]
    exact .inl rfl
  | .seq (item :: items) =>
    rw [nodeText, after_append, after_append, after_cons]
    exact settled_itemsText _ items (settled_nodeText _ false true item
      ((settled_memberLead hp compact _).next_ne_ruled '-'))
  | .map [] =>
    rw [nodeText, after_cons, next_other hp (by decide) (by decide)]
    exact .inl rfl
  | .map (entry :: entries) =>
    rw [nodeText]
    · exact settled_entriesText _ _ (entry :: entries) (settled_memberLead hp compact _) (by simp)
    · simp
  | .null => exact settled_scalarNode hp indent .null
  | .bool b => exact settled_scalarNode hp indent (.bool b)
  | .int n => exact settled_scalarNode hp indent (.int n)
  | .float x => exact settled_scalarNode hp indent (.float x)
  | .str s => exact settled_scalarNode hp indent (.str s)

theorem settled_itemsText (indent : Nat) (items : List Value) {p : LinePlace} (hp : p.Settled) :
    (p.after (itemsText indent items)).Settled := by
  match items with
  | [] => exact hp
  | item :: items =>
    rw [itemsText, after_append, after_append, after_cons]
    exact settled_itemsText indent items
      (settled_nodeText indent false true item ((hp.after_spaces indent).next_ne_ruled '-'))

theorem settled_entriesText (indent : Nat) (lead : List Char) (entries : List (Value × Value))
    {p : LinePlace} (hlead : (p.after lead).Settled) (hp : entries = [] → p.Settled) :
    (p.after (entriesText indent lead entries)).Settled := by
  match entries with
  | [] => exact hp rfl
  | (key, value) :: entries =>
    have hentry : ((p.after lead).after (entryText indent key value)).Settled := by
      unfold entryText
      cases hkey : simpleKey? key with
      | some s =>
        dsimp only
        rw [after_append, after_cons]
        have hmark : ((p.after lead).after s).next ':' = .inside :=
          next_other (hlead.after_oneLine (oneLine_of_simpleKey hkey)) (by decide) (by decide)
        exact settled_nodeText indent true false value (by rw [hmark]; simp)
      | none =>
        dsimp only
        rw [after_append, after_append, after_cons, after_cons]
        have hkeyText := settled_nodeText indent true true key (hlead.next_ne_ruled '?')
        exact settled_nodeText indent true true value
          ((hkeyText.after_spaces indent).next_ne_ruled ':')
    rw [entriesText_cons, after_append, after_append]
    exact settled_entriesText indent (spaces indent) entries (hentry.after_spaces indent)
      fun _ => hentry

end

/-- The scan of the text of a mapping never comes to three hyphens at the start of a line. -/
theorem settled_mappingText (m : Mapping) : (LinePlace.start.after m.text).Settled := by
  unfold Mapping.text
  split
  · exact .inl rfl
  · exact settled_entriesText 0 [] m (.inl rfl) fun _ => .inl rfl

/-- A line that the scan passes does not begin with three hyphens. -/
theorem not_prefix_of_after {l : List Char} (h : LinePlace.start.after l ≠ .ruled) :
    ¬delimiter <+: l := by
  rintro ⟨t, rfl⟩
  exact h (ruled_after t)

theorem not_prefix_of_lines {ls : List (List Char)} (hls : AreLines ls)
    (h : LinePlace.start.after ls.flatten ≠ .ruled) : ∀ l ∈ ls, ¬delimiter <+: l := by
  induction hls with
  | nil => simp
  | last l _ _ =>
    intro l' hl'
    rw [List.mem_singleton.mp hl']
    exact not_prefix_of_after (by simpa using h)
  | cons q ls _ _ ih =>
    rw [List.flatten_cons, after_append] at h
    have hq : LinePlace.start.after (q ++ ['\n']) ≠ .ruled := by
      intro hruled
      rw [hruled, ruled_after] at h
      exact h rfl
    have hbefore : LinePlace.start.after q ≠ .ruled := by
      intro hruled
      rw [after_append, hruled] at hq
      exact hq rfl
    have hfeed : LinePlace.start.after (q ++ ['\n']) = .start := by
      rw [after_append, after_cons, next_feed hbefore, after_nil]
    rw [hfeed] at h
    intro l hl
    rcases List.mem_cons.mp hl with rfl | hl
    · exact not_prefix_of_after hq
    · exact ih h l hl

/-- No line of a written mapping begins with three hyphens. -/
theorem not_prefix_mappingText (m : Mapping) : ∀ l ∈ splitLines m.text, ¬delimiter <+: l := by
  refine not_prefix_of_lines (areLines_splitLines _) ?_
  rw [flatten_splitLines]
  exact (settled_mappingText m).ne_ruled

end FrontToc.Yaml
