import FrontToc.Yaml.Node

/-!
# Reading nested tokens

Tokens that open and close block collections in pairs are read level by level: a node takes no token
beyond the collection it stands in. So where tokens lead back into the outermost mapping its entries
are read up to there and on from there, and where a token follows that can neither go on nor end the
collections around it, nothing is read at all.
-/
namespace FrontToc.Yaml

namespace Token

/-- Tokens that open and close nothing. -/
def isPart : Token → Bool
  | .blockEntry | .key | .value | .tag _ _ | .scalar _ _ => true
  | _ => false

/-- Tokens that open a block collection. -/
def opensBlock : Token → Bool
  | .blockSequenceStart | .blockMappingStart => true
  | _ => false

/-- Tokens that can end a node. -/
def endsNode : Token → Bool
  | .scalar _ _ | .flowSequenceEnd | .flowMappingEnd | .blockEnd => true
  | _ => false

end Token

/-- `Nested m ts n`: within `m` block collections the tokens `ts` lead to within `n`. The outermost
collection is a mapping and stays open, and flow collections are empty. -/
inductive Nested : Nat → List Token → Nat → Prop where
  | nil (n : Nat) : Nested n [] n
  | root {ts : List Token} {n : Nat} : Nested 1 ts n → Nested 0 (.blockMappingStart :: ts) n
  | opens {t : Token} {ts : List Token} {m n : Nat} :
      t.opensBlock = true → Nested (m + 2) ts n → Nested (m + 1) (t :: ts) n
  | closes {ts : List Token} {m n : Nat} : Nested (m + 1) ts n → Nested (m + 2) (.blockEnd :: ts) n
  | part {t : Token} {ts : List Token} {m n : Nat} :
      t.isPart = true → Nested (m + 1) ts n → Nested (m + 1) (t :: ts) n
  | emptySequence {ts : List Token} {m n : Nat} :
      Nested (m + 1) ts n → Nested (m + 1) (.flowSequenceStart :: .flowSequenceEnd :: ts) n
  | emptyMapping {ts : List Token} {m n : Nat} :
      Nested (m + 1) ts n → Nested (m + 1) (.flowMappingStart :: .flowMappingEnd :: ts) n

theorem Nested.append {a b c : Nat} {ts us : List Token} (h : Nested a ts b) (h' : Nested b us c) :
    Nested a (ts ++ us) c := by
  induction h with
  | nil => exact h'
  | root _ ih => exact .root (ih h')
  | opens ht _ ih => exact .opens ht (ih h')
  | closes _ ih => exact .closes (ih h')
  | part ht _ ih => exact .part ht (ih h')
  | emptySequence _ ih => exact .emptySequence (ih h')
  | emptyMapping _ ih => exact .emptyMapping (ih h')

/-- Tokens that end with a node, if there are any. -/
def Complete (ts : List Token) : Prop :=
  ∀ t, ts.getLast? = some t → t.endsNode = true

theorem Complete.tail {t : Token} {ts : List Token} (h : Complete (t :: ts)) : Complete ts := by
  intro u hu
  exact h u (by rw [List.getLast?_cons, hu]; rfl)

/-- A token that cannot end a node is not the last. -/
theorem Complete.ne_nil {t : Token} {ts : List Token} (h : Complete (t :: ts))
    (ht : t.endsNode = false) : ts ≠ [] := by
  rintro rfl
  rw [h t rfl] at ht
  cases ht

theorem Complete.append {ts us : List Token} (h : Complete us) (hne : us ≠ []) :
    Complete (ts ++ us) := by
  intro t ht
  rw [List.getLast?_append, List.getLast?_eq_some_getLast hne, Option.some_or,
    ← List.getLast?_eq_some_getLast hne] at ht
  exact h t ht

namespace Node

/-- Tokens that begin with no item, value or end; and with a key only in the outermost mapping. -/
structure Foreign (level : Nat) (ts : List Token) : Prop where
  begins : ∃ t us, ts = t :: us ∧ t ≠ .blockEntry ∧ t ≠ .value ∧ t ≠ .blockEnd ∧ (t = .key → level = 1)

/-- What is to be read at level `n`: tokens that end with a node, and then the foreign ones. -/
def Within (level : Nat) (ts : List Token) (n : Nat) (us : List Token) : Prop :=
  ∃ before, us = before ++ ts ∧ Nested n before level ∧ Complete before

/-- The same if there is a token before the foreign ones. -/
def Before (level : Nat) (ts : List Token) (n : Nat) (us : List Token) : Prop :=
  ∃ t before, us = t :: before ++ ts ∧ Nested n (t :: before) level ∧ Complete (t :: before)

theorem Before.within {level n : Nat} {ts us : List Token} (h : Before level ts n us) :
    Within level ts n us := by
  obtain ⟨t, before, h⟩ := h
  exact ⟨t :: before, h⟩

/-- A reader that stays at its level. -/
def Stays (level : Nat) (ts : List Token) (node : Reader) : Prop :=
  ∀ n block indentless us x rest, Before level ts (n + 1) us →
    node block indentless us = some (x, rest) → Within level ts (n + 1) rest

section

variable {level : Nat} {ts : List Token}

/-- A token that goes on with a collection is the first foreign one, or its part follows. -/
theorem Within.part {n : Nat} {t : Token} {us : List Token}
    (h : Within level ts (n + 1) (t :: us)) (hpart : t.isPart = true) (hends : t.endsNode = false) :
    (ts = t :: us ∧ level = n + 1) ∨ Before level ts (n + 1) us := by
  obtain ⟨before, hus, nested, complete⟩ := h
  cases before with
  | nil =>
    cases nested
    exact .inl ⟨hus.symm, rfl⟩
  | cons u before =>
    obtain ⟨rfl, rfl⟩ := List.cons.inj hus
    obtain ⟨v, before, rfl⟩ := List.exists_cons_of_ne_nil (complete.ne_nil hends)
    cases nested with
    | opens hopen => cases t <;> cases hopen <;> cases hpart
    | part _ nested => exact .inr ⟨v, before, rfl, nested, complete.tail⟩
    | closes => cases hends
    | emptySequence => cases hpart
    | emptyMapping => cases hpart

variable (foreign : Foreign level ts)

include foreign

theorem Within.close {n : Nat} {us : List Token} (h : Within level ts (n + 2) (.blockEnd :: us)) :
    Within level ts (n + 1) us := by
  obtain ⟨before, hus, nested, complete⟩ := h
  cases before with
  | nil =>
    obtain ⟨t, vs, rfl, -, -, hend, -⟩ := foreign.begins
    exact absurd (List.cons.inj hus).1.symm hend
  | cons u before =>
    obtain ⟨rfl, rfl⟩ := List.cons.inj hus
    cases nested with
    | opens hopen => cases hopen
    | part hpart => cases hpart
    | closes nested => exact ⟨before, rfl, nested, complete.tail⟩

theorem Within.blockEntry {n : Nat} {us : List Token}
    (h : Within level ts (n + 1) (.blockEntry :: us)) : Before level ts (n + 1) us := by
  refine (h.part rfl rfl).resolve_left fun ⟨hts, _⟩ => ?_
  obtain ⟨t, us, rfl, hentry, -⟩ := foreign.begins
  exact hentry (List.cons.inj hts).1

theorem Within.value {n : Nat} {us : List Token} (h : Within level ts (n + 1) (.value :: us)) :
    Before level ts (n + 1) us := by
  refine (h.part rfl rfl).resolve_left fun ⟨hts, _⟩ => ?_
  obtain ⟨t, us, rfl, -, hvalue, -⟩ := foreign.begins
  exact hvalue (List.cons.inj hts).1

theorem Within.key {n : Nat} {us : List Token} (h : Within level ts (n + 2) (.key :: us)) :
    Before level ts (n + 2) us := by
  refine (h.part rfl rfl).resolve_left fun ⟨hts, hlevel⟩ => ?_
  obtain ⟨t, us, rfl, -, -, -, hkey⟩ := foreign.begins
  rw [hkey (List.cons.inj hts).1] at hlevel
  omega

omit foreign in
theorem Stays.readUnless {node : Reader} (stays : Stays level ts node) (ends : Token → Bool) :
    Stays level ts (readUnless node ends) := by
  intro n block indentless us x rest before h
  unfold Node.readUnless at h
  split at h
  · split at h
    · cases h
      exact before.within
    · exact stays n _ _ _ x rest before h
  · exact stays n _ _ _ x rest before h

theorem Stays.readValue {node : Reader} (stays : Stays level ts node) (ends : Token → Bool)
    {n : Nat} {us : List Token} (within : Within level ts (n + 1) us) {block indentless : Bool}
    {x : Named} {rest : List Token} (h : readValue node ends block indentless us = some (x, rest)) :
    Within level ts (n + 1) rest := by
  unfold Node.readValue at h
  split at h
  · exact stays.readUnless ends n _ _ _ x rest (within.value foreign) h
  · cases h
    exact within

/-- Items of an indented sequence end where it does. -/
theorem Stays.blockItems {node : Reader} (stays : Stays level ts node) {n : Nat} (fuel : Nat)
    {us : List Token} (within : Within level ts (n + 2) us) {items : List Named} {rest : List Token}
    (h : blockItems node fuel us = some (items, rest)) : Within level ts (n + 1) rest := by
  fun_induction Node.blockItems node fuel us generalizing items with
  | case1 => cases h
  | case2 fuel us x after hread ih =>
    obtain ⟨⟨items, rest⟩, hrest, heq⟩ := Option.map_eq_some_iff.mp h
    cases heq
    refine ih ?_ hrest
    exact stays.readUnless endsItem _ _ _ _ x _ (within.blockEntry foreign) hread
  | case3 =>
    cases h
    exact within.close foreign
  | case4 => cases h

/-- Items of a sequence that is not indented end before any other token. -/
theorem Stays.indentlessItems {node : Reader} (stays : Stays level ts node) {n : Nat} (fuel : Nat)
    {us : List Token} (within : Within level ts (n + 1) us) {items : List Named} {rest : List Token}
    (h : indentlessItems node fuel us = some (items, rest)) : Within level ts (n + 1) rest := by
  fun_induction Node.indentlessItems node fuel us generalizing items with
  | case1 => cases h
  | case2 fuel us x after hread ih =>
    obtain ⟨⟨items, rest⟩, hrest, heq⟩ := Option.map_eq_some_iff.mp h
    cases heq
    refine ih ?_ hrest
    exact stays.readUnless _ _ _ _ _ x _ (within.blockEntry foreign) hread
  | case3 =>
    cases h
    exact within

/-- One entry of a block mapping, key and value. -/
theorem Stays.entry {node : Reader} (stays : Stays level ts node) {n : Nat}
    {us : List Token} (before : Before level ts (n + 1) us) {key value : Named}
    {after rest : List Token} (hkey : Node.readUnless node endsEntry true true us = some (key, after))
    (hvalue : Node.readValue node endsEntry true true after = some (value, rest)) :
    Within level ts (n + 1) rest :=
  stays.readValue foreign endsEntry (stays.readUnless endsEntry n _ _ us key after before hkey) hvalue

/-- Entries of an inner mapping end where it does. -/
theorem Stays.blockEntries {node : Reader} (stays : Stays level ts node) {n : Nat} (fuel : Nat)
    {us : List Token} (within : Within level ts (n + 2) us) {entries : List (Named × Named)}
    {rest : List Token} (h : blockEntries node fuel us = some (entries, rest)) :
    Within level ts (n + 1) rest := by
  fun_induction Node.blockEntries node fuel us generalizing entries with
  | case1 => cases h
  | case2 => cases h
  | case3 fuel us key after hkey value after' hvalue ih =>
    obtain ⟨⟨entries, rest⟩, hrest, heq⟩ := Option.map_eq_some_iff.mp h
    cases heq
    exact ih (stays.entry foreign (within.key foreign) hkey hvalue) hrest
  | case4 =>
    cases h
    exact within.close foreign
  | case5 => cases h

/-- Entries of the outermost mapping are read up to the foreign tokens, and then from there. -/
theorem Stays.rootEntries {node : Reader} (stays : Stays level ts node) (fuel : Nat)
    {us : List Token} (within : Within level ts 1 us) {entries : List (Named × Named)}
    {rest : List Token} (h : Node.blockEntries node fuel us = some (entries, rest)) :
    ∃ fuel' before after, entries = before ++ after ∧
      Node.blockEntries node fuel' ts = some (after, rest) := by
  fun_induction Node.blockEntries node fuel us generalizing entries with
  | case1 => cases h
  | case2 => cases h
  | case3 fuel us key after hkey value after' hvalue ih =>
    rcases within.part rfl rfl with ⟨rfl, -⟩ | before
    · refine ⟨fuel + 1, [], entries, rfl, ?_⟩
      simpa only [Node.blockEntries, hkey, hvalue] using h
    · obtain ⟨⟨entries, rest⟩, hrest, heq⟩ := Option.map_eq_some_iff.mp h
      cases heq
      obtain ⟨fuel', before, after, rfl, hafter⟩ :=
        ih (stays.entry foreign before hkey hvalue) hrest
      exact ⟨fuel', (key, value) :: before, after, rfl, hafter⟩
  | case4 fuel us =>
    obtain ⟨before, hus, nested, complete⟩ := within
    cases before with
    | nil =>
      obtain ⟨t, vs, rfl, -, -, hend, -⟩ := foreign.begins
      exact absurd (List.cons.inj hus).1.symm hend
    | cons u before =>
      obtain ⟨rfl, rfl⟩ := List.cons.inj hus
      cases nested with
      | opens hopen => cases hopen
      | part hpart => cases hpart
  | case5 => cases h

omit foreign in
/-- A tag stands for a node itself, or before one that ends where it would end without the tag. -/
theorem read_tag {h : Handles} {fuel : Nat} {block indentless : Bool} {handle : List Char}
    {suffix : TagText} {t : Token} {us rest : List Token} {x : Named}
    (ht : ∀ name, t ≠ .anchor name)
    (hread : read h (fuel + 1) block indentless (.tag handle suffix :: t :: us) = some (x, rest)) :
    rest = t :: us ∨
      (∀ handle suffix, t ≠ .tag handle suffix) ∧
        ∃ y, read h (fuel + 1) block indentless (t :: us) = some (y, rest) := by
  cases hexpand : h.expand? handle suffix with
  | none => cases t <;> simp [Node.read, properties?, hexpand] at hread ht
  | some tag =>
    cases t <;> cases block <;> cases indentless <;>
      simp [Node.read, properties?, hexpand] at hread ht ⊢ <;> grind

/-- A node without a tag ends within the collection it stands in if the nodes inside do. -/
theorem Stays.untagged {h : Handles} {fuel : Nat} (stays : Stays level ts (read h fuel)) {n : Nat}
    {block indentless : Bool} {us rest : List Token} {x : Named} (before : Before level ts (n + 1) us)
    (hbare : ∀ handle suffix vs, us ≠ .tag handle suffix :: vs)
    (hread : read h (fuel + 1) block indentless us = some (x, rest)) :
    Within level ts (n + 1) rest := by
  obtain ⟨t, before, rfl, nested, complete⟩ := before
  cases nested with
  | opens hopen nested =>
    cases t <;> cases hopen
    · simp [Node.read, properties?] at hread
      obtain ⟨-, items, hitems, -⟩ := hread
      exact stays.blockItems foreign fuel ⟨before, rfl, nested, complete.tail⟩ hitems
    · simp [Node.read, properties?] at hread
      obtain ⟨-, entries, hentries, -⟩ := hread
      exact stays.blockEntries foreign fuel ⟨before, rfl, nested, complete.tail⟩ hentries
  | closes nested => cases hread
  | part hpart nested =>
    cases t <;> cases hpart
    · simp [Node.read, properties?] at hread
      obtain ⟨-, items, hitems, -⟩ := hread
      exact stays.indentlessItems foreign fuel ⟨_ :: before, rfl, .part rfl nested, complete⟩ hitems
    · cases hread
    · cases hread
    · exact absurd rfl (hbare _ _ _)
    · simp [Node.read, properties?] at hread
      exact ⟨before, hread.2.symm, nested, complete.tail⟩
  | emptySequence nested =>
    simp [Node.read, properties?, flowItems] at hread
    exact ⟨_, hread.2.symm, nested, complete.tail.tail⟩
  | emptyMapping nested =>
    simp [Node.read, properties?, flowEntries] at hread
    exact ⟨_, hread.2.symm, nested, complete.tail.tail⟩

/-- A node ends within the collection it stands in. -/
theorem Stays.read (h : Handles) (fuel : Nat) : Stays level ts (read h fuel) := by
  induction fuel with
  | zero =>
    intro n block indentless us x rest before h
    cases h
  | succ fuel ih =>
    intro n block indentless us x rest before hread
    by_cases htag : ∃ handle suffix vs, us = .tag handle suffix :: vs
    · obtain ⟨handle, suffix, vs, rfl⟩ := htag
      obtain ⟨t, before, hus, nested, complete⟩ := before
      obtain ⟨rfl, rfl⟩ := List.cons.inj hus
      obtain ⟨t, before, rfl⟩ := List.exists_cons_of_ne_nil (complete.ne_nil rfl)
      have nested : Nested (n + 1) (t :: before) level := by
        cases nested with
        | opens hopen => cases hopen
        | part _ nested => exact nested
      have after : Before level ts (n + 1) (t :: before ++ ts) :=
        ⟨t, before, rfl, nested, complete.tail⟩
      have hanchor : ∀ name, t ≠ .anchor name := by
        rintro name rfl
        cases nested with
        | opens hopen => cases hopen
        | part hpart => cases hpart
      rcases read_tag hanchor hread with rfl | ⟨hbare, y, hread⟩
      · exact after.within
      · exact ih.untagged foreign after (by simpa using hbare) hread
    · exact ih.untagged foreign before (by simpa using htag) hread

/-- The entries of the one document of a text that begins with a block mapping. -/
theorem entries_of_document {us : List Token} (within : Within level ts 1 us) {node : Named}
    (h : ofTokens? (.blockMappingStart :: us) = some node) :
    ∃ depth fuel before after rest, node = .map none none (before ++ after) ∧
      Node.blockEntries (Node.read Handles.standard depth) fuel ts = some (after, rest) := by
  obtain ⟨rest, hread⟩ : ∃ rest, Node.read Handles.standard (us.length + 2) true false
      (.blockMappingStart :: us) = some (node, rest) := by
    simp only [ofTokens?, document?, isLimit] at h
    cases hread : Node.read Handles.standard (us.length + 2) true false (.blockMappingStart :: us) with
    | none => simp [hread] at h
    | some found =>
      simp [hread] at h
      exact ⟨found.2, by rw [← h.2]⟩
  simp [Node.read, properties?] at hread
  obtain ⟨entries, hentries, rfl⟩ := hread
  have stays : Stays level ts (Node.read Handles.standard (us.length + 1)) := .read foreign _ _
  obtain ⟨fuel, before, after, rfl, hafter⟩ := stays.rootEntries foreign _ within hentries
  exact ⟨_, fuel, before, after, rest, rfl, hafter⟩

end

end Node

end FrontToc.Yaml
