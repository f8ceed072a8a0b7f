import FrontToc.Batch.Walk
import FrontToc.Proofs.BatchRun
import FrontToc.Proofs.TemporaryFiles

/-!
# The files that a walk finds

The path that a walk gives a file is that of the root with the names on the way down to it, and the
further pieces of the extension. Without two dots among these no two of its paths lead to the same file.
-/
namespace FrontToc

open Text

/-- A name that something in a directory can have. -/
structure IsName (name : List Char) : Prop where
  no_slash : '/' ∉ name
  named : Path.isIdle name = false
  not_up : name ≠ ['.', '.']

theorem Path.slash_mem_join {p : Path} (some_char : p ≠ []) (name : List Char) : '/' ∈ p.join name := by
  rw [Path.join]
  split
  · next ends =>
    have last : p.getLast? = some '/' := by simpa [some_char] using ends
    exact List.mem_append_left _ (List.mem_of_getLast? last)
  · simp

/-- One piece more makes a path that is no mere dot. -/
theorem Walk.step_ne {here : Path} (some_char : here ≠ []) (name : List Char)
    (begins : here = ['.'] → Path.isIdle name = false) :
    Walk.step here name ≠ [] ∧ Walk.step here name ≠ ['.'] := by
  rw [Walk.step]
  split
  · next dot =>
    have named := begins dot
    constructor <;>
      · rintro rfl
        cases named
  · next other =>
    refine ⟨Path.join_ne_nil some_char name, fun dot => ?_⟩
    have slash := Path.slash_mem_join some_char name
    rw [dot] at slash
    simp at slash

namespace FileTree

/-- What lies in directories has names. -/
def HasNames (t : FileTree) : Prop :=
  ∀ loc, (t.get? loc).isSome → ∀ name ∈ loc, IsName name

/-- A tree as a machine can hold it: files and directories lie in directories, under names that they can
have. -/
structure Proper (t : FileTree) : Prop where
  tree : t.IsTree
  names : t.HasNames
  short : ∀ loc, (t.get? loc).isSome → ∀ name ∈ loc, '\x00' ∉ name ∧ byteLength name ≤ maxNameLength

/-- Two paths do not lead to the same place. -/
def Apart (t : FileTree) (p q : Path) : Prop :=
  ∀ loc, t.locate p = .ok loc → t.locate q ≠ .ok loc

theorem Apart.symm {t : FileTree} {p q : Path} (apart : t.Apart p q) : t.Apart q p :=
  fun loc found found' => apart loc found' found

variable {t : FileTree} {here : Path} {loc : Location}

theorem locate_eq_ok {p : Path} : t.locate p = .ok loc ↔
    pathFault? p = none ∧ t.follow (t.start p) p.pieces = .ok loc := by
  rw [locate]
  cases pathFault? p <;> simp

theorem start_of_name {name : List Char} (no_slash : '/' ∉ name) : t.start name = t.workingDirectory := by
  rw [start, if_neg]
  intro absolute
  exact no_slash (List.mem_of_head? (by simpa [Path.isAbsolute] using absolute))

theorem start_join (some_char : here ≠ []) (name : List Char) : t.start (here.join name) = t.start here := by
  rw [start, start, Path.isAbsolute_join some_char]

/-- One piece more leads on from where a path leads. -/
theorem locate_step {name : List Char} (some_char : here ≠ []) (no_slash : '/' ∉ name)
    (found : t.locate (Walk.step here name) = .ok loc) :
    ∃ dir, t.locate here = .ok dir ∧ t.follow dir [name] = .ok loc := by
  obtain ⟨no_fault, found⟩ := locate_eq_ok.mp found
  rw [Walk.step] at no_fault found
  split at found
  · next dot =>
    rw [Path.pieces_of_name no_slash, start_of_name no_slash] at found
    obtain ⟨directory, -⟩ := follow_cons_eq_ok.mp found
    refine ⟨t.workingDirectory, locate_eq_ok.mpr ⟨by rw [dot]; decide, ?_⟩, found⟩
    have idle : ∀ piece ∈ [['.']], Path.isIdle piece = true := by decide
    rw [dot]
    exact follow_idle_of_directory idle directory
  · next other =>
    rw [if_neg other] at no_fault
    obtain ⟨front, idle, joined, pieces, all_idle⟩ := Path.pieces_join some_char no_slash
    rw [joined, start_join some_char] at found
    obtain ⟨dir, first, last⟩ := follow_append.mp found
    obtain ⟨directory, -⟩ := follow_cons_eq_ok.mp last
    refine ⟨dir, locate_eq_ok.mpr ⟨?_, ?_⟩, last⟩
    · obtain ⟨null, -, short⟩ := pathFault?_eq_none.mp no_fault
      refine pathFault?_eq_none.mpr ⟨fun member => null ?_, some_char, ?_⟩
      · rw [Path.join]
        split <;> exact List.mem_append_left _ member
      · rw [Path.join] at short
        split at short <;>
          · rw [byteLength_append] at short
            omega
    · rw [pieces]
      exact follow_append_idle (List.forall_mem_nil _) idle all_idle directory (by simpa using first)

/-- Pieces lead on one by one from where a path leads, if they do not begin with an idle one where the
path is a mere dot. -/
theorem locate_descend {names : List (List Char)} (some_char : here ≠ [])
    (no_slash : ∀ name ∈ names, '/' ∉ name)
    (begins : here = ['.'] → ∀ name ∈ names.head?, Path.isIdle name = false)
    (found : t.locate (Walk.descend here names) = .ok loc) :
    ∃ dir, t.locate here = .ok dir ∧ t.follow dir names = .ok loc := by
  induction names generalizing here with
  | nil => exact ⟨loc, found, rfl⟩
  | cons name names ih =>
    have next := Walk.step_ne some_char name fun dot => begins dot name rfl
    obtain ⟨dir, found, rest⟩ := ih next.1 (fun n member => no_slash n (List.mem_cons_of_mem _ member))
      (fun dot => absurd dot next.2) found
    obtain ⟨above, found, first⟩ := locate_step some_char (no_slash name List.mem_cons_self) found
    exact ⟨above, found, follow_append.mpr ⟨dir, first, rest⟩⟩

/-- Without two dots among them pieces lead down, by all names among them. -/
theorem follow_eq_append {here : Location} {pieces : List (List Char)} (no_up : ['.', '.'] ∉ pieces)
    (found : t.follow here pieces = .ok loc) :
    loc = here ++ pieces.filter fun piece => !Path.isIdle piece := by
  induction pieces generalizing here with
  | nil =>
    cases found
    simp
  | cons piece rest ih =>
    rw [List.mem_cons, not_or] at no_up
    obtain ⟨-, next, leads, found⟩ := follow_cons_eq_ok.mp found
    have rest_eq := ih no_up.2 found
    cases leads with
    | idle idle => rw [rest_eq, List.filter_cons_of_neg (by simp [idle])]
    | up up => exact absurd up.symm no_up.1
    | down named =>
      rw [rest_eq, List.filter_cons_of_pos (by simp [named]), List.append_assoc, List.singleton_append]

/-- What lies below a directory is reached by names. -/
theorem mem_below {base : Path} {names : List (List Char)} (member : names ∈ t.below base) :
    names ≠ [] ∧ ∃ dir, t.locate base = .ok dir ∧ (t.get? (dir ++ names)).isSome := by
  rw [below] at member
  split at member
  · next dir there =>
    obtain ⟨member, some_name⟩ := List.mem_filter.mp member
    obtain ⟨⟨l, e⟩, entry, rest⟩ := List.mem_filterMap.mp member
    have whole : dir ++ names = l := List.isPrefixOf?_eq_some_iff_append_eq.mp rest
    have some_name : names ≠ [] := by simpa using some_name
    refine ⟨some_name, dir, ?_, ?_⟩
    · rw [lookup?] at there
      split at there
      · cases there
      · next place found =>
        obtain ⟨_, _, same⟩ := Option.map_eq_some_iff.mp there
        rw [found, (Prod.mk.inj same).1]
    · rw [whole, get?, if_neg (by simp [← whole, some_name]),
        Std.ExtTreeMap.mem_toList_iff_getElem?_eq_some.mp entry]
      rfl
  · cases member

/-- What lies below a directory: everything that is reached by names. -/
theorem mem_below_iff {base : Path} {dir : Location} (found : t.locate base = .ok dir)
    (directory : t.get? dir = some .directory) {way : Location} :
    way ∈ t.below base ↔ way ≠ [] ∧ (t.get? (dir ++ way)).isSome := by
  constructor
  · intro member
    obtain ⟨some_name, dir', found', there⟩ := mem_below member
    cases found.symm.trans found'
    exact ⟨some_name, there⟩
  · rintro ⟨some_name, there⟩
    obtain ⟨e, there⟩ := Option.isSome_iff_exists.mp there
    rw [get?, if_neg (by simp [some_name])] at there
    rw [below, lookup?_of_locate found directory]
    refine List.mem_filter.mpr ⟨List.mem_filterMap.mpr
      ⟨(dir ++ way, e), Std.ExtTreeMap.mem_toList_iff_getElem?_eq_some.mpr there, ?_⟩, by simp [some_name]⟩
    exact List.isPrefixOf?_eq_some_iff_append_eq.mpr rfl

theorem locate_slash (t : FileTree) : t.locate ['/'] = .ok [] :=
  have top : t.kindAt? [] = some .directory := rfl
  locate_eq_ok.mpr ⟨by decide, follow_idle_of_directory (by decide) top⟩

/-- Whether a tree is proper, place by place. -/
def isProper (t : FileTree) : Bool :=
  (t.below ['/']).all fun loc =>
    t.kindAt? loc.dropLast = some .directory &&
      loc.all fun name => '/' ∉ name && !Path.isIdle name && name ≠ ['.', '.'] &&
        '\x00' ∉ name && byteLength name ≤ maxNameLength

theorem proper_of_isProper (checked : t.isProper = true) : t.Proper := by
  have place {loc : Location} (there : (t.get? loc).isSome) (below : loc ≠ []) :
      t.kindAt? loc.dropLast = some .directory ∧ ∀ name ∈ loc, ('/' ∉ name ∧ Path.isIdle name = false ∧
        name ≠ ['.', '.']) ∧ '\x00' ∉ name ∧ byteLength name ≤ maxNameLength := by
    have member : loc ∈ t.below ['/'] := (mem_below_iff t.locate_slash rfl).mpr ⟨below, there⟩
    simpa [and_assoc] using List.all_eq_true.mp checked loc member
  have name_of {loc : Location} (there : (t.get? loc).isSome) {name : List Char} (member : name ∈ loc) :=
    (place there (List.ne_nil_of_mem member)).2 name member
  exact {
    tree := fun loc name there => by simpa [kindAt?_eq_directory] using (place there (by simp)).1
    names := fun loc there name member => by
      obtain ⟨⟨no_slash, named, not_up⟩, -⟩ := name_of there member
      exact ⟨no_slash, named, not_up⟩
    short := fun loc there name member => (name_of there member).2 }

theorem nodup_below (base : Path) : (t.below base).Nodup := by
  rw [below]
  split
  · next dir there =>
    refine List.Nodup.filter _ ?_
    have keys : t.entries.toList.filterMap (fun entry => dir.isPrefixOf? entry.1) =
        t.entries.keys.filterMap dir.isPrefixOf? := by
      rw [← Std.ExtTreeMap.map_fst_toList_eq_keys, List.filterMap_map]
      rfl
    show (t.entries.toList.filterMap fun entry => dir.isPrefixOf? entry.1).Nodup
    rw [keys]
    refine List.Nodup.filterMap (fun l l' rest found found' => ?_) Std.ExtTreeMap.nodup_keys
    rw [← List.isPrefixOf?_eq_some_iff_append_eq.mp found,
      List.isPrefixOf?_eq_some_iff_append_eq.mp found']
  · exact List.nodup_nil

/-- Paths that go down from the same place by other names do not lead to the same place. -/
theorem apart_of_below (names : t.HasNames) {base : Path} {more : List (List Char)}
    (no_slash : ∀ piece ∈ more, '/' ∉ piece) (no_up : ['.', '.'] ∉ more) {way way' : List (List Char)}
    (member : way ∈ t.below base) (member' : way' ∈ t.below base) (other : way ≠ way') :
    t.Apart (Walk.descend base (way ++ more)) (Walk.descend base (way' ++ more)) := by
  have reached {way : List (List Char)} (member : way ∈ t.below base) {loc : Location}
      (found : t.locate (Walk.descend base (way ++ more)) = .ok loc) :
      ∃ dir, t.locate base = .ok dir ∧
        loc = dir ++ (way ++ more.filter fun piece => !Path.isIdle piece) := by
    obtain ⟨some_name, dir, at_base, there⟩ := mem_below member
    have proper (name : List Char) (within : name ∈ way) : IsName name :=
      names _ there name (List.mem_append_right _ within)
    have some_char : base ≠ [] := (pathFault?_eq_none.mp (locate_eq_ok.mp at_base).1).2.1
    have all_no_slash (name : List Char) (within : name ∈ way ++ more) : '/' ∉ name :=
      (List.mem_append.mp within).elim (fun within => (proper name within).no_slash) (no_slash name)
    have begins (name : List Char) (first : name ∈ (way ++ more).head?) : Path.isIdle name = false := by
      rw [List.head?_append_of_ne_nil _ some_name] at first
      exact (proper name (List.mem_of_head? first)).named
    obtain ⟨dir', at_base', found⟩ := locate_descend some_char all_no_slash (fun _ => begins) found
    cases at_base.symm.trans at_base'
    have none_up : ['.', '.'] ∉ way ++ more := by
      rw [List.mem_append, not_or]
      exact ⟨fun within => (proper _ within).not_up rfl, no_up⟩
    refine ⟨dir, at_base, ?_⟩
    rw [follow_eq_append none_up found, List.filter_append,
      List.filter_eq_self.mpr fun name within => by simp [(proper name within).named]]
  intro loc found found'
  obtain ⟨dir, at_base, place⟩ := reached member found
  obtain ⟨dir', at_base', place'⟩ := reached member' found'
  cases at_base.symm.trans at_base'
  exact other (List.append_cancel_right (List.append_cancel_left (place.symm.trans place')))

end FileTree

namespace Walk

theorem follow?_eq_some {pieces : List (List Char)} {here found : Path} {machine : Machine}
    (leads : ((follow? here pieces : OnMachine (Option Path)) machine).1 = some found) :
    found = descend here pieces := by
  induction pieces generalizing here with
  | nil => exact (Option.some.inj leads).symm
  | cons piece rest ih =>
    rw [follow?, (asksOnly_leadsOn here piece).bind_eq] at leads
    split at leads
    · exact ih leads
    · cases leads

theorem followAll_sublist (more : List (List Char)) (paths : List Path) (machine : Machine) :
    ∃ kept, List.Sublist kept paths ∧
      ((followAll more paths : OnMachine (List Path)) machine).1 = kept.map (descend · more) := by
  induction paths with
  | nil => exact ⟨[], .slnil, rfl⟩
  | cons path rest ih =>
    obtain ⟨kept, sublist, followed⟩ := ih
    rw [followAll, (asksOnly_follow more path).bind_eq, (asksOnly_followAll more rest).bind_eq, followed]
    cases asked : ((follow? path more : OnMachine (Option Path)) machine).1 with
    | none => exact ⟨kept, sublist.cons _, rfl⟩
    | some found =>
      cases follow?_eq_some asked
      exact ⟨path :: kept, sublist.cons_cons _, rfl⟩

theorem keepFiles_eq (paths : List Path) (machine : Machine) :
    ((keepFiles paths : OnMachine (List Path)) machine).1 =
      paths.filter fun path => ((Host.isFile path : OnMachine Bool) machine).1 := by
  induction paths with
  | nil => rfl
  | cons path rest ih =>
    rw [keepFiles, (OnMachine.AsksOnly.isFile path).bind_eq, (asksOnly_keepFiles rest).bind_eq, ih,
      List.filter_cons]
    rfl

/-- The paths of a walk go down from one place, by other names each. -/
theorem candidates_eq (root : Path) (extension : List Char) (machine : Machine) :
    ∃ base ways, List.Sublist ways (machine.tree.below base) ∧
      ((candidates root extension : OnMachine (List Path)) machine).1 =
        ways.map fun way => descend base (way ++ (splitOnChar '/' extension).tail) := by
  rw [candidates]
  dsimp only
  rw [(asksOnly_follow (start root).2 (start root).1).bind_eq]
  cases ((follow? (start root).1 (start root).2 : OnMachine (Option Path)) machine).1 with
  | none => exact ⟨[], [], List.nil_sublist _, rfl⟩
  | some base =>
    have asks : OnMachine.AsksOnly (Host.below base) := .ask _
    have names : ((Host.below base : OnMachine _) machine).1 = machine.tree.below base := rfl
    dsimp only
    rw [asks.bind_eq, names]
    cases splitOnChar '/' extension with
    | nil => exact ⟨base, [], List.nil_sublist _, rfl⟩
    | cons first more =>
      obtain ⟨paths, sublist, followed⟩ := followAll_sublist more
        (((machine.tree.below base).filter (endsWith ('.' :: first))).map (descend base)) machine
      obtain ⟨ways, within, rfl⟩ := List.sublist_map_iff.mp sublist
      refine ⟨base, ways, within.trans List.filter_sublist, followed.trans ?_⟩
      rw [List.map_map]
      exact List.map_congr_left fun way _ => (List.foldl_append ..).symm

/-- No two paths of a walk lead to the same place, if there are no two dots behind a slash in its
extension. -/
theorem files_apart {root : Path} {extension : List Char} {machine after : Machine} {paths : List Path}
    (names : machine.tree.HasNames) (no_up : ['.', '.'] ∉ (splitOnChar '/' extension).tail)
    (found : runOn (files root extension) machine = (.ok paths, after)) :
    paths.Pairwise machine.tree.Apart := by
  rw [runOn_files] at found
  dsimp only at found
  split at found
  · obtain ⟨base, ways, within, matching⟩ := candidates_eq root extension machine
    rw [matching] at found
    cases congrArg Prod.fst found
    refine ((List.mergeSort_perm _ _).pairwise_iff FileTree.Apart.symm).mpr
      (.sublist (keepFiles_eq _ machine ▸ List.filter_sublist) ?_)
    rw [List.pairwise_map]
    refine List.Pairwise.imp_of_mem (fun member member' other => ?_)
      ((FileTree.nodup_below base).sublist within)
    exact FileTree.apart_of_below names
      (fun piece among => not_mem_of_mem_splitOnChar (List.mem_of_mem_tail among)) no_up
      (within.subset member) (within.subset member') other
  · cases found

end Walk

end FrontToc
