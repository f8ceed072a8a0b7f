import FrontToc.Host.Variation
import FrontToc.Proofs.PathOrder
import FrontToc.Proofs.WalkedRoots
import Mathlib.Data.List.Induction

/-!
# A walk finds the matching files

Below its root a walk finds every file whose name ends in a dot and the extension, and nothing else, in
the order of the names on the way down. In what order the machine lists them makes no difference. Only a
root with an empty piece after dots, which leads to its directory all the same, is taken for an empty
one.
-/
namespace FrontToc

open Text

namespace FileTree

variable {t : FileTree}

/-- Where something is there is something at every place above it. -/
theorem IsTree.isSome_of_append (tree : t.IsTree) {loc : Location} (way : Location)
    (there : (t.get? (loc ++ way)).isSome) : (t.get? loc).isSome := by
  induction way using List.reverseRecOn with
  | nil => simpa using there
  | append_singleton way name ih =>
    rw [← List.append_assoc] at there
    exact ih (by rw [tree _ _ there]; rfl)

theorem Proper.isName (proper : t.Proper) {dir way : Location} (there : (t.get? (dir ++ way)).isSome)
    {name : List Char} (member : name ∈ way) : IsName name :=
  proper.names _ there name (List.mem_append_right _ member)

/-- Names lead down from a directory to what lies below. -/
theorem Proper.follow_names (proper : t.Proper) {dir : Location} (way : Location)
    (there : (t.get? (dir ++ way)).isSome) : t.follow dir way = .ok (dir ++ way) := by
  induction way generalizing dir with
  | nil => rw [List.append_nil, follow]
  | cons name way ih =>
    have split_first : dir ++ name :: way = (dir ++ [name]) ++ way := by simp
    have next := proper.tree.isSome_of_append way (split_first ▸ there)
    have is_name := proper.isName there List.mem_cons_self
    have short := (proper.short _ next name (by simp)).2
    refine follow_cons_eq_ok.mpr ⟨kindAt?_eq_directory.mpr (proper.tree dir name next), dir ++ [name],
      .down is_name.named is_name.not_up short (by rwa [isSome_kindAt?]), ?_⟩
    rw [split_first] at there ⊢
    exact ih there

/-- No path that goes down from a root is too long. -/
def InReach (t : FileTree) (root : Path) : Prop :=
  ∀ way ∈ t.below (Walk.base root), byteLength (Walk.descend (Walk.base root) way) ≤ maxPathLength

instance (t : FileTree) (root : Path) : Decidable (t.InReach root) :=
  inferInstanceAs (Decidable (∀ way ∈ _, _))

/-- The way down from a directory to a file whose name ends in a dot and the extension. -/
def Matches (t : FileTree) (dir : Location) (extension : List Char) (way : Location) : Prop :=
  (∃ f, t.get? (dir ++ way) = some (.file f)) ∧ ∃ name, way.getLast? = some name ∧ '.' :: extension <:+ name

/-- The ways down that a walk is to find: all that match, name by name in order, so none twice. The path
that the walk makes of one leads to the file. -/
structure Selects (t : FileTree) (root : Path) (dir : Location) (extension : List Char) (ways : List Location) :
    Prop where
  matching : ∀ way, way ∈ ways ↔ t.Matches dir extension way
  sorted : ways.Pairwise (· < ·)
  leads : ∀ way ∈ ways, t.locate (Walk.descend (Walk.base root) way) = .ok (dir ++ way)

/-- The path that a walk makes leads to where its names lead. -/
theorem Proper.locate_descend (proper : t.Proper) {root : Path} {dir : Location}
    (found : t.locate (Walk.base root) = .ok dir) (directory : t.get? dir = some .directory)
    (reach : t.InReach root) {way : Location} (there : (t.get? (dir ++ way)).isSome) :
    t.locate (Walk.descend (Walk.base root) way) = .ok (dir ++ way) := by
  have is_name {name : List Char} (member : name ∈ way) : IsName name := proper.isName there member
  have no_fault (front : Location) (within : front <+: way) (some_name : front ≠ []) :
      pathFault? (Walk.descend (Walk.base root) front) = none := by
    obtain ⟨rest, rfl⟩ := within
    rw [← List.append_assoc] at there
    have there := proper.tree.isSome_of_append rest there
    have null_free := (pathFault?_eq_none.mp (locate_eq_ok.mp found).1).1
    refine pathFault?_eq_none.mpr ⟨fun member => ?_, ?_, ?_⟩
    · rcases Walk.mem_descend member with member | slash | ⟨name, among, member⟩
      · exact null_free member
      · cases slash
      · exact (proper.short _ there name (List.mem_append_right _ among)).1 member
    · exact Walk.descend_ne_nil (ne_nil_of_locate found) fun name among => is_name (List.mem_append_left _ among)
    · exact reach front ((mem_below_iff found directory).mpr ⟨some_name, there⟩)
  have at_base : ({ tree := t } : Machine).tree.locate (Walk.base root) = .ok dir := found
  exact (Walk.follow?_of_follow at_base (fun name among => (is_name among).no_slash) no_fault
    (proper.follow_names way there)).2

end FileTree

/-- The paths of a source on a machine that lists what lies below a directory in an order of its own. -/
def FileSource.pathsListed (order : List Location → List Location) (source : FileSource) :
    ExceptT Error OnMachine (List Path) :=
  @FileSource.paths OnMachine _ (OnMachine.listing order) source

theorem FileSource.pathsListed_id (source : FileSource) : source.pathsListed id = source.paths :=
  rfl

namespace Walk

open OnMachine

section

variable (order : List Location → List Location)

theorem follow?_listing (here : Path) (pieces : List (List Char)) :
    @follow? OnMachine _ (listing order) here pieces = follow? here pieces := by
  induction pieces generalizing here with
  | nil => rfl
  | cons piece rest ih =>
    simp only [follow?, ih]
    rfl

theorem keepFiles_listing (paths : List Path) :
    @keepFiles OnMachine _ (listing order) paths = keepFiles paths := by
  induction paths with
  | nil => rfl
  | cons path rest ih =>
    simp only [keepFiles, ih]
    rfl

theorem followAll_nil_listing (paths : List Path) (machine : Machine) :
    @followAll OnMachine _ (listing order) [] paths machine = (paths, machine) := by
  induction paths with
  | nil => rfl
  | cons path rest ih =>
    have whole : @followAll OnMachine _ (listing order) [] (path :: rest) machine =
        (path :: (@followAll OnMachine _ (listing order) [] rest machine).1,
          (@followAll OnMachine _ (listing order) [] rest machine).2) := rfl
    rw [whole, ih]

/-- The ways down from a root that match, in the order in which they are listed. -/
def listedWays (t : FileTree) (root : Path) (extension : List Char) : List Location :=
  if Lost root then [] else (order (t.below (base root))).filter (endsWith ('.' :: extension))

theorem candidates_listing {root : Path} {extension : List Char} (no_slash : '/' ∉ extension)
    {machine : Machine} {dir : Location} (found : machine.tree.locate root = .ok dir) :
    @candidates OnMachine _ (listing order) root extension machine =
      ((listedWays order machine.tree root extension).map (descend (base root)), machine) := by
  have one_piece : splitOnChar '/' extension = [extension] := by
    rw [splitOnChar_eq_splitOn, List.splitOn_eq_singleton no_slash]
  simp only [candidates, follow?_listing]
  rw [(asksOnly_follow (start root).2 (start root).1).bind_eq, (follow?_root found).1, listedWays]
  split
  · rfl
  · rw [one_piece]
    exact followAll_nil_listing order _ machine

end

/-- A walk in another order differs in the paths that match, and in nothing else. -/
theorem files_listing (order : List Location → List Location) (root : Path) (extension : List Char) :
    @files OnMachine _ (listing order) root extension = (do
      if ← (Host.isDirectory root : OnMachine Bool) then
        let matching ← (@candidates OnMachine _ (listing order) root extension : OnMachine (List Path))
        let found ← (keepFiles matching : OnMachine (List Path))
        (Host.tell (.filesFound found.length extension root) : OnMachine Unit)
        return found.mergeSort Path.le
      else throw (.file root .noSuchRoot)) := by
  simp only [files, keepFiles_listing]
  rfl

/-- A walk from no directory fails, in whatever order the machine lists. -/
theorem runOn_files_listing_of_not_directory (order : List Location → List Location) (root : Path)
    (extension : List Char) {machine : Machine}
    (elsewhere : ∀ dir, machine.tree.locate root = .ok dir → machine.tree.get? dir ≠ some .directory) :
    runOn (@files OnMachine _ (listing order) root extension) machine =
      (.error (.file root .noSuchRoot), machine) := by
  have asked : ((Host.isDirectory root : OnMachine Bool) machine).1 = false := by
    cases found : machine.tree.locate root with
    | ok dir =>
      rw [isDirectory_of_locate found, decide_eq_false]
      exact mt FileTree.kindAt?_eq_directory.mp (elsewhere dir found)
    | error fault => exact isDirectory_of_error found
  rw [files_listing, runOn_bind, (AsksOnly.isDirectory root).runOn_lift, asked]
  rfl

/-- The ways down to the files that a walk keeps, in the order in which the machine lists them. -/
def keptWays (order : List Location → List Location) (machine : Machine) (root : Path)
    (extension : List Char) : List Location :=
  (listedWays order machine.tree root extension).filter fun way =>
    ((Host.isFile (descend (base root) way) : OnMachine Bool) machine).1

/-- A walk from a directory keeps the files among the paths that match, and sorts them. -/
theorem runOn_files_listing (order : List Location → List Location) {root : Path}
    {extension : List Char} (no_slash : '/' ∉ extension) {machine : Machine} {dir : Location}
    (found : machine.tree.locate root = .ok dir) (directory : machine.tree.get? dir = some .directory) :
    let kept := keptWays order machine root extension
    runOn (@files OnMachine _ (listing order) root extension) machine =
      (.ok ((kept.map (descend (base root))).mergeSort Path.le),
        { machine with said := machine.said ++ [.event (.filesFound kept.length extension root)] }) := by
  intro kept
  have kept_eq : ((keepFiles ((listedWays order machine.tree root extension).map (descend (base root))) :
      OnMachine (List Path)) machine).1 = kept.map (descend (base root)) := by
    rw [keepFiles_eq, List.filter_map]
    rfl
  rw [files_listing, runOn_bind, (AsksOnly.isDirectory root).runOn_lift, isDirectory_of_locate found,
    decide_eq_true (FileTree.kindAt?_eq_directory.mpr directory)]
  dsimp only
  rw [if_pos rfl, runOn_bind, runOn_lift, candidates_listing order no_slash found]
  dsimp only
  rw [runOn_bind, (asksOnly_keepFiles _).runOn_lift, kept_eq, ← List.length_map (descend (base root))]
  rfl

theorem endsWith_iff {ending : List Char} {names : List (List Char)} :
    endsWith ending names = true ↔ ∃ name, names.getLast? = some name ∧ ending <:+ name := by
  rw [endsWith]
  cases names.getLast? <;> simp

theorem perm_keptWays {order : List Location → List Location} (perm : ∀ listed, (order listed).Perm listed)
    (machine : Machine) (root : Path) (extension : List Char) :
    (keptWays order machine root extension).Perm (keptWays id machine root extension) := by
  refine List.Perm.filter _ ?_
  rw [listedWays, listedWays]
  split
  · rfl
  · exact (perm _).filter _

theorem mem_below_of_keptWays {machine : Machine} {root : Path} {extension : List Char} {way : Location}
    (member : way ∈ keptWays id machine root extension) :
    ¬Lost root ∧ way ∈ machine.tree.below (base root) ∧ endsWith ('.' :: extension) way = true := by
  have listed := (List.mem_filter.mp member).1
  rw [listedWays] at listed
  split at listed
  · cases listed
  · next not_lost => exact ⟨not_lost, List.mem_filter.mp listed⟩

/-- What is kept are the files that match. -/
theorem mem_keptWays {machine : Machine} (proper : machine.tree.Proper) {root : Path} {dir : Location}
    (found : machine.tree.locate root = .ok dir) (directory : machine.tree.get? dir = some .directory)
    (not_lost : ¬Lost root) (reach : machine.tree.InReach root) {extension : List Char} {way : Location} :
    way ∈ keptWays id machine root extension ↔ machine.tree.Matches dir extension way := by
  have at_base := (follow?_root found).2 not_lost
  have is_file (there : (machine.tree.get? (dir ++ way)).isSome) :
      ((Host.isFile (descend (base root) way) : OnMachine Bool) machine).1 = true ↔
        ∃ f, machine.tree.get? (dir ++ way) = some (.file f) := by
    rw [isFile_of_locate (proper.locate_descend at_base directory reach there), decide_eq_true_iff,
      FileTree.kindAt?_eq_file]
  constructor
  · intro member
    obtain ⟨-, below, ends⟩ := mem_below_of_keptWays member
    obtain ⟨-, there⟩ := (FileTree.mem_below_iff at_base directory).mp below
    exact ⟨(is_file there).mp (List.mem_filter.mp member).2, endsWith_iff.mp ends⟩
  · rintro ⟨⟨f, file⟩, name, last, suffix⟩
    have there : (machine.tree.get? (dir ++ way)).isSome := by rw [file]; rfl
    have some_name : way ≠ [] := by
      rintro rfl
      cases last
    have below := (FileTree.mem_below_iff at_base directory).mpr ⟨some_name, there⟩
    refine List.mem_filter.mpr ⟨?_, (is_file there).mpr ⟨f, file⟩⟩
    rw [listedWays, if_neg not_lost]
    exact List.mem_filter.mpr ⟨below, endsWith_iff.mpr ⟨name, last, suffix⟩⟩

/-- What is kept can be put in the order of names, in one way for whatever order the machine lists in. -/
theorem exists_sorted_keptWays {machine : Machine} (proper : machine.tree.Proper) {root : Path}
    {dir : Location} (found : machine.tree.locate root = .ok dir)
    (directory : machine.tree.get? dir = some .directory) (extension : List Char) :
    ∃ ways : List Location, ways.Perm (keptWays id machine root extension) ∧ ways.Pairwise (· < ·) ∧
      ∀ order, (∀ listed, (order listed).Perm listed) →
        ((keptWays order machine root extension).map (descend (base root))).mergeSort Path.le =
          ways.map (descend (base root)) := by
  by_cases lost : Lost root
  · have none_kept (order : List Location → List Location) : keptWays order machine root extension = [] := by
      rw [keptWays, listedWays, if_pos lost, List.filter_nil]
    refine ⟨[], by rw [none_kept], .nil, fun order _ => ?_⟩
    rw [none_kept, List.map_nil, List.mergeSort_nil]
  · have at_base := (follow?_root found).2 lost
    have some_char := FileTree.ne_nil_of_locate at_base
    have once : (keptWays id machine root extension).Nodup := by
      rw [keptWays, listedWays, if_neg lost]
      exact ((FileTree.nodup_below _).filter _).filter _
    have named (way : Location) (member : way ∈ keptWays id machine root extension) :
        way ≠ [] ∧ ∀ name ∈ way, IsName name := by
      obtain ⟨-, below, -⟩ := mem_below_of_keptWays member
      obtain ⟨some_name, there⟩ := (FileTree.mem_below_iff at_base directory).mp below
      exact ⟨some_name, fun name => proper.isName there⟩
    obtain ⟨ways, perm, sorted, -⟩ := exists_sorted_ways some_char once named
    refine ⟨ways, perm, sorted, fun order permutes => ?_⟩
    have same := perm_keptWays permutes machine root extension
    obtain ⟨ways', perm', sorted', run⟩ := exists_sorted_ways some_char (same.nodup_iff.mpr once)
      fun way member => named way (same.mem_iff.mp member)
    rw [run, sorted_ways_unique ((perm'.trans same).trans perm.symm) sorted' sorted]

end Walk

open Walk in
/-- What a walk finds below a directory are the files whose names end in a dot and the extension, hidden
or not, each once, ordered name by name; no character of root or extension stands for another, a
directory of such a name is looked into, and the order in which the machine lists directories does not
matter. From what is no directory the walk fails. A root that has an empty piece after dots is the
exception: there nothing is found. -/
theorem walk_finds_matching_files {machine : Machine} (proper : machine.tree.Proper) (root : Path)
    {extension : List Char} (no_slash : '/' ∉ extension) :
    let source := FileSource.below root extension
    let bare := Config.bareExtension extension
    ((∀ dir, machine.tree.locate root = .ok dir → machine.tree.get? dir ≠ some .directory) →
      ∀ order, runOn (source.pathsListed order) machine = (.error (.file root .noSuchRoot), machine)) ∧
    (∀ dir, machine.tree.locate root = .ok dir → machine.tree.get? dir = some .directory →
      ∃ ways, (Lost root → ways = []) ∧
        (¬Lost root → machine.tree.InReach root → machine.tree.Selects root dir bare ways) ∧
        ∀ order, (∀ listed, (order listed).Perm listed) →
          runOn (source.pathsListed order) machine =
            (.ok (ways.map (descend (base root))),
              { machine with said := machine.said ++ [.event (.filesFound ways.length bare root)] })) ∧
    source.pathsListed id = source.paths := by
  intro source bare
  have bare_no_slash : '/' ∉ bare := fun member => no_slash ((List.dropWhile_suffix _).subset member)
  refine ⟨fun elsewhere order => runOn_files_listing_of_not_directory order root bare elsewhere,
    fun dir found directory => ?_, source.pathsListed_id⟩
  obtain ⟨ways, perm, sorted, run⟩ := exists_sorted_keptWays proper found directory bare
  refine ⟨ways, fun lost => ?_, fun not_lost reach => ?_, fun order permutes => ?_⟩
  · refine List.eq_nil_iff_forall_not_mem.mpr fun way member => ?_
    exact (mem_below_of_keptWays (perm.mem_iff.mp member)).1 lost
  · have matching (way : Location) : way ∈ ways ↔ machine.tree.Matches dir bare way :=
      perm.mem_iff.trans (mem_keptWays proper found directory not_lost reach)
    refine ⟨matching, sorted, fun way member => ?_⟩
    obtain ⟨⟨f, file⟩, -⟩ := (matching way).mp member
    exact proper.locate_descend ((follow?_root found).2 not_lost) directory reach (by rw [file]; rfl)
  · have same_length := ((perm_keptWays permutes machine root bare).trans perm.symm).length_eq
    show runOn (@files OnMachine _ (OnMachine.listing order) root bare) machine = _
    rw [runOn_files_listing order bare_no_slash found directory, run order permutes, same_length]

/-- Brackets in the root and a star in the extension, a name that is all extension in a hidden
directory, and a directory that is named like a file. A path with a slash comes before one with a dot.
-/
theorem walk_finds_files_below_brackets :
    let directories := [["r[1]".toList], ["r[1]".toList, ".h".toList], ["r[1]".toList, "a".toList],
      ["r[1]".toList, "c.m*".toList]]
    let files := [["r[1]".toList, ".h".toList, ".m*".toList], ["r[1]".toList, "a".toList, "b.m*".toList],
      ["r[1]".toList, "a.m*".toList], ["r[1]".toList, "c.m*".toList, "d.m*".toList],
      ["r[1]".toList, "e.md".toList]]
    let empty : FileTree := { entries := ∅, workingDirectory := [] }
    let tree := files.foldl (fun t loc => t.insert loc (.file { bytes := .empty, permissions := 0o644 }))
      (directories.foldl (fun t loc => t.insert loc .directory) empty)
    let machine : Machine := { tree }
    let source := FileSource.below "r[1]".toList ".m*".toList
    tree.Proper ∧ '/' ∉ ".m*".toList ∧
      (runOn source.paths machine).1 = .ok ["r[1]/.h/.m*".toList, "r[1]/a/b.m*".toList, "r[1]/a.m*".toList,
        "r[1]/c.m*/d.m*".toList] ∧
      ∃ ways, tree.Selects "r[1]".toList ["r[1]".toList] "m*".toList ways ∧
        (runOn source.paths machine).1 = .ok (ways.map (Walk.descend "r[1]".toList)) := by
  intro directories files empty tree machine source
  have proper : machine.tree.Proper := FileTree.proper_of_isProper (by decide +kernel)
  have no_slash : '/' ∉ ".m*".toList := by decide
  have found : tree.locate "r[1]".toList = .ok ["r[1]".toList] := by decide +kernel
  have directory : tree.get? ["r[1]".toList] = some .directory := by
    rw [← FileTree.kindAt?_eq_directory]
    decide +kernel
  have candidates : ((Walk.candidates "r[1]".toList "m*".toList : OnMachine (List Path)) machine).1 =
      ["r[1]/.h/.m*".toList, "r[1]/a/b.m*".toList, "r[1]/a.m*".toList, "r[1]/c.m*".toList,
        "r[1]/c.m*/d.m*".toList] := by decide +kernel
  have kept : ((Walk.keepFiles ["r[1]/.h/.m*".toList, "r[1]/a/b.m*".toList, "r[1]/a.m*".toList,
      "r[1]/c.m*".toList, "r[1]/c.m*/d.m*".toList] : OnMachine (List Path)) machine).1 =
      ["r[1]/.h/.m*".toList, "r[1]/a/b.m*".toList, "r[1]/a.m*".toList, "r[1]/c.m*/d.m*".toList] := by
    decide +kernel
  have asked : ((Host.isDirectory "r[1]".toList : OnMachine Bool) machine).1 = true := by decide +kernel
  have run : (runOn source.paths machine).1 = .ok ["r[1]/.h/.m*".toList, "r[1]/a/b.m*".toList,
      "r[1]/a.m*".toList, "r[1]/c.m*/d.m*".toList] := by
    show (runOn (FileSource.walk "r[1]".toList "m*".toList).paths machine).1 = _
    rw [runOn_paths_of_sorted _ asked candidates kept (by decide +kernel)]
  obtain ⟨-, finds, plain⟩ := walk_finds_matching_files proper "r[1]".toList no_slash
  obtain ⟨ways, -, selects, listed⟩ := finds _ found directory
  refine ⟨proper, no_slash, run, ways, selects (by decide) (by decide +kernel), ?_⟩
  rw [← plain, listed id fun _ => .refl _]
  rfl

/-- From a directory whose path is a dot and a slash nothing is found, though there is a file. -/
theorem walk_from_dot_and_slash_finds_nothing :
    let tree := FileTree.insert { entries := ∅, workingDirectory := [] } ["a.md".toList]
      (.file { bytes := .empty, permissions := 0o644 })
    let machine : Machine := { tree }
    tree.locate "./".toList = .ok [] ∧ tree.get? [] = some .directory ∧
      tree.Matches [] "md".toList ["a.md".toList] ∧
      (runOn (FileSource.below "./".toList "md".toList).paths machine).1 = .ok [] := by
  intro tree machine
  have candidates : ((Walk.candidates "./".toList "md".toList : OnMachine (List Path)) machine).1 = [] := by
    decide +kernel
  have asked : ((Host.isDirectory "./".toList : OnMachine Bool) machine).1 = true := by decide +kernel
  refine ⟨by decide +kernel, rfl, ⟨⟨_, rfl⟩, "a.md".toList, rfl, by decide⟩, ?_⟩
  show (runOn (Walk.files "./".toList "md".toList) machine).1 = _
  rw [runOn_files, candidates]
  dsimp only
  have none_kept : ((Walk.keepFiles [] : OnMachine (List Path)) machine).1 = [] := rfl
  rw [if_pos asked, none_kept, List.mergeSort_nil]

end FrontToc
