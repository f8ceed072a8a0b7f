import FrontToc.Host.Variation
import FrontToc.Proofs.ReplacedFile
import FrontToc.Proofs.WrittenDefaults

/-!
# Replacing a file is all or nothing

A text that is put at a path is there as a whole afterwards, under the permission bits that the file
had, or nothing has changed at all. This is so at whatever call the machine gives up, and no temporary
file is left.
-/
namespace FrontToc

open FileTree OnMachine

/-- Replaces a file on a machine that refuses calls. -/
def replaceTextUnder (refusals : Refusals) (p : Path) (text : List Char) : ExceptT Error OnMachine Unit :=
  @replaceText OnMachine _ (refusing refusals) p text

/-- On a machine that refuses nothing this is what it is on any. -/
theorem replaceTextUnder_none (p : Path) (text : List Char) :
    replaceTextUnder {} p text = replaceText p text :=
  rfl

namespace FileTree

variable {t : FileTree}

/-- The permission bits of a file that is put at a path: those of the file that is there, if there is
one. -/
def permissionsFor (t : FileTree) (p : Path) : Nat :=
  (t.permissions? p).getD temporaryPermissions

/-- A path at which a file can be put: it names a place where no directory stands. -/
def TakesFile (t : FileTree) (p : Path) (loc : Location) : Prop :=
  t.target p = .ok (.name loc false) ∧ t.get? loc ≠ some .directory

/-- A path that leads to a directory beside a new file led there without it. -/
theorem follow_of_insert_file {loc dir : Location} (below : loc ≠ []) {g : File} {here : Location}
    {ps : List (List Char)}
    (found : (t.insert loc (.file g)).follow here ps = .ok dir)
    (directory : (t.insert loc (.file g)).kindAt? dir = some .directory) :
    t.follow here ps = .ok dir ∧ t.kindAt? here = some .directory := by
  have kept {l : Location} (here : (t.insert loc (.file g)).kindAt? l = some .directory) :
      t.kindAt? l = some .directory := by
    rw [kindAt?_eq_directory, get?_insert _ _ below] at here
    split at here
    · cases here
    · rwa [kindAt?_eq_directory]
  induction ps generalizing here with
  | nil =>
    cases found
    exact ⟨rfl, kept directory⟩
  | cons piece rest ih =>
    obtain ⟨start, next, leads, found⟩ := follow_cons_eq_ok.mp found
    obtain ⟨led, next_directory⟩ := ih found
    refine ⟨follow_cons_eq_ok.mpr ⟨kept start, next, ?_, led⟩, kept start⟩
    cases leads with
    | idle idle => exact .idle idle
    | up up => exact .up up
    | down named not_up short => exact .down named not_up short (by rw [next_directory]; rfl)

theorem Names.of_insert_file {loc : Location} (below : loc ≠ []) {g : File} {p : Path}
    {dir : Location} {name : List Char} (names : (t.insert loc (.file g)).Names p dir name) :
    t.Names p dir name where
  no_fault := names.no_fault
  front := by
    obtain ⟨front, split_last, first⟩ := names.front
    exact ⟨front, split_last, (follow_of_insert_file below first names.directory).1⟩
  directory := by
    obtain ⟨front, -, first⟩ := names.front
    have stays : (t.insert loc (.file g)).follow dir [] = .ok dir := rfl
    exact (follow_of_insert_file below stays names.directory).2
  named := names.named
  not_up := names.not_up
  short := names.short

/-- A temporary file can be moved to a path exactly if the path takes a file. -/
theorem Names.rename_new_iff {temporary : Path} {dir : Location} {name : List Char}
    (names : t.Names temporary dir name) (free : t.kindAt? (dir ++ [name]) = none) (g : File) {p : Path}
    {after : FileTree} :
    (t.insert (dir ++ [name]) (.file g)).rename temporary p = .ok after ↔
      ∃ loc, t.TakesFile p loc ∧ after = t.insert loc (.file g) := by
  have gone : (t.insert (dir ++ [name]) (.file g)).erase (dir ++ [name]) = t :=
    erase_insert (by simp) (kindAt?_eq_none.mp free) _
  have directory_iff (loc : Location) :
      (t.insert (dir ++ [name]) (.file g)).get? loc = some .directory ↔ t.get? loc = some .directory := by
    rw [get?_insert _ _ (by simp)]
    split
    · next same => simp [same, kindAt?_eq_none.mp free]
    · rfl
  constructor
  · intro moved
    simp only [FileTree.rename, names.lookup?_new free, gone] at moved
    split at moved
    · cases moved
    · cases moved
    · cases moved
    · next place named =>
      obtain ⟨above, last, rfl, names⟩ := names_of_target named
      split at moved
      · cases moved
      · next other =>
        cases moved
        exact ⟨_, ⟨(names.of_insert_file (by simp)).target, mt (directory_iff _).mpr other⟩, rfl⟩
  · rintro ⟨loc, ⟨named, other⟩, rfl⟩
    obtain ⟨above, last, rfl, target_names⟩ := names_of_target named
    simp only [FileTree.rename, names.lookup?_new free, gone, (target_names.insert_free free g).target]
    split
    · next directory => exact absurd ((directory_iff _).mp directory) other
    · rfl

/-- Nothing is found by a path that names a free place. -/
theorem Names.lookup?_of_free {p : Path} {dir : Location} {name : List Char} (names : t.Names p dir name)
    (free : t.get? (dir ++ [name]) = none) : t.lookup? p = none := by
  by_contra there
  have there : (t.lookup? p).isSome := Option.isSome_iff_ne_none.mpr there
  rcases target_of_lookup there with found | ⟨loc, slash, found, taken⟩ <;> rw [names.target] at found
  · cases found
  · cases found
    rw [free] at taken
    cases taken

theorem TakesFile.names {p : Path} {loc : Location} (takes : t.TakesFile p loc) :
    ∃ dir name, loc = dir ++ [name] ∧ t.Names p dir name :=
  names_of_target takes.1

/-- The permission bits that a file is to have at a path are found while the temporary file is there. -/
theorem TakesFile.permissions {p : Path} {loc : Location} (takes : t.TakesFile p loc) {dir : Location}
    {name : List Char} (free : t.kindAt? (dir ++ [name]) = none) {g : File}
    (first : g.permissions = temporaryPermissions) :
    ((t.insert (dir ++ [name]) (.file g)).permissions? p).getD g.permissions = t.permissionsFor p := by
  obtain ⟨above, last, rfl, names⟩ := takes.names
  have still := names.insert_free free g
  have nothing (vacant : t.get? (above ++ [last]) = none) : t.permissionsFor p = temporaryPermissions := by
    rw [permissionsFor, permissions?, names.lookup?_of_free vacant]
    rfl
  have below : dir ++ [name] ≠ [] := by simp
  have place := get?_insert t (.file g) below (above ++ [last])
  split at place
  · next same =>
    -- the path is that of the temporary file itself
    rw [permissions?_of_file (still.locate_file place) place, nothing (same ▸ kindAt?_eq_none.mp free)]
    exact first
  · cases entry : t.get? (above ++ [last]) with
    | none =>
      rw [permissions?, still.lookup?_of_free (place.trans entry), nothing entry]
      exact first
    | some e =>
      cases e with
      | file f =>
        have place := place.trans entry
        rw [permissions?_of_file (still.locate_file place) place, permissionsFor,
          permissions?_of_file (names.locate_file entry) entry]
        rfl
      | directory => exact absurd entry takes.2

/-- A tree after a text was put at a path: the file that is there has the text and the permission bits
that it had, and all else is as it was. -/
structure IsReplacement (t : FileTree) (p : Path) (text : List Char) (loc : Location) (after : FileTree) :
    Prop where
  takes : t.TakesFile p loc
  file : after.get? loc = some (.file ⟨textBytes text, t.permissionsFor p⟩)
  read : after.read p = .ok (textBytes text)
  permissions : after.permissions? p = some (t.permissionsFor p)
  elsewhere : ∀ l ≠ loc, after.get? l = t.get? l
  workingDirectory : after.workingDirectory = t.workingDirectory

theorem isReplacement_insert {p : Path} {loc : Location} (takes : t.TakesFile p loc) (text : List Char) :
    t.IsReplacement p text loc (t.insert loc (.file ⟨textBytes text, t.permissionsFor p⟩)) := by
  obtain ⟨dir, name, rfl, names⟩ := takes.names
  have place := get?_insert_name (t := t) dir name (.file ⟨textBytes text, t.permissionsFor p⟩)
  have not_directory : t.kindAt? (dir ++ [name]) ≠ some .directory :=
    mt kindAt?_eq_directory.mp takes.2
  have found := ((extends_insert_file (by simp) not_directory _).names names).locate_file place
  exact {
    takes := takes
    file := place
    read := by rw [FileTree.read, found]; simp only [place]
    permissions := permissions?_of_file found place
    elsewhere := fun l other => by rw [get?_insert _ _ (by simp), if_neg other]
    workingDirectory := rfl }

end FileTree

section

variable {machine : Machine} {temporary : Path} {dir : Location} {name : List Char}

theorem runOn_orRefused {α : Type} (p : Path) (call : OnMachine (Except FileFault α))
    (refusal : Option FileFault) (machine : Machine) :
    runOn (Host.onPath p (orRefused call refusal)) machine =
      match refusal with
      | none => runOn (Host.onPath p call) machine
      | some fault => (.error (.file p fault), machine) := by
  cases refusal <;> rfl

variable (refusals : Refusals) (names : machine.tree.Names temporary dir name)
    (free : machine.tree.kindAt? (dir ++ [name]) = none)

include names free

/-- A new file gets the bytes that it should, or it is told that it got others. -/
theorem runOn_write_refusing (bytes : ByteArray) (g : File) :
    let held := fun g => machine.tree.insert (dir ++ [name]) (.file g)
    runOn (Host.onPath temporary ((refusing refusals).write temporary bytes)) { machine with tree := held g } =
      match refusals.write with
      | none => (.ok (), { machine with tree := held { g with bytes } })
      | some (fault, part) =>
        (.error (.file temporary fault), { machine with tree := held { g with bytes := part } }) := by
  intro held
  have wrote (bytes : ByteArray) : (held g).write temporary bytes = .ok (held { g with bytes }) :=
    names.write_new free g bytes
  have written (bytes : ByteArray) :
      (Host.write temporary bytes : OnMachine (Except FileFault Unit)) { machine with tree := held g } =
        (.ok (), { machine with tree := held { g with bytes } }) := by
    show OnMachine.change _ _ = _
    rw [OnMachine.change, wrote]
  have call : (refusing refusals).write temporary bytes =
      writeOrRefused temporary bytes refusals.write := rfl
  rw [call, runOn_onPath]
  cases refusals.write with
  | none =>
    rw [writeOrRefused, written]
    rfl
  | some partly =>
    obtain ⟨fault, part⟩ := partly
    have begun : writeOrRefused temporary bytes (some (fault, part)) { machine with tree := held g } =
        (.error fault, ((Host.write temporary part : OnMachine (Except FileFault Unit))
          { machine with tree := held g }).2) := rfl
    rw [begun, written]
    rfl

/-- A new file gets the bits that it should, or it is told that it keeps its own. -/
theorem runOn_setPermissions_refusing (bits : Nat) (g : File) :
    let held := fun g => machine.tree.insert (dir ++ [name]) (.file g)
    runOn (Host.onPath temporary ((refusing refusals).setPermissions temporary bits))
        { machine with tree := held g } =
      match refusals.permissions with
      | none => (.ok (), { machine with tree := held { g with permissions := bits } })
      | some fault => (.error (.file temporary fault), { machine with tree := held g }) := by
  intro held
  have gave : (held g).setPermissions temporary bits = .ok (held { g with permissions := bits }) :=
    names.setPermissions_new free g bits
  have call : (refusing refusals).setPermissions temporary bits =
      orRefused (Host.setPermissions temporary bits) refusals.permissions := rfl
  rw [call, runOn_orRefused, runOn_setPermissions, gave]

/-- A new file is moved to a path that takes a file, or it stays. -/
theorem runOn_rename_refusing (p : Path) (g : File) :
    let held := machine.tree.insert (dir ++ [name]) (.file g)
    (∃ loc, machine.tree.TakesFile p loc ∧
      runOn (Host.onPath p ((refusing refusals).rename temporary p)) { machine with tree := held } =
        (.ok (), { machine with tree := machine.tree.insert loc (.file g) })) ∨
    ∃ fault, runOn (Host.onPath p ((refusing refusals).rename temporary p)) { machine with tree := held } =
      (.error (.file p fault), { machine with tree := held }) := by
  intro held
  have call : (refusing refusals).rename temporary p =
      orRefused (Host.rename temporary p) refusals.rename := rfl
  rw [call, runOn_orRefused]
  cases refusals.rename with
  | some fault => exact .inr ⟨fault, rfl⟩
  | none =>
    simp only [runOn_rename]
    cases moved : held.rename temporary p with
    | error fault => exact .inr ⟨fault, rfl⟩
    | ok after =>
      obtain ⟨loc, takes, rfl⟩ := (names.rename_new_iff free g).mp moved
      exact .inl ⟨loc, takes, rfl⟩

/-- Whatever is refused, a temporary file that is filled and moved ends where it should, or it is still
there with some bytes and bits. -/
theorem runOn_moveInto_refusing (p : Path) (text : List Char) {g : File}
    (first : g.permissions = temporaryPermissions) :
    let held := fun g => machine.tree.insert (dir ++ [name]) (.file g)
    (∃ loc, machine.tree.TakesFile p loc ∧
      runOn (@moveInto OnMachine _ (refusing refusals) p temporary text) { machine with tree := held g } =
        (.ok (), { machine with
          tree := machine.tree.insert loc (.file ⟨textBytes text, machine.tree.permissionsFor p⟩) })) ∨
    ∃ q fault g',
      runOn (@moveInto OnMachine _ (refusing refusals) p temporary text) { machine with tree := held g } =
        (.error (.file q fault), { machine with tree := held g' }) := by
  intro held
  let filled : File := { g with bytes := textBytes text }
  have known (loc : Location) (takes : machine.tree.TakesFile p loc) :=
    takes.permissions free (g := filled) first
  simp only [moveInto, runOn_bind]
  rw [runOn_write_refusing refusals names free]
  cases refusals.write with
  | some partly => exact .inr ⟨temporary, partly.1, _, rfl⟩
  | none =>
    simp only [runOn_lift]
    have asked : ((refusing refusals).permissions? p { machine with tree := held filled }) =
        ((held filled).permissions? p, { machine with tree := held filled }) := rfl
    rw [asked]
    have moved (h : File) := runOn_rename_refusing refusals names free p h
    cases bits? : (held filled).permissions? p with
    | none =>
      rcases moved filled with ⟨loc, takes, run⟩ | ⟨fault, run⟩
      · refine .inl ⟨loc, takes, run.trans ?_⟩
        have bits : filled.permissions = machine.tree.permissionsFor p := by
          rw [← known loc takes, show FileTree.permissions? _ p = none from bits?, Option.getD_none]
        rw [← bits]
      · exact .inr ⟨p, fault, filled, run⟩
    | some bits =>
      simp only [runOn_bind]
      rw [runOn_setPermissions_refusing refusals names free]
      cases refusals.permissions with
      | some fault => exact .inr ⟨temporary, fault, filled, rfl⟩
      | none =>
        rcases moved { filled with permissions := bits } with ⟨loc, takes, run⟩ | ⟨fault, run⟩
        · refine .inl ⟨loc, takes, run.trans ?_⟩
          have bits : bits = machine.tree.permissionsFor p := by
            rw [← known loc takes, show FileTree.permissions? _ p = some bits from bits?, Option.getD_some]
          rw [← bits]
        · exact .inr ⟨p, fault, _, run⟩

end

/-- Whatever is refused, a text gets to its path or the machine is as it was. -/
theorem runOn_replaceTextUnder (refusals : Refusals) (machine : Machine) (p : Path) (text : List Char) :
    (∃ loc after, machine.tree.IsReplacement p text loc after ∧
      runOn (replaceTextUnder refusals p text) machine = (.ok (), { machine with tree := after })) ∨
    ∃ q fault, runOn (replaceTextUnder refusals p text) machine = (.error (.file q fault), machine) := by
  have call : (refusing refusals).createTemporary p.directory =
      orRefused (Host.createTemporary p.directory) refusals.temporary := rfl
  simp only [replaceTextUnder, replaceText, runOn_bind, call, runOn_orRefused]
  cases refusals.temporary with
  | some fault => exact .inr ⟨p.directory, fault, rfl⟩
  | none =>
    simp only [runOn_createTemporary]
    cases made : machine.tree.createTemporary p.directory with
    | error fault => exact .inr ⟨p.directory, fault, rfl⟩
    | ok result =>
      obtain ⟨temporary, there⟩ := result
      obtain ⟨dir, name, names, free, rfl⟩ := createTemporary_eq_ok made
      simp only [runOn_tryCatch]
      rcases runOn_moveInto_refusing refusals names free p text (g := ⟨.empty, temporaryPermissions⟩) rfl with
        ⟨loc, takes, run⟩ | ⟨q, fault, g, run⟩
      · exact .inl ⟨loc, _, isReplacement_insert takes text, by rw [run]⟩
      · refine .inr ⟨q, fault, ?_⟩
        rw [run]
        -- the temporary file is removed, with whatever it holds by then
        have removed := names.remove_new free g
        have handled : runOn (do
              (Host.remove temporary : OnMachine Unit)
              throw (.file q fault) : ExceptT Error OnMachine Unit)
            { machine with tree := machine.tree.insert (dir ++ [name]) (.file g) } =
              (.error (.file q fault), machine) := by
          simp only [runOn_bind, runOn_remove]
          rw [removed]
          rfl
        exact handled

/-- A text gets to its path exactly if a temporary file can be made and the path takes a file. -/
theorem runOn_replaceText_eq_ok (machine : Machine) (p : Path) (text : List Char) :
    (runOn (replaceText p text) machine).1 = .ok () ↔
      (∃ made, machine.tree.createTemporary p.directory = .ok made) ∧
        ∃ loc, machine.tree.TakesFile p loc := by
  cases made : machine.tree.createTemporary p.directory with
  | error fault =>
    rw [replaceText, runOn_bind, runOn_createTemporary, made]
    simp
  | ok result =>
    obtain ⟨temporary, there⟩ := result
    obtain ⟨dir, name, names, free, rfl⟩ := createTemporary_eq_ok made
    rw [runOn_replaceText_of_names names free made]
    simp only [Except.ok.injEq, exists_eq', true_and]
    split
    · next moved =>
      obtain ⟨loc, takes, -⟩ := (names.rename_new_iff free _).mp moved
      exact iff_of_true rfl ⟨loc, takes⟩
    · next stuck =>
      refine iff_of_false (by simp) ?_
      rintro ⟨loc, takes⟩
      rw [(names.rename_new_iff free _).mpr ⟨loc, takes, rfl⟩] at stuck
      cases stuck

/-- A text put at a path, on a machine that may refuse any of the calls. Either it is there as a whole,
with the permission bits that the file had, and nothing else has changed; or it is told at which path a
call failed, and the machine is as it was. In neither case is a temporary file left, since every other
place is as it was. The text gets there exactly if there is a directory for the temporary file and the
path takes a file. -/
theorem replaceText_is_all_or_nothing (machine : Machine) (p : Path) (text : List Char) :
    (∀ refusals,
      (∃ loc after, machine.tree.IsReplacement p text loc after ∧
        runOn (replaceTextUnder refusals p text) machine = (.ok (), { machine with tree := after })) ∨
      ∃ q fault, runOn (replaceTextUnder refusals p text) machine = (.error (.file q fault), machine)) ∧
    replaceTextUnder {} p text = replaceText p text ∧
    ((runOn (replaceText p text) machine).1 = .ok () ↔
      (∃ made, machine.tree.createTemporary p.directory = .ok made) ∧
        ∃ loc, machine.tree.TakesFile p loc) :=
  ⟨fun refusals => runOn_replaceTextUnder refusals machine p text, replaceTextUnder_none p text,
    runOn_replaceText_eq_ok machine p text⟩

end FrontToc
