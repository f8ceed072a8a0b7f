import FrontToc.Config.File
import FrontToc.Proofs.Locations
import FrontToc.Proofs.MachineRuns

/-!
# Where the defaults are written

Making directories adds directories and touches nothing that is there. After it one file is written, at
the place that the path then names. If the path named nothing before, then that place was free, unless the
path leads up again from a directory that had to be made.
-/
namespace FrontToc

open FileTree OnMachine Text

namespace FileTree

/-- A tree with the entries of another, and maybe with directories where there was nothing. -/
structure AddsDirectories (t t' : FileTree) : Prop where
  workingDirectory : t'.workingDirectory = t.workingDirectory
  get? : ∀ loc, t'.get? loc = t.get? loc ∨ t.get? loc = none ∧ t'.get? loc = some .directory

namespace AddsDirectories

variable {t t' : FileTree}

protected theorem refl (t : FileTree) : t.AddsDirectories t :=
  ⟨rfl, fun _ => .inl rfl⟩

protected theorem trans {t'' : FileTree} (first : t.AddsDirectories t') (second : t'.AddsDirectories t'') :
    t.AddsDirectories t'' where
  workingDirectory := second.workingDirectory.trans first.workingDirectory
  get? loc := by
    rcases first.get? loc with kept | ⟨free, made⟩ <;> rcases second.get? loc with kept' | ⟨free', made'⟩
    · exact .inl (kept'.trans kept)
    · exact .inr ⟨kept ▸ free', made'⟩
    · exact .inr ⟨free, kept'.trans made⟩
    · rw [made] at free'
      cases free'

theorem get?_of_some (adds : t.AddsDirectories t') {loc : Location} {e : Entry} (there : t.get? loc = some e) :
    t'.get? loc = some e := by
  rcases adds.get? loc with kept | ⟨free, -⟩
  · exact kept.trans there
  · rw [there] at free
    cases free

end AddsDirectories

/-- Of two trees, one in which a place is a directory: a path without two dots that leads there in the
other tree leads there in it. -/
theorem follow_of_directory {t t' : FileTree} (tree : t.IsTree) {here loc : Location} {pieces : List (List Char)}
    (no_up : ['.', '.'] ∉ pieces) (found : t'.follow here pieces = .ok loc)
    (directory : t.get? loc = some .directory) :
    t.follow here pieces = .ok loc ∧ t.get? here = some .directory := by
  induction pieces generalizing here with
  | nil =>
    cases found
    exact ⟨rfl, directory⟩
  | cons piece rest ih =>
    obtain ⟨-, next, leads, found⟩ := follow_cons_eq_ok.mp found
    obtain ⟨led, next_directory⟩ := ih (fun member => no_up (List.mem_cons_of_mem _ member)) found
    have there : t.get? here = some .directory ∧ t.Leads here piece next := by
      cases leads with
      | idle idle => exact ⟨next_directory, .idle idle⟩
      | up up => exact absurd (up ▸ List.mem_cons_self) no_up
      | down named not_up short =>
        refine ⟨tree _ _ (by rw [next_directory]; rfl), .down named not_up short ?_⟩
        rw [isSome_kindAt?, next_directory]
        rfl
    exact ⟨follow_cons_eq_ok.mpr ⟨kindAt?_eq_directory.mpr there.1, next, there.2, led⟩, there.1⟩

/-- The last piece of a path that is not empty, and those around it. -/
theorem pieces_of_last {ps above : List (List Char)} {last : List Char}
    (found : ps.reverse.dropWhile List.isEmpty = last :: above) :
    ∃ empties, ps = above.reverse ++ last :: empties ∧ (∀ piece ∈ empties, piece.isEmpty = true) ∧
      last.isEmpty = false := by
  refine ⟨(ps.reverse.takeWhile List.isEmpty).reverse, ?_, fun piece member => ?_, ?_⟩
  · have split := List.takeWhile_append_dropWhile (p := List.isEmpty) (l := ps.reverse)
    rw [found] at split
    calc
      ps = ps.reverse.reverse := (List.reverse_reverse ps).symm
      _ = (ps.reverse.takeWhile List.isEmpty ++ last :: above).reverse := by rw [split]
      _ = _ := by simp
  · exact List.all_eq_true.mp List.all_takeWhile piece (List.mem_reverse.mp member)
  · have := List.head?_dropWhile_not List.isEmpty ps.reverse
    rw [found] at this
    simpa using this

/-- What it takes for a path to name something new. -/
theorem target_eq_name {t : FileTree} {p : Path} {loc : Location} {slash : Bool}
    (found : t.target p = .ok (.name loc slash)) :
    ∃ front dir name empties, p.pieces = front ++ name :: empties ∧ loc = dir ++ [name] ∧
      (slash = false → empties = []) ∧ pathFault? p = none ∧ t.follow (t.start p) front = .ok dir ∧
      t.get? dir = some .directory ∧ Path.isIdle name = false ∧ name ≠ ['.', '.'] ∧
      byteLength name ≤ maxNameLength := by
  unfold target at found
  split at found
  · cases found
  · next no_fault =>
    dsimp only at found
    split at found
    · cases found
    · next last above split_last =>
      obtain ⟨empties, pieces, all_empty, some_char⟩ := pieces_of_last split_last
      split at found
      · cases found
      · next dir first =>
        split at found
        · next directory =>
          split at found
          · cases found
          · next named =>
            rw [not_or] at named
            split at found
            · cases found
            · next short =>
              cases found
              refine ⟨above.reverse, dir, last, empties, pieces, rfl, fun no_slash => ?_, no_fault, first,
                directory, ?_, named.2, Nat.not_lt.mp short⟩
              · rcases List.eq_nil_or_concat' empties with none_left | ⟨rest, piece, rfl⟩
                · exact none_left
                · have empty := all_empty piece (by simp)
                  rw [pieces] at no_slash
                  simp [empty] at no_slash
              · simp [Path.isIdle, some_char, named.1]
        · cases found

/-- A path that names a new file names it in a directory. -/
theorem names_of_target {t : FileTree} {p : Path} {loc : Location}
    (found : t.target p = .ok (.name loc false)) :
    ∃ dir name, loc = dir ++ [name] ∧ t.Names p dir name := by
  obtain ⟨front, dir, name, empties, pieces, same, no_slash, no_fault, first, directory, named, not_up,
    short⟩ := target_eq_name found
  obtain rfl := no_slash rfl
  exact ⟨dir, name, same, no_fault, ⟨front, pieces, first⟩, kindAt?_eq_directory.mpr directory, named,
    not_up, short⟩

theorem addsDirectories_createDirectory {t t' : FileTree} {p : Path} (made : t.createDirectory p = .ok t') :
    t.AddsDirectories t' := by
  unfold createDirectory at made
  split at made
  · cases made
  · cases made
  · next loc slash found =>
    split at made
    · cases made
    · next free =>
      cases made
      obtain ⟨_, dir, name, _, _, rfl, _⟩ := target_eq_name found
      refine ⟨rfl, fun l => ?_⟩
      rw [get?_insert t _ (by simp)]
      split
      · next same =>
        subst same
        exact .inr ⟨by simpa using free, rfl⟩
      · exact .inl rfl

/-- A path that leads somewhere names no free place. -/
theorem target_of_lookup {t : FileTree} {p : Path} (there : (t.lookup? p).isSome) :
    t.target p = .ok .onTheWay ∨
      ∃ loc slash, t.target p = .ok (.name loc slash) ∧ (t.get? loc).isSome := by
  obtain ⟨⟨loc, e⟩, found⟩ := Option.isSome_iff_exists.mp there
  rw [lookup?, locate] at found
  split at found
  · cases found
  · next located =>
    split at located
    · cases located
    · next no_fault =>
      rw [target, no_fault]
      dsimp only
      cases split_last : p.pieces.reverse.dropWhile List.isEmpty with
      | nil => exact .inl rfl
      | cons last above =>
        obtain ⟨empties, pieces, -, some_char⟩ := pieces_of_last split_last
        rw [pieces] at located
        obtain ⟨dir, first, second⟩ := follow_append.mp located
        obtain ⟨directory, next, leads, -⟩ := follow_cons_eq_ok.mp second
        dsimp only
        rw [first]
        dsimp only
        rw [kindAt?_eq_directory.mp directory]
        dsimp only
        split
        · exact .inl rfl
        · next other =>
          rw [not_or] at other
          cases leads with
          | idle idle => simp [Path.isIdle, some_char, other.1] at idle
          | up up => exact absurd up other.2
          | down _ _ short there =>
            rw [if_neg (Nat.not_lt.mpr short)]
            exact .inr ⟨_, _, rfl, by rwa [isSome_kindAt?] at there⟩

/-- Nothing is made at a path that leads somewhere. -/
theorem createDirectory_of_lookup {t : FileTree} {p : Path} (there : (t.lookup? p).isSome) :
    t.createDirectory p = .error .alreadyExists := by
  rcases target_of_lookup there with found | ⟨loc, slash, found, taken⟩
  · rw [createDirectory, found]
  · rw [createDirectory, found]
    exact if_pos taken

end FileTree

theorem asksOnly_unlessThere (p : Path) (made : Except FileFault Unit) :
    AsksOnly (createDirectoriesUpTo.unlessThere p made) := by
  unfold createDirectoriesUpTo.unlessThere
  cases made with
  | ok => exact .pure _
  | error fault =>
    refine (AsksOnly.isDirectory p).bind fun there => ?_
    cases there <;> exact .pure _

/-- A run that only adds directories to the files. -/
def OnMachine.OnlyAddsDirectories {α : Type} (x : OnMachine α) : Prop :=
  ∀ machine : Machine, machine.tree.AddsDirectories (x machine).2.tree

namespace OnMachine.OnlyAddsDirectories

variable {α β : Type}

theorem of_asksOnly {x : OnMachine α} (asks : AsksOnly x) : OnlyAddsDirectories x := by
  intro machine
  rw [asks machine]
  exact .refl _

protected theorem bind {x : OnMachine α} {f : α → OnMachine β} (first : OnlyAddsDirectories x)
    (second : ∀ a, OnlyAddsDirectories (f a)) : OnlyAddsDirectories (x >>= f) :=
  fun machine => (first machine).trans (second _ _)

theorem createDirectory (p : Path) : OnlyAddsDirectories (Host.createDirectory p) := by
  intro machine
  show machine.tree.AddsDirectories (OnMachine.change _ machine).2.tree
  rw [OnMachine.change]
  cases made : machine.tree.createDirectory p with
  | error fault => exact .refl _
  | ok tree => exact FileTree.addsDirectories_createDirectory made

theorem createDirectoriesUpTo (fuel : Nat) (p : Path) :
    OnlyAddsDirectories (FrontToc.createDirectoriesUpTo fuel p) := by
  induction fuel generalizing p with
  | zero => exact of_asksOnly (.pure _)
  | succ fuel ih =>
    rw [FrontToc.createDirectoriesUpTo]
    split
    · exact of_asksOnly (.pure _)
    · refine (createDirectory p).bind fun made => ?_
      split
      · exact of_asksOnly (.pure _)
      · exact of_asksOnly (.pure _)
      · refine (ih _).bind fun above => ?_
        cases above with
        | error fault => exact of_asksOnly (.pure _)
        | ok => exact (createDirectory p).bind fun _ => of_asksOnly (asksOnly_unlessThere p _)
      · exact of_asksOnly (asksOnly_unlessThere p _)

end OnMachine.OnlyAddsDirectories

/-- Where a path leads to something no directories are made. -/
theorem createDirectories_of_lookup {machine : Machine} {p : Path}
    (there : (machine.tree.lookup? p).isSome) :
    ((createDirectories p : OnMachine (Except FileFault Unit)) machine).2 = machine := by
  have made : (Host.createDirectory p : OnMachine _) machine = (.error .alreadyExists, machine) := by
    show OnMachine.change _ machine = _
    rw [OnMachine.change, FileTree.createDirectory_of_lookup there]
  have some_char : p.isEmpty = false := by
    cases p with
    | nil => cases there
    | cons => rfl
  have run : (createDirectories p : OnMachine (Except FileFault Unit)) machine =
      (createDirectoriesUpTo.unlessThere p (.error .alreadyExists) : OnMachine _) machine := by
    rw [createDirectories, createDirectoriesUpTo, some_char]
    simp only [bind, StateT.bind, made, Bool.false_eq_true, if_false]
  rw [run, asksOnly_unlessThere]

/-- Writing a file touches only the place that the path names. -/
theorem FileTree.write_eq_ok {t t' : FileTree} {p : Path} {bytes : ByteArray}
    (written : t.write p bytes = .ok t') :
    ∃ dir name f, t.Names p dir name ∧ t.get? (dir ++ [name]) ≠ some .directory ∧
      t' = t.insert (dir ++ [name]) (.file f) := by
  unfold write at written
  split at written
  · cases written
  · cases written
  · cases written
  · next loc found =>
    obtain ⟨dir, name, rfl, names⟩ := names_of_target found
    split at written
    · cases written
    · next f file =>
      cases written
      exact ⟨dir, name, _, names, by rw [file]; simp, rfl⟩
    · next free =>
      cases written
      exact ⟨dir, name, _, names, by rw [free]; simp, rfl⟩

/-- A run that writes a file at the path `p`, or nothing. -/
def WritesAt (p : Path) (before after : FileTree) : Prop :=
  after = before ∨ ∃ dir name f, before.Names p dir name ∧
    before.get? (dir ++ [name]) ≠ some .directory ∧ after = before.insert (dir ++ [name]) (.file f)

theorem writesAt_of_write {α : Type} {p : Path} {bytes : ByteArray}
    {rest : Unit → ExceptT Error OnMachine α} (keeps : ∀ a, KeepsTree (rest a)) (machine : Machine) :
    WritesAt p machine.tree (runOn (Host.onPath p (Host.write p bytes) >>= rest) machine).2.tree := by
  rw [runOn_bind, runOn_write]
  cases written : machine.tree.write p bytes with
  | error fault => exact .inl rfl
  | ok tree =>
    refine .inr ?_
    obtain ⟨dir, name, f, names, place, rfl⟩ := FileTree.write_eq_ok written
    exact ⟨dir, name, f, names, place, keeps () _⟩

/-- What writing the defaults does: nothing if the path leads somewhere and force is not used; else it
adds directories, none if the one above the path is there, and then writes a file. -/
structure WritesDefaults (before after : FileTree) (p : Path) (force : Bool) : Prop where
  kept : force = false → (before.lookup? p).isSome → after = before
  written : ∃ middle, before.AddsDirectories middle ∧
    ((∀ above, p.parent? = some above → above ≠ [] → (before.lookup? above).isSome) → middle = before) ∧
    WritesAt p middle after

theorem writesDefaults (file : Option Path) (force : Bool) (machine : Machine) :
    WritesDefaults machine.tree (runOn (Config.writeDefaults file force) machine).2.tree
      (file.getD Config.usualFile) force := by
  rw [Config.writeDefaults]
  generalize file.getD Config.usualFile = p
  dsimp only
  let report (_ : Unit) : ExceptT Error OnMachine Path := do
    (Config.sayLine ("Config file created at ".toList ++ p) : OnMachine Unit)
    return p
  have keeps : ∀ a, KeepsTree (report a) := fun _ => (KeepsTree.lift (.say _)).bind fun _ => .pure p
  have writes (middle : Machine) : WritesAt p middle.tree
      (runOn (Host.onPath p (Host.write p (textBytes ({} : Config).toToml)) >>= report) middle).2.tree :=
    writesAt_of_write keeps middle
  have kind : ((Host.kind? p : OnMachine (Option EntryKind)) machine).1.isSome =
      (machine.tree.lookup? p).isSome := Option.isSome_map
  have asked : ((Host.kind? p : OnMachine (Option EntryKind)) machine).2 = machine := rfl
  rw [runOn_bind, runOn_lift]
  dsimp only
  rw [kind, asked]
  split
  · exact ⟨fun _ _ => rfl, _, .refl _, fun _ => rfl, .inl rfl⟩
  · next free =>
    have not_kept {after : FileTree} (unforced : force = false) (there : (machine.tree.lookup? p).isSome) :
        after = machine.tree := absurd (by rw [there, unforced]; rfl) free
    split
    · exact ⟨not_kept, _, .refl _, fun _ => rfl, writes machine⟩
    · exact ⟨not_kept, _, .refl _, fun _ => rfl, writes machine⟩
    · next directory not_empty parent =>
      have adds := OnlyAddsDirectories.createDirectoriesUpTo (directory.length + 1) directory machine
      have unmade (there : ∀ above, p.parent? = some above → above ≠ [] →
          (machine.tree.lookup? above).isSome) :
          ((createDirectories directory : OnMachine (Except FileFault Unit)) machine).2.tree =
            machine.tree := by
        rw [createDirectories_of_lookup (there directory parent fun empty => not_empty (by rw [empty]))]
      rw [runOn_bind, runOn_onPath]
      refine ⟨not_kept, _, adds, unmade, ?_⟩
      cases ((createDirectories directory : OnMachine (Except FileFault Unit)) machine).1 with
      | error fault => exact .inl rfl
      | ok => exact writes _

theorem WritesAt.get? {before after : FileTree} {p : Path} (writes : WritesAt p before after)
    {loc : Location} {e : Entry} (there : before.get? loc = some e) :
    after.get? loc = some e ∨ after.locate p = .ok loc := by
  rcases writes with rfl | ⟨dir, name, f, names, place, rfl⟩
  · exact .inl there
  · have below : dir ++ [name] ≠ [] := by simp
    by_cases same : loc = dir ++ [name]
    · subst same
      have ext := extends_insert_file below (mt kindAt?_eq_directory.mp place) f
      refine .inr ((ext.names names).locate ?_)
      rw [isSome_kindAt?, get?_insert _ _ below, if_pos rfl]
      rfl
    · exact .inl (by rwa [get?_insert _ _ below, if_neg same])

namespace WritesDefaults

variable {before after : FileTree} {p : Path} {force : Bool}

/-- Whatever is there stays as it is, save at the place that the path leads to in the end. -/
theorem get? (writes : WritesDefaults before after p force) {loc : Location} {e : Entry}
    (there : before.get? loc = some e) : after.get? loc = some e ∨ after.locate p = .ok loc := by
  obtain ⟨middle, adds, -, written⟩ := writes.written
  exact written.get? (adds.get?_of_some there)

/-- Without force everything stays as it is, if the path does not lead up again or does so from a
directory that is there. -/
theorem get?_unforced (writes : WritesDefaults before after p false) (tree : before.IsTree)
    (plain : ['.', '.'] ∉ p.pieces ∨
      ∀ above, p.parent? = some above → above ≠ [] → (before.lookup? above).isSome)
    {loc : Location} {e : Entry} (there : before.get? loc = some e) : after.get? loc = some e := by
  obtain ⟨middle, adds, unmade, written⟩ := writes.written
  have kept := adds.get?_of_some there
  rcases written with rfl | ⟨dir, name, f, names, place, rfl⟩
  · exact kept
  · rw [get?_insert _ _ (by simp)]
    split
    · next same =>
      -- The place was taken, so the path led there and nothing is written.
      subst same
      have led : before.Names p dir name := by
        rcases plain with no_up | directories
        · obtain ⟨front, pieces, first⟩ := names.front
          have start : middle.start p = before.start p := by
            rw [FileTree.start, FileTree.start, adds.workingDirectory]
          have directory := tree dir name (by rw [there]; rfl)
          rw [pieces] at no_up
          have back := follow_of_directory tree (fun member => no_up (List.mem_append_left _ member))
            (start ▸ first) directory
          exact ⟨names.no_fault, ⟨front, pieces, back.1⟩, kindAt?_eq_directory.mpr directory, names.named,
            names.not_up, names.short⟩
        · rwa [unmade directories] at names
      have located := led.locate (by rw [isSome_kindAt?, there]; rfl)
      have unchanged := writes.kept rfl (by rw [lookup?, located]; simp [there])
      rw [← unchanged, get?_insert _ _ (by simp), if_pos rfl] at there
      exact there
    · exact kept

end WritesDefaults

end FrontToc
