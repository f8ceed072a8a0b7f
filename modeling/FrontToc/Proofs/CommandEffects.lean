import FrontToc.CommandLine.Run
import FrontToc.Proofs.BatchRun
import FrontToc.Proofs.Placeholders
import FrontToc.Proofs.WrittenDefaults

/-!
# What commands may change

A command that prints, or a batch that only tells what it would do, changes no file, however it ends. A
batch reads its configuration, chooses its mode and finds its files before it writes, so where one of
these fails no file is changed either. The defaults are the one thing that is written besides.
-/
namespace FrontToc

open OnMachine

section

variable (ids : IdSupply) (named : Option Path) (flags : TransformFlags) (mode : Mode)

theorem keepsTree_readText (p : Path) : KeepsTree (readText p) := by
  intro machine
  rw [runOn_readText]

theorem keepsTree_transformText (text : List Char) : KeepsTree (transformText ids mode text) := by
  intro machine
  rw [runOn_transformText]

theorem asksOnly_resolve : AsksOnly (Config.resolve named) := by
  cases named with
  | some path => exact .pure _
  | none => exact (AsksOnly.isFile _).bind fun _ => .pure _

/-- Reading the configuration changes nothing, whether there is one or not. -/
theorem keepsTree_load : KeepsTree (Config.load named) := by
  refine (KeepsTree.lift (.of_asksOnly (asksOnly_resolve named))).bind fun found => ?_
  cases found with
  | none => exact (KeepsTree.lift (.say _)).bind fun _ => .pure _
  | some path =>
    refine (keepsTree_readText path).bind fun text => ?_
    cases Config.ofToml text with
    | error fault => exact .throw _
    | ok config => exact (KeepsTree.lift (.say _)).bind fun _ => .pure _

theorem keepsTree_sayCurrent : KeepsTree (Config.sayCurrent named) :=
  (keepsTree_load named).bind fun _ => .lift (.say _)

theorem readsOnly_sayPath : ReadsOnly (Config.sayPath named) := by
  refine (ReadsOnly.of_asksOnly (asksOnly_resolve named)).bind fun found => ?_
  cases found with
  | none => exact .say _
  | some path =>
    refine (ReadsOnly.say _).bind fun _ => (ReadsOnly.of_asksOnly (.ask _)).bind fun kind => ?_
    split
    · exact .say _
    · exact .of_asksOnly (.pure _)

theorem keepsTree_renderFile (config : Config) (p : Path) : KeepsTree (renderFile ids flags config p) := by
  refine (KeepsTree.mk_pure _).bind fun mode => (keepsTree_readText p).bind fun old =>
    (keepsTree_transformText ids mode old).bind fun result => ?_
  cases result with
  | rewritten new => exact .pure _
  | unchanged reason => exact (KeepsTree.lift (.say _)).bind fun _ => .pure _

/-- A file that is processed on a dry run stays as it is. -/
theorem keepsTree_processFile_dry (p : Path) : KeepsTree (processFile ids mode true p) := by
  refine (keepsTree_readText p).bind fun old => (keepsTree_transformText ids mode old).bind fun result => ?_
  cases result with
  | unchanged reason => exact (KeepsTree.lift (.say _)).bind fun _ => .pure _
  | rewritten new =>
    dsimp only
    split
    · exact (KeepsTree.lift (.say _)).bind fun _ => .pure _
    · exact (KeepsTree.lift (.say _)).bind fun _ => .pure _

theorem keepsTree_processAll_dry (paths : List Path) (report : BatchReport) :
    KeepsTree (processAll ids mode true report paths) := by
  induction paths generalizing report with
  | nil => exact .pure _
  | cons p paths ih =>
    refine KeepsTree.bind (.tryCatch (keepsTree_processFile_dry ids mode p) fun e => ?_) fun outcome => ih _
    exact (KeepsTree.lift (.say _)).bind fun _ => .throw e

theorem keepsTree_paths (source : FileSource) : KeepsTree source.paths :=
  readsOnly_paths source

theorem keepsTree_runBatch_dry (source : FileSource) : KeepsTree (runBatch ids mode true source) :=
  (keepsTree_paths source).bind fun paths => keepsTree_processAll_dry ids mode paths {}

end

/-- Commands that are not to change anything. -/
def Command.IsReadOnly : Command → Prop
  | .walk _ _ _ dryRun => dryRun = true
  | .postRender _ _ dryRun => dryRun = true
  | .print _ _ => True
  | .config .path => True
  | .config .show => True
  | .config (.init _ _) => False

/-- A command for files that cannot be started: its configuration is not to be had, the depths do not go
together, or it is not known where the files are. -/
def Command.IsRefused (machine : Machine) (named : Option Path) : Command → Prop
  | .walk root _ flags _ =>
    match (runOn (Config.load named) machine).1 with
    | .error _ => True
    | .ok loaded =>
      (∃ e, flags.mode loaded.headings = .error e) ∨
        ∀ loc, machine.tree.lookup? (root.getD loaded.root) ≠ some (loc, .directory)
  | .postRender outputFiles flags _ =>
    match (runOn (Config.load named) machine).1 with
    | .error _ => True
    | .ok loaded => (∃ e, flags.mode loaded.headings = .error e) ∨ outputFiles = none
  | _ => False

theorem keepsTree_of_isReadOnly (ids : IdSupply) (named : Option Path) {command : Command}
    (reads : command.IsReadOnly) : KeepsTree (command.run ids named) := by
  cases command with
  | walk root extension flags dryRun =>
    obtain rfl : dryRun = true := reads
    exact (keepsTree_load named).bind fun config => (KeepsTree.mk_pure _).bind fun mode =>
      (keepsTree_runBatch_dry ids mode _).bind fun report => .lift (.say _)
  | postRender outputFiles flags dryRun =>
    obtain rfl : dryRun = true := reads
    exact (keepsTree_load named).bind fun config => (KeepsTree.mk_pure _).bind fun source =>
      (KeepsTree.mk_pure _).bind fun mode =>
        (keepsTree_runBatch_dry ids mode source).bind fun report => .lift (.say _)
  | print file flags =>
    exact (keepsTree_load named).bind fun config =>
      (keepsTree_renderFile ids flags config file).bind fun text => .lift (.say _)
  | config action =>
    cases action with
    | path => exact .lift (readsOnly_sayPath named)
    | «show» => exact keepsTree_sayCurrent named
    | init => exact reads.elim

/-- A walk from what is no directory writes nothing. -/
theorem runOn_runBatch_no_root (ids : IdSupply) (mode : Mode) (dryRun : Bool) {root : Path}
    (extension : List Char) {machine : Machine}
    (no_root : ∀ loc, machine.tree.lookup? root ≠ some (loc, .directory)) :
    runOn (runBatch ids mode dryRun (.below root extension)) machine =
      (.error (.file root .noSuchRoot), machine) := by
  have other : ((Host.isDirectory root : OnMachine Bool) machine).1 = false := by
    refine decide_eq_false fun directory => ?_
    obtain ⟨⟨loc, e⟩, found, kind⟩ := Option.map_eq_some_iff.mp directory
    cases e with
    | file => cases kind
    | directory => exact no_root loc found
  rw [runBatch, runOn_bind, FileSource.below, FileSource.paths, runOn_files]
  simp [other]

theorem tree_of_isRefused (ids : IdSupply) {named : Option Path} {command : Command} {machine : Machine}
    (refused : command.IsRefused machine named) :
    (runOn (command.run ids named) machine).2.tree = machine.tree := by
  have kept := keepsTree_load named machine
  cases command with
  | walk root extension flags dryRun =>
    rw [Command.IsRefused] at refused
    rw [Command.run, runOn_bind]
    rcases run : runOn (Config.load named) machine with ⟨e | config, after⟩
    · rwa [run] at kept
    · rw [run] at refused kept
      dsimp only at refused kept ⊢
      rw [runOn_bind, runOn_mk_pure]
      cases chosen : flags.mode config.headings with
      | error e => exact kept
      | ok mode =>
        rcases refused with ⟨e, rejected⟩ | no_root
        · rw [chosen] at rejected
          cases rejected
        · dsimp only
          rw [runOn_bind, runOn_runBatch_no_root ids mode dryRun _ (kept ▸ no_root)]
          exact kept
  | postRender outputFiles flags dryRun =>
    rw [Command.IsRefused] at refused
    rw [Command.run, runOn_bind]
    rcases run : runOn (Config.load named) machine with ⟨e | config, after⟩
    · rwa [run] at kept
    · rw [run] at refused kept
      dsimp only at refused kept ⊢
      rw [runOn_bind, runOn_mk_pure]
      cases outputFiles with
      | none => exact kept
      | some text =>
        dsimp only [FileSource.ofVariable]
        rw [runOn_bind, runOn_mk_pure]
        rcases refused with ⟨e, rejected⟩ | missing
        · rw [rejected]
          exact kept
        · cases missing
  | print => exact refused.elim
  | config => exact refused.elim

/-- A command that writes the defaults does so, and says where. -/
theorem tree_of_init (ids : IdSupply) (named file : Option Path) (force : Bool) (machine : Machine) :
    (runOn ((Command.config (.init file force)).run ids named) machine).2.tree =
      (runOn (Config.writeDefaults file force) machine).2.tree := by
  show (runOn (Config.writeDefaults file force >>= fun _ => pure ()) machine).2.tree = _
  rw [runOn_bind]
  rcases runOn (Config.writeDefaults file force) machine with ⟨_ | _, _⟩ <;> rfl

/-- No command writes where it should not. One that prints or only tells what it would do leaves the
files as they were, whatever comes of it, and so does a command for files that is refused. Writing the
defaults touches nothing but the place that its path leads to in the end; and without force it touches
nothing that was there, unless the path leads up again from a directory that was not there. -/
theorem commands_write_where_they_should (ids : IdSupply) (invocation : Invocation) (machine : Machine)
    (tree : machine.tree.IsTree) :
    let after := (runOn (invocation.run ids) machine).2.tree
    (invocation.command.IsReadOnly → after = machine.tree) ∧
      (invocation.command.IsRefused machine invocation.config → after = machine.tree) ∧
      ∀ file force, invocation.command = .config (.init file force) →
        (∀ loc e, machine.tree.get? loc = some e →
          after.get? loc = some e ∨ after.locate (file.getD Config.usualFile) = .ok loc) ∧
        (force = false →
          (['.', '.'] ∉ Path.pieces (file.getD Config.usualFile) ∨
            ∀ above, Path.parent? (file.getD Config.usualFile) = some above → above ≠ [] →
              (machine.tree.lookup? above).isSome) →
          ∀ loc e, machine.tree.get? loc = some e → after.get? loc = some e) := by
  obtain ⟨named, verbosity, command⟩ := invocation
  refine ⟨fun reads => keepsTree_of_isReadOnly ids named reads machine, tree_of_isRefused ids, ?_⟩
  rintro file force rfl
  have writes := writesDefaults file force machine
  rw [← tree_of_init ids named] at writes
  refine ⟨fun loc e there => writes.get? there, ?_⟩
  rintro rfl plain loc e there
  exact writes.get?_unforced tree plain there

/-- Without force a file in a directory that has to be made is written, and the file beside it stays; a
walk from nowhere and a dry run change nothing. -/
theorem commands_write_where_they_should_beside_file :
    let kept : File := { bytes := textBytes "---\n---\n".toList, permissions := 0o640 }
    let machine : Machine :=
      { tree := FileTree.insert { entries := ∅, workingDirectory := [] } ["b.md".toList] (.file kept) }
    let init : Invocation := ⟨none, 0, .config (.init (some "a/c.toml".toList) false)⟩
    let walk : Invocation := ⟨none, 0, .walk (some "a".toList) none {} false⟩
    let dry : Invocation := ⟨none, 0, .postRender (some "b.md".toList) {} true⟩
    (runOn (init.run .lastDigit) machine).2.tree.get? ["b.md".toList] = some (.file kept) ∧
      (runOn (walk.run .lastDigit) machine).2.tree = machine.tree ∧
      (runOn (dry.run .lastDigit) machine).2.tree = machine.tree := by
  intro kept machine init walk dry
  have isTree : machine.tree.IsTree := FileTree.isTree_single _ _
  have there : machine.tree.get? ["b.md".toList] = some (.file kept) := by
    show (FileTree.insert _ _ _).get? _ = _
    rw [FileTree.get?_insert _ _ (by simp), if_pos rfl]
  obtain ⟨-, -, inits⟩ := commands_write_where_they_should .lastDigit init machine isTree
  obtain ⟨-, refused, -⟩ := commands_write_where_they_should .lastDigit walk machine isTree
  obtain ⟨reads, -, -⟩ := commands_write_where_they_should .lastDigit dry machine isTree
  refine ⟨(inits _ _ rfl).2 rfl (.inl (by decide)) _ _ there, refused ?_, reads rfl⟩
  have defaults : (runOn (Config.load none) machine).1 = .ok {} := by decide +kernel
  have nowhere : machine.tree.lookup? "a".toList = none := by
    rw [FileTree.lookup?, show machine.tree.locate "a".toList = .error .notFound by decide +kernel]
  rw [Command.IsRefused, defaults]
  refine .inr fun loc found => ?_
  rw [Option.getD_some, nowhere] at found
  cases found

/-- Where the directory before two dots is missing, it is made only after the path was found to lead
nowhere. The path then leads to a file that was there all along, and this is replaced without force. -/
theorem init_replaces_file_behind_missing_directory :
    let machine : Machine :=
      { tree := FileTree.insert { entries := ∅, workingDirectory := [] } ["b.toml".toList]
          (.file { bytes := textBytes "# custom\n".toList, permissions := 0o644 }) }
    let init : Invocation := ⟨none, 0, .config (.init (some "a/../b.toml".toList) false)⟩
    machine.tree.IsTree ∧ machine.tree.text "b.toml".toList = .ok "# custom\n".toList ∧
      (runOn (init.run .lastDigit) machine).1 = .ok () ∧
      (runOn (init.run .lastDigit) machine).2.tree.text "b.toml".toList = .ok ({} : Config).toToml := by
  exact ⟨FileTree.isTree_single _ _, by decide +kernel, by decide +kernel, by decide +kernel⟩

end FrontToc
