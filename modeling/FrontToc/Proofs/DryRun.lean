import FrontToc.Proofs.DrawnIds
import FrontToc.Proofs.WalkedPaths

/-!
# A dry run tells what a run will do

A dry run and a run of the same batch are taken step by step side by side. The run has changed files that
are done with, so where no two paths lead to the same file both read the same text and come to the same
outcome, or to the same error. The paths of a walk are such ones, unless its extension leads up again.
-/
namespace FrontToc

open FileTree Text

namespace FileTree

variable {t t' : FileTree}

theorem SameKinds.follow_eq (same : t.SameKinds t') (here : Location) (pieces : List (List Char)) :
    t'.follow here pieces = t.follow here pieces := by
  induction pieces generalizing here with
  | nil => rfl
  | cons piece rest ih =>
    have kind := same.kindAt? here
    have kind_below := same.kindAt? (here ++ [piece])
    rw [FileTree.kindAt?, FileTree.kindAt?] at kind kind_below
    rw [follow, follow]
    rcases entry : t.get? here with _ | f | _ <;> rcases entry' : t'.get? here with _ | f' | _ <;>
      simp only [entry, entry', Option.map_some, Option.map_none, OnMachine.kindOf, reduceCtorEq,
        Option.some.injEq] at kind ⊢
    rcases below : t.get? (here ++ [piece]) with _ | e <;>
      rcases below' : t'.get? (here ++ [piece]) with _ | e' <;>
      simp only [below, below', Option.map_some, Option.map_none, reduceCtorEq] at kind_below ⊢
    · rw [ih, ih]
    · rw [ih, ih, ih]

/-- What the files hold does not count for where paths lead. -/
theorem SameKinds.locate_eq (same : t.SameKinds t') (p : Path) : t'.locate p = t.locate p := by
  have start : t'.start p = t.start p := by rw [FileTree.start, FileTree.start, same.workingDirectory]
  rw [FileTree.locate, FileTree.locate, start, same.follow_eq]

theorem SameKinds.apart (same : t.SameKinds t') {p q : Path} (apart : t.Apart p q) : t'.Apart p q := by
  intro loc
  rw [same.locate_eq, same.locate_eq]
  exact apart loc

end FileTree

/-- A step leaves the text at a path as it is that leads somewhere else. -/
theorem BatchStep.text_eq {ids : IdSupply} {mode : Mode} {t t' : FileTree} {p q : Path}
    {outcome : FileOutcome} (step : BatchStep ids mode t p outcome t') (apart : t.Apart p q) :
    t'.text q = t.text q := by
  have read : t'.read q = t.read q := by
    rw [FileTree.read, FileTree.read, step.sameKinds.locate_eq]
    cases found : t.locate q with
    | error fault => rfl
    | ok loc =>
      rcases step.changes loc with kept | ⟨-, found_here, -⟩
      · dsimp only
        rw [kept]
      · exact absurd found (apart loc found_here)
  rw [FileTree.text, FileTree.text, read]

/-- What a run says where a dry run says what it would do. -/
def Output.carriedOut : Output → Output
  | .event (.wouldReplace path) => .event (.replaced path)
  | output => output

theorem wouldReplace_not_mem_events (ids : IdSupply) (mode : Mode) (text : List Char) (p : Path) :
    Event.wouldReplace p ∉ mode.events ids text := by
  rw [Mode.events]
  intro member
  rcases List.mem_append.mp member with member | member
  · rw [frontMatterEvents] at member
    split at member <;> simp at member
  · split at member
    · simp at member
    · simp at member
    · cases mode with
      | headings options => simp at member
      | tocMarkers =>
        dsimp only at member
        split at member
        · simp at member
        · simp [TocMarkers.Block.events] at member

/-- What is told of a text is told alike on a dry run. -/
theorem map_carriedOut_events (ids : IdSupply) (mode : Mode) (text : List Char) :
    ((mode.events ids text).map Output.event).map Output.carriedOut =
      (mode.events ids text).map Output.event := by
  rw [List.map_map]
  refine List.map_congr_left fun e member => ?_
  cases e with
  | wouldReplace p => exact absurd member (wouldReplace_not_mem_events ids mode text p)
  | _ => rfl

/-- A file is processed by reading it, transforming its text and, unless it is a dry run, replacing it. -/
theorem runOn_processFile_eq (ids : IdSupply) (mode : Mode) (dryRun : Bool) (p : Path)
    (machine : Machine) :
    runOn (processFile ids mode dryRun p) machine =
      match machine.tree.text p with
      | .error e => (.error e, machine)
      | .ok old =>
        let said := machine.said ++ (mode.events ids old).map Output.event
        match mode.transform ids old with
        | .error e => (.error e, { machine with said })
        | .ok (.unchanged reason) =>
          (.ok (.skipped reason), { machine with said := said ++ [.event (.skipping p reason)] })
        | .ok (.rewritten new) =>
          if new = old then
            (.ok .alreadyCurrent, { machine with said := said ++ [.event (.alreadyCurrent p)] })
          else if dryRun then
            (.ok .rewritten, { machine with said := said ++ [.event (.wouldReplace p)] })
          else
            match runOn (replaceText p new) { machine with said } with
            | (.error e, after) => (.error e, after)
            | (.ok (), after) =>
              (.ok .rewritten, { after with said := after.said ++ [.event (.replaced p)] }) := by
  simp only [processFile, runOn_bind, runOn_readText]
  cases machine.tree.text p with
  | error e => rfl
  | ok old =>
    simp only [runOn_transformText]
    cases mode.transform ids old with
    | error e => rfl
    | ok result =>
      cases result with
      | unchanged reason => rfl
      | rewritten new =>
        by_cases same : new = old
        · simp only [same, ↓reduceIte]
          rfl
        · cases dryRun with
          | true =>
            simp only [same, ↓reduceIte]
            rfl
          | false =>
            simp only [same, ↓reduceIte, Bool.false_eq_true, runOn_bind]
            rcases runOn (replaceText p new) _ with ⟨_ | _, after⟩ <;> rfl

section

variable (ids ids' : IdSupply) (mode : Mode) {machine machine' : Machine}

/-- A file is processed on a dry run and on a run to the same outcome, if it holds the same text. -/
theorem runOn_processFile_dry {p : Path} (tree : machine'.tree.IsTree)
    (texts : machine'.tree.text p = machine.tree.text p) (writable : machine'.tree.CanReplace p)
    (suits : ∀ old, machine.tree.text p = .ok old → ids.Suits old ∧ ids'.Suits old) :
    ∃ result told after,
      runOn (processFile ids mode true p) machine =
        (result, { machine with said := machine.said ++ told }) ∧
      runOn (processFile ids' mode false p) machine' =
        (result, { tree := after, said := machine'.said ++ told.map Output.carriedOut }) ∧
      ∀ outcome, result = .ok outcome → BatchStep ids' mode machine'.tree p outcome after := by
  rw [runOn_processFile_eq, runOn_processFile_eq, texts]
  cases read : machine.tree.text p with
  | error e => exact ⟨.error e, [], machine'.tree, by simp, by simp, nofun⟩
  | ok old =>
    obtain ⟨suits, suits'⟩ := suits old read
    have told : ((mode.events ids' old).map Output.event) =
        ((mode.events ids old).map Output.event).map Output.carriedOut := by
      rw [map_carriedOut_events, events_eq_of_suits suits suits']
    dsimp only
    rw [told, ← transform_eq_of_suits suits suits']
    generalize (mode.events ids old).map Output.event = events
    cases made : mode.transform ids old with
    | error e => exact ⟨.error e, events, machine'.tree, rfl, rfl, nofun⟩
    | ok result =>
      have at_path : transformAt ids' mode machine'.tree p = .ok (old, result) :=
        transformAt_eq_ok.mpr ⟨texts.trans read, transform_eq_of_suits suits suits' mode ▸ made⟩
      cases result with
      | unchanged reason =>
        refine ⟨.ok (.skipped reason), events ++ [.event (.skipping p reason)], machine'.tree, ?_, ?_, ?_⟩
        · rw [← List.append_assoc]
        · rw [List.map_append, ← List.append_assoc]
          rfl
        · rintro outcome ⟨⟩
          exact .skipped at_path
      | rewritten new =>
        by_cases same : new = old
        · subst same
          refine ⟨.ok .alreadyCurrent, events ++ [.event (.alreadyCurrent p)], machine'.tree, ?_, ?_, ?_⟩
          · dsimp only
            rw [if_pos rfl, List.append_assoc]
          · dsimp only
            rw [if_pos rfl, List.map_append, List.append_assoc]
            rfl
          · rintro outcome ⟨⟩
            exact .current at_path
        · obtain ⟨loc, f, found, file, -⟩ := text_eq_ok (texts.trans read)
          obtain ⟨temporary, allowed⟩ := writable loc found (kindAt?_eq_file.mpr ⟨f, file⟩)
          refine ⟨.ok .rewritten, events ++ [.event (.wouldReplace p)],
            machine'.tree.insert loc (.file { f with bytes := textBytes new }), ?_, ?_, ?_⟩
          · dsimp only
            rw [if_neg same, if_pos rfl, List.append_assoc]
          · dsimp only
            rw [if_neg same, if_neg Bool.false_ne_true, List.map_append]
            have write := runOn_replaceText_file
              { machine' with said := machine'.said ++ events.map Output.carriedOut } tree found file new
            rw [allowed] at write
            rw [write, ← List.append_assoc]
            rfl
          · rintro outcome ⟨⟩
            exact .rewritten found file at_path same

/-- A dry run and a run of the same files come to the same report or the same error. -/
theorem runOn_processAll_dry (machine machine' : Machine) {ps : List Path} (report : BatchReport)
    (same : machine.tree.SameKinds machine'.tree) (tree : machine.tree.IsTree)
    (texts : ∀ p ∈ ps, machine'.tree.text p = machine.tree.text p)
    (apart : ps.Pairwise machine.tree.Apart) (writable : ∀ p ∈ ps, machine.tree.CanReplace p)
    (suits : ∀ p ∈ ps, ∀ old, machine.tree.text p = .ok old → ids.Suits old ∧ ids'.Suits old) :
    ∃ result told after,
      runOn (processAll ids mode true report ps) machine =
        (result, { machine with said := machine.said ++ told }) ∧
      runOn (processAll ids' mode false report ps) machine' =
        (result, { tree := after, said := machine'.said ++ told.map Output.carriedOut }) ∧
      ∀ e, result = .error e → ∃ p, told.getLast? = some (.event (.failed p e)) := by
  induction ps generalizing machine machine' report with
  | nil =>
    refine ⟨.ok report, [], machine'.tree, ?_, ?_, nofun⟩
    · rw [List.append_nil]
      rfl
    · rw [List.map_nil, List.append_nil]
      rfl
  | cons p ps ih =>
    obtain ⟨result, told, after, dry, run, steps⟩ :=
      runOn_processFile_dry ids ids' mode (same.isTree tree)
        (texts p List.mem_cons_self) (same.canReplace tree (writable p List.mem_cons_self))
        (suits p List.mem_cons_self)
    rw [processAll, processAll, runOn_bind, runOn_bind, runOn_tryCatch, runOn_tryCatch, dry, run]
    cases result with
    | error e =>
      refine ⟨.error e, told ++ [.event (.failed p e)], after, ?_, ?_, fun e' failed => ⟨p, ?_⟩⟩
      · rw [← List.append_assoc]
        rfl
      · rw [List.map_append, ← List.append_assoc]
        rfl
      · cases failed
        rw [List.getLast?_concat]
    | ok outcome =>
      have step := steps outcome rfl
      obtain ⟨result, more, last, dry, run, failed⟩ :=
        ih { machine with said := machine.said ++ told }
          { tree := after, said := machine'.said ++ told.map Output.carriedOut }
          (report.record outcome) (same.trans step.sameKinds) tree
          (fun q member =>
            (step.text_eq (same.apart (List.rel_of_pairwise_cons apart member))).trans
              (texts q (List.mem_cons_of_mem _ member)))
          apart.of_cons (fun q member => writable q (List.mem_cons_of_mem _ member))
          (fun q member => suits q (List.mem_cons_of_mem _ member))
      refine ⟨result, told ++ more, last, ?_, ?_, fun e error => ?_⟩
      · rw [← List.append_assoc]
        exact dry
      · rw [List.map_append, ← List.append_assoc]
        exact run
      · obtain ⟨q, told_last⟩ := failed e error
        exact ⟨q, by rw [List.getLast?_append, told_last]; rfl⟩

end

/-- Choosing the files of a batch only tells how many there are, if anything. -/
theorem runOn_paths (source : FileSource) (machine : Machine) :
    ∃ result found,
      runOn source.paths machine = (result, { machine with said := machine.said ++ found }) ∧
      found.map Output.carriedOut = found := by
  cases source with
  | list paths => exact ⟨.ok paths, [], by rw [List.append_nil]; rfl, rfl⟩
  | walk root extension =>
    rw [FileSource.paths, runOn_files]
    dsimp only
    split
    · exact ⟨_, _, rfl, rfl⟩
    · exact ⟨.error (.file root .noSuchRoot), [], by rw [List.append_nil], rfl⟩

namespace FileSource

/-- A source chooses a path on a machine. -/
def Chooses (source : FileSource) (machine : Machine) (p : Path) : Prop :=
  ∃ paths after, runOn source.paths machine = (.ok paths, after) ∧ p ∈ paths

/-- The paths that a source chooses on a machine lead to different places. -/
def LeadsApart (source : FileSource) (machine : Machine) : Prop :=
  ∀ paths after, runOn source.paths machine = (.ok paths, after) → paths.Pairwise machine.tree.Apart

/-- A walk whose extension has no two dots behind a slash. -/
def GoesDown : FileSource → Prop
  | .walk _ extension => ['.', '.'] ∉ (splitOnChar '/' extension).tail
  | .list _ => False

theorem GoesDown.leadsApart {source : FileSource} {machine : Machine} (down : source.GoesDown)
    (names : machine.tree.HasNames) : source.LeadsApart machine := by
  intro paths after chosen
  cases source with
  | walk root extension => exact Walk.files_apart names down chosen
  | list => exact down.elim

end FileSource

/-- A dry run changes no file and comes to the report or the error of the run that it stands for, which
says the same but for what is carried out. An error is one of choosing the files, or both tell at which
path it came up. This holds where the paths lead to different places, as those of a walk do unless two
dots stand behind a slash in its extension. -/
theorem dry_run_predicts_run (ids ids' : IdSupply) (mode : Mode) (source : FileSource)
    (machine : Machine) (tree : machine.tree.IsTree) (names : machine.tree.HasNames)
    (writable : ∀ p, source.Chooses machine p → machine.tree.CanReplace p)
    (suits : ∀ p old, source.Chooses machine p → machine.tree.text p = .ok old →
      ids.Suits old ∧ ids'.Suits old) :
    (source.GoesDown → source.LeadsApart machine) ∧
    (source.LeadsApart machine →
      ∃ result told after,
        runOn (runBatch ids mode true source) machine =
          (result, { machine with said := machine.said ++ told }) ∧
        runOn (runBatch ids' mode false source) machine =
          (result, { tree := after, said := machine.said ++ told.map Output.carriedOut }) ∧
        ∀ e, result = .error e →
          (runOn source.paths machine).1 = .error e ∨ ∃ p, told.getLast? = some (.event (.failed p e))) := by
  refine ⟨fun down => down.leadsApart names, fun apart => ?_⟩
  obtain ⟨result, found, chosen, found_told⟩ := runOn_paths source machine
  cases result with
  | error e =>
    refine ⟨.error e, found, machine.tree, ?_, ?_, ?_⟩
    · rw [runBatch, runOn_bind, chosen]
    · rw [runBatch, runOn_bind, chosen, found_told]
    · rintro e' ⟨⟩
      exact .inl (by rw [chosen])
  | ok paths =>
    have chooses (p : Path) (member : p ∈ paths) : source.Chooses machine p := ⟨_, _, chosen, member⟩
    obtain ⟨result, told, after, dry, run, failed⟩ :=
      runOn_processAll_dry ids ids' mode { machine with said := machine.said ++ found }
        { machine with said := machine.said ++ found } {} (.refl _) tree (fun _ _ => rfl)
        (apart _ _ chosen) (fun p member => writable p (chooses p member))
        (fun p member old read => suits p old (chooses p member) read)
    refine ⟨result, found ++ told, after, ?_, ?_, fun e error => ?_⟩
    · rw [runBatch, runOn_bind, chosen, ← List.append_assoc]
      exact dry
    · rw [runBatch, runOn_bind, chosen, List.map_append, found_told, ← List.append_assoc]
      exact run
    · obtain ⟨p, last⟩ := failed e error
      exact .inr ⟨p, by rw [List.getLast?_append, last]; rfl⟩

/-- A dry run of a walk that finds two files, one with a block of code, and the run that rewrites both. -/
theorem dry_run_predicts_run_of_walk :
    let withCode := "---\n---\n```\n# A\n```\n# B".toList
    let plain := "---\n---\n# C".toList
    let machine : Machine :=
      { tree := ((FileTree.insert { entries := ∅, workingDirectory := [] } ["a.md".toList]
            (.file { bytes := textBytes withCode, permissions := 0o640 })).insert ["b.md".toList]
            (.file { bytes := textBytes plain, permissions := 0o600 })) }
    let others : IdSupply := fun n => IdSupply.lastDigit (n + 1)
    let source : FileSource := .walk ['.'] "md".toList
    machine.tree.IsTree ∧ machine.tree.HasNames ∧ source.GoesDown ∧
      ∃ told after,
        runOn (runBatch .lastDigit (.headings {}) true source) machine =
          (.ok { rewritten := 2 }, { machine with said := machine.said ++ told }) ∧
        runOn (runBatch others (.headings {}) false source) machine =
          (.ok { rewritten := 2 }, { tree := after, said := machine.said ++ told.map Output.carriedOut }) := by
  intro withCode plain machine others source
  have proper : machine.tree.Proper := proper_of_isProper (by decide +kernel)
  have down : source.GoesDown := by
    show ['.', '.'] ∉ (splitOnChar '/' "md".toList).tail
    decide
  have chosen : runOn source.paths machine =
      (.ok ["a.md".toList, "b.md".toList],
        { machine with said := [.event (.filesFound 2 "md".toList ['.'])] }) :=
    runOn_paths_of_sorted ["a.md".toList, "b.md".toList] (by decide +kernel)
      (by decide +kernel) (by decide +kernel) (by decide +kernel)
  have either (p : Path) (chooses : source.Chooses machine p) :
      p = "a.md".toList ∨ p = "b.md".toList := by
    obtain ⟨paths, after, found, member⟩ := chooses
    rw [chosen] at found
    cases found
    simpa using member
  have writable (p : Path) (chooses : source.Chooses machine p) : machine.tree.CanReplace p := by
    rcases either p chooses with rfl | rfl <;> exact fun _ _ _ => ⟨_, rfl⟩
  have hexadecimal : others.Hexadecimal := IdSupply.hexadecimal_lastDigit.succ
  have distinct : others.DistinctBelow 15 := IdSupply.distinctBelow_lastDigit.succ
  have suits (p : Path) (text : List Char) (chooses : source.Chooses machine p)
      (found : machine.tree.text p = .ok text) : IdSupply.lastDigit.Suits text ∧ others.Suits text := by
    rcases either p chooses with rfl | rfl
    · have read : machine.tree.text "a.md".toList = .ok withCode := by decide +kernel
      have body : (splitFrontMatter? withCode).map FrontMatterSplit.body =
          some "\n```\n# A\n```\n# B".toList := by decide +kernel
      cases found.symm.trans read
      exact ⟨IdSupply.hexadecimal_lastDigit.suits body (IdSupply.distinctBelow_lastDigit.mono (by decide)),
        hexadecimal.suits body (distinct.mono (by decide))⟩
    · have read : machine.tree.text "b.md".toList = .ok plain := by decide +kernel
      have body : (splitFrontMatter? plain).map FrontMatterSplit.body = some "\n# C".toList := by
        decide +kernel
      cases found.symm.trans read
      exact ⟨IdSupply.hexadecimal_lastDigit.suits body (IdSupply.distinctBelow_lastDigit.mono (by decide)),
        hexadecimal.suits body (distinct.mono (by decide))⟩
  obtain ⟨leads, agree⟩ := dry_run_predicts_run .lastDigit others (.headings {}) source machine
    proper.tree proper.names writable suits
  obtain ⟨result, told, after, dry, run, -⟩ := agree (leads down)
  have report : (runOn (runBatch .lastDigit (.headings {}) true source) machine).1 =
      .ok { rewritten := 2 } := by
    rw [runBatch, runOn_bind, chosen]
    decide +kernel
  rw [dry] at report
  cases report
  exact ⟨proper.tree, proper.names, down, told, after, dry, run⟩

/-- A walk whose extension leads up again finds the one file twice. The run rewrites it once. -/
theorem dry_run_counts_file_twice :
    let tree : FileTree :=
      ((((FileTree.insert { entries := ∅, workingDirectory := [] } ["r".toList] .directory).insert
        ["r".toList, "x.d".toList] .directory).insert
        ["r".toList, "y.d".toList] .directory).insert
        ["r".toList, "f.md".toList]
        (.file { bytes := textBytes "---\n---\n".toList, permissions := 0o640 }))
    let source : FileSource := .walk "r".toList "d/../f.md".toList
    let machine : Machine := { tree }
    tree.IsTree ∧ tree.HasNames ∧ ¬source.LeadsApart machine ∧
      (runOn (runBatch .counted (.headings {}) true source) machine).1 = .ok { rewritten := 2 } ∧
      (runOn (runBatch .counted (.headings {}) false source) machine).1 =
        .ok { rewritten := 1, current := 1 } := by
  intro tree source machine
  have proper : tree.Proper := proper_of_isProper (by decide +kernel)
  have chosen : runOn source.paths machine =
      (.ok ["r/x.d/../f.md".toList, "r/y.d/../f.md".toList],
        { machine with said := [.event (.filesFound 2 "d/../f.md".toList "r".toList)] }) :=
    runOn_paths_of_sorted ["r/x.d/../f.md".toList, "r/y.d/../f.md".toList]
      (by decide +kernel) (by decide +kernel) (by decide +kernel) (by decide +kernel)
  refine ⟨proper.tree, proper.names, fun apart => ?_, ?_, ?_⟩
  · have same : tree.locate "r/x.d/../f.md".toList = .ok ["r".toList, "f.md".toList] := by decide +kernel
    have same' : tree.locate "r/y.d/../f.md".toList = .ok ["r".toList, "f.md".toList] := by decide +kernel
    exact List.rel_of_pairwise_cons (apart _ _ chosen) List.mem_cons_self _ same same'
  · rw [runBatch, runOn_bind, chosen]
    decide +kernel
  · rw [runBatch, runOn_bind, chosen]
    decide +kernel

end FrontToc
