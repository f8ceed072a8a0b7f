import FrontToc.Batch.Run
import FrontToc.Proofs.ReplacedFile

/-!
# What a batch changes

A batch takes its files one after the other. A step reads the text of a file and transforms it. Only if
the text becomes another one the step changes something, and then only the bytes of this file. The first
step that fails ends the batch and changes nothing.
-/
namespace FrontToc

open FileTree

/-- The text of the file at a path. -/
def FileTree.text (t : FileTree) (p : Path) : Except Error (List Char) :=
  match t.read p with
  | .error fault => .error (.file p fault)
  | .ok bytes =>
    match String.fromUTF8? bytes with
    | some text => .ok text.toList
    | none => .error (.file p .notText)

theorem runOn_readText (p : Path) (machine : Machine) :
    runOn (readText p) machine = (machine.tree.text p, machine) := by
  rw [readText, runOn_bind, runOn_read, FileTree.text]
  cases machine.tree.read p with
  | error fault => rfl
  | ok bytes =>
    simp only [Except.mapError]
    cases String.fromUTF8? bytes <;> rfl

theorem FileTree.text_eq_ok {t : FileTree} {p : Path} {old : List Char} (read : t.text p = .ok old) :
    ∃ loc f, t.locate p = .ok loc ∧ t.get? loc = some (.file f) ∧
      (String.fromUTF8? f.bytes).map String.toList = some old := by
  rw [FileTree.text, FileTree.read] at read
  cases found : t.locate p with
  | error fault =>
    rw [found] at read
    cases read
  | ok loc =>
    rw [found] at read
    rcases entry : t.get? loc with _ | f | _
    · simp only [entry] at read
      cases read
    · simp only [entry] at read
      cases decoded : String.fromUTF8? f.bytes with
      | none =>
        rw [decoded] at read
        cases read
      | some text =>
        rw [decoded] at read
        cases read
        exact ⟨loc, f, rfl, entry, by rw [decoded]; rfl⟩
    · simp only [entry] at read
      cases read

theorem toUTF8_of_fromUTF8? {bytes : ByteArray} {text : String}
    (decoded : String.fromUTF8? bytes = some text) : text.toUTF8 = bytes := by
  rw [String.fromUTF8?] at decoded
  split at decoded
  · rw [← Option.some.inj decoded]
    rfl
  · cases decoded

theorem textBytes_of_fromUTF8? {bytes : ByteArray} {old : List Char}
    (decoded : (String.fromUTF8? bytes).map String.toList = some old) : textBytes old = bytes := by
  obtain ⟨text, read, rfl⟩ := Option.map_eq_some_iff.mp decoded
  rw [textBytes, String.ofList_toList]
  exact toUTF8_of_fromUTF8? read

/-- The bytes of a text are those of no other text. -/
theorem textBytes_ne {bytes : ByteArray} {old new : List Char}
    (decoded : (String.fromUTF8? bytes).map String.toList = some old) (other : new ≠ old) :
    textBytes new ≠ bytes := by
  intro same
  have same : String.ofList new = String.ofList old :=
    String.toByteArray_inj.mp (same.trans (textBytes_of_fromUTF8? decoded).symm)
  exact other (String.ofList_injective same)

/-- The text at a path and what becomes of it, or the error of reading or transforming it. -/
def transformAt (ids : IdSupply) (mode : Mode) (t : FileTree) (p : Path) :
    Except Error (List Char × Transform) :=
  match t.text p with
  | .error e => .error e
  | .ok old => (mode.transform ids old).map (old, ·)

theorem transformAt_eq_ok {ids : IdSupply} {mode : Mode} {t : FileTree} {p : Path} {old : List Char}
    {result : Transform} :
    transformAt ids mode t p = .ok (old, result) ↔
      t.text p = .ok old ∧ mode.transform ids old = .ok result := by
  rw [transformAt]
  cases t.text p with
  | error e => simp
  | ok text =>
    cases transformed : mode.transform ids text with
    | error e =>
      simp only [transformed, Except.map]
      grind
    | ok result' =>
      simp only [Except.map]
      grind

section

variable (ids : IdSupply) (mode : Mode)

/-- A step of a batch that comes to an outcome, and the tree after it. -/
inductive BatchStep (t : FileTree) (p : Path) : FileOutcome → FileTree → Prop where
  | skipped {old : List Char} {reason : SkipReason} :
    transformAt ids mode t p = .ok (old, .unchanged reason) → BatchStep t p (.skipped reason) t
  | current {old : List Char} :
    transformAt ids mode t p = .ok (old, .rewritten old) → BatchStep t p .alreadyCurrent t
  | rewritten {old new : List Char} {loc : Location} {f : File} :
    t.locate p = .ok loc → t.get? loc = some (.file f) →
    transformAt ids mode t p = .ok (old, .rewritten new) → new ≠ old →
    BatchStep t p .rewritten (t.insert loc (.file { f with bytes := textBytes new }))

/-- The steps for some files in order, with the outcome of each, and the tree after them. -/
inductive BatchSteps : FileTree → List Path → List FileOutcome → FileTree → Prop where
  | nil {t : FileTree} : BatchSteps t [] [] t
  | cons {t t' t'' : FileTree} {p : Path} {ps : List Path} {o : FileOutcome} {os : List FileOutcome} :
    BatchStep ids mode t p o t' → BatchSteps t' ps os t'' → BatchSteps t (p :: ps) (o :: os) t''

/-- A step of a batch that ends in an error: that of reading or transforming the text or, where a new text
is to be written, that the path of the temporary file would be too long. -/
inductive StepFails (t : FileTree) (p : Path) : Error → Prop where
  | text {e : Error} : transformAt ids mode t p = .error e → StepFails t p e
  | write {old new : List Char} :
    transformAt ids mode t p = .ok (old, .rewritten new) → new ≠ old →
    t.createTemporary p.directory = .error .nameTooLong →
    StepFails t p (.file p.directory .nameTooLong)

end

variable {ids : IdSupply} {mode : Mode}

theorem tellAll_apply (es : List Event) (machine : Machine) :
    (tellAll es : OnMachine Unit) machine =
      ((), { machine with said := machine.said ++ es.map Output.event }) := by
  induction es generalizing machine with
  | nil => rw [List.map_nil, List.append_nil]; rfl
  | cons e rest ih =>
    have later := ih { machine with said := machine.said ++ [.event e] }
    rw [List.append_assoc] at later
    exact later

theorem runOn_transformText (text : List Char) (machine : Machine) :
    runOn (transformText ids mode text) machine =
      (mode.transform ids text,
        { machine with said := machine.said ++ (mode.events ids text).map Output.event }) := by
  rw [transformText, runOn_bind, runOn_lift, tellAll_apply]
  exact runOn_mk_pure _ _

/-- A file is processed by one step, or the step fails and the files are as before. -/
theorem runOn_processFile (ids : IdSupply) (mode : Mode) (machine : Machine)
    (tree : machine.tree.IsTree) (p : Path) :
    ∃ said,
      (∃ outcome after, BatchStep ids mode machine.tree p outcome after ∧
        runOn (processFile ids mode false p) machine = (.ok outcome, { tree := after, said })) ∨
      (∃ e, StepFails ids mode machine.tree p e ∧
        runOn (processFile ids mode false p) machine = (.error e, { machine with said })) := by
  simp only [processFile, runOn_bind, runOn_readText]
  cases read : machine.tree.text p with
  | error e => exact ⟨machine.said, .inr ⟨e, .text (by rw [transformAt, read]), rfl⟩⟩
  | ok old =>
    simp only [runOn_transformText]
    have at_path : transformAt ids mode machine.tree p = (mode.transform ids old).map (old, ·) := by
      rw [transformAt, read]
    generalize machine.said ++ (mode.events ids old).map Output.event = said
    cases made : mode.transform ids old with
    | error e => exact ⟨said, .inr ⟨e, .text (by rw [at_path, made]; rfl), rfl⟩⟩
    | ok result =>
      rw [made] at at_path
      cases result with
      | unchanged reason => exact ⟨_, .inl ⟨_, _, .skipped at_path, rfl⟩⟩
      | rewritten new =>
        by_cases same : new = old
        · subst same
          simp only [↓reduceIte]
          exact ⟨_, .inl ⟨_, _, .current at_path, rfl⟩⟩
        · obtain ⟨loc, f, found, file, -⟩ := text_eq_ok read
          simp only [same, ↓reduceIte, Bool.false_eq_true, runOn_bind]
          rw [runOn_replaceText_file { machine with said } tree found file new]
          cases writable : machine.tree.createTemporary p.directory with
          | ok made => exact ⟨_, .inl ⟨_, _, .rewritten found file at_path same, rfl⟩⟩
          | error fault =>
            obtain ⟨dir, name, -, names⟩ := names_of_file tree found (kindAt?_eq_file.mpr ⟨f, file⟩)
            rcases createTemporary_directory names with ⟨made, writable'⟩ | long
            · rw [writable] at writable'
              cases writable'
            · cases writable.symm.trans long
              exact ⟨_, .inr ⟨_, .write at_path same long, rfl⟩⟩

theorem BatchStep.sameKinds {t t' : FileTree} {p : Path} {outcome : FileOutcome}
    (step : BatchStep ids mode t p outcome t') : t.SameKinds t' := by
  cases step with
  | skipped => exact .refl t
  | current => exact .refl t
  | rewritten found file => exact sameKinds_insert_file file _

/-- The steps that change a tree are those that rewrite a file. -/
theorem BatchStep.tree_ne_iff {t t' : FileTree} {p : Path} {outcome : FileOutcome}
    (step : BatchStep ids mode t p outcome t') : t' ≠ t ↔ outcome = .rewritten := by
  cases step with
  | skipped => simp
  | current => simp
  | @rewritten old new loc f found file made other =>
    obtain ⟨loc', f', found', file', decoded⟩ := text_eq_ok (transformAt_eq_ok.mp made).1
    cases found.symm.trans found'
    cases file.symm.trans file'
    refine ⟨fun _ => rfl, fun _ same => textBytes_ne decoded other ?_⟩
    have below : loc ≠ [] := by
      rintro rfl
      cases file
    have entry := get?_insert t (.file { f with bytes := textBytes new }) below loc
    rw [same, file, if_pos rfl] at entry
    exact congrArg File.bytes (Entry.file.inj (Option.some.inj entry)).symm

theorem BatchStep.transforms {t t' : FileTree} {p : Path} {outcome : FileOutcome}
    (step : BatchStep ids mode t p outcome t') : ∃ made, transformAt ids mode t p = .ok made := by
  cases step with
  | skipped made => exact ⟨_, made⟩
  | current made => exact ⟨_, made⟩
  | rewritten _ _ made => exact ⟨_, made⟩

/-- A step has one outcome and leaves one tree. -/
theorem BatchStep.unique {t t' t'' : FileTree} {p : Path} {outcome outcome' : FileOutcome}
    (step : BatchStep ids mode t p outcome t') (step' : BatchStep ids mode t p outcome' t'') :
    outcome' = outcome ∧ t'' = t' := by
  cases step with
  | skipped made =>
    cases step' with
    | skipped made' =>
      cases made.symm.trans made'
      exact ⟨rfl, rfl⟩
    | current made' => cases made.symm.trans made'
    | rewritten _ _ made' => cases made.symm.trans made'
  | current made =>
    cases step' with
    | skipped made' => cases made.symm.trans made'
    | current => exact ⟨rfl, rfl⟩
    | rewritten _ _ made' other =>
      cases made.symm.trans made'
      exact absurd rfl other
  | rewritten found file made other =>
    cases step' with
    | skipped made' => cases made.symm.trans made'
    | current made' =>
      cases made.symm.trans made'
      exact absurd rfl other
    | rewritten found' file' made' =>
      cases made.symm.trans made'
      cases found.symm.trans found'
      cases file.symm.trans file'
      exact ⟨rfl, rfl⟩

theorem BatchSteps.sameKinds {t t' : FileTree} {ps : List Path} {outcomes : List FileOutcome}
    (steps : BatchSteps ids mode t ps outcomes t') : t.SameKinds t' := by
  induction steps with
  | nil => exact .refl _
  | cons step _ ih => exact step.sameKinds.trans ih

theorem BatchStep.changes {t t' : FileTree} {p : Path} {outcome : FileOutcome}
    (step : BatchStep ids mode t p outcome t') (loc : Location) :
    t'.get? loc = t.get? loc ∨
      outcome = .rewritten ∧ t.locate p = .ok loc ∧
        ∃ f bytes, t.get? loc = some (.file f) ∧ t'.get? loc = some (.file { f with bytes }) := by
  cases step with
  | skipped => exact .inl rfl
  | current => exact .inl rfl
  | @rewritten old new place f found file =>
    have below : place ≠ [] := by
      rintro rfl
      cases file
    rw [get?_insert t _ below]
    split
    · next same =>
      subst same
      exact .inr ⟨rfl, found, f, textBytes new, file, rfl⟩
    · exact .inl rfl

/-- Steps change only the bytes of files that they report as rewritten. -/
theorem BatchSteps.changes {t t' : FileTree} {ps : List Path} {outcomes : List FileOutcome}
    (steps : BatchSteps ids mode t ps outcomes t') (loc : Location) :
    t'.get? loc = t.get? loc ∨
      ∃ p, (p, FileOutcome.rewritten) ∈ ps.zip outcomes ∧ t.locate p = .ok loc ∧
        ∃ f bytes, t.get? loc = some (.file f) ∧ t'.get? loc = some (.file { f with bytes }) := by
  induction steps with
  | nil => exact .inl rfl
  | @cons t t' t'' p ps outcome outcomes step _ ih =>
    rcases step.changes loc with kept | ⟨rfl, found, f, bytes, before, after⟩
    · rcases ih with later | ⟨q, rewritten, found, f, bytes, before, after⟩
      · exact .inl (later.trans kept)
      · exact .inr ⟨q, List.mem_cons_of_mem _ rewritten, step.sameKinds.symm.extends.locate found,
          f, bytes, kept ▸ before, after⟩
    · refine .inr ⟨p, List.mem_cons_self, found, f, ?_⟩
      rcases ih with later | ⟨-, -, -, g, bytes', between, later⟩
      · exact ⟨bytes, before, later.trans after⟩
      · -- the file is rewritten once more
        rw [after] at between
        cases between
        exact ⟨bytes', before, later⟩

theorem BatchSteps.length_eq {t t' : FileTree} {ps : List Path} {outcomes : List FileOutcome}
    (steps : BatchSteps ids mode t ps outcomes t') : outcomes.length = ps.length := by
  induction steps with
  | nil => rfl
  | cons _ _ ih => rw [List.length_cons, List.length_cons, ih]

/-- Files are processed by steps in order, up to the first that fails. -/
theorem runOn_processAll (ids : IdSupply) (mode : Mode) (machine : Machine)
    (tree : machine.tree.IsTree) (ps : List Path) (report : BatchReport) :
    ∃ done rest outcomes after said, ps = done ++ rest ∧
      BatchSteps ids mode machine.tree done outcomes after ∧
      ((rest = [] ∧ runOn (processAll ids mode false report ps) machine =
          (.ok (outcomes.foldl BatchReport.record report), { tree := after, said })) ∨
        ∃ p more e, rest = p :: more ∧ StepFails ids mode after p e ∧
          runOn (processAll ids mode false report ps) machine = (.error e, { tree := after, said })) := by
  induction ps generalizing machine report with
  | nil => exact ⟨[], [], [], _, _, rfl, .nil, .inl ⟨rfl, rfl⟩⟩
  | cons p ps ih =>
    rw [processAll, runOn_bind, runOn_tryCatch]
    obtain ⟨said, ⟨outcome, next, step, run⟩ | ⟨e, fails, run⟩⟩ :=
      runOn_processFile ids mode machine tree p
    · rw [run]
      obtain ⟨done, rest, outcomes, after, said, split_here, steps, later⟩ :=
        ih { tree := next, said } (step.sameKinds.isTree tree) (report.record outcome)
      exact ⟨p :: done, rest, outcome :: outcomes, after, said, by rw [split_here, List.cons_append],
        .cons step steps, later⟩
    · rw [run]
      exact ⟨[], p :: ps, [], machine.tree, _, rfl, .nil, .inr ⟨p, ps, e, rfl, fails, rfl⟩⟩

/-- Whether a file was skipped, for whatever reason. -/
def FileOutcome.isSkipped : FileOutcome → Bool
  | .skipped _ => true
  | _ => false

/-- A report counts the outcomes of each kind. -/
theorem foldl_record (outcomes : List FileOutcome) (report : BatchReport) :
    outcomes.foldl BatchReport.record report =
      { rewritten := report.rewritten + outcomes.count .rewritten
        current := report.current + outcomes.count .alreadyCurrent
        skipped := report.skipped + outcomes.countP FileOutcome.isSkipped } := by
  induction outcomes generalizing report with
  | nil => rfl
  | cons outcome outcomes ih =>
    rw [List.foldl_cons, ih]
    cases outcome with
    | rewritten =>
      simp [BatchReport.record, FileOutcome.isSkipped]
      omega
    | alreadyCurrent =>
      simp [BatchReport.record, FileOutcome.isSkipped]
      omega
    | skipped reason =>
      simp [BatchReport.record, List.countP_cons, FileOutcome.isSkipped]
      omega

theorem total_foldl_record (outcomes : List FileOutcome) (report : BatchReport) :
    (outcomes.foldl BatchReport.record report).total = report.total + outcomes.length := by
  induction outcomes generalizing report with
  | nil => rfl
  | cons outcome outcomes ih =>
    rw [List.foldl_cons, ih, BatchReport.total_record, List.length_cons]
    omega

section

open OnMachine

theorem asksOnly_leadsOn (here : Path) (piece : List Char) : AsksOnly (Walk.leadsOn here piece) := by
  rw [Walk.leadsOn]
  split
  · exact .isDirectory here
  · exact (AsksOnly.ask _).bind fun _ => .pure _

theorem asksOnly_follow (pieces : List (List Char)) (here : Path) :
    AsksOnly (Walk.follow? here pieces) := by
  induction pieces generalizing here with
  | nil => exact .pure _
  | cons piece rest ih =>
    rw [Walk.follow?]
    refine (asksOnly_leadsOn here piece).bind fun leads => ?_
    split
    · exact ih _
    · exact .pure _

theorem asksOnly_followAll (pieces : List (List Char)) (paths : List Path) :
    AsksOnly (Walk.followAll pieces paths) := by
  induction paths with
  | nil => exact .pure _
  | cons path rest ih =>
    exact (asksOnly_follow pieces path).bind fun _ => ih.bind fun _ => .pure _

theorem asksOnly_keepFiles (paths : List Path) : AsksOnly (Walk.keepFiles paths) := by
  induction paths with
  | nil => exact .pure _
  | cons path rest ih => exact (AsksOnly.isFile path).bind fun _ => ih.bind fun _ => .pure _

theorem asksOnly_candidates (root : Path) (extension : List Char) :
    AsksOnly (Walk.candidates root extension) := by
  refine (asksOnly_follow (Walk.start root).2 _).bind fun base => ?_
  cases base with
  | none => exact .pure _
  | some base =>
    refine (AsksOnly.ask _).bind fun names => ?_
    split
    · exact .pure _
    · exact asksOnly_followAll _ _

/-- A walk asks which paths match and which of them lead to files, and tells how many there are. -/
theorem runOn_files (root : Path) (extension : List Char) (machine : Machine) :
    runOn (Walk.files root extension) machine =
      let matching := ((Walk.candidates root extension : OnMachine (List Path)) machine).1
      let found := ((Walk.keepFiles matching : OnMachine (List Path)) machine).1
      if ((Host.isDirectory root : OnMachine Bool) machine).1 then
        (.ok (found.mergeSort Path.le),
          { machine with said := machine.said ++ [.event (.filesFound found.length extension root)] })
      else (.error (.file root .noSuchRoot), machine) := by
  rw [Walk.files, runOn_bind, (AsksOnly.isDirectory root).runOn_lift]
  dsimp only
  split
  · rw [runOn_bind, (asksOnly_candidates root extension).runOn_lift]
    dsimp only
    rw [runOn_bind, (asksOnly_keepFiles _).runOn_lift]
    rfl
  · rfl

theorem runOn_paths_of_sorted {root : Path} {extension : List Char} {machine : Machine}
    (matching : List Path) {found : List Path}
    (directory : ((Host.isDirectory root : OnMachine Bool) machine).1 = true)
    (candidates : ((Walk.candidates root extension : OnMachine (List Path)) machine).1 = matching)
    (files : ((Walk.keepFiles matching : OnMachine (List Path)) machine).1 = found)
    (sorted : found.Pairwise fun p q => Path.le p q = true) :
    runOn (FileSource.walk root extension).paths machine =
      (.ok found, { machine with
        said := machine.said ++ [.event (.filesFound found.length extension root)] }) := by
  rw [FileSource.paths, runOn_files, candidates]
  dsimp only
  rw [files, if_pos directory, List.mergeSort_of_pairwise sorted]

end

/-- Choosing the files of a batch changes nothing. -/
theorem readsOnly_paths (source : FileSource) :
    OnMachine.ReadsOnly (source.paths : ExceptT Error OnMachine (List Path)).run := by
  intro machine
  cases source with
  | list paths => rfl
  | walk root extension =>
    show (runOn (Walk.files root extension) machine).2.tree = machine.tree
    rw [runOn_files]
    dsimp only
    split <;> rfl

/-- A batch changes only what it reports. Its steps are done in the order of the files, up to the first
that fails; only the bytes of files that are reported as rewritten change, and the report counts the
outcomes. A step changes its tree exactly if it is counted as rewritten. -/
theorem runBatch_changes_only_reported (ids : IdSupply) (mode : Mode) (source : FileSource)
    (machine : Machine) (tree : machine.tree.IsTree) :
    (∀ t p outcome t', BatchStep ids mode t p outcome t' → (t' ≠ t ↔ outcome = .rewritten)) ∧
    match runOn source.paths machine with
    | (.error e, _) =>
      ∃ said, runOn (runBatch ids mode false source) machine = (.error e, { machine with said })
    | (.ok paths, _) =>
      ∃ done rest outcomes after said, paths = done ++ rest ∧
        BatchSteps ids mode machine.tree done outcomes after ∧
        (∀ loc, after.get? loc = machine.tree.get? loc ∨
          ∃ p, (p, FileOutcome.rewritten) ∈ done.zip outcomes ∧ machine.tree.locate p = .ok loc ∧
            ∃ f bytes, machine.tree.get? loc = some (.file f) ∧
              after.get? loc = some (.file { f with bytes })) ∧
        match rest with
        | [] =>
          ∃ report : BatchReport,
            runOn (runBatch ids mode false source) machine = (.ok report, { tree := after, said }) ∧
            report.total = paths.length ∧
            report.rewritten = outcomes.count .rewritten ∧
            report.skipped = outcomes.countP FileOutcome.isSkipped ∧
            report.current = outcomes.count .alreadyCurrent
        | p :: _ =>
          ∃ e, StepFails ids mode after p e ∧
            runOn (runBatch ids mode false source) machine = (.error e, { tree := after, said }) := by
  refine ⟨fun t p outcome t' step => step.tree_ne_iff, ?_⟩
  have kept := readsOnly_paths source machine
  have batch := runOn_bind source.paths (processAll ids mode false {}) machine
  cases chosen : runOn source.paths machine with
  | mk result asked =>
    have kept : asked.tree = machine.tree := by
      rw [← kept]
      exact congrArg (·.2.tree) chosen.symm
    rw [chosen] at batch
    cases result with
    | error e => exact ⟨asked.said, by rw [runBatch, batch, ← kept]⟩
    | ok paths =>
      obtain ⟨done, rest, outcomes, after, said, split_here, steps, run⟩ :=
        runOn_processAll ids mode asked (kept ▸ tree) paths {}
      rw [kept] at steps
      refine ⟨done, rest, outcomes, after, said, split_here, steps, steps.changes, ?_⟩
      rcases run with ⟨rfl, run⟩ | ⟨p, more, e, rfl, fails, run⟩
      · refine ⟨_, batch.trans run, ?_, ?_, ?_, ?_⟩
        · rw [total_foldl_record, steps.length_eq, split_here, List.append_nil]
          exact Nat.zero_add _
        · rw [foldl_record]
          exact Nat.zero_add _
        · rw [foldl_record]
          exact Nat.zero_add _
        · rw [foldl_record]
          exact Nat.zero_add _
      · exact ⟨e, fails, batch.trans run⟩

/-- A file is rewritten and keeps its permission bits, and the next one in the list is not there. -/
theorem runBatch_rewrites_then_stops :
    let old := "---\n---\n# A\n".toList
    let new := "---\nheadings:\n- title: A\n  slug: a\n  depth: 1\n---\n\n# A\n".toList
    let holding := fun text : List Char =>
      ({ entries := ∅, workingDirectory := [] } : FileTree).insert ["a.md".toList]
        (.file { bytes := textBytes text, permissions := 0o640 })
    (holding old).IsTree ∧
      ∃ said, runOn (runBatch .counted (.headings {}) false (.list ["a.md".toList, "b.md".toList]))
          { tree := holding old } =
        (.error (.file "b.md".toList .notFound), { tree := holding new, said }) := by
  intro old new holding
  have isTree : (holding old).IsTree := isTree_single _ _
  have made : transformAt .counted (.headings {}) (holding old) "a.md".toList =
      .ok (old, .rewritten new) := by
    rw [transformAt_eq_ok]
    simp only [old, new, holding]
    decide +kernel
  have writable : ∃ made, (holding old).createTemporary (Path.directory "a.md".toList) = .ok made :=
    ⟨_, rfl⟩
  have rewrites : BatchStep .counted (.headings {}) (holding old) "a.md".toList .rewritten
      (holding new) := by
    rw [show holding new = (holding old).insert ["a.md".toList] _ from (insert_insert _ _ _).symm]
    exact .rewritten (f := { bytes := textBytes old, permissions := 0o640 }) rfl rfl made (by decide)
  have missing : transformAt .counted (.headings {}) (holding new) "b.md".toList =
      .error (.file "b.md".toList .notFound) := by
    have read : (holding new).text "b.md".toList = .error (.file "b.md".toList .notFound) := rfl
    rw [transformAt, read]
  refine ⟨isTree, ?_⟩
  obtain ⟨-, done, rest, outcomes, after, said, split_here, steps, -, run⟩ :=
    runBatch_changes_only_reported .counted (.headings {}) (.list ["a.md".toList, "b.md".toList])
      { tree := holding old } isTree
  cases steps with
  | nil =>
    cases split_here
    obtain ⟨e, fails, run⟩ := run
    cases fails with
    | text failed => cases made.symm.trans failed
    | write _ _ long =>
      obtain ⟨_, writable⟩ := writable
      cases writable.symm.trans long
  | cons step steps =>
    cases (List.cons.inj split_here).1
    obtain ⟨rfl, rfl⟩ := rewrites.unique step
    cases steps with
    | nil =>
      cases split_here
      obtain ⟨e, fails, run⟩ := run
      cases fails with
      | text failed =>
        cases missing.symm.trans failed
        exact ⟨said, run⟩
      | write made => cases missing.symm.trans made
    | cons step =>
      cases (List.cons.inj (List.cons.inj split_here).2).1
      obtain ⟨_, made⟩ := step.transforms
      cases missing.symm.trans made

end FrontToc
