import FrontToc.CommandLine.Run
import FrontToc.Proofs.BatchRun
import FrontToc.Proofs.DrawnIds

/-!
# What is printed is what is written

Printing a file and processing it in place read the same text and make the same of it. So the text that is
printed is the content that the file has after it is processed, also where the file is left as it is, and
one of the two fails if the other does, with the same error.
-/
namespace FrontToc

open FileTree

/-- A file is printed as what its text becomes, and nothing is changed. -/
theorem runOn_renderFile {flags : TransformFlags} {config : Config} {mode : Mode}
    (chosen : flags.mode config.headings = .ok mode) (ids : IdSupply) (machine : Machine) (p : Path) :
    ∃ said, runOn (renderFile ids flags config p) machine =
      ((transformAt ids mode machine.tree p).map fun (old, result) => result.text old,
        { machine with said }) := by
  rw [renderFile, chosen, runOn_bind, runOn_mk_pure]
  simp only [runOn_bind, runOn_readText]
  rw [transformAt]
  cases machine.tree.text p with
  | error e => exact ⟨machine.said, rfl⟩
  | ok old =>
    simp only [runOn_transformText]
    cases mode.transform ids old with
    | error e => exact ⟨_, rfl⟩
    | ok result => cases result <;> exact ⟨_, rfl⟩

/-- After a step the file holds the text that its old one becomes. -/
theorem BatchStep.read_eq {ids : IdSupply} {mode : Mode} {t t' : FileTree} {p : Path}
    {outcome : FileOutcome} (step : BatchStep ids mode t p outcome t') :
    ∃ old result, transformAt ids mode t p = .ok (old, result) ∧
      t'.read p = .ok (textBytes (result.text old)) := by
  have unchanged {old : List Char} (read : t.text p = .ok old) : t.read p = .ok (textBytes old) := by
    obtain ⟨loc, f, found, file, decoded⟩ := text_eq_ok read
    simp only [FileTree.read, found, file, textBytes_of_fromUTF8? decoded]
  cases step with
  | skipped made => exact ⟨_, _, made, unchanged (transformAt_eq_ok.mp made).1⟩
  | current made => exact ⟨_, _, made, unchanged (transformAt_eq_ok.mp made).1⟩
  | @rewritten old new loc f found file made other =>
    refine ⟨old, .rewritten new, made, ?_⟩
    have below : loc ≠ [] := by
      rintro rfl
      cases file
    have found_after := (sameKinds_insert_file file { f with bytes := textBytes new }).extends.locate found
    have entry := get?_insert t (.file { f with bytes := textBytes new }) below loc
    rw [if_pos rfl] at entry
    simp only [FileTree.read, found_after, entry]
    rfl

/-- The text at a path becomes the same, whichever ids are drawn for it. -/
theorem transformAt_eq_of_suits {ids ids' : IdSupply} {t : FileTree} {p : Path}
    (suits : ∀ old, t.text p = .ok old → ids.Suits old ∧ ids'.Suits old) (mode : Mode) :
    transformAt ids mode t p = transformAt ids' mode t p := by
  rw [transformAt, transformAt]
  cases read : t.text p with
  | error e => rfl
  | ok old =>
    obtain ⟨suits, suits'⟩ := suits old read
    dsimp only
    rw [transform_eq_of_suits suits suits']

/-- What is printed of a file is what the file holds after it is processed, be it rewritten, current or
skipped. If one of the two fails the other does, with the same error, and no file is changed. Printing
never changes a file. -/
theorem printed_text_is_written_text (ids ids' : IdSupply) {flags : TransformFlags} {config : Config}
    {mode : Mode} (chosen : flags.mode config.headings = .ok mode) (machine : Machine)
    (tree : machine.tree.IsTree) (p : Path) (writable : machine.tree.CanReplace p)
    (suits : ∀ old, machine.tree.text p = .ok old → ids.Suits old ∧ ids'.Suits old) :
    let printed := runOn (renderFile ids flags config p) machine
    let processed := runOn (processFile ids' mode false p) machine
    printed.2.tree = machine.tree ∧
      match printed.1, processed.1 with
      | .ok text, .ok _ => processed.2.tree.read p = .ok (textBytes text)
      | .error e, .error e' => e = e' ∧ processed.2.tree = machine.tree
      | .ok _, .error _ => False
      | .error _, .ok _ => False := by
  intro printed processed
  obtain ⟨said, print⟩ := runOn_renderFile chosen ids machine p
  rw [transformAt_eq_of_suits suits] at print
  have printed_eq : printed = _ := print
  obtain ⟨said', ⟨outcome, after, step, run⟩ | ⟨e, fails, run⟩⟩ :=
    runOn_processFile ids' mode machine tree p
  · have processed_eq : processed = _ := run
    obtain ⟨old, result, made, read⟩ := step.read_eq
    rw [printed_eq, processed_eq, made]
    exact ⟨rfl, read⟩
  · have processed_eq : processed = _ := run
    rw [printed_eq, processed_eq]
    cases fails with
    | text failed =>
      rw [failed]
      exact ⟨rfl, rfl, rfl⟩
    | write made _ long =>
      obtain ⟨loc, f, found, file, -⟩ := text_eq_ok (transformAt_eq_ok.mp made).1
      obtain ⟨_, allowed⟩ := writable loc found (kindAt?_eq_file.mpr ⟨f, file⟩)
      cases allowed.symm.trans long

/-- A file with code and a heading, printed and processed with other ids. -/
theorem printed_text_is_written_text_of_code :
    let old := "---\n---\n~~~\n# B\n~~~\n# A\n".toList
    let new := "---\nheadings:\n- title: A\n  slug: a\n  depth: 1\n---\n\n~~~\n# B\n~~~\n# A\n".toList
    let others : IdSupply := fun n => IdSupply.lastDigit (n + 1)
    let tree := ({ entries := ∅, workingDirectory := [] } : FileTree).insert ["a.md".toList]
      (.file { bytes := textBytes old, permissions := 0o640 })
    tree.IsTree ∧ (runOn (renderFile .lastDigit {} {} "a.md".toList) { tree }).1 = .ok new ∧
      ∃ outcome after,
        runOn (processFile others (.headings {}) false "a.md".toList) { tree } = (.ok outcome, after) ∧
        after.tree.read "a.md".toList = .ok (textBytes new) := by
  intro old new others tree
  have chosen : ({} : TransformFlags).mode ({} : Config).headings = .ok (.headings {}) := by decide
  have isTree : tree.IsTree := isTree_single _ _
  have writable : tree.CanReplace "a.md".toList := fun _ _ _ => ⟨_, rfl⟩
  have made : transformAt .lastDigit (.headings {}) tree "a.md".toList = .ok (old, .rewritten new) := by
    rw [transformAt_eq_ok]
    simp only [old, new, tree]
    decide +kernel
  have body : (splitFrontMatter? old).map FrontMatterSplit.body =
      some "\n~~~\n# B\n~~~\n# A\n".toList := by decide +kernel
  have distinct : IdSupply.lastDigit.DistinctFor "\n~~~\n# B\n~~~\n# A\n".toList :=
    IdSupply.distinctBelow_lastDigit.mono (by decide)
  have distinct_others : others.DistinctFor "\n~~~\n# B\n~~~\n# A\n".toList :=
    IdSupply.distinctBelow_lastDigit.succ.mono (by decide)
  have suits (text : List Char) (read : tree.text "a.md".toList = .ok text) :
      IdSupply.lastDigit.Suits text ∧ others.Suits text := by
    cases read.symm.trans (transformAt_eq_ok.mp made).1
    exact ⟨IdSupply.hexadecimal_lastDigit.suits body distinct,
      IdSupply.hexadecimal_lastDigit.succ.suits body distinct_others⟩
  have printed : (runOn (renderFile .lastDigit {} {} "a.md".toList) { tree }).1 = .ok new := by
    obtain ⟨_, print⟩ := runOn_renderFile chosen .lastDigit { tree } "a.md".toList
    rw [print, made]
    rfl
  have agree := (printed_text_is_written_text .lastDigit others chosen { tree } isTree "a.md".toList
    writable suits).2
  rw [printed] at agree
  refine ⟨isTree, printed, ?_⟩
  generalize runOn (processFile others (.headings {}) false "a.md".toList) { tree } = processed at agree ⊢
  obtain ⟨_ | outcome, after⟩ := processed
  · exact agree.elim
  · exact ⟨outcome, after, rfl, agree⟩

end FrontToc
