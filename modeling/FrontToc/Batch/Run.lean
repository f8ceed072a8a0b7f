import FrontToc.Batch.Walk
import FrontToc.Files.Text
import FrontToc.Transform

/-!
Processing files in place, one after the other. A file is written only if its text changes, and the
first error ends the batch. A report counts what became of them.
-/
namespace FrontToc

/-- What became of a file. On a dry run a file counts as rewritten if it would get a new text. -/
inductive FileOutcome where
  | rewritten
  | alreadyCurrent
  | skipped (reason : SkipReason)
deriving DecidableEq, Repr

/-- How many files of a batch had each outcome. -/
structure BatchReport where
  rewritten : Nat := 0
  current : Nat := 0
  skipped : Nat := 0
deriving DecidableEq, Repr

namespace BatchReport

def record (report : BatchReport) : FileOutcome → BatchReport
  | .rewritten => { report with rewritten := report.rewritten + 1 }
  | .alreadyCurrent => { report with current := report.current + 1 }
  | .skipped _ => { report with skipped := report.skipped + 1 }

def total (report : BatchReport) : Nat :=
  report.rewritten + report.current + report.skipped

def text (report : BatchReport) : String :=
  s!"{report.total} files: {report.rewritten} rewritten, {report.current} already current, "
    ++ s!"{report.skipped} skipped"

theorem total_record (report : BatchReport) (outcome : FileOutcome) :
    (report.record outcome).total = report.total + 1 := by
  cases outcome <;> simp [record, total] <;> omega

end BatchReport

variable {m : Type → Type} [Monad m] [Host m]

def tellAll : List Event → m Unit
  | [] => return ()
  | e :: rest => do
    Host.tell e
    tellAll rest

def transformText (ids : IdSupply) (mode : Mode) (text : List Char) : ExceptT Error m Transform := do
  (tellAll (mode.events ids text) : m Unit)
  ExceptT.mk (return mode.transform ids text)

/-- Transforms a file in place; on a dry run it is left as it is. -/
def processFile (ids : IdSupply) (mode : Mode) (dryRun : Bool) (path : Path) :
    ExceptT Error m FileOutcome := do
  let old ← readText path
  match ← transformText ids mode old with
  | .unchanged reason =>
    (Host.tell (.skipping path reason) : m Unit)
    return .skipped reason
  | .rewritten new =>
    if new = old then
      (Host.tell (.alreadyCurrent path) : m Unit)
      return .alreadyCurrent
    else if dryRun then
      (Host.tell (.wouldReplace path) : m Unit)
      return .rewritten
    else
      replaceText path new
      (Host.tell (.replaced path) : m Unit)
      return .rewritten

/-- Processes files in order and counts their outcomes. The file with an error is told. -/
def processAll (ids : IdSupply) (mode : Mode) (dryRun : Bool) :
    BatchReport → List Path → ExceptT Error m BatchReport
  | report, [] => return report
  | report, path :: rest => do
    let outcome ←
      try processFile ids mode dryRun path
      catch e =>
        (Host.tell (.failed path e) : m Unit)
        throw e
    processAll ids mode dryRun (report.record outcome) rest

def runBatch (ids : IdSupply) (mode : Mode) (dryRun : Bool) (source : FileSource) :
    ExceptT Error m BatchReport := do
  processAll ids mode dryRun {} (← source.paths)

end FrontToc
