import Manuscript.Batch.Basic

/-!
# Batches of a directory

All sources of a directory are converted in one batch. The batch itself fails only if the directory
cannot be listed; a document that fails is told about in its report, and the others go on. The
outcome is either collected, with the reports in the order of their sources, or handed on document
by document in the order in which they finish.
-/

namespace Manuscript

/-- The reports of a batch in the order of their sources, with its counters. -/
def BatchReport.ofReports (discovered : Nat) (reports : List DocumentReport) : BatchReport :=
  let converted := (reports.filter (·.succeeded)).length
  { documents := reports.mergeSort fun first second => first.source.le second.source
    counts := { discovered, converted, failed := reports.length - converted } }

/-- A report as an item of a stream: the report of a success, or the error of a failure. -/
def DocumentReport.toItem (report : DocumentReport) : Except DocumentError DocumentReport :=
  match report.error with
  | none => .ok report
  | some error => .error error

variable {m : Type → Type} [Monad m] (fs : FileSystem m) (config : Configuration)
  (notify : ProgressEvent → m Unit)

/-- Converts the sources of a directory. The answer comes with the events of the batch; where there
are no sources there are no events. -/
def convertDirectory (directory : Path) :
    ExceptT Failure m (BatchReport × List ProgressEvent) := do
  let sources ← Source.discover fs directory config.sourceExtension
  if sources.isEmpty then return ({}, [])
  ExceptT.lift do
    let begun ← Batch.tell notify { waiting := sources } (.began sources.length)
    let done ← begun.run fs config notify
    let output := BatchReport.ofReports sources.length done.finished
    let told ← done.tell notify
      (.ended output.counts.discovered output.counts.converted)
    return (output, told.events)

/-- Converts the sources of a directory and hands on what comes of each as soon as it is done. -/
def streamDirectory (directory : Path) :
    ExceptT Failure m (List (Except DocumentError DocumentReport) × List ProgressEvent) := do
  let sources ← Source.discover fs directory config.sourceExtension
  let done ← ExceptT.lift (Batch.run fs config notify { waiting := sources })
  return (done.finished.map (·.toItem), done.events)

end Manuscript
