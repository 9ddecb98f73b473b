import Manuscript.Report.Basic

/-!
# Reports about other paths

The paths in a report can be replaced by others, of another type if need be: by one for each
(`mapPaths`), or by such as there are for all of them (`mapPaths?`). Everything else stays.
-/

namespace Manuscript

variable {α β : Type}

namespace DocumentError

/-- The paths in an error. -/
def paths (error : DocumentError α) : List α := [error.path]

/-- The error about another path. -/
def mapPaths (f : α → β) : DocumentError α → DocumentError β
  | gone path => gone (f path)
  | unreadable path detail => unreadable (f path) detail
  | unwritable path detail => unwritable (f path) detail

/-- The error about another path, if there is one. -/
def mapPaths? (f : α → Option β) : DocumentError α → Option (DocumentError β)
  | gone path => return gone (← f path)
  | unreadable path detail => return unreadable (← f path) detail
  | unwritable path detail => return unwritable (← f path) detail

end DocumentError

namespace DocumentReport

/-- The paths in a report. -/
def paths (report : DocumentReport α) : List α :=
  report.source :: report.destination :: report.error.toList.flatMap DocumentError.paths

/-- The report about other paths. -/
def mapPaths (f : α → β) (report : DocumentReport α) : DocumentReport β where
  source := f report.source
  destination := f report.destination
  bytesWritten := report.bytesWritten
  stats := report.stats
  error := report.error.map (DocumentError.mapPaths f)
  milliseconds := report.milliseconds

/-- The report about other paths, if there is one for each. -/
def mapPaths? (f : α → Option β) (report : DocumentReport α) : Option (DocumentReport β) := do
  return {
    source := ← f report.source
    destination := ← f report.destination
    bytesWritten := report.bytesWritten
    stats := report.stats
    error := ← report.error.mapM (DocumentError.mapPaths? f)
    milliseconds := report.milliseconds }

end DocumentReport

namespace BatchReport

/-- The paths in the outcome of a batch. -/
def paths (batch : BatchReport α) : List α := batch.documents.flatMap DocumentReport.paths

/-- The outcome of a batch of other paths. -/
def mapPaths (f : α → β) (batch : BatchReport α) : BatchReport β where
  documents := batch.documents.map (DocumentReport.mapPaths f)
  counts := batch.counts

/-- The outcome of a batch of other paths, if there is one for each. -/
def mapPaths? (f : α → Option β) (batch : BatchReport α) : Option (BatchReport β) := do
  return {
    documents := ← batch.documents.mapM (DocumentReport.mapPaths? f)
    counts := batch.counts }

end BatchReport
end Manuscript
