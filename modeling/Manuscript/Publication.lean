import Manuscript.Destination
import Manuscript.Report.Basic
import Manuscript.Source

/-!
# Publication

A source is published by resolving, reading and converting it and by writing the result to its
destination. The first of these steps that fails is the last one. A source can also be converted
without being published.
-/

namespace Manuscript

/-- The report of a source whose conversion was written to its destination. -/
def DocumentReport.ofConversion (config : Configuration) (source : Path) (conversion : Conversion) :
    DocumentReport where
  source
  destination := Destination.ofSource config source
  bytesWritten := conversion.latex.byteLength
  stats := some conversion.stats
  error := none

/-- The report of a source that could not be converted. -/
def DocumentReport.ofFailure (config : Configuration) (source : Path) (failure : Failure) :
    DocumentReport where
  source
  destination := Destination.ofSource config source
  bytesWritten := 0
  stats := none
  error := some (.ofFailure source failure)

variable {m : Type → Type} [Monad m] (fs : FileSystem m)

/-- The conversion of the source at the path; nothing is written. -/
def Source.convert (config : Configuration) (path : Path) : ExceptT Failure m Conversion := do
  let source ← Source.resolve fs path
  let text ← Source.read fs source
  return Document.convert config.options text

/-- Converts the source at the path and writes the result to its destination. -/
def Source.publish (config : Configuration) (path : Path) : ExceptT Failure m DocumentReport := do
  let conversion ← Source.convert fs config path
  Destination.write fs (Destination.ofSource config path) conversion.latex
  return .ofConversion config path conversion

end Manuscript
