import Manuscript.Configuration

/-!
# Reports

What is told about the conversion of one document, and of all the documents of a batch. Time is not
measured: the durations in a report that the library makes are zero. A report is about paths of type
`α`: those that the library takes, where nothing else is said.
-/

namespace Manuscript

/-- The outcome of one document's conversion. -/
structure DocumentReport (α : Type := Path) where
  source : α
  /-- Where the result was written, or would have been. -/
  destination : α
  /-- The bytes written; none on failure. -/
  bytesWritten : Nat
  /-- The counters of the conversion, if it succeeded. -/
  stats : Option Stats
  /-- What went wrong, if it failed. -/
  error : Option (DocumentError α)
  milliseconds : Nat := 0
deriving DecidableEq, Repr

variable {α : Type}

namespace DocumentReport

/-- Whether the document was converted. -/
def succeeded (report : DocumentReport α) : Bool := report.error.isNone

/-- Whether the document was gone when it was to be read. -/
def isGone (report : DocumentReport α) : Bool :=
  match report.error with
  | some (.gone _) => true
  | _ => false

end DocumentReport

/-- The counters of a batch. -/
structure BatchCounts where
  discovered : Nat := 0
  converted : Nat := 0
  failed : Nat := 0
  milliseconds : Nat := 0
deriving DecidableEq, Repr

/-- The outcome of a batch. -/
structure BatchReport (α : Type := Path) where
  /-- One report for each source, in the order of their paths. -/
  documents : List (DocumentReport α) := []
  counts : BatchCounts := {}
deriving DecidableEq, Repr

namespace BatchReport

/-- The reports of documents that were not converted. -/
def failures (batch : BatchReport α) : List (DocumentReport α) :=
  batch.documents.filter (!·.succeeded)

/-- The failures other than those of documents that were gone. A document that is gone does not make
the batch unsuccessful. -/
def seriousFailures (batch : BatchReport α) : List (DocumentReport α) :=
  batch.failures.filter (!·.isGone)

end BatchReport
end Manuscript
