import Manuscript.Publication

/-!
# Jobs

The conversion of one document of a batch is a job. It is done in steps, so that several jobs can be
in flight together. Each step puts one request to the file system and then lets others have their
turn: first the source is resolved, then it is read (and its text converted), then the result is
written. A step that fails is the last one.
-/

namespace Manuscript

/-- The step that a job takes next. -/
inductive Phase
  | resolving
  | reading
  /-- Writing the conversion. -/
  | writing (conversion : Conversion)
deriving DecidableEq, Repr

/-- How many steps a job takes at most from a phase on. -/
def Phase.stepsLeft : Phase → Nat
  | resolving => 3
  | reading => 2
  | writing _ => 1

/-- The conversion of one document, under way. -/
structure Job where
  source : Path
  phase : Phase
deriving DecidableEq, Repr

/-- What a step leads to. -/
inductive Job.Progress
  /-- More steps are to come. -/
  | continues (job : Job)
  /-- The last step is taken: the document is converted, or has failed. -/
  | ends (outcome : Except Failure DocumentReport)

namespace Job

/-- How many steps some jobs take at most from where they are. -/
def stepsLeft : List Job → Nat
  | [] => 0
  | job :: jobs => job.phase.stepsLeft + stepsLeft jobs

/-- The job of a document whose conversion begins. -/
def start (source : Path) : Job := ⟨source, .resolving⟩

variable {m : Type → Type} [Monad m] (fs : FileSystem m)

/-- Takes one step. -/
def advance (config : Configuration) (job : Job) : m Progress := do
  match job.phase with
  | .resolving =>
    match ← (Source.resolve fs job.source).run with
    | .ok _ => return .continues { job with phase := .reading }
    | .error failure => return .ends (.error failure)
  | .reading =>
    match ← (Source.read fs job.source).run with
    | .ok text =>
      return .continues { job with phase := .writing (Document.convert config.options text) }
    | .error failure => return .ends (.error failure)
  | .writing conversion =>
    match ← (Destination.write fs (Destination.ofSource config job.source)
        conversion.latex).run with
    | .ok () => return .ends (.ok (.ofConversion config job.source conversion))
    | .error failure => return .ends (.error failure)

end Job
end Manuscript
