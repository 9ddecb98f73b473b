import Manuscript.Batch.Job

/-!
# Batches

A batch converts the sources of a directory, several at once. Its state says which sources are
waiting, which jobs are in flight, and what is finished. Two kinds of move change it: the job of a
waiting source starts, if fewer are in flight than the configuration allows, or a job in flight
takes a step. Any sequence of moves is a possible run (`Batch.moveAll`); `Batch.run` is the one that
fills the free places first and then gives every job a step in turn.

Somebody may be told about the progress and may act on what he is told: `notify` is called with each
event at the moment when it happens.
-/

namespace Manuscript

/-- What is told about the progress of a batch. -/
inductive ProgressEvent
  /-- The sources are known. -/
  | began (total : Nat)
  /-- A source is about to be read. -/
  | started (source : Path)
  /-- A source was converted to so many bytes. -/
  | converted (source : Path) (bytes : Nat)
  | failed (source : Path) (message : Text)
  /-- Every source has been tried, and so many were converted. -/
  | ended (total converted : Nat)
deriving DecidableEq, Repr

/-- A batch under way. -/
structure Batch where
  /-- The sources whose jobs have not started, in the order in which they will. -/
  waiting : List Path
  /-- The jobs in flight. -/
  running : List Job := []
  /-- The reports of the jobs that are done, in the order in which they finished. -/
  finished : List DocumentReport := []
  /-- The events so far, in order. -/
  events : List ProgressEvent := []
deriving DecidableEq, Repr

namespace Batch

/-- A change to a batch under way. -/
inductive Move
  /-- The job of the first waiting source starts. -/
  | start
  /-- The job at a position among those in flight takes a step. -/
  | advance (position : Nat)
deriving DecidableEq, Repr

/-- Whether every source has been tried. -/
def isDone (batch : Batch) : Bool := batch.waiting.isEmpty && batch.running.isEmpty

/-- Whether a waiting source may start. -/
def canStart (config : Configuration) (batch : Batch) : Bool :=
  !batch.waiting.isEmpty && batch.running.length < config.concurrency

/-- How many moves a batch takes at most until it is done. -/
def movesLeft (batch : Batch) : Nat :=
  4 * batch.waiting.length + Job.stepsLeft batch.running

/-- The report of a job that took its last step. -/
def reportOf (config : Configuration) (source : Path) :
    Except Failure DocumentReport → DocumentReport
  | .ok report => report
  | .error failure => .ofFailure config source failure

/-- What is told about a job that took its last step. -/
def eventOf (source : Path) : Except Failure DocumentReport → ProgressEvent
  | .ok report => .converted source report.bytesWritten
  | .error failure => .failed source failure.message

variable {m : Type → Type} [Monad m] (fs : FileSystem m) (config : Configuration)
  (notify : ProgressEvent → m Unit)

/-- The batch after an event, of which somebody was told. -/
def tell (batch : Batch) (event : ProgressEvent) : m Batch := do
  notify event
  return { batch with events := batch.events ++ [event] }

/-- The batch after a move. A move that cannot be made changes nothing. -/
def move (batch : Batch) : Move → m Batch
  | .start =>
    match batch.waiting with
    | source :: waiting =>
      if batch.canStart config then
        let started := { batch with waiting, running := batch.running ++ [Job.start source] }
        started.tell notify (.started source)
      else return batch
    | [] => return batch
  | .advance position =>
    match batch.running[position]? with
    | none => return batch
    | some job => do
      let others := batch.running.eraseIdx position
      match ← job.advance fs config with
      | .continues job => return { batch with running := others ++ [job] }
      | .ends outcome =>
        let report := reportOf config job.source outcome
        let ended := { batch with running := others, finished := batch.finished ++ [report] }
        ended.tell notify (eventOf job.source outcome)

/-- The batch after some moves. -/
def moveAll (batch : Batch) : List Move → m Batch
  | [] => return batch
  | next :: rest => do (← batch.move fs config notify next).moveAll rest

/-- The move that is made next if nothing else decides: a job starts if one may, else the job takes
a step that has waited longest for one. -/
def nextMove (batch : Batch) : Move := if batch.canStart config then .start else .advance 0

/-- The batch after at most so many moves, or when it is done. -/
def runFor : Nat → Batch → m Batch
  | 0, batch => return batch
  | moves + 1, batch =>
    if batch.isDone then return batch
    else do runFor moves (← batch.move fs config notify (batch.nextMove config))

/-- The batch when it is done. -/
def run (batch : Batch) : m Batch := runFor fs config notify batch.movesLeft batch

end Batch
end Manuscript
