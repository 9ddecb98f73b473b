import Manuscript.Proofs.Batch.Moves

/-!
# Batches of a directory by any schedule

`convertDirectory` and `streamDirectory` make the moves of their batch in one order. Another
scheduler makes them in another; what it comes to is said by `convertDirectoryBy` and
`streamDirectoryBy`, which are told the moves. They give nothing if the moves do not bring the batch
to its end.

The order in which `convertDirectory` makes the moves is one of those (`exists_convertDirectory`),
and so is that of `streamDirectory` (`exists_streamDirectory`): what is shown for all moves holds of
the two.
-/

namespace Manuscript

section

variable {m : Type → Type} [Monad m] (fs : FileSystem m) (config : Configuration)
  (notify : ProgressEvent → m Unit) (made : List Batch.Move)

/-- Converts some sources by the given moves. -/
def Batch.collectBy (sources : List Path) : m (Option (BatchReport × List ProgressEvent)) := do
  let begun ← Batch.tell notify { waiting := sources } (.began sources.length)
  let done ← begun.moveAll fs config notify made
  if done.isDone then
    let output := BatchReport.ofReports sources.length done.finished
    let told ← done.tell notify (.ended output.counts.discovered output.counts.converted)
    return some (output, told.events)
  else return none

/-- Converts some sources by the given moves and hands on what comes of each. -/
def Batch.streamBy (sources : List Path) :
    m (Option (List (Except DocumentError DocumentReport) × List ProgressEvent)) := do
  let done ← Batch.moveAll fs config notify { waiting := sources } made
  return if done.isDone then some (done.finished.map (·.toItem), done.events) else none

/-- Converts the sources of a directory by the given moves. -/
def convertDirectoryBy (directory : Path) :
    ExceptT Failure m (Option (BatchReport × List ProgressEvent)) := do
  let sources ← Source.discover fs directory config.sourceExtension
  if sources.isEmpty then return some ({}, [])
  ExceptT.lift (Batch.collectBy fs config notify made sources)

/-- Converts the sources of a directory by the given moves and hands on what comes of each. -/
def streamDirectoryBy (directory : Path) :
    ExceptT Failure m
      (Option (List (Except DocumentError DocumentReport) × List ProgressEvent)) := do
  let sources ← Source.discover fs directory config.sourceExtension
  ExceptT.lift (Batch.streamBy fs config notify made sources)

end

variable {σ : Type} (fs : FileSystem (StateM σ)) (config : Configuration)
  (notify : ProgressEvent → StateM σ Unit) (made : List Batch.Move) (directory : Path)
  (sources : List Path) (state : σ)

/-! ### What the runs come to -/

namespace Batch

theorem collectBy_run : collectBy fs config notify made sources state =
    let begun : Batch := { waiting := sources, events := [.began sources.length] }
    let run := begun.moveAll fs config notify made (notify (.began sources.length) state).2
    let output := BatchReport.ofReports sources.length run.1.finished
    let ended := ProgressEvent.ended sources.length output.counts.converted
    if run.1.isDone then (some (output, run.1.events ++ [ended]), (notify ended run.2).2)
    else (none, run.2) := by
  -- the last event is told if the batch is done
  have finish : ∀ (done : Batch) (last : σ) (output : BatchReport) (ended : ProgressEvent),
      (if done.isDone then
        (return some (output, (← done.tell notify ended).events) :
          StateM σ (Option (BatchReport × List ProgressEvent)))
      else return none) last =
        if done.isDone then (some (output, done.events ++ [ended]), (notify ended last).2)
        else (none, last) := by
    intro done last output ended
    split <;> rfl
  exact finish _ _ _ _

theorem streamBy_run : streamBy fs config notify made sources state =
    let run := moveAll fs config notify { waiting := sources } made state
    (if run.1.isDone then some (run.1.finished.map (·.toItem), run.1.events) else none, run.2) :=
  rfl

end Batch

section

variable {sources state} {after : σ}
  (found : (Source.discover fs directory config.sourceExtension).run state = (.ok sources, after))

include found

/-- A directory without sources needs no moves, and nothing is told. -/
theorem convertDirectoryBy_of_isEmpty (empty : sources.isEmpty) :
    (convertDirectoryBy fs config notify made directory).run state =
      (.ok (some ({}, [])), after) := by
  rw [convertDirectoryBy, Source.bind_run, found]
  simp only [empty]
  rfl

theorem convertDirectoryBy_run (nonempty : sources.isEmpty = false) :
    (convertDirectoryBy fs config notify made directory).run state =
      (.ok (Batch.collectBy fs config notify made sources after).1,
        (Batch.collectBy fs config notify made sources after).2) := by
  rw [convertDirectoryBy, Source.bind_run, found]
  simp only [nonempty]
  rfl

theorem streamDirectoryBy_run :
    (streamDirectoryBy fs config notify made directory).run state =
      (.ok (Batch.streamBy fs config notify made sources after).1,
        (Batch.streamBy fs config notify made sources after).2) := by
  rw [streamDirectoryBy, Source.bind_run, found]
  rfl

end

/-! ### The order that is taken -/

section

variable {sources state} {after : σ}
  (found : (Source.discover fs directory config.sourceExtension).run state = (.ok sources, after))

include found

/-- The conversion of a directory makes some moves, and they bring its batch to its end. -/
theorem exists_convertDirectory : ∃ made output last,
    (convertDirectory fs config notify directory).run state = (.ok output, last) ∧
      (convertDirectoryBy fs config notify made directory).run state =
        (.ok (some output), last) := by
  cases empty : sources.isEmpty with
  | true =>
    refine ⟨[], ({}, []), after, ?_, ?_⟩
    · rw [convertDirectory, Source.bind_run, found]
      simp only [empty]
      rfl
    · exact convertDirectoryBy_of_isEmpty fs config notify [] directory found empty
  | false =>
    let begun : Batch := { waiting := sources, events := [.began sources.length] }
    obtain ⟨made, same⟩ := Batch.exists_moves_runFor fs config notify begun.movesLeft begun
      (notify (.began sources.length) after).2
    have done : (begun.runFor fs config notify begun.movesLeft
        (notify (.began sources.length) after).2).1.isDone :=
      Batch.isDone_runFor (Nat.le_refl _)
    refine ⟨made, ?_⟩
    rw [convertDirectoryBy_run fs config notify made directory found empty, Batch.collectBy_run]
    simp only [begun] at done same
    simp only [← same, if_pos done]
    rw [convertDirectory, Source.bind_run, found]
    simp only [empty]
    exact ⟨_, _, rfl, rfl⟩

theorem streamDirectory_run :
    let run := Batch.run fs config notify { waiting := sources } after
    (streamDirectory fs config notify directory).run state =
      (.ok (run.1.finished.map (·.toItem), run.1.events), run.2) := by
  rw [streamDirectory, Source.bind_run, found]
  rfl

/-- So does the stream of a directory. -/
theorem exists_streamDirectory : ∃ made output last,
    (streamDirectory fs config notify directory).run state = (.ok output, last) ∧
      (streamDirectoryBy fs config notify made directory).run state =
        (.ok (some output), last) := by
  let begun : Batch := { waiting := sources }
  obtain ⟨made, same⟩ := Batch.exists_moves_runFor fs config notify begun.movesLeft begun after
  have done : (begun.runFor fs config notify begun.movesLeft after).1.isDone :=
    Batch.isDone_runFor (Nat.le_refl _)
  refine ⟨made, ?_⟩
  rw [streamDirectoryBy_run fs config notify made directory found, Batch.streamBy_run,
    streamDirectory_run fs config notify directory found]
  simp only [begun] at done same
  simp only [← same, if_pos done]
  exact ⟨_, _, rfl, rfl⟩

end

end Manuscript
