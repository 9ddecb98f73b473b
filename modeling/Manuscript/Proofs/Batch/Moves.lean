import Manuscript.Batch.Directory
import Manuscript.FileTree.Edit
import Manuscript.Proofs.Publication
import Mathlib.Data.List.Perm.Basic

/-!
# The moves of a batch

What one move does to a batch is said once (`Batch.move_cases`): nothing, or a job starts, or a job
takes a step and goes on, or takes its last. So what each of these preserves, any moves preserve
(`Batch.moveAll_induction`). It follows that a batch has only so many moves to make
(`Batch.isDone_runFor`), and that none of its sources is lost on the way (`Batch.Moves.perm`).

This holds of every file system and of everybody who listens: a request may be answered in any way,
and whoever is told about the progress may change the files. Where the files are a `FileTree`,
nobody changes them but the batch if nobody listens (`Batch.silent`); or whoever listens deletes
sources when they are started (`Batch.vanishing`).
-/

namespace Manuscript

/-- Nobody listens to the progress of a batch. -/
def Batch.silent (_ : ProgressEvent) : StateM FileTree Unit := pure ()

/-- Whoever listens deletes some of the sources, each when he is told that it is started. -/
def Batch.vanishing (gone : List Path) : ProgressEvent → StateM FileTree Unit
  | .started source => if source ∈ gone then modify (·.unlink source) else pure ()
  | _ => pure ()

/-! ### The steps of a job -/

theorem Phase.stepsLeft_pos (phase : Phase) : 0 < phase.stepsLeft := by
  cases phase <;> simp [stepsLeft]

namespace Job

section

variable {σ : Type} (fs : FileSystem (StateM σ)) (config : Configuration) (source : Path)
  (state : σ)

theorem resolving_run : Job.advance fs config ⟨source, .resolving⟩ state =
    (match Source.resolution source (fs.kind source state).1 with
      | .ok _ => .continues ⟨source, .reading⟩
      | .error failure => .ends (.error failure), (fs.kind source state).2) := by
  have resolve : (Source.resolve fs source).run state =
      (Source.resolution source (fs.kind source state).1, (fs.kind source state).2) := rfl
  simp only [Job.advance, bind, StateT.bind, resolve]
  cases Source.resolution source (fs.kind source state).1 <;> rfl

theorem reading_run : Job.advance fs config ⟨source, .reading⟩ state =
    (match Source.content source (fs.read source state).1 with
      | .ok text => .continues ⟨source, .writing (Document.convert config.options text)⟩
      | .error failure => .ends (.error failure), (fs.read source state).2) := by
  have read : (Source.read fs source).run state =
      (Source.content source (fs.read source state).1, (fs.read source state).2) := rfl
  simp only [Job.advance, bind, StateT.bind, read]
  cases Source.content source (fs.read source state).1 <;> rfl

theorem writing_run (conversion : Conversion) :
    let written := fs.replace (Destination.ofSource config source) conversion.latex.encode state
    Job.advance fs config ⟨source, .writing conversion⟩ state =
      (.ends (Source.told config source conversion written.1), written.2) := by
  intro written
  have write : (Destination.write fs (Destination.ofSource config source) conversion.latex).run
      state = (Destination.outcome (Destination.ofSource config source) written.1, written.2) := rfl
  simp only [Job.advance, bind, StateT.bind, write]
  cases written.1 <;> rfl

end

section

variable (files : TemporaryFiles) (config : Configuration) (source : Path) (tree : FileTree)

theorem advance_resolving :
    Job.advance (FileTree.fileSystemWith files) config ⟨source, .resolving⟩ tree =
      (match Source.resolution source (tree.kind source) with
        | .ok _ => .continues ⟨source, .reading⟩
        | .error failure => .ends (.error failure), tree) :=
  resolving_run (FileTree.fileSystemWith files) config source tree

theorem advance_reading :
    Job.advance (FileTree.fileSystemWith files) config ⟨source, .reading⟩ tree =
      (match Source.content source (tree.read source) with
        | .ok text => .continues ⟨source, .writing (Document.convert config.options text)⟩
        | .error failure => .ends (.error failure), tree) :=
  reading_run (FileTree.fileSystemWith files) config source tree

theorem advance_writing (conversion : Conversion) :
    let written := tree.replaceAt files (Destination.ofSource config source) conversion.latex.encode
    Job.advance (FileTree.fileSystemWith files) config ⟨source, .writing conversion⟩ tree =
      (.ends (Source.told config source conversion written.1), written.2) :=
  writing_run (FileTree.fileSystemWith files) config source tree conversion

end

end Job

namespace Batch

variable {σ : Type} {fs : FileSystem (StateM σ)} {notify : ProgressEvent → StateM σ Unit}
  {config : Configuration} {batch after : Batch} {state state' : σ}

/-- What a move does to a batch and to what the file system keeps, if it can be made. -/
inductive Moves (fs : FileSystem (StateM σ)) (config : Configuration)
    (notify : ProgressEvent → StateM σ Unit) (batch : Batch) (state : σ) : Batch → σ → Prop
  | start {source waiting} : batch.waiting = source :: waiting →
      batch.running.length < config.concurrency →
      Moves fs config notify batch state
        { batch with
          waiting
          running := batch.running ++ [Job.start source]
          events := batch.events ++ [.started source] }
        (notify (.started source) state).2
  | continues {position job job' state'} : batch.running[position]? = some job →
      job.advance fs config state = (.continues job', state') →
      Moves fs config notify batch state
        { batch with running := batch.running.eraseIdx position ++ [job'] } state'
  | ends {position job outcome state'} : batch.running[position]? = some job →
      job.advance fs config state = (.ends outcome, state') →
      Moves fs config notify batch state
        { batch with
          running := batch.running.eraseIdx position
          finished := batch.finished ++ [reportOf config job.source outcome]
          events := batch.events ++ [eventOf job.source outcome] }
        (notify (eventOf job.source outcome) state').2

theorem moves_start (may : batch.canStart config) :
    Moves fs config notify batch state (batch.move fs config notify .start state).1
      (batch.move fs config notify .start state).2 := by
  cases waiting : batch.waiting with
  | nil => simp [canStart, waiting] at may
  | cons source rest =>
    have room : batch.running.length < config.concurrency := by
      simpa [canStart, waiting] using may
    simp only [Batch.move, waiting, if_pos may]
    exact .start waiting room

theorem moves_advance {position : Nat} {job : Job} (found : batch.running[position]? = some job) :
    Moves fs config notify batch state (batch.move fs config notify (.advance position) state).1
      (batch.move fs config notify (.advance position) state).2 := by
  simp only [Batch.move, found, bind, StateT.bind]
  cases stepped : job.advance fs config state with
  | mk progress state' =>
    cases progress with
    | continues job' => exact .continues found stepped
    | ends outcome => exact .ends found stepped

theorem move_start_idle (may : batch.canStart config = false) :
    batch.move fs config notify .start state = (batch, state) := by
  cases waiting : batch.waiting with
  | nil =>
    simp only [Batch.move, waiting]
    rfl
  | cons =>
    simp only [Batch.move, waiting, may]
    rfl

theorem move_advance_idle {position : Nat} (none : batch.running[position]? = none) :
    batch.move fs config notify (.advance position) state = (batch, state) := by
  simp only [Batch.move, none]
  rfl

/-- A move changes nothing, or does what it can do. -/
theorem move_cases (fs : FileSystem (StateM σ)) (config : Configuration)
    (notify : ProgressEvent → StateM σ Unit) (batch : Batch) (state : σ) (move : Move) :
    batch.move fs config notify move state = (batch, state) ∨
      Moves fs config notify batch state (batch.move fs config notify move state).1
        (batch.move fs config notify move state).2 := by
  cases move with
  | start =>
    cases may : batch.canStart config with
    | true => exact .inr (moves_start may)
    | false => exact .inl (move_start_idle may)
  | advance position =>
    cases found : batch.running[position]? with
    | some job => exact .inr (moves_advance found)
    | none => exact .inl (move_advance_idle found)

/-- **Runs.** What every move preserves that is made, any moves preserve. -/
theorem moveAll_induction {Holds : Batch → σ → Prop}
    (preserved : ∀ {batch after : Batch} {state state' : σ}, Holds batch state →
      Moves fs config notify batch state after state' → Holds after state')
    (h : Holds batch state) (made : List Move) :
    let moved := batch.moveAll fs config notify made state
    Holds moved.1 moved.2 := by
  induction made generalizing batch state with
  | nil => exact h
  | cons move rest ih =>
    show let moved := (batch.move fs config notify move state).1.moveAll fs config notify rest
          (batch.move fs config notify move state).2
      Holds moved.1 moved.2
    rcases move_cases fs config notify batch state move with idle | moves
    · -- a move that cannot be made is passed over
      rw [idle]
      exact ih h
    · exact ih (preserved h moves)

/-- Some moves and then others are made as all of them are. -/
theorem moveAll_append (made more : List Move) (batch : Batch) (state : σ) :
    batch.moveAll fs config notify (made ++ more) state =
      let run := batch.moveAll fs config notify made state
      run.1.moveAll fs config notify more run.2 := by
  induction made generalizing batch state with
  | nil => rfl
  | cons move rest ih =>
    exact ih (batch.move fs config notify move state).1 (batch.move fs config notify move state).2

/-! ### Where the sources are -/

theorem source_reportOf_told {source : Path} {conversion : Conversion}
    (answer : Except IoError Unit) :
    (reportOf config source (Source.told config source conversion answer)).source = source := by
  cases answer <;> rfl

/-- A job that goes on keeps its source, and has fewer steps left. -/
theorem advance_continues {job job' : Job}
    (h : job.advance fs config state = (.continues job', state')) :
    job'.source = job.source ∧ job'.phase.stepsLeft < job.phase.stepsLeft := by
  obtain ⟨source, phase⟩ := job
  cases phase with
  | resolving =>
    rw [Job.resolving_run] at h
    split at h <;> cases h
    exact ⟨rfl, Nat.lt_succ_self 2⟩
  | reading =>
    rw [Job.reading_run] at h
    split at h <;> cases h
    exact ⟨rfl, Nat.lt_succ_self 1⟩
  | writing conversion =>
    rw [Job.writing_run] at h
    cases h

/-- A job ends with the conversion of its source, or with a failure; if that says that there is no
such file, it is the source that is not there. -/
theorem advance_ends {job : Job} {outcome : Except Failure DocumentReport}
    (h : job.advance fs config state = (.ends outcome, state')) :
    (∃ conversion, outcome = .ok (.ofConversion config job.source conversion)) ∨
      ∃ failure, outcome = .error failure ∧
        ∀ path, failure = .noSuchFile path → path = job.source := by
  obtain ⟨source, phase⟩ := job
  cases phase with
  | resolving =>
    rw [Job.resolving_run] at h
    split at h <;> cases h
    next failed =>
    refine .inr ⟨_, rfl, fun path same => ?_⟩
    rw [same, Source.resolution.eq_def] at failed
    split at failed <;> cases failed
    rfl
  | reading =>
    rw [Job.reading_run] at h
    split at h <;> cases h
    next failed =>
    refine .inr ⟨_, rfl, fun path same => ?_⟩
    rw [same, Source.content.eq_def] at failed
    split at failed
    · split at failed <;> cases failed
    all_goals cases failed
    rfl
  | writing conversion =>
    rw [Job.writing_run] at h
    cases h
    cases (fs.replace (Destination.ofSource config source) conversion.latex.encode state).1 with
    | ok => exact .inl ⟨conversion, rfl⟩
    | error cause => exact .inr ⟨_, rfl, by simp⟩

/-- The report of a job is that of its source. -/
theorem source_reportOf_advance {job : Job} {outcome : Except Failure DocumentReport}
    (h : job.advance fs config state = (.ends outcome, state')) :
    (reportOf config job.source outcome).source = job.source := by
  rcases advance_ends h with ⟨_, rfl⟩ | ⟨_, rfl, -⟩ <;> rfl

/-- The jobs in flight are one of them and the others. -/
theorem perm_eraseIdx {position : Nat} {job : Job} (found : batch.running[position]? = some job) :
    batch.running.Perm (job :: batch.running.eraseIdx position) := by
  obtain ⟨bound, rfl⟩ := List.getElem?_eq_some_iff.1 found
  exact (List.getElem_cons_eraseIdx_perm bound).symm

/-- **Conservation.** No move loses a source or brings one in: each is waiting, in flight or
finished as often as before. -/
theorem Moves.perm (h : Moves fs config notify batch state after state') :
    (after.waiting ++ (after.running.map Job.source ++
      after.finished.map DocumentReport.source)).Perm
        (batch.waiting ++ (batch.running.map Job.source ++
          batch.finished.map DocumentReport.source)) := by
  -- a source changes its place in the list, which counting does not see
  refine List.perm_iff_count.2 fun path => ?_
  cases h with
  | start waiting room =>
    simp only [waiting, List.map_append, List.map_cons, List.map_nil, Job.start,
      List.cons_append, List.count_append, List.count_cons, List.count_nil]
    omega
  | continues found stepped =>
    have count := ((perm_eraseIdx found).map Job.source).count_eq path
    simp only [List.map_append, List.map_cons, List.map_nil, (advance_continues stepped).1,
      List.count_append, List.count_cons, List.count_nil] at count ⊢
    omega
  | ends found stepped =>
    have count := ((perm_eraseIdx found).map Job.source).count_eq path
    simp only [List.map_append, List.map_cons, List.map_nil, source_reportOf_advance stepped,
      List.count_append, List.count_cons, List.count_nil] at count ⊢
    omega

section

variable {sources : List Path} {source : Path} {job : Job}
  (accounted : (batch.waiting ++ (batch.running.map Job.source ++
    batch.finished.map DocumentReport.source)).Perm sources)

include accounted

theorem mem_of_finished (mem : source ∈ batch.finished.map DocumentReport.source) :
    source ∈ sources :=
  accounted.mem_iff.1 (List.mem_append_right _ (List.mem_append_right _ mem))

variable (distinct : sources.Nodup)

include distinct

/-- No source is finished twice. -/
theorem nodup_finished : (batch.finished.map DocumentReport.source).Nodup :=
  (List.nodup_append.1 (List.nodup_append.1 (accounted.nodup_iff.2 distinct)).2.1).2.1

/-- A source that is waiting is not in flight and not finished. -/
theorem apart_of_waiting (mem : source ∈ batch.waiting) :
    source ∈ sources ∧ source ∉ batch.running.map Job.source ∧
      source ∉ batch.finished.map DocumentReport.source := by
  have parted := (List.nodup_append.1 (accounted.nodup_iff.2 distinct)).2.2
  refine ⟨accounted.mem_iff.1 (List.mem_append_left _ mem), fun running => ?_, fun finished => ?_⟩
  · exact parted _ mem _ (List.mem_append_left _ running) rfl
  · exact parted _ mem _ (List.mem_append_right _ finished) rfl

/-- A source in flight is not waiting and not finished. -/
theorem apart_of_running (mem : job ∈ batch.running) :
    job.source ∈ sources ∧ job.source ∉ batch.waiting ∧
      job.source ∉ batch.finished.map DocumentReport.source := by
  have running : job.source ∈ batch.running.map Job.source := List.mem_map_of_mem mem
  have parted := List.nodup_append.1 (accounted.nodup_iff.2 distinct)
  refine ⟨accounted.mem_iff.1 (List.mem_append_right _ (List.mem_append_left _ running)),
    fun waiting => ?_, fun finished => ?_⟩
  · exact parted.2.2 _ waiting _ (List.mem_append_left _ running) rfl
  · exact (List.nodup_append.1 parted.2.1).2.2 _ running _ finished rfl

end

/-! ### Coming to an end -/

theorem isDone_iff : batch.isDone ↔ batch.waiting = [] ∧ batch.running = [] := by
  simp [isDone]

/-- When a batch is done, all its sources are finished. -/
theorem finished_perm_of_isDone {sources : List Path}
    (accounted : (batch.waiting ++ (batch.running.map Job.source ++
      batch.finished.map DocumentReport.source)).Perm sources) (done : batch.isDone) :
    (batch.finished.map DocumentReport.source).Perm sources := by
  obtain ⟨waiting, running⟩ := isDone_iff.1 done
  simpa [waiting, running] using accounted

/-- The steps that are left do not depend on the order of the jobs. -/
theorem stepsLeft_perm {jobs jobs' : List Job} (h : jobs.Perm jobs') :
    Job.stepsLeft jobs = Job.stepsLeft jobs' := by
  induction h with
  | nil => rfl
  | cons job _ ih => rw [Job.stepsLeft, Job.stepsLeft, ih]
  | swap job other jobs => exact Nat.add_left_comm _ _ _
  | trans _ _ ih ih' => exact ih.trans ih'

theorem stepsLeft_append_singleton (jobs : List Job) (job : Job) :
    Job.stepsLeft (jobs ++ [job]) = job.phase.stepsLeft + Job.stepsLeft jobs :=
  stepsLeft_perm (List.perm_append_singleton job jobs)

theorem stepsLeft_running {position : Nat} {job : Job}
    (found : batch.running[position]? = some job) : Job.stepsLeft batch.running =
      job.phase.stepsLeft + Job.stepsLeft (batch.running.eraseIdx position) :=
  stepsLeft_perm (perm_eraseIdx found)

/-- A move that is made leaves fewer to make. -/
theorem Moves.movesLeft_lt (h : Moves fs config notify batch state after state') :
    after.movesLeft < batch.movesLeft := by
  cases h with
  | start waiting room =>
    simp only [movesLeft, waiting, stepsLeft_append_singleton, List.length_cons, Job.start,
      Phase.stepsLeft]
    omega
  | continues found stepped =>
    have fewer := (advance_continues stepped).2
    simp only [movesLeft, stepsLeft_append_singleton, stepsLeft_running found]
    omega
  | @ends position job _ _ found stepped =>
    have := Phase.stepsLeft_pos job.phase
    simp only [movesLeft, stepsLeft_running found]
    omega

/-- As long as a source is left that was not tried, the next move can be made. -/
theorem moves_nextMove (h : batch.isDone = false) :
    Moves fs config notify batch state
      (batch.move fs config notify (batch.nextMove config) state).1
      (batch.move fs config notify (batch.nextMove config) state).2 := by
  rw [nextMove]
  split
  · next may => exact moves_start may
  · next full =>
    cases running : batch.running with
    | nil =>
      -- with no job in flight there is a free place, so it must be that no source is waiting
      have := config.concurrency_pos
      simp_all [canStart, isDone]
    | cons job others =>
      have first : batch.running[0]? = some job := by rw [running]; rfl
      exact moves_advance first

/-- **Termination.** With so many moves as it has left, a batch is done. -/
theorem isDone_runFor {moves : Nat} (h : batch.movesLeft ≤ moves) :
    (runFor fs config notify moves batch state).1.isDone := by
  induction moves generalizing batch state with
  | zero =>
    obtain ⟨waiting, running⟩ : batch.waiting = [] ∧ batch.running = [] := by
      rw [Nat.le_zero, movesLeft, Nat.add_eq_zero_iff] at h
      refine ⟨List.length_eq_zero_iff.1 (by omega), ?_⟩
      cases running : batch.running with
      | nil => rfl
      | cons job others =>
        have := Phase.stepsLeft_pos job.phase
        rw [running, Job.stepsLeft] at h
        omega
    show batch.isDone
    simp [isDone, waiting, running]
  | succ moves ih =>
    rw [runFor]
    split
    · next done => exact done
    · next more =>
      have moved : Moves fs config notify batch state _ _ :=
        moves_nextMove (Bool.eq_false_iff.2 more)
      exact ih (Nat.le_of_lt_succ (Nat.lt_of_lt_of_le moved.movesLeft_lt h))

/-- What a run comes to some moves come to. -/
theorem exists_moves_runFor (fs : FileSystem (StateM σ)) (config : Configuration)
    (notify : ProgressEvent → StateM σ Unit) (moves : Nat) (batch : Batch) (state : σ) :
    ∃ made : List Move,
      runFor fs config notify moves batch state = batch.moveAll fs config notify made state := by
  induction moves generalizing batch state with
  | zero => exact ⟨[], rfl⟩
  | succ moves ih =>
    rw [runFor]
    split
    · exact ⟨[], rfl⟩
    · obtain ⟨made, same⟩ := ih (batch.move fs config notify (batch.nextMove config) state).1
        (batch.move fs config notify (batch.nextMove config) state).2
      exact ⟨batch.nextMove config :: made, same⟩

end Batch
end Manuscript
