import Manuscript.Proofs.Batch.Accounting
import Manuscript.Proofs.FileTree.Way

/-!
# Streams and batches agree

A directory is converted as a batch, with the reports collected and sorted, or as a stream that
hands on what comes of each document. Both make moves of the same kind, and the events that frame a
batch do not matter to its moves (`Batch.moveAll_ledBy`). So by the same moves they come to the
same.

* Libraries for temporary files make no difference but in the words of reasons: two batches that
  make the same moves, each with a library of its own, go side by side (`Batch.SideBySide`).
* Where only one document may be in flight, there is no choice of moves: whatever moves bring a
  batch to its end, they come to what `Batch.run` comes to (`Batch.moveAll_eq_run`).
* Where destinations are apart, the choice does not matter, but for the words of some reasons
  (`Batch.Follows`).

`streamDirectory_agrees` puts this together.
-/

namespace Manuscript

/-- Events of documents, framed by those that tell that the batch of a report began and ended. Where
there are no documents, nothing is told. -/
def BatchReport.framing (report : BatchReport) (told : List ProgressEvent) : List ProgressEvent :=
  if report.counts.discovered = 0 then []
  else .began report.counts.discovered :: told ++
    [.ended report.counts.discovered report.counts.converted]

namespace Batch

variable {σ : Type} {fs : FileSystem (StateM σ)} {config : Configuration}
  {notify : ProgressEvent → StateM σ Unit}

/-! ### Batches that were led by events -/

/-- The batch with some events before its own. -/
def ledBy (lead : List ProgressEvent) (batch : Batch) : Batch :=
  { batch with events := lead ++ batch.events }

/-- The events so far do not matter to a move. -/
theorem move_ledBy (lead : List ProgressEvent) (batch : Batch) (move : Move) (state : σ) :
    (batch.ledBy lead).move fs config notify move state =
      ((batch.move fs config notify move state).1.ledBy lead,
        (batch.move fs config notify move state).2) := by
  have same : ∀ event : ProgressEvent,
      lead ++ batch.events ++ [event] = lead ++ (batch.events ++ [event]) := by simp
  cases move with
  | start =>
    cases may : batch.canStart config with
    | false =>
      have may' : (batch.ledBy lead).canStart config = false := may
      rw [move_start_idle may, move_start_idle may']
    | true =>
      have may' : (batch.ledBy lead).canStart config = true := may
      cases waiting : batch.waiting with
      | nil => simp [canStart, waiting] at may
      | cons source rest =>
        have waiting' : (batch.ledBy lead).waiting = source :: rest := waiting
        simp only [Batch.move, waiting, waiting', if_pos may, if_pos may']
        show (_, _) = (_, _)
        simp only [ledBy, same]
        rfl
  | advance position =>
    cases found : batch.running[position]? with
    | none =>
      have found' : (batch.ledBy lead).running[position]? = none := found
      rw [move_advance_idle found, move_advance_idle found']
    | some job =>
      have found' : (batch.ledBy lead).running[position]? = some job := found
      simp only [Batch.move, found, found', bind, StateT.bind]
      cases job.advance fs config state with
      | mk progress state' =>
        cases progress with
        | continues job' => rfl
        | ends outcome =>
          show (_, _) = (_, _)
          simp only [ledBy, same]
          rfl

theorem moveAll_ledBy (lead : List ProgressEvent) (batch : Batch) (made : List Move) (state : σ) :
    (batch.ledBy lead).moveAll fs config notify made state =
      ((batch.moveAll fs config notify made state).1.ledBy lead,
        (batch.moveAll fs config notify made state).2) := by
  induction made generalizing batch state with
  | nil => rfl
  | cons move rest ih =>
    show ((batch.ledBy lead).move fs config notify move state).1.moveAll fs config notify rest
      ((batch.ledBy lead).move fs config notify move state).2 = _
    rw [move_ledBy]
    exact ih _ _

/-! ### One document at a time -/

/-- Nothing changes once every source has been tried. -/
theorem moveAll_of_isDone {batch : Batch} (done : batch.isDone) (made : List Move) (state : σ) :
    batch.moveAll fs config notify made state = (batch, state) := by
  obtain ⟨waiting, running⟩ := isDone_iff.1 done
  induction made generalizing state with
  | nil => rfl
  | cons move rest ih =>
    have idle : batch.move fs config notify move state = (batch, state) := by
      cases move with
      | start => exact move_start_idle (by simp [canStart, waiting])
      | advance position => exact move_advance_idle (by simp [running])
    show (batch.move fs config notify move state).1.moveAll fs config notify rest
      (batch.move fs config notify move state).2 = _
    rw [idle]
    exact ih state

theorem runFor_of_isDone {batch : Batch} (done : batch.isDone) (moves : Nat) (state : σ) :
    batch.runFor fs config notify moves state = (batch, state) := by
  cases moves with
  | zero => rfl
  | succ moves =>
    rw [runFor, if_pos done]
    rfl

/-- A run that has come to its end stays there. -/
theorem runFor_of_le {batch : Batch} {moves more : Nat} {state : σ} (le : moves ≤ more)
    (done : (batch.runFor fs config notify moves state).1.isDone) :
    batch.runFor fs config notify more state = batch.runFor fs config notify moves state := by
  induction moves generalizing batch more state with
  | zero => exact runFor_of_isDone done more state
  | succ moves ih =>
    obtain ⟨more, rfl⟩ : ∃ less, more = less + 1 := ⟨more - 1, by omega⟩
    rw [runFor, runFor] at *
    cases ended : batch.isDone with
    | true => simp
    | false =>
      simp only [ended] at done ⊢
      exact ih (by omega) done

/-- Where only one document may be in flight, a move that changes something is the next one. -/
theorem move_of_serial {batch : Batch} (one : config.concurrency = 1)
    (few : batch.running.length ≤ 1) (move : Move) (state : σ) :
    batch.move fs config notify move state = (batch, state) ∨
      batch.isDone = false ∧ move = batch.nextMove config := by
  cases move with
  | start =>
    cases may : batch.canStart config with
    | false => exact .inl (move_start_idle may)
    | true =>
      refine .inr ⟨?_, by rw [nextMove, if_pos may]⟩
      cases waiting : batch.waiting with
      | nil => simp [canStart, waiting] at may
      | cons => simp [isDone, waiting]
  | advance position =>
    cases found : batch.running[position]? with
    | none => exact .inl (move_advance_idle found)
    | some job =>
      -- the place is taken, so no other document starts
      obtain ⟨alone, rfl⟩ := eq_singleton_of_serial few found
      have full : batch.canStart config = false := by simp [canStart, alone, one]
      refine .inr ⟨by simp [isDone, alone], ?_⟩
      rw [nextMove, full]
      rfl

section

variable {sources : List Path} {lead : List ProgressEvent} {batch : Batch}
  (h : Accounted config sources lead batch) (plain : ∀ event ∈ lead, event.source? = none)
  (distinct : sources.Nodup) (one : config.concurrency = 1)

include h plain distinct one

theorem exists_runFor_moveAll (made : List Move) (state : σ) : ∃ moves,
    batch.moveAll fs config notify made state = batch.runFor fs config notify moves state := by
  induction made generalizing batch state with
  | nil => exact ⟨0, rfl⟩
  | cons move rest ih =>
    show ∃ moves, (batch.move fs config notify move state).1.moveAll fs config notify rest
      (batch.move fs config notify move state).2 = _
    rcases move_of_serial one (one ▸ h.room) move state with idle | ⟨more, rfl⟩
    · rw [idle]
      exact ih h state
    · have moved : Moves fs config notify batch state _ _ := moves_nextMove more
      obtain ⟨moves, same⟩ := ih (h.moves plain distinct moved)
        (batch.move fs config notify (batch.nextMove config) state).2
      refine ⟨moves + 1, ?_⟩
      rw [same, runFor, if_neg (by simp [more])]
      rfl

/-- **One at a time.** Moves that bring the batch to its end are those of its run. -/
theorem moveAll_eq_run (made : List Move) (state : σ)
    (done : (batch.moveAll fs config notify made state).1.isDone) :
    batch.moveAll fs config notify made state = batch.run fs config notify state := by
  obtain ⟨moves, same⟩ := exists_runFor_moveAll h plain distinct one made state
  have ran : (batch.run fs config notify state).1.isDone := isDone_runFor (Nat.le_refl _)
  rw [same] at done ⊢
  rcases Nat.le_total moves batch.movesLeft with le | le
  · exact (runFor_of_le le done).symm
  · exact runFor_of_le le ran

end

end Batch

/-! ### Two libraries for temporary files -/

namespace Batch

/-- Two batches under way, each in a tree, that differ in the words of some reasons at most, where
certain requests are refused. -/
structure SideBySide (refusals : Refusals) (batch : Batch) (tree : FileTree) (other : Batch)
    (tree' : FileTree) : Prop where
  waiting : other.waiting = batch.waiting
  running : other.running = batch.running
  finished : other.finished.map (·.settle refusals.wordsVary) =
    batch.finished.map (·.settle refusals.wordsVary)
  same : tree'.Same tree
  refusals : tree.refusals = refusals

variable {config : Configuration} {refusals : Refusals} {files files' : TemporaryFiles}
  {batch other : Batch} {tree tree' : FileTree}

theorem sideBySide_refl (batch : Batch) (tree : FileTree) :
    SideBySide tree.refusals batch tree batch tree :=
  ⟨rfl, rfl, rfl, .refl tree, rfl⟩

variable (documented : files.AsDocumented) (documented' : files'.AsDocumented)

include documented documented'

/-- **A step.** A job takes the same step, or ends with reports that differ in words at most. -/
theorem sideBySide_advance (same : tree'.Same tree) (job : Job) :
    (∃ job', job.advance (FileTree.fileSystemWith files) config tree = (.continues job', tree) ∧
      job.advance (FileTree.fileSystemWith files') config tree' = (.continues job', tree')) ∨
    ∃ outcome after outcome' after',
      job.advance (FileTree.fileSystemWith files) config tree = (.ends outcome, after) ∧
      job.advance (FileTree.fileSystemWith files') config tree' = (.ends outcome', after') ∧
      (reportOf config job.source outcome').settle tree.refusals.wordsVary =
        (reportOf config job.source outcome).settle tree.refusals.wordsVary ∧
      after'.Same after ∧ after.refusals = tree.refusals := by
  obtain ⟨source, phase⟩ := job
  cases phase with
  | resolving =>
    rw [Job.advance_resolving, Job.advance_resolving, same.kind]
    cases Source.resolution source (tree.kind source) with
    | ok => exact .inl ⟨_, rfl, rfl⟩
    | error failure => exact .inr ⟨_, _, _, _, rfl, rfl, rfl, same, rfl⟩
  | reading =>
    rw [Job.advance_reading, Job.advance_reading, same.read]
    cases Source.content source (tree.read source) with
    | ok text => exact .inl ⟨_, rfl, rfl⟩
    | error failure => exact .inr ⟨_, _, _, _, rfl, rfl, rfl, same, rfl⟩
  | writing conversion =>
    obtain ⟨answer, after⟩ := same.replaceAt documented' documented
      (Destination.ofSource_eq config source) conversion.latex.encode
    refine .inr ⟨_, _, _, _, Job.advance_writing files config source tree conversion,
      Job.advance_writing files' config source tree' conversion, ?_, after, ?_⟩
    · exact settle_reportOf_told answer.eq_or_wordsVary
    · exact FileTree.refusals_replaceAt documented (Destination.ofSource_eq config source) tree _

/-- **A move.** Two batches stay side by side when both make it. -/
theorem SideBySide.move (h : SideBySide refusals batch tree other tree') (move : Move) :
    let moved := batch.move (FileTree.fileSystemWith files) config silent move tree
    let moved' := other.move (FileTree.fileSystemWith files') config silent move tree'
    SideBySide refusals moved.1 moved.2 moved'.1 moved'.2 := by
  cases move with
  | start =>
    have may' : other.canStart config = batch.canStart config := by
      rw [canStart, canStart, h.waiting, h.running]
    cases may : batch.canStart config with
    | false =>
      rw [move_start_idle may, move_start_idle (may'.trans may)]
      exact h
    | true =>
      cases waiting : batch.waiting with
      | nil => simp [canStart, waiting] at may
      | cons source rest =>
        simp only [Batch.move, waiting, h.waiting, if_pos may, if_pos (may'.trans may)]
        exact ⟨rfl, congrArg (· ++ [Job.start source]) h.running, h.finished, h.same, h.refusals⟩
  | advance position =>
    cases found : batch.running[position]? with
    | none =>
      rw [move_advance_idle found, move_advance_idle (by rw [h.running, found])]
      exact h
    | some job =>
      simp only [Batch.move, found, h.running, bind, StateT.bind]
      obtain ⟨job', stepped, stepped'⟩ | ⟨outcome, after, outcome', after', stepped, stepped',
        settled, same, kept⟩ := sideBySide_advance documented documented' h.same job
      · rw [stepped, stepped']
        exact ⟨h.waiting, rfl, h.finished, h.same, h.refusals⟩
      · rw [stepped, stepped']
        refine ⟨h.waiting, rfl, ?_, same, kept.trans h.refusals⟩
        show (other.finished ++ [reportOf config job.source outcome']).map _ =
          (batch.finished ++ [reportOf config job.source outcome]).map _
        rw [h.refusals] at settled
        simp only [List.map_append, List.map_cons, List.map_nil, h.finished, settled]

/-- **A run.** And so when both make the same moves. -/
theorem SideBySide.moveAll (h : SideBySide refusals batch tree other tree') (made : List Move) :
    let moved := batch.moveAll (FileTree.fileSystemWith files) config silent made tree
    let moved' := other.moveAll (FileTree.fileSystemWith files') config silent made tree'
    SideBySide refusals moved.1 moved.2 moved'.1 moved'.2 := by
  induction made generalizing batch tree other tree' with
  | nil => exact h
  | cons move rest ih => exact ih (h.move documented documented' move)

omit documented documented' in
theorem SideBySide.isDone (h : SideBySide refusals batch tree other tree') :
    other.isDone = batch.isDone := by
  rw [Batch.isDone, Batch.isDone, h.waiting, h.running]

/-- Where the moves are the same, or there is no choice of moves, two batches come to their ends
side by side. -/
theorem sideBySide_of_isDone {sources : List Path} (distinct : sources.Nodup)
    {made made' : List Move} {start : FileTree} (same : made' = made ∨ config.concurrency = 1)
    (done : (moveAll (FileTree.fileSystemWith files) config silent { waiting := sources } made
      start).1.isDone)
    (done' : (moveAll (FileTree.fileSystemWith files') config silent { waiting := sources } made'
      start).1.isDone) :
    let run := moveAll (FileTree.fileSystemWith files) config silent { waiting := sources } made
      start
    let run' := moveAll (FileTree.fileSystemWith files') config silent { waiting := sources } made'
      start
    SideBySide start.refusals run.1 run.2 run'.1 run'.2 := by
  intro run run'
  have besides : SideBySide start.refusals run.1 run.2 _ _ :=
    (sideBySide_refl { waiting := sources } start).moveAll documented documented' made
  rcases same with rfl | one
  · exact besides
  · -- whatever moves the second batch made, it came to what the moves of the first come to
    have plain : ∀ event ∈ ([] : List ProgressEvent), event.source? = none :=
      List.forall_mem_nil _
    have begun : Accounted config sources [] { waiting := sources } :=
      accounted_start config sources plain
    have equal : run' = moveAll (FileTree.fileSystemWith files') config silent
        { waiting := sources } made start := by
      rw [moveAll_eq_run begun plain distinct one made start (besides.isDone.trans done)]
      exact moveAll_eq_run begun plain distinct one made' start done'
    rw [equal]
    exact besides

end Batch

/-! ### What collects and what hands on -/

section

variable {σ : Type} {fs : FileSystem (StateM σ)} {config : Configuration}
  {notify : ProgressEvent → StateM σ Unit} {made : List Batch.Move} {directory : Path}
  {state after last : σ} {sources : List Path}
  (found : (Source.discover fs directory config.sourceExtension).run state = (.ok sources, after))

include found

/-- A directory that was converted was converted by a batch, if whoever listens does something about
single documents only. -/
theorem eq_of_convertDirectoryBy {report : BatchReport} {events : List ProgressEvent}
    (idle : ∀ event state, event.source? = none → notify event state = ((), state))
    (h : (convertDirectoryBy fs config notify made directory).run state =
      (.ok (some (report, events)), last)) :
    let run := Batch.moveAll fs config notify { waiting := sources } made after
    run.1.isDone ∧ report = .ofReports sources.length run.1.finished ∧
      events = report.framing run.1.events ∧ last = run.2 := by
  cases empty : sources.isEmpty with
  | true =>
    rw [convertDirectoryBy_of_isEmpty fs config notify made directory found empty] at h
    obtain rfl := List.isEmpty_iff.1 empty
    rw [Batch.moveAll_of_isDone rfl]
    cases h
    refine ⟨rfl, ?_, rfl, rfl⟩
    rw [BatchReport.ofReports, List.mergeSort_nil]
    rfl
  | false =>
    rw [convertDirectoryBy_run fs config notify made directory found empty,
      Batch.collectBy_run] at h
    intro run
    have begun : Batch.moveAll fs config notify
        { waiting := sources, events := [.began sources.length] } made
        (notify (.began sources.length) after).2 =
          (run.1.ledBy [.began sources.length], run.2) := by
      rw [idle (.began sources.length) after rfl]
      exact Batch.moveAll_ledBy [.began sources.length] { waiting := sources } made after
    simp only [begun, idle (.ended _ _) _ rfl] at h
    have some_discovered : sources.length ≠ 0 := fun none => by
      simp [List.length_eq_zero_iff.1 none] at empty
    have framing : ∀ told, (BatchReport.ofReports sources.length run.1.finished).framing told =
        .began sources.length :: told ++ [.ended sources.length
          (BatchReport.ofReports sources.length run.1.finished).counts.converted] :=
      fun told => if_neg some_discovered
    have done : run.1.isDone := by
      by_contra more
      have more' : (run.1.ledBy [.began sources.length]).isDone ≠ true := more
      rw [if_neg more'] at h
      cases h
    have done' : (run.1.ledBy [.began sources.length]).isDone = true := done
    rw [if_pos done'] at h
    cases h
    exact ⟨done, rfl, (framing run.1.events).symm, rfl⟩

/-- A stream whose batch is done has handed on what came of each document. -/
theorem streamDirectoryBy_of_isDone
    (done : (Batch.moveAll fs config notify { waiting := sources } made after).1.isDone) :
    let run := Batch.moveAll fs config notify { waiting := sources } made after
    (streamDirectoryBy fs config notify made directory).run state =
      (.ok (some (run.1.finished.map DocumentReport.toItem, run.1.events)), run.2) := by
  rw [streamDirectoryBy_run fs config notify made directory found, Batch.streamBy_run]
  simp only [if_pos done]

theorem eq_of_streamDirectoryBy {items : List (Except DocumentError DocumentReport)}
    {told : List ProgressEvent}
    (h : (streamDirectoryBy fs config notify made directory).run state =
      (.ok (some (items, told)), last)) :
    let run := Batch.moveAll fs config notify { waiting := sources } made after
    run.1.isDone ∧ items = run.1.finished.map DocumentReport.toItem ∧ told = run.1.events ∧
      last = run.2 := by
  rw [streamDirectoryBy_run fs config notify made directory found, Batch.streamBy_run] at h
  intro run
  have answer := Except.ok.inj (congrArg Prod.fst h)
  dsimp only at answer
  split at answer <;> cases answer
  next done => exact ⟨done, rfl, rfl, (congrArg Prod.snd h).symm⟩

end

/-- How what a stream hands on agrees with a batch report and its events, but for what is left out
when a report is settled. -/
structure BatchReport.StreamedAs (report : BatchReport) (events : List ProgressEvent)
    (settle : DocumentReport → DocumentReport)
    (items : List (Except DocumentError DocumentReport)) (told : List ProgressEvent) : Prop where
  /-- The items are those of some reports, and so are the events; and the reports, in whatever
  order, are those of the batch. -/
  streamed : ∃ reports : List DocumentReport, items = reports.map DocumentReport.toItem ∧
    told.Perm (reports.flatMap DocumentReport.told) ∧
    (reports.map settle).Perm (report.documents.map settle)
  /-- The batch tells of its documents the same, and beyond that only that it began and ended. -/
  framed : ∃ between, events = report.framing between ∧
    between.Perm (report.documents.flatMap DocumentReport.told)

namespace Batch

variable {config : Configuration} {directory : Path} {start : FileTree} {extension : Text}
  {sources : List Path} {batch other : Batch} {tree after : FileTree}
  {files files' : TemporaryFiles}

theorem silent_idle (event : ProgressEvent) (tree : FileTree) : silent event tree = ((), tree) :=
  rfl

/-- What was told when a batch is done. -/
theorem Accounted.told_of_isDone (h : Accounted config sources [] batch) (done : batch.isDone) :
    batch.events.Perm (batch.finished.flatMap DocumentReport.told) := by
  have running := (isDone_iff.1 done).2
  simpa [Batch.told, running] using h.told

/-- Two batches that are done agree as soon as their reports do. -/
theorem streamedAs_of_perm (h : Accounted config sources [] batch)
    (h' : Accounted config sources [] other) (done : batch.isDone) (done' : other.isDone)
    (settle : DocumentReport → DocumentReport)
    (perm : (other.finished.map settle).Perm (batch.finished.map settle)) :
    let report := BatchReport.ofReports sources.length batch.finished
    report.StreamedAs (report.framing batch.events) settle
      (other.finished.map DocumentReport.toItem) other.events := by
  intro report
  have sorted : report.documents.Perm batch.finished := List.mergeSort_perm _ _
  refine ⟨⟨other.finished, rfl, h'.told_of_isDone done', ?_⟩, batch.events, rfl, ?_⟩
  · exact perm.trans (sorted.map settle).symm
  · exact (h.told_of_isDone done).trans (sorted.flatMap_right DocumentReport.told).symm

/-- Where no words vary, there is nothing to settle. -/
theorem Accounted.map_settle {vary : Path → Bool} (h : Accounted config sources [] batch)
    (constant : ∀ source ∈ sources, vary (Destination.ofSource config source) = false) :
    batch.finished.map (·.settle vary) = batch.finished.map id := by
  refine List.map_congr_left fun report mem => ?_
  have known : report.source ∈ sources :=
    h.accounted.mem_iff.1
      (List.mem_append_right _ (List.mem_append_right _ (List.mem_map_of_mem mem)))
  rw [DocumentReport.settle, (h.sound report mem).destination, constant report.source known]
  rfl

/-- Where destinations are apart, batches that are done have the same reports, settled alike. -/
theorem Follows.finished_settled_perm (h : Follows files config start sources batch tree)
    (h' : Follows files config start sources other after) (done : batch.isDone)
    (done' : other.isDone) :
    (other.finished.map start.settled).Perm (batch.finished.map start.settled) := by
  -- each report is that of its source alone
  have reports : ∀ {batch : Batch} {tree : FileTree},
      Follows files config start sources batch tree →
      batch.finished.map start.settled = (batch.finished.map DocumentReport.source).map
        fun source => start.settled (alone files config start source) := by
    intro batch tree h
    rw [List.map_map]
    exact List.map_congr_left fun report mem => h.reported report mem
  rw [reports h, reports h']
  exact ((h'.finished_perm done').trans (h.finished_perm done).symm).map _

end Batch

/-- **Streams and batches agree.** A directory that cannot be listed makes both fail alike.
Otherwise both come to an end, each with a library of its own for temporary files, and by whatever
moves they do:

* by the same moves, or if only one document may be in flight, they agree, and in the second case
  the items come in the order of the documents; and they leave the same tree. Only the words may
  vary in which it is told that a temporary file is refused, and the agreement is exact where none
  is.
* if no result takes the place of another source, of a link on the way to one, or of a link on the
  way to the output directory, they leave the same tree, and they agree, but for words that may vary
  (`FileTree.wordsVary`); and the agreement is exact where none do. -/
theorem streamDirectory_agrees (files files' : TemporaryFiles) (documented : files.AsDocumented)
    (documented' : files'.AsDocumented) (config : Configuration) (directory : Path)
    (start : FileTree) :
    (∀ failure,
      ((Source.discover (FileTree.fileSystemWith files) directory config.sourceExtension).run
        start).1 = .error failure →
      (convertDirectory (FileTree.fileSystemWith files) config Batch.silent directory).run start =
        (.error failure, start) ∧
      (streamDirectory (FileTree.fileSystemWith files') config Batch.silent directory).run start =
        (.error failure, start)) ∧
    ∀ sources,
      ((Source.discover (FileTree.fileSystemWith files) directory config.sourceExtension).run
        start).1 = .ok sources →
      (∃ made output after,
        (convertDirectory (FileTree.fileSystemWith files) config Batch.silent directory).run start =
          (.ok output, after) ∧
        (convertDirectoryBy (FileTree.fileSystemWith files) config Batch.silent made directory).run
          start = (.ok (some output), after)) ∧
      (∃ made output after,
        (streamDirectory (FileTree.fileSystemWith files') config Batch.silent directory).run start =
          (.ok output, after) ∧
        (streamDirectoryBy (FileTree.fileSystemWith files') config Batch.silent made directory).run
          start = (.ok (some output), after)) ∧
      ∀ made report events after made' items told after',
        (convertDirectoryBy (FileTree.fileSystemWith files) config Batch.silent made directory).run
          start = (.ok (some (report, events)), after) →
        (streamDirectoryBy (FileTree.fileSystemWith files') config Batch.silent made'
          directory).run start = (.ok (some (items, told)), after') →
        (made' = made ∨ config.concurrency = 1 →
          report.StreamedAs events (·.settle start.refusals.wordsVary) items told ∧
          after'.Same after ∧
          ((∀ source ∈ sources,
              start.refusals.wordsVary (Destination.ofSource config source) = false) →
            report.StreamedAs events id items told)) ∧
        (config.concurrency = 1 →
          ∃ reports : List DocumentReport, items = reports.map DocumentReport.toItem ∧
            reports.map (·.settle start.refusals.wordsVary) =
              report.documents.map (·.settle start.refusals.wordsVary) ∧
            ((∀ source ∈ sources,
                start.refusals.wordsVary (Destination.ofSource config source) = false) →
              items = report.documents.map DocumentReport.toItem)) ∧
        (Batch.Apart config start sources →
          report.StreamedAs events start.settled items told ∧ after'.Same after ∧
          ((∀ source ∈ sources, start.wordsVary (Destination.ofSource config source) = false) →
            report.StreamedAs events id items told)) := by
  refine ⟨fun failure failed => ?_, fun sources listed => ?_⟩
  · have found := Source.discover_run_of_fst files failed
    have found' := Source.discover_run_of_fst files' failed
    rw [convertDirectory, streamDirectory, Source.bind_run, Source.bind_run, found, found']
    exact ⟨rfl, rfl⟩
  · have found := Source.discover_run_of_fst files listed
    have found' := Source.discover_run_of_fst files' listed
    have discovered := Source.discovered_of_run listed
    refine ⟨exists_convertDirectory _ _ _ _ found, exists_streamDirectory _ _ _ _ found', ?_⟩
    intro made report events after made' items told after' converted streamed
    obtain ⟨done, rfl, rfl, rfl⟩ :=
      eq_of_convertDirectoryBy found (fun event tree _ => Batch.silent_idle event tree) converted
    obtain ⟨done', rfl, rfl, rfl⟩ := eq_of_streamDirectoryBy found' streamed
    -- both batches satisfy the invariant of accounting
    have plain : ∀ event ∈ ([] : List ProgressEvent), event.source? = none :=
      List.forall_mem_nil _
    have begun : Batch.Accounted config sources [] { waiting := sources } :=
      Batch.accounted_start config sources plain
    have accounted := fun files made => begun.moveAll plain discovered.nodup
      (FileTree.fileSystemWith files) Batch.silent made start
    have agrees :=
      Batch.streamedAs_of_perm (accounted files made) (accounted files' made') done done'
    have beside := fun same => Batch.sideBySide_of_isDone documented documented' discovered.nodup
      same done done'
    refine ⟨fun same => ?_, fun one => ?_, fun apart => ?_⟩
    · have settled := (beside same).finished
      refine ⟨agrees _ (.of_eq settled), (beside same).same, fun constant => agrees id ?_⟩
      rw [(accounted files made).map_settle constant, (accounted files' made').map_settle constant]
        at settled
      exact .of_eq settled
    · have settled := (beside (.inr one)).finished
      have ordered := (accounted files made).documents_of_serial discovered.toListed done one
      refine ⟨_, rfl, by rw [settled, ordered], fun constant => ?_⟩
      rw [(accounted files made).map_settle constant, (accounted files' made').map_settle constant,
        List.map_id, List.map_id] at settled
      rw [settled, ordered]
    · -- and if destinations are apart, that of independence
      have begins : Batch.Follows files config start sources { waiting := sources } start :=
        Batch.follows_start files (List.Perm.refl sources) []
      have follows := begins.moveAll discovered apart documented documented made
      have follows' := begins.moveAll discovered apart documented' documented made'
      have settled := follows.finished_settled_perm follows' done done'
      refine ⟨agrees start.settled settled, ?_, fun constant => agrees id ?_⟩
      · exact follows'.written.same discovered follows'.finished_within
          (follows'.finished_nodup discovered)
          ((follows'.finished_perm done').trans (follows.finished_perm done).symm)
          follows.written
      · unfold FileTree.settled at settled
        rwa [(accounted files made).map_settle constant,
          (accounted files' made').map_settle constant] at settled

theorem streamDirectory_agrees_notes :
    TemporaryFiles.plain.AsDocumented ∧ TemporaryFiles.other.AsDocumented ∧
      Batch.Apart (.into (.ofString "tex")) FileTree.workspace.withNotes Batch.notes ∧
      ∃ report events after items told after',
        (convertDirectory FileTree.fileSystem (.into (.ofString "tex")) Batch.silent
          Batch.content).run FileTree.workspace.withNotes = (.ok (report, events), after) ∧
        (streamDirectory (FileTree.fileSystemWith .other) (.into (.ofString "tex")) Batch.silent
          Batch.content).run FileTree.workspace.withNotes = (.ok (items, told), after') ∧
        report.StreamedAs events FileTree.workspace.withNotes.settled items told ∧
        after'.Same after := by
  have plain := TemporaryFiles.asDocumented_plain
  have other := TemporaryFiles.asDocumented_other
  have found := Batch.discover_withNotes .plain (.into (.ofString "tex")) rfl
  have apart : Batch.Apart (.into (.ofString "tex")) FileTree.workspace.withNotes Batch.notes :=
    ⟨⟨by decide +kernel⟩, by decide +kernel⟩
  have agrees := (streamDirectory_agrees .plain .other plain other (.into (.ofString "tex"))
    Batch.content FileTree.workspace.withNotes).2 Batch.notes (congrArg Prod.fst found)
  obtain ⟨⟨made, ⟨report, events⟩, after, converted, by_moves⟩,
    ⟨made', ⟨items, told⟩, after', streamed, by_moves'⟩, agree⟩ := agrees
  obtain ⟨same, tree, -⟩ :=
    (agree made report events after made' items told after' by_moves by_moves').2.2 apart
  exact ⟨plain, other, apart, report, events, after, items, told, after', converted, streamed, same,
    tree⟩

/-- Moves that take the second of two documents to its end before the first. -/
def Batch.secondFirst : List Batch.Move :=
  [.start, .start, .advance 1, .advance 1, .advance 1, .advance 0, .advance 0, .advance 0]

/-- **Streams and batches disagree**
* where more than one document is in flight and destinations are not apart from the links on the way
  to the output directory: the batch that converts the first document first has no place for the
  result of the second, and a stream that hands on the second document first has places for both;
* where the output directory can be made half-way and no further: it depends on the order which of
  the documents is told which reason;
* where temporary files cannot be created: the reasons name temporary files, also if the moves are
  the same;
* where there is room for one document only: it depends on the order which of them is written. -/
theorem streamDirectory_disagrees :
    ((Source.discover FileTree.fileSystem Batch.content
        Configuration.throughLink.sourceExtension).run FileTree.linked =
          (.ok Batch.notes, FileTree.linked) ∧
      Batch.SourcesApart .throughLink .linked Batch.notes ∧
      ∃ report events after items told after',
        (convertDirectory FileTree.fileSystem .throughLink Batch.silent Batch.content).run .linked =
          (.ok (report, events), after) ∧
        (streamDirectoryBy FileTree.fileSystem .throughLink Batch.silent Batch.secondFirst
          Batch.content).run .linked = (.ok (some (items, told)), after') ∧
        ∃ document ∈ report.documents, document.toItem ∉ items) ∧
    ((Source.discover FileTree.fileSystem Batch.content Configuration.pastFile.sourceExtension).run
        FileTree.blocked = (.ok Batch.notes, FileTree.blocked) ∧
      Batch.Apart .pastFile .blocked Batch.notes ∧
      ∃ report events after items told after',
        (convertDirectory FileTree.fileSystem .pastFile Batch.silent Batch.content).run .blocked =
          (.ok (report, events), after) ∧
        (streamDirectoryBy FileTree.fileSystem .pastFile Batch.silent Batch.secondFirst
          Batch.content).run .blocked = (.ok (some (items, told)), after') ∧
        ∃ document ∈ report.documents, document.toItem ∉ items) ∧
    (TemporaryFiles.plain.AsDocumented ∧ TemporaryFiles.other.AsDocumented ∧
      (Source.discover FileTree.fileSystem Batch.content
        (Configuration.into (.ofString "tex")).sourceExtension).run FileTree.readOnly =
          (.ok Batch.notes, FileTree.readOnly) ∧
      Batch.Apart (.into (.ofString "tex")) .readOnly Batch.notes ∧
      ∃ report events after items told after',
        (convertDirectory FileTree.fileSystem (.into (.ofString "tex")) Batch.silent
          Batch.content).run .readOnly = (.ok (report, events), after) ∧
        (streamDirectory (FileTree.fileSystemWith .other) (.into (.ofString "tex")) Batch.silent
          Batch.content).run .readOnly = (.ok (items, told), after') ∧
        ∃ document ∈ report.documents, document.toItem ∉ items) ∧
    ((Source.discover (FileTree.fileSystemOfSize 7) Batch.content
        (Configuration.into (.ofString "tex")).sourceExtension).run FileTree.workspace.withNotes =
          (.ok Batch.notes, FileTree.workspace.withNotes) ∧
      Batch.Apart (.into (.ofString "tex")) FileTree.workspace.withNotes Batch.notes ∧
      ∃ report events after items told after',
        (convertDirectory (FileTree.fileSystemOfSize 7) (.into (.ofString "tex")) Batch.silent
          Batch.content).run FileTree.workspace.withNotes = (.ok (report, events), after) ∧
        (streamDirectoryBy (FileTree.fileSystemOfSize 7) (.into (.ofString "tex")) Batch.silent
          Batch.secondFirst Batch.content).run FileTree.workspace.withNotes =
            (.ok (some (items, told)), after') ∧
        ∃ document ∈ report.documents, document.toItem ∉ items) := by
  refine ⟨?_, ?_, ?_, ?_⟩
  · have found := Batch.discover_linked .plain .throughLink rfl
    obtain ⟨events, converted⟩ := exists_convertDirectory_run Batch.silent found (by rfl)
    have streamed := @streamDirectoryBy_of_isDone FileTree FileTree.fileSystem .throughLink
      Batch.silent Batch.secondFirst Batch.content .linked .linked Batch.notes found
      (by decide +kernel)
    refine ⟨found, ⟨by decide +kernel⟩, _, events, _, _, _, _, converted, streamed, ?_⟩
    simp only [BatchReport.mem_ofReports]
    decide +kernel
  · have found := Batch.discover_blocked .plain .pastFile rfl
    obtain ⟨events, converted⟩ := exists_convertDirectory_run Batch.silent found (by rfl)
    have streamed := @streamDirectoryBy_of_isDone FileTree FileTree.fileSystem .pastFile
      Batch.silent Batch.secondFirst Batch.content .blocked .blocked Batch.notes found
      (by decide +kernel)
    refine ⟨found, ⟨⟨by decide +kernel⟩, by decide +kernel⟩, _, events, _, _, _, _, converted,
      streamed, ?_⟩
    simp only [BatchReport.mem_ofReports]
    decide +kernel
  · have found := Batch.discover_readOnly .plain (.into (.ofString "tex")) rfl
    have found' := Batch.discover_readOnly .other (.into (.ofString "tex")) rfl
    obtain ⟨events, converted⟩ := exists_convertDirectory_run Batch.silent found (by rfl)
    have streamed := streamDirectory_run (FileTree.fileSystemWith .other) (.into (.ofString "tex"))
      Batch.silent Batch.content found'
    refine ⟨TemporaryFiles.asDocumented_plain, TemporaryFiles.asDocumented_other, found,
      ⟨⟨by decide +kernel⟩, by decide +kernel⟩, _, events, _, _, _, _, converted, streamed, ?_⟩
    simp only [BatchReport.mem_ofReports]
    decide +kernel
  · have found := Batch.discover_fileSystemOfSize (.into (.ofString "tex")) rfl 7
    obtain ⟨events, converted⟩ := exists_convertDirectory_run Batch.silent found (by rfl)
    have streamed := @streamDirectoryBy_of_isDone FileTree (FileTree.fileSystemOfSize 7)
      (.into (.ofString "tex")) Batch.silent Batch.secondFirst Batch.content
      FileTree.workspace.withNotes FileTree.workspace.withNotes Batch.notes found
      (by decide +kernel)
    refine ⟨found, ⟨⟨by decide +kernel⟩, by decide +kernel⟩, _, events, _, _, _, _, converted,
      streamed, ?_⟩
    simp only [BatchReport.mem_ofReports]
    decide +kernel

end Manuscript
