import Manuscript.FileTree.Edit
import Manuscript.Proofs.Batch.Moves
import Manuscript.Proofs.Batch.Written

/-!
# A batch does not depend on its schedule

Whatever moves a batch makes until it is done, its reports are those that its documents would have
got alone, and the tree it leaves is the one that is left when the documents are converted in turn
(`convertDirectory_independent`). This holds of destinations that are apart (`Batch.Apart`),
whatever requests are refused in the tree and why, and but for the words of some reasons
(`FileTree.settled`). The library for temporary files is another one for the batch and for the
documents in turn, so nothing depends on how temporary files are called.

The invariant of a run is `Batch.Follows`: every source is waiting, in flight or finished; what is
in flight has been read as it was at the start; and the tree is what comes of what is finished
(`Batch.Written`). One move preserves it (`Batch.Follows.moves`), and so do any moves
(`Batch.Follows.moveAll`).

The documents in turn are such a run as well, and come to reports with the same sources, settled
alike (`Batch.Written.inTurn`). Reports are sorted by their sources, of which no two are equal, so
the order in which they came is forgotten (`Batch.settledBatch_ofReports`); and the order in which
files were put to different places leaves no trace in the tree (`Batch.Written.same`).

That destinations are apart from the links on the way to the output directory cannot be left out,
nor can the exceptions for those reasons, nor that requests are refused alike whatever was written
before (`convertDirectory_dependent`).
-/

namespace Manuscript

/-! ### What a report tells in any case -/

/-- Whether a report makes its batch unsuccessful. -/
def DocumentReport.isSerious (report : DocumentReport) : Bool :=
  !report.succeeded && !report.isGone

/-- An error without the words of a refusal to write. -/
def DocumentError.withoutCause : DocumentError → DocumentError
  | .unwritable path _ => .unwritable path []
  | error => error

/-- A report without the words of a refusal to write. -/
def DocumentReport.withoutCause (report : DocumentReport) : DocumentReport :=
  { report with error := report.error.map DocumentError.withoutCause }

/-- A report, without the words of a refusal to write if they may vary at its destination. -/
def DocumentReport.settle (vary : Path → Bool) (report : DocumentReport) : DocumentReport :=
  if vary report.destination then report.withoutCause else report

/-- A report that is settled where words may vary in a tree. -/
def FileTree.settled (tree : FileTree) (report : DocumentReport) : DocumentReport :=
  report.settle tree.wordsVary

/-- A batch report with all its reports settled. -/
def FileTree.settledBatch (tree : FileTree) (batch : BatchReport) : BatchReport :=
  { batch with documents := batch.documents.map tree.settled }

namespace Batch

/-- The report of a document that is converted alone. -/
def alone (files : TemporaryFiles) (config : Configuration) (start : FileTree) (source : Path) :
    DocumentReport :=
  reportOf config source
    ((Source.publish (FileTree.fileSystemWith files) config source).run start).1

/-- Converts documents one at a time. -/
def inTurn {m : Type → Type} [Monad m] (fs : FileSystem m) (config : Configuration) :
    List Path → m (List DocumentReport)
  | [] => return []
  | source :: rest => do
    let outcome ← (Source.publish fs config source).run
    let reports ← inTurn fs config rest
    return reportOf config source outcome :: reports

variable {config : Configuration} {start tree after : FileTree} {directory : Path}
  {extension : Text} {sources done : List Path} {source : Path} {conversion : Conversion}
  {failure : Failure} {files files' : TemporaryFiles}

/-! ### Reports -/

theorem alone_of_error (h : Source.conversionIn start config source = .error failure) :
    alone files config start source = .ofFailure config source failure := by
  rw [alone, Source.publish_run, h]
  rfl

theorem alone_of_ok (h : Source.conversionIn start config source = .ok conversion) :
    alone files config start source = reportOf config source (Source.told config source conversion
      (start.replaceAt files (Destination.ofSource config source) conversion.latex.encode).1) := by
  rw [alone, Source.publish_run, h]

/-- Answers that agree are told alike. -/
theorem settle_reportOf_told {vary : Path → Bool} {now then' : Except IoError Unit}
    (agree : now = then' ∨ vary (Destination.ofSource config source) ∧
      ∃ cause cause', now = .error cause ∧ then' = .error cause') :
    (reportOf config source (Source.told config source conversion now)).settle vary =
      (reportOf config source (Source.told config source conversion then')).settle vary := by
  rcases agree with rfl | ⟨varies, cause, cause', rfl, rfl⟩
  · rfl
  · have wordless : ∀ cause,
        let report := reportOf config source (Source.told config source conversion (.error cause))
        report.settle vary = report.withoutCause := fun cause => if_pos varies
    rw [wordless, wordless]
    rfl

/-! ### One document -/

/-- A document that cannot be converted leaves nothing behind. -/
theorem Written.fails (h : Written config start done tree)
    (failed : Source.conversionIn start config source = .error failure) :
    Written config start (done ++ [source]) tree := by
  have file : ∀ made, fileOf config start made source = none := fun made => by
    rw [fileOf, failed]
  have untried : (done ++ [source]).any
      (fun source => (Source.conversionIn start config source).isOk) =
        done.any fun source => (Source.conversionIn start config source).isOk := by
    simp [failed, Except.isOk, Except.toBool]
  rw [Written] at *
  simpa only [untried, List.filterMap_append, List.filterMap_cons_none (file _),
    List.filterMap_nil, List.append_nil] using h

section

variable (discovered : Source.Discovered start directory extension sources)
  (within : ∀ source ∈ done, source ∈ sources) (distinct : done.Nodup)
  (apart : Apart config start sources) (mem : source ∈ sources) (new : source ∉ done)

include discovered within distinct apart mem new

/-- A source is converted as it would have been at the start. -/
theorem Written.conversionIn_eq (h : Written config start done tree) :
    Source.conversionIn tree config source = Source.conversionIn start config source := by
  obtain ⟨kind, read⟩ := h.reads discovered within distinct apart mem new
  have regular := discovered.regular source mem
  rw [Source.conversionIn_of_regular (kind.trans regular), Source.conversionIn_of_regular regular,
    read]

/-- **One document.** A document that is converted after others is reported as it would have been
alone. -/
theorem Written.publish (documented : files.AsDocumented) (documented' : files'.AsDocumented)
    (h : Written config start done tree) :
    let published := (Source.publish (FileTree.fileSystemWith files) config source).run tree
    Written config start (done ++ [source]) published.2 ∧
      (reportOf config source published.1).source = source ∧
      start.settled (reportOf config source published.1) =
        start.settled (alone files' config start source) := by
  have converted := h.conversionIn_eq discovered within distinct apart mem new
  rw [Source.publish_run, converted]
  cases conversion : Source.conversionIn start config source with
  | error failure => exact ⟨h.fails conversion, rfl, by rw [alone_of_error conversion]; rfl⟩
  | ok conversion =>
    obtain ⟨written, agree⟩ :=
      h.writes documented documented' discovered within distinct apart mem new ‹_›
    exact ⟨written, source_reportOf_told _, by
      rw [alone_of_ok ‹_›]; exact settle_reportOf_told agree⟩

end

/-! ### Documents in turn -/

theorem inTurn_cons (files : TemporaryFiles) (source : Path) (rest : List Path)
    (tree : FileTree) : inTurn (FileTree.fileSystemWith files) config (source :: rest) tree =
      let published := (Source.publish (FileTree.fileSystemWith files) config source).run tree
      let others := inTurn (FileTree.fileSystemWith files) config rest published.2
      (reportOf config source published.1 :: others.1, others.2) :=
  rfl

/-- Documents that are converted one at a time are reported as they would have been alone. -/
theorem Written.inTurn (documented : files.AsDocumented) (documented' : files'.AsDocumented)
    {rest : List Path} (discovered : Source.Discovered start directory extension sources)
    (apart : Apart config start sources) (split : done ++ rest = sources)
    (h : Written config start done tree) :
    let run := inTurn (FileTree.fileSystemWith files) config rest tree
    Written config start sources run.2 ∧ run.1.map DocumentReport.source = rest ∧
      ∀ report ∈ run.1,
        start.settled report = start.settled (alone files' config start report.source) := by
  induction rest generalizing done tree with
  | nil =>
    obtain rfl : done = sources := by simpa using split
    exact ⟨h, rfl, nofun⟩
  | cons source rest ih =>
    have distinct := discovered.nodup
    rw [← split, List.nodup_append] at distinct
    have new : source ∉ done := fun mem => distinct.2.2 source mem source List.mem_cons_self rfl
    obtain ⟨written, same, told⟩ := h.publish discovered
      (fun other mem => split ▸ List.mem_append_left _ mem) distinct.1 apart
      (split ▸ List.mem_append_right _ List.mem_cons_self) new documented documented'
    obtain ⟨last, sources, reported⟩ := ih (by rw [List.append_assoc]; exact split) written
    simp only [inTurn_cons, List.map_cons, List.forall_mem_cons]
    exact ⟨last, by rw [same, sources], by rw [told, same], reported⟩

/-! ### Any moves -/

/-- **The invariant.** What is known of a batch under way, and of the tree then. -/
structure Follows (files : TemporaryFiles) (config : Configuration) (start : FileTree)
    (sources : List Path) (batch : Batch) (tree : FileTree) : Prop where
  /-- Every source is waiting, in flight or finished. -/
  accounted : (batch.waiting ++ (batch.running.map Job.source ++
    batch.finished.map DocumentReport.source)).Perm sources
  /-- What is to be written is what the source was at the start. -/
  underway : ∀ job ∈ batch.running, ∀ conversion, job.phase = .writing conversion →
    Source.conversionIn start config job.source = .ok conversion
  /-- What is finished is reported as it would have been alone. -/
  reported : ∀ report ∈ batch.finished,
    start.settled report = start.settled (alone files config start report.source)
  written : Written config start (batch.finished.map DocumentReport.source) tree

theorem follows_start (files' : TemporaryFiles) {order : List Path} (perm : order.Perm sources)
    (events : List ProgressEvent) :
    Follows files' config start sources { waiting := order, events } start where
  accounted := by simpa using perm
  underway := by simp
  reported := by simp
  written := rfl

variable {batch batch' : Batch} {position : Nat} {job job' : Job}

/-- What was told does not matter. -/
theorem Follows.congr (h : Follows files' config start sources batch tree)
    (waiting : batch'.waiting = batch.waiting) (running : batch'.running = batch.running)
    (finished : batch'.finished = batch.finished) :
    Follows files' config start sources batch' tree where
  accounted := by
    rw [waiting, running, finished]
    exact h.accounted
  underway := by
    rw [running]
    exact h.underway
  reported := by
    rw [finished]
    exact h.reported
  written := by
    rw [finished]
    exact h.written

theorem Follows.finished_within (h : Follows files' config start sources batch tree) :
    ∀ source ∈ batch.finished.map DocumentReport.source, source ∈ sources := fun _ mem =>
  mem_of_finished h.accounted mem

section

variable (discovered : Source.Discovered start directory extension sources)
  (apart : Apart config start sources) (h : Follows files' config start sources batch tree)

include discovered h

theorem Follows.finished_nodup : (batch.finished.map DocumentReport.source).Nodup :=
  nodup_finished h.accounted discovered.nodup

variable (documented : files.AsDocumented) (documented' : files'.AsDocumented)

include apart documented documented'

/-- **A step.** A job that takes a step goes on with what its source was at the start, and changes
nothing; or it ends as it would have ended alone. -/
theorem Follows.advance (mem : job ∈ batch.running) {progress : Job.Progress}
    (stepped : job.advance (FileTree.fileSystemWith files) config tree = (progress, after)) :
    (∃ job', progress = .continues job' ∧ after = tree ∧
      ∀ conversion, job'.phase = .writing conversion →
        Source.conversionIn start config job.source = .ok conversion) ∨
    (∃ outcome, progress = .ends outcome ∧
      start.settled (reportOf config job.source outcome) =
        start.settled (alone files' config start job.source) ∧
      Written config start (batch.finished.map DocumentReport.source ++ [job.source]) after) := by
  obtain ⟨known, -, new⟩ := apart_of_running h.accounted discovered.nodup mem
  have within := h.finished_within
  have distinct := h.finished_nodup discovered
  obtain ⟨kind, read⟩ := h.written.reads discovered within distinct apart known new
  have regular := discovered.regular job.source known
  obtain ⟨source, phase⟩ := job
  -- the tree is asked three things, and gives the answers it would have given at the start
  cases phase with
  | resolving =>
    rw [Job.advance_resolving, kind, regular] at stepped
    cases stepped
    exact .inl ⟨_, rfl, rfl, by simp⟩
  | reading =>
    rw [Job.advance_reading, read] at stepped
    have converted : Source.conversionIn start config source =
        (Source.content source (start.read source)).map (Document.convert config.options) :=
      Source.conversionIn_of_regular regular
    cases text : Source.content source (start.read source) with
    | ok text =>
      rw [text] at stepped converted
      cases stepped
      refine .inl ⟨_, rfl, rfl, fun conversion same => ?_⟩
      cases same
      exact converted
    | error failure =>
      rw [text] at stepped converted
      cases stepped
      refine .inr ⟨_, rfl, ?_, h.written.fails converted⟩
      rw [alone_of_error converted]
      rfl
  | writing conversion =>
    have converted := h.underway _ mem conversion rfl
    rw [Job.advance_writing] at stepped
    cases stepped
    obtain ⟨written, agree⟩ :=
      h.written.writes documented documented' discovered within distinct apart known new converted
    refine .inr ⟨_, rfl, ?_, written⟩
    rw [alone_of_ok converted]
    exact settle_reportOf_told agree

/-- **A move.** The invariant is preserved by every move that is made. -/
theorem Follows.moves
    (moves : Moves (FileTree.fileSystemWith files) config silent batch tree batch' after) :
    Follows files' config start sources batch' after := by
  have accounted := moves.perm.trans h.accounted
  cases moves with
  | start waiting room =>
    refine ⟨accounted, fun job mem => ?_, h.reported, h.written⟩
    rcases List.mem_append.1 mem with mem | mem
    · exact h.underway job mem
    · obtain rfl := List.mem_singleton.1 mem
      simp [Job.start]
  -- where a job takes a step, one of the two cases that `advance` leaves is the other outcome
  | @continues position job job' _ found stepped =>
    have others := perm_eraseIdx found
    have mem := others.mem_iff.2 List.mem_cons_self
    have source := (advance_continues stepped).1
    obtain ⟨_, same, rfl, written⟩ | ⟨_, same, -⟩ :=
      h.advance discovered apart documented documented' mem stepped
    · cases same
      refine ⟨accounted, fun job mem => ?_, h.reported, h.written⟩
      rcases List.mem_append.1 mem with mem | mem
      · exact h.underway job (others.mem_iff.2 (List.mem_cons_of_mem _ mem))
      · obtain rfl := List.mem_singleton.1 mem
        exact source ▸ written
    · cases same
  | @ends position job outcome _ found stepped =>
    have others := perm_eraseIdx found
    have mem := others.mem_iff.2 List.mem_cons_self
    have source := source_reportOf_advance stepped
    obtain ⟨_, same, -⟩ | ⟨_, same, told, written⟩ :=
      h.advance discovered apart documented documented' mem stepped
    · cases same
    · cases same
      refine ⟨accounted, fun job mem => ?_, fun report mem => ?_, ?_⟩
      · exact h.underway job (others.mem_iff.2 (List.mem_cons_of_mem _ mem))
      · rcases List.mem_append.1 mem with mem | mem
        · exact h.reported report mem
        · obtain rfl := List.mem_singleton.1 mem
          rw [source, told]
      · rw [List.map_append, List.map_cons, List.map_nil, source]
        exact written

/-- **A run.** And so by any moves. -/
theorem Follows.moveAll (made : List Move) :
    let moved := batch.moveAll (FileTree.fileSystemWith files) config silent made tree
    Follows files' config start sources moved.1 moved.2 :=
  moveAll_induction (fun h moves => h.moves discovered apart documented documented' moves) h made

end

/-! ### The outcome -/

theorem succeeded_settled (start : FileTree) (report : DocumentReport) :
    (start.settled report).succeeded = report.succeeded := by
  rw [FileTree.settled, DocumentReport.settle]
  split
  · simp [DocumentReport.succeeded, DocumentReport.withoutCause]
  · rfl

theorem source_settled (start : FileTree) (report : DocumentReport) :
    (start.settled report).source = report.source := by
  unfold FileTree.settled DocumentReport.settle
  split <;> rfl

theorem isGone_settled (start : FileTree) (report : DocumentReport) :
    (start.settled report).isGone = report.isGone := by
  unfold FileTree.settled DocumentReport.settle
  split
  · obtain ⟨_, _, _, _, error, _⟩ := report
    rcases error with _ | ⟨_⟩ | ⟨_⟩ | ⟨_⟩ <;> rfl
  · rfl

theorem isSerious_settled (start : FileTree) (report : DocumentReport) :
    (start.settled report).isSerious = report.isSerious := by
  unfold DocumentReport.isSerious
  rw [succeeded_settled, isGone_settled]

theorem seriousFailures_eq (report : BatchReport) :
    report.seriousFailures = report.documents.filter DocumentReport.isSerious := by
  unfold BatchReport.seriousFailures BatchReport.failures
  rw [List.filter_filter]
  refine List.filter_congr fun document _ => ?_
  exact Bool.and_comm _ _

/-- Reports of all sources, each as it would have been alone, make up the same batch report in
whatever order they come. -/
theorem settledBatch_ofReports
    (discovered : Source.Discovered start directory extension sources)
    {reports : List DocumentReport}
    (perm : (reports.map DocumentReport.source).Perm sources)
    (reported : ∀ report ∈ reports,
      start.settled report = start.settled (alone files' config start report.source)) :
    start.settledBatch (BatchReport.ofReports sources.length reports) =
      { documents := sources.map fun source => start.settled (alone files' config start source)
        counts :=
          { discovered := sources.length
            converted := sources.countP fun source => (alone files' config start source).succeeded
            failed := sources.length -
              sources.countP fun source => (alone files' config start source).succeeded } } := by
  have documents :
      (reports.mergeSort fun first second => first.source.le second.source).map start.settled =
        sources.map fun source => start.settled (alone files' config start source) := by
    rw [← discovered.map_mergeSort_eq DocumentReport.source perm, List.map_map]
    refine List.map_congr_left fun report mem => reported report ?_
    exact (List.mergeSort_perm _ _).mem_iff.1 mem
  have converted : (reports.filter (·.succeeded)).length =
      sources.countP fun source => (alone files' config start source).succeeded := by
    rw [← List.countP_eq_length_filter, ← perm.countP_eq, List.countP_map]
    refine List.countP_congr fun report mem => ?_
    rw [Function.comp_apply, ← succeeded_settled start, reported report mem, succeeded_settled]
  have total : reports.length = sources.length := by rw [← perm.length_eq, List.length_map]
  rw [FileTree.settledBatch, BatchReport.ofReports]
  simp only [documents, converted, total]

theorem Follows.finished_perm (h : Follows files' config start sources batch tree)
    (done : batch.isDone) : (batch.finished.map DocumentReport.source).Perm sources :=
  finished_perm_of_isDone h.accounted done

end Batch

theorem BatchReport.mem_ofReports {discovered : Nat} {reports : List DocumentReport}
    {report : DocumentReport} :
    report ∈ (ofReports discovered reports).documents ↔ report ∈ reports :=
  (List.mergeSort_perm _ _).mem_iff

/-- A directory with sources is converted by a run of their batch, which whoever listens is told
about. -/
theorem exists_convertDirectory_run {σ : Type} {fs : FileSystem (StateM σ)}
    {config : Configuration} (notify : ProgressEvent → StateM σ Unit) {directory : Path}
    {state after : σ} {sources : List Path}
    (found : (Source.discover fs directory config.sourceExtension).run state =
      (.ok sources, after)) (nonempty : sources.isEmpty = false) :
    let done := Batch.run fs config notify
      { waiting := sources, events := [.began sources.length] }
      (notify (.began sources.length) after).2
    let output := BatchReport.ofReports sources.length done.1.finished
    ∃ events, (convertDirectory fs config notify directory).run state =
      (.ok (output, events),
        (notify (.ended output.counts.discovered output.counts.converted) done.2).2) := by
  intro done output
  rw [convertDirectory, Source.bind_run, found]
  exact ⟨_, by simp only [nonempty]; rfl⟩

section

variable {files : TemporaryFiles} {config : Configuration} {directory : Path} {start : FileTree}
  {sources : List Path}
  (found : (Source.discover (FileTree.fileSystemWith files) directory config.sourceExtension).run
    start = (.ok sources, start))

include found

/-- A directory is converted by some moves, until its batch is done. -/
theorem exists_moves_convertDirectory :
    ∃ told made done after events,
      Batch.moveAll (FileTree.fileSystemWith files) config Batch.silent
        { waiting := sources, events := told } made start = (done, after) ∧ done.isDone ∧
      (convertDirectory (FileTree.fileSystemWith files) config Batch.silent directory).run start =
        (.ok (BatchReport.ofReports sources.length done.finished, events), after) := by
  cases empty : sources.isEmpty with
  | true =>
    obtain rfl := List.isEmpty_iff.1 empty
    refine ⟨[], [], { waiting := [] }, start, [], rfl, rfl, ?_⟩
    rw [convertDirectory, Source.bind_run, found, BatchReport.ofReports, List.mergeSort_nil]
    rfl
  | false =>
    obtain ⟨events, converted⟩ := exists_convertDirectory_run Batch.silent found empty
    let begun : Batch := { waiting := sources, events := [.began sources.length] }
    obtain ⟨made, same⟩ := Batch.exists_moves_runFor (FileTree.fileSystemWith files) config
      Batch.silent begun.movesLeft begun start
    exact ⟨_, made, _, _, events, same.symm, Batch.isDone_runFor (Nat.le_refl _), converted⟩

end

namespace Batch

/-- Whatever moves a batch makes until it is done, it comes to the same. -/
theorem Follows.outcome (documented : files.AsDocumented) (documented' : files'.AsDocumented)
    (discovered : Source.Discovered start directory extension sources)
    (apart : Apart config start sources) (h : Follows files' config start sources batch tree)
    (made : List Move) :
    let run := batch.moveAll (FileTree.fileSystemWith files) config silent made tree
    let turns := inTurn (FileTree.fileSystemWith files') config sources start
    run.1.isDone →
      start.settledBatch (BatchReport.ofReports sources.length run.1.finished) =
          start.settledBatch (BatchReport.ofReports sources.length turns.1) ∧
        run.2.Same turns.2 := by
  intro run turns done
  -- the run and the documents in turn satisfy what determines the outcome
  have follows := h.moveAll discovered apart documented documented' made
  have perm := follows.finished_perm done
  have begun : Written config start [] start := rfl
  obtain ⟨last, same, reported⟩ :=
    begun.inTurn documented' documented' discovered apart (List.nil_append _)
  constructor
  · rw [settledBatch_ofReports discovered perm follows.reported,
      settledBatch_ofReports discovered (by rw [same]) reported]
  · exact follows.written.same discovered follows.finished_within
      (follows.finished_nodup discovered) perm last

end Batch

/-- **Independence.** Assume that no result takes the place of another source, of a link on the way
to one, or of a link on the way to the output directory. Then whatever requests are refused in the
tree, whatever moves a batch makes until it is done, with its sources in whatever order, and
whichever library it has for temporary files, it comes to the report and leaves the tree that come
of converting the sources one at a time; so does the conversion of the directory; and each document
is reported as it would have been alone. -/
theorem convertDirectory_independent (files files' : TemporaryFiles)
    (documented : files.AsDocumented) (documented' : files'.AsDocumented) (config : Configuration)
    (directory : Path) (start : FileTree)
    (apart : ∀ sources,
      ((Source.discover (FileTree.fileSystemWith files) directory config.sourceExtension).run
        start).1 = .ok sources → Batch.Apart config start sources) :
    match (Source.discover (FileTree.fileSystemWith files) directory config.sourceExtension).run
      start with
    | (.error failure, _) =>
      (convertDirectory (FileTree.fileSystemWith files) config Batch.silent directory).run start =
        (.error failure, start)
    | (.ok sources, _) =>
      let turns := Batch.inTurn (FileTree.fileSystemWith files') config sources start
      let report := start.settledBatch (BatchReport.ofReports sources.length turns.1)
      report.documents = sources.map (fun source =>
        start.settled (Batch.alone files' config start source)) ∧
      (∀ order made, order.Perm sources →
        let run := Batch.moveAll (FileTree.fileSystemWith files) config Batch.silent
          { waiting := order } made start
        run.1.isDone →
          start.settledBatch (BatchReport.ofReports sources.length run.1.finished) = report ∧
            run.2.Same turns.2) ∧
      ∃ output events after,
        (convertDirectory (FileTree.fileSystemWith files) config Batch.silent directory).run start =
          (.ok (output, events), after) ∧
        start.settledBatch output = report ∧ after.Same turns.2 := by
  cases found : (Source.discover (FileTree.fileSystemWith files) directory
      config.sourceExtension).run start with
  | mk answer after =>
    obtain rfl : after = start := by
      rw [Source.discover_run] at found
      exact (Prod.mk.inj found).2.symm
    cases answer with
    | error failure => rw [convertDirectory, Source.bind_run, found]
    | ok sources =>
      have discovered := Source.discovered_of_run (congrArg Prod.fst found)
      have apart := apart sources (congrArg Prod.fst found)
      have begun : Batch.Written config after [] after := rfl
      obtain ⟨-, same, reported⟩ :=
        begun.inTurn documented' documented' discovered apart (List.nil_append _)
      refine ⟨?_, fun order made perm => ?_, ?_⟩
      · rw [Batch.settledBatch_ofReports discovered (by rw [same]) reported]
      · exact (Batch.follows_start files' perm []).outcome documented documented' discovered apart
          made
      · obtain ⟨told, made, done, last, events, run, ended, converted⟩ :=
          exists_moves_convertDirectory found
        have outcome := (Batch.follows_start files' (List.Perm.refl sources) told).outcome
          documented documented' discovered apart made
        rw [run] at outcome
        exact ⟨_, events, last, converted, outcome ended⟩

/-! ### Two documents -/

/-- A directory that holds two documents. -/
def Batch.content : Path := .ofString "content"

/-- The two documents. -/
def Batch.notes : List Path := [.ofString "content/a.md", .ofString "content/b.md"]

/-- A tree with the two documents in the directory. -/
def FileTree.withNotes (tree : FileTree) : FileTree :=
  (tree.putFile (.ofString "content/b.md") (Text.encode ['B'])).putFile
    (.ofString "content/a.md") (Text.encode ['A'])

/-- The names in a directory are discovered where they have the extension and are those of files, if
they are listed in order. -/
theorem Source.discover_of_listed {files : TemporaryFiles} {start : FileTree} {directory : Path}
    {extension : Text} {names : List Text} {sources : List Path}
    (listed : start.list directory = .ok names)
    (paths : Source.withExtension directory extension names = sources)
    (regular : ∀ source ∈ sources, start.isFileAt source)
    (ordered : sources.Pairwise fun first second => first.le second) :
    (Source.discover (FileTree.fileSystemWith files) directory extension).run start =
      (.ok sources, start) := by
  have files : sources.filter start.isFileAt = sources := List.filter_eq_self.2 regular
  rw [Source.discover_run, listed]
  simp only [Source.listing, paths, files, List.mergeSort_of_pairwise ordered]

/-- They are discovered where they are listed as files. -/
theorem Batch.discover_notes (files : TemporaryFiles) (config : Configuration) (start : FileTree)
    (extension : config.sourceExtension = "md".toList)
    (listed : start.list Batch.content = .ok ["a.md".toList, "b.md".toList])
    (regular : ∀ source ∈ Batch.notes, start.isFileAt source) :
    (Source.discover (FileTree.fileSystemWith files) Batch.content config.sourceExtension).run
      start = (.ok Batch.notes, start) := by
  have paths : Source.withExtension Batch.content "md".toList ["a.md".toList, "b.md".toList] =
      Batch.notes := by decide +kernel
  rw [extension]
  exact Source.discover_of_listed listed paths regular (by decide +kernel)

/-- Temporary files of another name. -/
def TemporaryFiles.other : TemporaryFiles := .called ⟨".tmp0".toList, by decide⟩

theorem TemporaryFiles.asDocumented_other : other.AsDocumented := asDocumented_called _

theorem convertDirectory_independent_notes :
    TemporaryFiles.plain.AsDocumented ∧ TemporaryFiles.other.AsDocumented ∧
      Batch.Apart (.into (.ofString "tex")) FileTree.workspace.withNotes Batch.notes ∧
      (Batch.notes.map fun source => (Batch.alone .other (.into (.ofString "tex"))
        FileTree.workspace.withNotes source).succeeded) = [true, true] ∧
      ∃ output events after,
        (convertDirectory FileTree.fileSystem (.into (.ofString "tex")) Batch.silent
          Batch.content).run FileTree.workspace.withNotes = (.ok (output, events), after) ∧
        (FileTree.workspace.withNotes.settledBatch output).documents =
          Batch.notes.map fun source => FileTree.workspace.withNotes.settled
            (Batch.alone .other (.into (.ofString "tex")) FileTree.workspace.withNotes source) := by
  have plain := TemporaryFiles.asDocumented_plain
  have other := TemporaryFiles.asDocumented_other
  have found := Batch.discover_notes .plain (.into (.ofString "tex")) FileTree.workspace.withNotes
    rfl (by rfl) (by decide +kernel)
  have apart : Batch.Apart (.into (.ofString "tex")) FileTree.workspace.withNotes Batch.notes :=
    ⟨⟨by decide +kernel⟩, by decide +kernel⟩
  have outcome := convertDirectory_independent .plain .other plain other (.into (.ofString "tex"))
    Batch.content FileTree.workspace.withNotes fun sources same => by
      rw [found] at same
      cases same
      exact apart
  rw [found] at outcome
  obtain ⟨documents, -, output, events, after, converted, same, -⟩ := outcome
  exact ⟨plain, other, apart, by decide +kernel, output, events, after, converted,
    by rw [same, documents]⟩

/-- A tree with the two documents, in which a link has the name of the first result. -/
def FileTree.linked : FileTree :=
  (FileTree.workspace.withNotes.putDirectory (.ofString "x/z")).putLink (.ofString "x/a.tex")
    (.ofString "z")

/-- The configuration for an output directory that is reached through that link. -/
def Configuration.throughLink : Configuration := .into (.ofString "x/a.tex/..")

/-- A tree with the two documents and a file. -/
def FileTree.blocked : FileTree :=
  FileTree.workspace.withNotes.putFile (.ofString "f") (Text.encode [])

/-- The configuration for an output directory with that file in the way, behind a directory that can
be made. -/
def Configuration.pastFile : Configuration := .into (.ofString "new/../f/x")

/-- A tree with the two documents, in which nobody may create a file. -/
def FileTree.readOnly : FileTree :=
  FileTree.workspace.withNotes.refusing { create := fun _ => some .permissionDenied }

/-- A file system in which no file is replaced any more once the tree has so many entries. -/
def FileTree.fileSystemOfSize (size : Nat) : FileSystem (StateM FileTree) :=
  { FileTree.fileSystem with
    replace := fun path content tree =>
      if tree.entries.length < size then tree.replaceAt .plain path content
      else (.error .noSpace, tree) }

section

variable (files : TemporaryFiles) (config : Configuration)
  (extension : config.sourceExtension = "md".toList)

include extension

theorem Batch.discover_withNotes :
    (Source.discover (FileTree.fileSystemWith files) Batch.content config.sourceExtension).run
      FileTree.workspace.withNotes = (.ok Batch.notes, FileTree.workspace.withNotes) :=
  discover_notes files config _ extension (by rfl) (by decide +kernel)

theorem Batch.discover_linked :
    (Source.discover (FileTree.fileSystemWith files) Batch.content config.sourceExtension).run
      FileTree.linked = (.ok Batch.notes, FileTree.linked) :=
  discover_notes files config _ extension (by rfl) (by decide +kernel)

theorem Batch.discover_blocked :
    (Source.discover (FileTree.fileSystemWith files) Batch.content config.sourceExtension).run
      FileTree.blocked = (.ok Batch.notes, FileTree.blocked) :=
  discover_notes files config _ extension (by rfl) (by decide +kernel)

theorem Batch.discover_readOnly :
    (Source.discover (FileTree.fileSystemWith files) Batch.content config.sourceExtension).run
      FileTree.readOnly = (.ok Batch.notes, FileTree.readOnly) :=
  discover_notes files config _ extension (by rfl) (by decide +kernel)

theorem Batch.discover_fileSystemOfSize (size : Nat) :
    (Source.discover (FileTree.fileSystemOfSize size) Batch.content config.sourceExtension).run
      FileTree.workspace.withNotes = (.ok Batch.notes, FileTree.workspace.withNotes) := by
  rw [Source.discover_run_of_list rfl rfl, ← Batch.discover_withNotes .plain config extension,
    Source.discover_run]

end

/-- **Dependence.** It is not enough that no result takes the place of another source or of a link
on the way to one.
* Where the first result takes the place of a link on the way to the output directory, the second
  has no place to go, though it would have one alone.
* Where the output directory can be made half-way and no further, the second document is told
  another reason than it would be alone.
* Where temporary files cannot be created, both are told another reason than they would be alone,
  since it names a temporary file.
* Where the room is used up by the first document, the second cannot be written, though it could be
  alone. -/
theorem convertDirectory_dependent :
    ((Source.discover FileTree.fileSystem Batch.content
        Configuration.throughLink.sourceExtension).run FileTree.linked =
          (.ok Batch.notes, FileTree.linked) ∧
      Batch.SourcesApart .throughLink .linked Batch.notes ∧
      ∃ output events after,
        (convertDirectory FileTree.fileSystem .throughLink Batch.silent Batch.content).run .linked =
          (.ok (output, events), after) ∧
        ∃ report ∈ output.documents, report.succeeded = false ∧
          (Batch.alone .plain .throughLink .linked report.source).succeeded) ∧
    ((Source.discover FileTree.fileSystem Batch.content Configuration.pastFile.sourceExtension).run
        FileTree.blocked = (.ok Batch.notes, FileTree.blocked) ∧
      Batch.Apart .pastFile .blocked Batch.notes ∧
      ∃ output events after,
        (convertDirectory FileTree.fileSystem .pastFile Batch.silent Batch.content).run .blocked =
          (.ok (output, events), after) ∧
        ∃ report ∈ output.documents,
          report ≠ Batch.alone .plain .pastFile .blocked report.source) ∧
    (TemporaryFiles.plain.AsDocumented ∧ TemporaryFiles.other.AsDocumented ∧
      (Source.discover FileTree.fileSystem Batch.content
        (Configuration.into (.ofString "tex")).sourceExtension).run FileTree.readOnly =
          (.ok Batch.notes, FileTree.readOnly) ∧
      Batch.Apart (.into (.ofString "tex")) .readOnly Batch.notes ∧
      ∃ output events after,
        (convertDirectory FileTree.fileSystem (.into (.ofString "tex")) Batch.silent
          Batch.content).run .readOnly = (.ok (output, events), after) ∧
        ∃ report ∈ output.documents,
          report ≠ Batch.alone .other (.into (.ofString "tex")) .readOnly report.source) ∧
    ((Source.discover (FileTree.fileSystemOfSize 7) Batch.content
        (Configuration.into (.ofString "tex")).sourceExtension).run FileTree.workspace.withNotes =
          (.ok Batch.notes, FileTree.workspace.withNotes) ∧
      Batch.Apart (.into (.ofString "tex")) FileTree.workspace.withNotes Batch.notes ∧
      ∃ output events after,
        (convertDirectory (FileTree.fileSystemOfSize 7) (.into (.ofString "tex")) Batch.silent
          Batch.content).run FileTree.workspace.withNotes = (.ok (output, events), after) ∧
        ∃ report ∈ output.documents, report.succeeded = false ∧
          ((Source.publish (FileTree.fileSystemOfSize 7) (.into (.ofString "tex"))
            report.source).run FileTree.workspace.withNotes).1.isOk) := by
  refine ⟨?_, ?_, ?_, ?_⟩
  · have found := Batch.discover_linked .plain .throughLink rfl
    obtain ⟨events, converted⟩ := exists_convertDirectory_run Batch.silent found (by rfl)
    refine ⟨found, ⟨by decide +kernel⟩, _, events, _, converted, ?_⟩
    simp only [BatchReport.mem_ofReports]
    decide +kernel
  · have found := Batch.discover_blocked .plain .pastFile rfl
    obtain ⟨events, converted⟩ := exists_convertDirectory_run Batch.silent found (by rfl)
    refine ⟨found, ⟨⟨by decide +kernel⟩, by decide +kernel⟩, _, events, _, converted, ?_⟩
    simp only [BatchReport.mem_ofReports]
    decide +kernel
  · have found := Batch.discover_readOnly .plain (.into (.ofString "tex")) rfl
    obtain ⟨events, converted⟩ := exists_convertDirectory_run Batch.silent found (by rfl)
    refine ⟨TemporaryFiles.asDocumented_plain, TemporaryFiles.asDocumented_other, found,
      ⟨⟨by decide +kernel⟩, by decide +kernel⟩, _, events, _, converted, ?_⟩
    simp only [BatchReport.mem_ofReports]
    decide +kernel
  · have found := Batch.discover_fileSystemOfSize (.into (.ofString "tex")) rfl 7
    obtain ⟨events, converted⟩ := exists_convertDirectory_run Batch.silent found (by rfl)
    refine ⟨found, ⟨⟨by decide +kernel⟩, by decide +kernel⟩, _, events, _, converted, ?_⟩
    simp only [BatchReport.mem_ofReports]
    decide +kernel

end Manuscript
