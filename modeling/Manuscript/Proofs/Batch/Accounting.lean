import Manuscript.Proofs.Batch.Independence
import Manuscript.Proofs.Batch.Schedule

/-!
# Reports and events of a batch

Whatever moves a batch makes, whatever the file system answers, and whatever is done by whoever is
told about the progress: each source gets one report, the counters add up, and the events tell of
each source first that it is started and then, once, how it ended
(`convertDirectory_accounts`).

The invariant is `Batch.Accounted`. It says which events were told so far, up to their order
(`Batch.told`), and that those about a finished document came in the right one; which events were
told about a document in flight follows from the first of these, since no two sources are equal
(`Batch.Accounted.filter_of_running`). As many more documents were started than ended as are in
flight (`Batch.Accounted.inFlight`), so the bound on those is one on the events as well, in every
prefix of them.

With a bound of one, there is no choice: what is finished, in flight and waiting are the sources in
their order, and the events are those of one document after the other.
-/

namespace Manuscript

/-! ### What belongs to one document -/

namespace ProgressEvent

/-- The source that an event is about, if it is about a single one. -/
def source? : ProgressEvent → Option Path
  | .started source | .converted source _ | .failed source _ => some source
  | .began _ | .ended _ _ => none

/-- Whether the event tells that a document is started. -/
def isStart : ProgressEvent → Bool
  | .started _ => true
  | _ => false

/-- Whether the event tells how a document ended. -/
def isEnd : ProgressEvent → Bool
  | .converted _ _ | .failed _ _ => true
  | _ => false

@[simp] theorem source?_started (source : Path) : (started source).source? = some source := rfl

@[simp] theorem isStart_started (source : Path) : (started source).isStart = true := rfl

@[simp] theorem isEnd_started (source : Path) : (started source).isEnd = false := rfl

end ProgressEvent

/-- The message of the failure behind the error of a document. -/
def DocumentError.failureMessage : DocumentError → Text
  | .gone path => (Failure.noSuchFile path).message
  | .unreadable _ detail => detail
  | .unwritable path detail => (Failure.unwritable path (.other detail)).message

namespace DocumentReport

/-- What is told when the document of a report is done. -/
def ending (report : DocumentReport) : ProgressEvent :=
  match report.error with
  | none => .converted report.source report.bytesWritten
  | some error => .failed report.source error.failureMessage

/-- What is told about the document of a report. -/
def told (report : DocumentReport) : List ProgressEvent :=
  [.started report.source, report.ending]

/-- The parts of a report agree with each other. -/
structure Sound (config : Configuration) (report : DocumentReport) : Prop where
  destination : report.destination = Destination.ofSource config report.source
  /-- There are counters if there is no error, and only then. -/
  stats : report.error = none ↔ report.stats.isSome
  /-- Where there is an error, nothing was written. -/
  bytesWritten : report.error ≠ none → report.bytesWritten = 0

end DocumentReport

@[simp] theorem DocumentReport.source?_ending (report : DocumentReport) :
    report.ending.source? = some report.source := by
  unfold ending
  cases report.error <;> rfl

@[simp] theorem DocumentReport.isStart_ending (report : DocumentReport) :
    report.ending.isStart = false := by
  unfold ending
  cases report.error <;> rfl

@[simp] theorem DocumentReport.isEnd_ending (report : DocumentReport) :
    report.ending.isEnd = true := by
  unfold ending
  cases report.error <;> rfl

namespace Batch

section

variable {σ : Type} {fs : FileSystem (StateM σ)} {notify : ProgressEvent → StateM σ Unit}
  {config : Configuration} {job : Job} {outcome : Except Failure DocumentReport} {state state' : σ}

/-- A failure that says that there is no such file is one of the source, so its message can be read
off the report. -/
theorem failureMessage_ofFailure {source : Path} {failure : Failure}
    (h : ∀ path, failure = .noSuchFile path → path = source) :
    (DocumentError.ofFailure source failure).failureMessage = failure.message := by
  cases failure with
  | noSuchFile path =>
    obtain rfl := h path rfl
    rfl
  | _ => rfl

theorem sound_ofConversion (config : Configuration) (source : Path) (conversion : Conversion) :
    (DocumentReport.ofConversion config source conversion).Sound config where
  destination := rfl
  stats := by simp [DocumentReport.ofConversion]
  bytesWritten := fun failed => absurd rfl failed

theorem sound_ofFailure (config : Configuration) (source : Path) (failure : Failure) :
    (DocumentReport.ofFailure config source failure).Sound config where
  destination := rfl
  stats := by simp [DocumentReport.ofFailure]
  bytesWritten := fun _ => rfl

/-- **The last step.** The report of a job agrees with itself and with what is told. -/
theorem reportOf_advance (h : job.advance fs config state = (.ends outcome, state')) :
    (reportOf config job.source outcome).Sound config ∧
      eventOf job.source outcome = (reportOf config job.source outcome).ending := by
  rcases advance_ends h with ⟨conversion, rfl⟩ | ⟨failure, rfl, about⟩
  · exact ⟨sound_ofConversion config job.source conversion, rfl⟩
  · refine ⟨sound_ofFailure config job.source failure, ?_⟩
    show ProgressEvent.failed job.source failure.message =
      .failed job.source (DocumentError.ofFailure job.source failure).failureMessage
    rw [failureMessage_ofFailure about]

end

/-! ### The invariant -/

/-- What is told so far, apart from its order: of the documents that are finished, and of those in
flight. -/
def told (batch : Batch) : List ProgressEvent :=
  batch.finished.flatMap DocumentReport.told ++
    batch.running.map fun job => .started job.source

/-- At no time were more documents in flight than may be. -/
def Bounded (config : Configuration) (events : List ProgressEvent) : Prop :=
  ∀ front, front <+: events →
    front.countP (·.isStart) ≤ front.countP (·.isEnd) + config.concurrency

/-- **The invariant.** What is known of a batch under way that was led by some events which are not
about single documents. -/
structure Accounted (config : Configuration) (sources : List Path) (lead : List ProgressEvent)
    (batch : Batch) : Prop where
  /-- No more documents are in flight than may be. -/
  room : batch.running.length ≤ config.concurrency
  /-- Every source is waiting, in flight or finished. -/
  accounted : (batch.waiting ++ (batch.running.map Job.source ++
    batch.finished.map DocumentReport.source)).Perm sources
  sound : ∀ report ∈ batch.finished, report.Sound config
  led : lead <+: batch.events
  /-- Nothing else is told than what belongs to the documents that were started. -/
  told : batch.events.Perm (lead ++ batch.told)
  /-- A finished document was started first, and ended then. -/
  inOrder : ∀ report ∈ batch.finished,
    batch.events.filter (·.source? = some report.source) = report.told
  bounded : Bounded config batch.events
  /-- Where only one may be in flight, the documents come one after the other. -/
  serial : config.concurrency = 1 →
    batch.finished.map DocumentReport.source ++ (batch.running.map Job.source ++ batch.waiting) =
      sources ∧
    batch.events = lead ++ batch.told

variable {config : Configuration} {sources : List Path} {lead events : List ProgressEvent}
  {batch after : Batch} {source : Path} {job : Job} {position : Nat} {report : DocumentReport}

/-- Where only one job may be in flight, it is the only one. -/
theorem eq_singleton_of_serial (few : batch.running.length ≤ 1)
    (found : batch.running[position]? = some job) : batch.running = [job] ∧ position = 0 := by
  obtain ⟨within, rfl⟩ := List.getElem?_eq_some_iff.1 found
  obtain rfl : position = 0 := by omega
  refine ⟨List.eq_getElem_of_length_eq_one _ (by omega), rfl⟩

/-! ### Counting events -/

theorem bounded_concat {event : ProgressEvent} (front : Bounded config events)
    (whole : (events ++ [event]).countP (·.isStart) ≤
      (events ++ [event]).countP (·.isEnd) + config.concurrency) :
    Bounded config (events ++ [event]) := by
  intro other among
  rcases List.prefix_concat_iff.1 among with rfl | among
  · exact whole
  · exact front other among

/-- What is not about a single document tells neither a start nor an end. -/
theorem countP_of_plain (plain : ∀ event ∈ events, event.source? = none) :
    events.countP (·.isStart) = 0 ∧ events.countP (·.isEnd) = 0 := by
  simp only [List.countP_eq_zero]
  constructor <;> intro event mem <;> have := plain event mem <;> cases event <;> simp_all
    [ProgressEvent.source?, ProgressEvent.isStart, ProgressEvent.isEnd]

/-- As many more documents are started than ended as are in flight. -/
theorem countP_told (batch : Batch) : batch.told.countP (·.isStart) =
    batch.finished.length + batch.running.length ∧
      batch.told.countP (·.isEnd) = batch.finished.length := by
  have finished : ∀ reports : List DocumentReport,
      (reports.flatMap DocumentReport.told).countP (·.isStart) = reports.length ∧
        (reports.flatMap DocumentReport.told).countP (·.isEnd) = reports.length := by
    intro reports
    induction reports with
    | nil => exact ⟨rfl, rfl⟩
    | cons report reports ih => simp [DocumentReport.told, List.countP_cons, ih]
  have running : ∀ jobs : List Job,
      (jobs.map fun job => ProgressEvent.started job.source).countP (·.isStart) = jobs.length ∧
        (jobs.map fun job => ProgressEvent.started job.source).countP (·.isEnd) = 0 := by
    intro jobs
    induction jobs with
    | nil => exact ⟨rfl, rfl⟩
    | cons job jobs ih =>
      rw [List.map_cons, List.countP_cons, List.countP_cons, ih.1, ih.2]
      exact ⟨rfl, rfl⟩
  simp [told, finished, running]

theorem inFlight (plain : ∀ event ∈ lead, event.source? = none)
    (told : events.Perm (lead ++ batch.told)) :
    events.countP (·.isStart) = events.countP (·.isEnd) + batch.running.length := by
  obtain ⟨starts, ends⟩ := countP_of_plain plain
  obtain ⟨started, ended⟩ := countP_told batch
  rw [told.countP_eq, told.countP_eq, List.countP_append, List.countP_append]
  omega

/-- A batch that begins. -/
theorem accounted_start (config : Configuration) (sources : List Path)
    (plain : ∀ event ∈ lead, event.source? = none) :
    Accounted config sources lead { waiting := sources, events := lead } where
  room := Nat.zero_le _
  accounted := by simp
  sound := nofun
  led := List.prefix_refl lead
  told := by simp [Batch.told]
  inOrder := nofun
  bounded := by
    intro front among
    have starts := (countP_of_plain fun event mem => plain event (among.subset mem)).1
    omega
  serial := by simp [Batch.told]

/-! ### The events about one source -/

theorem filter_told (batch : Batch) (source : Path) :
    batch.told.filter (·.source? = some source) =
      (batch.finished.filter (·.source = source)).flatMap DocumentReport.told ++
        (batch.running.filter (·.source = source)).map fun job => .started job.source := by
  have finished : ∀ reports : List DocumentReport,
      (reports.flatMap DocumentReport.told).filter (·.source? = some source) =
        (reports.filter (·.source = source)).flatMap DocumentReport.told := by
    intro reports
    induction reports with
    | nil => rfl
    | cons report reports ih =>
      by_cases same : report.source = source
      · simp [DocumentReport.told, ih, same]
      · simp [DocumentReport.told, ih, same]
  have running : ∀ jobs : List Job,
      (jobs.map fun job => ProgressEvent.started job.source).filter (·.source? = some source) =
        (jobs.filter (·.source = source)).map fun job => .started job.source := by
    intro jobs
    rw [List.filter_map]
    congr 2
    funext job
    simp
  rw [told, List.filter_append, finished, running]

section

variable (h : Accounted config sources lead batch)
  (plain : ∀ event ∈ lead, event.source? = none) (distinct : sources.Nodup)

include h

/-- What was told about a source is told about the documents that were started. -/
theorem Accounted.filter_perm (plain : ∀ event ∈ lead, event.source? = none) (source : Path) :
    (batch.events.filter (·.source? = some source)).Perm
      ((batch.finished.filter (·.source = source)).flatMap DocumentReport.told ++
        (batch.running.filter (·.source = source)).map fun job => .started job.source) := by
  have silent : lead.filter (·.source? = some source) = [] := by
    rw [List.filter_eq_nil_iff]
    intro event mem
    simp [plain event mem]
  have perm := h.told.filter (·.source? = some source)
  rwa [List.filter_append, silent, List.nil_append, filter_told] at perm

include plain distinct

/-- About a document in flight, it was told that it is started. -/
theorem Accounted.filter_of_running (found : batch.running[position]? = some job) :
    batch.events.filter (·.source? = some job.source) = [.started job.source] := by
  have inner := (List.nodup_append.1 (h.accounted.nodup_iff.2 distinct)).2.1
  have others := perm_eraseIdx found
  have mem : job ∈ batch.running := others.mem_iff.2 List.mem_cons_self
  obtain ⟨-, -, unfinished⟩ := apart_of_running h.accounted distinct mem
  have finished : batch.finished.filter (·.source = job.source) = [] := by
    rw [List.filter_eq_nil_iff]
    intro report mem' same
    exact unfinished (of_decide_eq_true same ▸ List.mem_map_of_mem mem')
  have running : (batch.running.filter (·.source = job.source)).Perm [job] := by
    have perm := others.filter (·.source = job.source)
    have alone : (batch.running.eraseIdx position).filter (·.source = job.source) = [] := by
      have nodup := (others.map Job.source).nodup_iff.1 (List.nodup_append.1 inner).1
      rw [List.map_cons, List.nodup_cons] at nodup
      rw [List.filter_eq_nil_iff]
      intro other mem'
      have : other.source ≠ job.source := fun same =>
        nodup.1 (same ▸ List.mem_map_of_mem mem')
      simpa using this
    rwa [List.filter_cons_of_pos (by simp), alone] at perm
  have perm := h.filter_perm plain job.source
  rw [finished, List.flatMap_nil, List.nil_append] at perm
  exact List.perm_singleton.1 (perm.trans (running.map fun job => ProgressEvent.started job.source))

end

/-! ### A move, and any moves -/

section

variable {σ : Type} {fs : FileSystem (StateM σ)} {notify : ProgressEvent → StateM σ Unit}
  {state state' : σ} (h : Accounted config sources lead batch)
  (plain : ∀ event ∈ lead, event.source? = none) (distinct : sources.Nodup)

include h

/-- **A step.** A job goes on; nothing is told. -/
theorem Accounted.continues {job' : Job} (found : batch.running[position]? = some job)
    (same : job'.source = job.source)
    (accounted : (batch.waiting ++ ((batch.running.eraseIdx position ++ [job']).map Job.source ++
      batch.finished.map DocumentReport.source)).Perm sources) :
    Accounted config sources lead
      { batch with running := batch.running.eraseIdx position ++ [job'] } := by
  have others := perm_eraseIdx found
  have few : (batch.running.eraseIdx position).length + 1 = batch.running.length := by
    simpa using others.length_eq.symm
  -- the jobs in flight have the sources that they had
  have running : ((batch.running.eraseIdx position ++ [job']).map fun job =>
      ProgressEvent.started job.source).Perm
        (batch.running.map fun job => .started job.source) := by
    refine List.Perm.trans ?_ (others.map fun job => ProgressEvent.started job.source).symm
    rw [List.map_append, List.map_cons, List.map_nil, List.map_cons, same]
    exact List.perm_append_singleton _ _
  refine ⟨?_, accounted, h.sound, h.led, ?_, h.inOrder, h.bounded, ?_⟩
  · have room := h.room
    rw [List.length_append, List.length_singleton]
    omega
  · exact h.told.trans ((running.symm.append_left _).append_left lead)
  · intro one
    obtain ⟨order, events⟩ := h.serial one
    obtain ⟨alone, rfl⟩ := eq_singleton_of_serial (one ▸ h.room) found
    simp only [Batch.told, alone, List.eraseIdx_zero, List.tail_cons, List.nil_append,
      List.map_cons, List.map_nil, same] at order events ⊢
    exact ⟨order, events⟩

include plain distinct

/-- **A start.** -/
theorem Accounted.start {waiting : List Path} (first : batch.waiting = source :: waiting)
    (room : batch.running.length < config.concurrency)
    (accounted : (waiting ++ ((batch.running ++ [Job.start source]).map Job.source ++
      batch.finished.map DocumentReport.source)).Perm sources) :
    Accounted config sources lead
      { batch with
        waiting
        running := batch.running ++ [Job.start source]
        events := batch.events ++ [.started source] } := by
  let after : Batch :=
    { batch with
      waiting
      running := batch.running ++ [Job.start source]
      events := batch.events ++ [.started source] }
  have mem : source ∈ batch.waiting := first ▸ List.mem_cons_self
  have next : after.told = batch.told ++ [.started source] := by
    simp [after, Batch.told, Job.start]
  have told : after.events.Perm (lead ++ after.told) := by
    rw [next, ← List.append_assoc]
    exact h.told.append_right [.started source]
  have more : after.running.length ≤ config.concurrency := by
    simp only [after, List.length_append, List.length_singleton]
    omega
  refine ⟨more, accounted, h.sound, h.led.trans (List.prefix_append _ _), told, ?_, ?_, ?_⟩
  · intro report finished
    have differs : source ≠ report.source := fun same =>
      (apart_of_waiting h.accounted distinct mem).2.2 (same ▸ List.mem_map_of_mem finished)
    show (batch.events ++ [ProgressEvent.started source]).filter
      (·.source? = some report.source) = report.told
    rw [List.filter_append, h.inOrder report finished]
    simp [differs]
  · apply bounded_concat h.bounded
    have count := inFlight plain told
    simp only [after] at count more
    omega
  · intro one
    obtain ⟨order, events⟩ := h.serial one
    refine ⟨?_, ?_⟩
    · rw [first] at order
      simpa [Job.start] using order
    · show batch.events ++ [.started source] = lead ++ after.told
      rw [next, events, List.append_assoc]

/-- **The end of a job.** -/
theorem Accounted.ends (found : batch.running[position]? = some job)
    (same : report.source = job.source) (sound : report.Sound config)
    (accounted : (batch.waiting ++ ((batch.running.eraseIdx position).map Job.source ++
      (batch.finished ++ [report]).map DocumentReport.source)).Perm sources) :
    Accounted config sources lead
      { batch with
        running := batch.running.eraseIdx position
        finished := batch.finished ++ [report]
        events := batch.events ++ [report.ending] } := by
  let after : Batch :=
    { batch with
      running := batch.running.eraseIdx position
      finished := batch.finished ++ [report]
      events := batch.events ++ [report.ending] }
  have others := perm_eraseIdx found
  have few : after.running.length + 1 = batch.running.length := by
    simpa [after] using others.length_eq.symm
  have more : after.running.length ≤ config.concurrency := by
    have := h.room
    omega
  -- what is told now is what was told, and the end of this job
  have next : (batch.told ++ [report.ending]).Perm after.told := by
    have running := others.map fun job => ProgressEvent.started job.source
    rw [List.map_cons, ← same] at running
    refine List.perm_iff_count.2 fun event => ?_
    have count := running.count_eq event
    simp only [after, Batch.told, DocumentReport.told, List.flatMap_append, List.flatMap_cons,
      List.flatMap_nil, List.append_nil, List.count_append, List.count_cons, List.count_nil]
      at count ⊢
    omega
  have told : after.events.Perm (lead ++ after.told) := by
    refine (h.told.append_right [report.ending]).trans ?_
    rw [List.append_assoc]
    exact next.append_left lead
  refine ⟨more, accounted, ?_, h.led.trans (List.prefix_append _ _), told, ?_, ?_, ?_⟩
  · intro other finished
    rcases List.mem_append.1 finished with finished | finished
    · exact h.sound other finished
    · exact List.mem_singleton.1 finished ▸ sound
  · intro other finished
    show (batch.events ++ [report.ending]).filter (·.source? = some other.source) = other.told
    rw [List.filter_append]
    rcases List.mem_append.1 finished with finished | finished
    · have mem := others.mem_iff.2 List.mem_cons_self
      have differs : report.source ≠ other.source := fun equal =>
        (apart_of_running h.accounted distinct mem).2.2
          (same.symm.trans equal ▸ List.mem_map_of_mem finished)
      rw [h.inOrder other finished]
      simp [differs]
    · obtain rfl := List.mem_singleton.1 finished
      rw [same, h.filter_of_running plain distinct found]
      simp [DocumentReport.told, same]
  · apply bounded_concat h.bounded
    have count := inFlight plain told
    simp only [after] at count more
    omega
  · intro one
    obtain ⟨order, events⟩ := h.serial one
    obtain ⟨alone, rfl⟩ := eq_singleton_of_serial (one ▸ h.room) found
    simp only [Batch.told, alone, List.eraseIdx_zero, List.tail_cons, List.map_cons, List.map_nil,
      List.append_nil, List.nil_append, List.flatMap_append, List.flatMap_cons,
      List.flatMap_nil, DocumentReport.told, List.map_append, same, events] at order ⊢
    exact ⟨by simpa using order, by simp⟩

/-- **A move.** The invariant is preserved by every move that is made. -/
theorem Accounted.moves (moves : Moves fs config notify batch state after state') :
    Accounted config sources lead after := by
  have accounted := moves.perm.trans h.accounted
  cases moves with
  | start first room => exact h.start plain distinct first room accounted
  | continues found stepped =>
    exact h.continues found (advance_continues stepped).1 accounted
  | ends found stepped =>
    obtain ⟨sound, told⟩ := reportOf_advance stepped
    rw [told]
    exact h.ends plain distinct found (source_reportOf_advance stepped) sound accounted

/-- **A run.** And so by any moves. -/
theorem Accounted.moveAll (fs : FileSystem (StateM σ)) (notify : ProgressEvent → StateM σ Unit)
    (made : List Move) (state : σ) :
    Accounted config sources lead (batch.moveAll fs config notify made state).1 := by
  refine @moveAll_induction σ fs notify config batch state
    (fun batch _ => Accounted config sources lead batch) ?_ h made
  exact fun h moves => h.moves plain distinct moves

end

end Batch

/-! ### The outcome -/

/-- What a batch report says of the sources that were discovered. -/
structure BatchReport.Accounts (config : Configuration) (sources : List Path)
    (report : BatchReport) : Prop where
  /-- There is one document for each source, in the order of the sources. -/
  documents : report.documents.map DocumentReport.source = sources
  increasing : report.documents.Pairwise fun first second =>
    first.source.sortKey < second.source.sortKey
  sound : ∀ document ∈ report.documents, document.Sound config
  discovered : report.counts.discovered = report.documents.length
  counted : report.counts.converted + report.counts.failed = report.documents.length
  converted : report.counts.converted = report.documents.countP (·.succeeded)

/-- What the events of a batch have to do with its report. -/
structure BatchReport.AgreesWith (config : Configuration) (report : BatchReport)
    (events : List ProgressEvent) : Prop where
  /-- Where there are no documents, nothing is told. -/
  silent : report.documents = [] → events = []
  /-- Otherwise it is told first that the batch began and last that it ended, and between those only
  what belongs to its documents. -/
  framed : report.documents ≠ [] → ∃ between,
    between.Perm (report.documents.flatMap DocumentReport.told) ∧
      events = .began report.counts.discovered :: between ++
        [.ended report.counts.discovered report.counts.converted]
  /-- Each document is started first and then ends once, as its report says. -/
  inOrder : ∀ document ∈ report.documents,
    events.filter (·.source? = some document.source) = document.told
  /-- At no time are more documents in flight than may be. -/
  bounded : Batch.Bounded config events
  /-- Where only one may be in flight, the documents come one after the other, in their order. -/
  serial : config.concurrency = 1 → report.documents ≠ [] →
    events = .began report.counts.discovered :: report.documents.flatMap DocumentReport.told ++
      [.ended report.counts.discovered report.counts.converted]

namespace Batch

variable {config : Configuration} {sources : List Path} {batch : Batch} {directory : Path}
  {extension : Text}

/-- A batch report counts every document as converted or as failed. -/
theorem counts_ofReports (reports : List DocumentReport) :
    let report := BatchReport.ofReports reports.length reports
    report.counts.discovered = report.documents.length ∧
      report.counts.converted + report.counts.failed = report.documents.length ∧
      report.counts.converted = report.documents.countP (·.succeeded) := by
  intro report
  have perm : report.documents.Perm reports := List.mergeSort_perm _ _
  have converted : report.counts.converted = reports.countP (·.succeeded) :=
    List.countP_eq_length_filter.symm
  have failed : report.counts.failed = reports.length - report.counts.converted := rfl
  have few : reports.countP (·.succeeded) ≤ reports.length := List.countP_le_length
  rw [perm.length_eq, perm.countP_eq]
  exact ⟨rfl, by omega, converted⟩

/-- Where only one document may be in flight, the reports come in the order of the sources. -/
theorem Accounted.documents_of_serial {lead : List ProgressEvent}
    (listed : Source.Listed directory extension sources) (h : Accounted config sources lead batch)
    (done : batch.isDone) (one : config.concurrency = 1) :
    (BatchReport.ofReports sources.length batch.finished).documents = batch.finished := by
  obtain ⟨waiting, running⟩ := isDone_iff.1 done
  apply List.mergeSort_of_pairwise
  have ordered := listed.ordered
  rw [← (h.serial one).1, waiting, running] at ordered
  simpa [List.pairwise_map] using ordered

/-- **The end of a batch.** -/
theorem Accounted.outcome (listed : Source.Listed directory extension sources)
    (nonempty : sources ≠ []) (h : Accounted config sources [.began sources.length] batch)
    (done : batch.isDone) :
    let report := BatchReport.ofReports sources.length batch.finished
    report.Accounts config sources ∧ report.AgreesWith config
      (batch.events ++ [.ended sources.length report.counts.converted]) := by
  intro report
  obtain ⟨waiting, running⟩ := isDone_iff.1 done
  have perm := finished_perm_of_isDone h.accounted done
  have total : sources.length = batch.finished.length := by
    rw [← perm.length_eq, List.length_map]
  have sorted : report.documents.Perm batch.finished := List.mergeSort_perm _ _
  have documents : report.documents.map DocumentReport.source = sources :=
    listed.map_mergeSort_eq DocumentReport.source perm
  have counts := counts_ofReports batch.finished
  rw [← total] at counts
  obtain ⟨log, events⟩ := h.led
  have told : log.Perm (batch.finished.flatMap DocumentReport.told) := by
    have all := h.told
    rw [← events, List.perm_append_left_iff] at all
    simpa [Batch.told, running] using all
  refine ⟨⟨documents, ?_, ?_, counts.1, counts.2.1, counts.2.2⟩, ?_, ?_, ?_, ?_, ?_⟩
  · have increasing := listed.increasing
    rwa [← documents, List.pairwise_map] at increasing
  · exact fun document mem => h.sound document (sorted.mem_iff.1 mem)
  · intro none
    rw [none] at documents
    exact absurd documents.symm nonempty
  · intro _
    refine ⟨log, told.trans (sorted.flatMap_right DocumentReport.told).symm, ?_⟩
    rw [← events]
    rfl
  · intro document mem
    rw [List.filter_append, h.inOrder document (sorted.mem_iff.1 mem)]
    rfl
  · apply bounded_concat h.bounded
    have count := inFlight (by simp [ProgressEvent.source?]) h.told
    simp only [List.countP_append, List.countP_singleton, count, running, List.length_nil]
    exact Nat.le_trans (Nat.le_add_right _ _) (Nat.le_add_right _ _)
  · intro one _
    rw [(h.serial one).2, h.documents_of_serial listed done one]
    simp [Batch.told, running, report, BatchReport.ofReports]

/-- By any moves that bring it to its end, a batch comes to a report and events as they should be.
-/
theorem outcome_collectBy {σ : Type} {fs : FileSystem (StateM σ)}
    {notify : ProgressEvent → StateM σ Unit} {made : List Move} {state : σ} {report : BatchReport}
    {events : List ProgressEvent} (listed : Source.Listed directory extension sources)
    (nonempty : sources ≠ [])
    (h : (collectBy fs config notify made sources state).1 = some (report, events)) :
    report.Accounts config sources ∧ report.AgreesWith config events := by
  have begun : Accounted config sources [.began sources.length]
      { waiting := sources, events := [.began sources.length] } :=
    accounted_start config sources (by simp [ProgressEvent.source?])
  have run := begun.moveAll (by simp [ProgressEvent.source?]) listed.nodup fs notify made
    (notify (.began sources.length) state).2
  rw [collectBy_run] at h
  dsimp only at h
  split at h <;> cases h
  next done => exact run.outcome listed nonempty done

/-- Whatever moves were made, a batch can be brought to its end by some more. -/
theorem exists_collectBy {σ : Type} (fs : FileSystem (StateM σ)) (config : Configuration)
    (notify : ProgressEvent → StateM σ Unit) (made : List Move) (sources : List Path) (state : σ) :
    ∃ more, (collectBy fs config notify (made ++ more) sources state).1.isSome := by
  let begun : Batch := { waiting := sources, events := [.began sources.length] }
  let run := begun.moveAll fs config notify made (notify (.began sources.length) state).2
  obtain ⟨more, same⟩ := exists_moves_runFor fs config notify run.1.movesLeft run.1 run.2
  have done : (run.1.moveAll fs config notify more run.2).1.isDone := by
    rw [← same]
    exact isDone_runFor (Nat.le_refl _)
  refine ⟨more, ?_⟩
  rw [collectBy_run]
  simp only [moveAll_append]
  rw [if_pos done]
  rfl

end Batch

section

variable {σ : Type} (fs : FileSystem (StateM σ)) {config : Configuration}
  (notify : ProgressEvent → StateM σ Unit) {directory : Path} {state after : σ}
  {sources : List Path}
  (found : (Source.discover fs directory config.sourceExtension).run state = (.ok sources, after))

include found

theorem accounts_convertDirectoryBy (lists : fs.ListsNames) {made : List Batch.Move}
    {report : BatchReport} {events : List ProgressEvent} {last : σ}
    (h : (convertDirectoryBy fs config notify made directory).run state =
      (.ok (some (report, events)), last)) :
    report.Accounts config sources ∧ report.AgreesWith config events := by
  have listed := Source.listed_of_run lists (congrArg Prod.fst found)
  cases empty : sources.isEmpty with
  | true =>
    rw [convertDirectoryBy_of_isEmpty fs config notify _ directory found empty] at h
    obtain rfl := List.isEmpty_iff.1 empty
    cases h
    exact ⟨⟨rfl, .nil, nofun, rfl, rfl, rfl⟩, ⟨fun _ => rfl, fun some => absurd rfl some, nofun,
      by simp [Batch.Bounded], fun _ some => absurd rfl some⟩⟩
  | false =>
    rw [convertDirectoryBy_run fs config notify made directory found empty] at h
    apply Batch.outcome_collectBy listed (fun none => by simp [none] at empty)
    exact Except.ok.inj (congrArg Prod.fst h)

/-- Whatever moves were made, the conversion of a directory can be brought to its end by some more.
-/
theorem exists_convertDirectoryBy (made : List Batch.Move) : ∃ more output last,
    (convertDirectoryBy fs config notify (made ++ more) directory).run state =
      (.ok (some output), last) := by
  cases empty : sources.isEmpty with
  | true => exact ⟨[], _, _, convertDirectoryBy_of_isEmpty fs config notify _ directory found empty⟩
  | false =>
    obtain ⟨more, given⟩ := Batch.exists_collectBy fs config notify made sources after
    obtain ⟨output, same⟩ := Option.isSome_iff_exists.1 given
    refine ⟨more, output, (Batch.collectBy fs config notify (made ++ more) sources after).2, ?_⟩
    rw [convertDirectoryBy_run fs config notify _ directory found empty, same]

end

/-- **Accounting.** Whatever the file system answers, and whatever is done by whoever is told about
the progress: a directory that can be listed is converted, and whatever moves bring the batch to its
end, it comes to a report of its sources and to events that agree with it. No moves keep it from
coming to its end. -/
theorem convertDirectory_accounts {σ : Type} (fs : FileSystem (StateM σ)) (lists : fs.ListsNames)
    (config : Configuration) (notify : ProgressEvent → StateM σ Unit) (directory : Path)
    (state : σ) :
    match (Source.discover fs directory config.sourceExtension).run state with
    | (.error failure, after) =>
      (convertDirectory fs config notify directory).run state = (.error failure, after)
    | (.ok sources, _) =>
      (∀ made report events after,
        (convertDirectoryBy fs config notify made directory).run state =
          (.ok (some (report, events)), after) →
        report.Accounts config sources ∧ report.AgreesWith config events) ∧
      (∀ made, ∃ more output after,
        (convertDirectoryBy fs config notify (made ++ more) directory).run state =
          (.ok (some output), after)) ∧
      ∃ made report events after,
        (convertDirectory fs config notify directory).run state = (.ok (report, events), after) ∧
        (convertDirectoryBy fs config notify made directory).run state =
          (.ok (some (report, events)), after) ∧
        report.Accounts config sources ∧ report.AgreesWith config events := by
  cases found : (Source.discover fs directory config.sourceExtension).run state with
  | mk answer after =>
    cases answer with
    | error failure => rw [convertDirectory, Source.bind_run, found]
    | ok sources =>
      have accounts := @accounts_convertDirectoryBy σ fs config notify directory state after sources
        found lists
      obtain ⟨made, output, last, converted, same⟩ :=
        exists_convertDirectory fs config notify directory found
      exact ⟨fun made report events last => accounts, exists_convertDirectoryBy fs notify found,
        made, output.1, output.2, last, converted, same, accounts same⟩

theorem convertDirectory_accounts_vanishing :
    FileTree.fileSystem.ListsNames ∧ ∃ report events after,
      (convertDirectory FileTree.fileSystem (.into (.ofString "tex"))
        (Batch.vanishing [.ofString "content/a.md"]) Batch.content).run
          FileTree.workspace.withNotes = (.ok (report, events), after) ∧
      report.Accounts (.into (.ofString "tex")) Batch.notes ∧
      report.AgreesWith (.into (.ofString "tex")) events := by
  have found := Batch.discover_withNotes .plain (.into (.ofString "tex")) rfl
  have listsNames : FileTree.fileSystem.ListsNames := FileTree.listsNames .plain
  have accounts := convertDirectory_accounts (FileTree.fileSystemWith .plain) listsNames
    (.into (.ofString "tex")) (Batch.vanishing [.ofString "content/a.md"]) Batch.content
    FileTree.workspace.withNotes
  rw [found] at accounts
  obtain ⟨-, -, _, report, events, after, converted, -, accounts⟩ := accounts
  exact ⟨listsNames, report, events, after, converted, accounts⟩

end Manuscript
