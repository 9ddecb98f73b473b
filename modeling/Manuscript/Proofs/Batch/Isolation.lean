import Manuscript.Proofs.Batch.Vanishing

/-!
# A document that vanishes does not concern the others

What a batch comes to some of whose sources vanish when they are started is compared with what it
comes to when none does (`Batch.Isolates`): a source that vanished is reported as gone and leaves
nothing behind, and the others have the same reports and the same results
(`convertDirectory_isolates`). It holds whatever moves the two batches make.

That the sources are expendable cannot be left out, nor that words may vary, nor that requests are
refused alike whatever was written before; and a new directory can stand at a destination
(`convertDirectory_disturbed`).
-/

namespace Manuscript

namespace Batch

/-- How a batch some of whose sources vanished agrees with one in which none did. -/
structure Isolates (config : Configuration) (start : FileTree) (sources gone : List Path)
    (report whole : BatchReport) (after afterWhole : FileTree) : Prop where
  /-- There is a report for every source, in order. -/
  documents : report.documents.map DocumentReport.source = sources
  /-- A document that vanished is told to be gone, under its own path. -/
  missing : ∀ document ∈ report.documents, document.source ∈ gone →
    document =
      { source := document.source
        destination := Destination.ofSource config document.source
        bytesWritten := 0
        stats := none
        error := some (.gone document.source) }
  /-- At its destination nothing is different but that a directory may be new. -/
  untouched : ∀ source ∈ gone, ∀ place ∈ start.entryOf (Destination.ofSource config source),
    start.Spared (Destination.ofSource config source) after place
  /-- The other documents have the same reports, settled alike. -/
  others : (report.documents.filter (·.source ∉ gone)).map start.settled =
    (whole.documents.filter (·.source ∉ gone)).map start.settled
  /-- And at their destinations stands the same. Only if a document was not converted, a directory
  may be new there in one of the trees; otherwise it is in both what it was. -/
  contents : ∀ document ∈ report.documents, document.source ∉ gone →
    ∀ place ∈ start.entryOf (Destination.ofSource config document.source),
      after.get? place = afterWhole.get? place ∨
        document.succeeded = false ∧
          start.Spared (Destination.ofSource config document.source) after place ∧
          start.Spared (Destination.ofSource config document.source) afterWhole place
  /-- What makes the batch unsuccessful is the same without the documents that vanished. -/
  serious : report.seriousFailures.map DocumentReport.source =
    (whole.seriousFailures.map DocumentReport.source).filter (· ∉ gone)

variable {config : Configuration} {start tree after : FileTree} {directory : Path}
  {extension : Text} {sources gone : List Path} {source : Path} {batch other : Batch}
  {files files' : TemporaryFiles}

/-! ### Reports -/

/-- Reports that are settled alike are serious for the same sources. -/
theorem map_source_filter_isSerious {reports reports' : List DocumentReport}
    (same : reports.map start.settled = reports'.map start.settled) :
    (reports.filter DocumentReport.isSerious).map DocumentReport.source =
      (reports'.filter DocumentReport.isSerious).map DocumentReport.source := by
  -- both can be told from the settled reports
  have told : ∀ reports : List DocumentReport,
      (reports.filter DocumentReport.isSerious).map DocumentReport.source =
        ((reports.map start.settled).filter DocumentReport.isSerious).map
          DocumentReport.source := by
    intro reports
    rw [List.filter_map, List.map_map]
    have serious : DocumentReport.isSerious ∘ start.settled = DocumentReport.isSerious :=
      funext fun report => isSerious_settled start report
    have source : DocumentReport.source ∘ start.settled = DocumentReport.source :=
      funext fun report => source_settled start report
    rw [serious, source]
  rw [told reports, told reports', same]

/-- The reports of the documents that stay, in order, where each is that of its source alone. -/
theorem filter_settled_ofReports
    (discovered : Source.Discovered start directory extension sources)
    {reports : List DocumentReport} (perm : (reports.map DocumentReport.source).Perm sources)
    (reported : ∀ report ∈ reports, report.source ∉ gone →
      start.settled report = start.settled (alone files config start report.source)) :
    (((BatchReport.ofReports sources.length reports).documents.filter
      (·.source ∉ gone)).map start.settled) =
        (sources.filter (· ∉ gone)).map fun source =>
          start.settled (alone files config start source) := by
  have sorted := discovered.map_mergeSort_eq DocumentReport.source perm
  unfold BatchReport.ofReports
  calc _ = ((reports.mergeSort fun first second => first.source.le second.source).filter
          (·.source ∉ gone)).map fun report =>
            start.settled (alone files config start report.source) := by
        refine List.map_congr_left fun report mem => ?_
        obtain ⟨mem, kept⟩ := List.mem_filter.1 mem
        exact reported report ((List.mergeSort_perm _ _).mem_iff.1 mem) (by simpa using kept)
    _ = (((reports.mergeSort fun first second => first.source.le second.source).map
          DocumentReport.source).filter (· ∉ gone)).map fun source =>
            start.settled (alone files config start source) := by
        rw [List.filter_map, List.map_map]
        rfl
    _ = _ := by rw [sorted]

/-- A document without a result is not converted. -/
theorem succeeded_alone_of_result (documented : files.AsDocumented)
    (none : resultOf config start source = none) :
    (alone files config start source).succeeded = false := by
  have held := Destination.directory_ofSource config source
  cases converted : Source.conversionIn start config source with
  | error failure =>
    rw [alone_of_error converted]
    rfl
  | ok conversion =>
    rw [alone_of_ok converted]
    unfold resultOf at none
    cases making : start.makeDirectories config.outputDirectory.holding.ancestors with
    | mk answer made =>
      rw [making] at none
      rw [← held] at making
      cases answer with
      | error cause =>
        rw [FileTree.replaceAt_of_refused making]
        rfl
      | ok =>
        -- the directories are made, but the result is put nowhere
        obtain ⟨after, outcome⟩ := FileTree.replaceAt_of_made documented config.outputDirectory
          (Destination.nameOf config source) making conversion.latex.encode
        rw [← Destination.ofSource_eq] at outcome
        simp only [fileOf, converted] at none
        cases placed : made.placeFor (Destination.ofSource config source) with
        | ok place =>
          rw [placed] at none
          cases none
        | error cause =>
          rw [placed] at outcome
          rw [outcome.1]
          rfl

/-! ### When both batches are done -/

section

variable (h : Vanishes files config start sources gone batch tree)

include h

/-- A document that stays is reported as it would have been alone. -/
theorem Vanishes.reported {report : DocumentReport} (mem : report ∈ batch.finished)
    (kept : report.source ∉ gone) :
    start.settled report = start.settled (alone files config start report.source) := by
  obtain ⟨_, follows, -⟩ := h.others
  exact follows.reported report (List.mem_filter.2 ⟨mem, by simpa using kept⟩)

variable (done : batch.isDone)

include done

/-- What is left when a batch is done is what is left of the documents that stay, but for the files
that were deleted. -/
theorem Vanishes.exists_written : ∃ stayed shadow,
    stayed.Perm (sources.filter (· ∉ gone)) ∧ Written config start stayed shadow ∧
      tree.Lacks (Missing start gone []) shadow := by
  obtain ⟨waiting, running⟩ := isDone_iff.1 done
  obtain ⟨shadow, follows, lacks⟩ := h.others
  rw [waiting] at lacks
  refine ⟨_, shadow, follows.finished_perm ?_, follows.written, lacks⟩
  simp [isDone, without, waiting, running]

end

section

variable (discovered : Source.Discovered start directory extension sources)
  (expendable : Expendable config start sources gone)
  (h : Vanishes files config start sources gone batch tree)
  (h' : Follows files config start sources other after)
  (done : batch.isDone) (done' : other.isDone) (documented : files.AsDocumented)

include discovered expendable h done

/-- **Destinations of documents that vanished.** -/
theorem Vanishes.untouched {source : Path} {place : Location} (lost : source ∈ gone)
    (entry : place ∈ start.entryOf (Destination.ofSource config source)) :
    start.Spared (Destination.ofSource config source) tree place := by
  obtain ⟨stayed, shadow, perm, written, lacks⟩ := h.exists_written done
  have within : ∀ source ∈ stayed, source ∈ sources := fun source mem =>
    List.mem_of_mem_filter (perm.mem_iff.1 mem)
  have distinct : stayed.Nodup := perm.nodup_iff.2 (discovered.nodup.filter _)
  have known := expendable.within source lost
  have there := lacks.get? place (expendable.not_missing known entry)
  unfold FileTree.Spared
  rw [there]
  rcases written.entry_cases discovered within distinct known entry with ⟨stays, -⟩ | ⟨-, spared⟩
  · have kept := (List.mem_filter.1 (perm.mem_iff.1 stays)).2
    simp [lost] at kept
  · exact spared

include h' done' documented

/-- **Destinations of documents that stay.** -/
theorem Vanishes.contents {report : DocumentReport} {place : Location}
    (finished : report ∈ batch.finished) (kept : report.source ∉ gone)
    (entry : place ∈ start.entryOf (Destination.ofSource config report.source)) :
    tree.get? place = after.get? place ∨
      report.succeeded = false ∧
        start.Spared (Destination.ofSource config report.source) tree place ∧
        start.Spared (Destination.ofSource config report.source) after place := by
  obtain ⟨stayed, shadow, perm, written, lacks⟩ := h.exists_written done
  have within : ∀ source ∈ stayed, source ∈ sources := fun source mem =>
    List.mem_of_mem_filter (perm.mem_iff.1 mem)
  have distinct : stayed.Nodup := perm.nodup_iff.2 (discovered.nodup.filter _)
  have mem : report.source ∈ sources :=
    mem_of_finished h.accounted (List.mem_map_of_mem finished)
  have stays : report.source ∈ stayed :=
    perm.mem_iff.2 (List.mem_filter.2 ⟨mem, by simpa using kept⟩)
  have all : report.source ∈ other.finished.map DocumentReport.source :=
    (h'.finished_perm done').mem_iff.2 mem
  have there := lacks.get? place (expendable.not_missing mem entry)
  have cases' := h'.written.entry_cases discovered h'.finished_within
    (h'.finished_nodup discovered) mem entry
  -- the document has a result in both batches or in neither
  rcases written.entry_cases discovered within distinct mem entry with
    ⟨-, content, result, found⟩ | ⟨none, spared⟩
  · rcases cases' with ⟨-, content', result', found'⟩ | ⟨none, -⟩
    · left
      rw [result] at result'
      cases result'
      rw [there, found, found']
    · rw [none all] at result
      cases result
  · rcases cases' with ⟨-, content, result, -⟩ | ⟨-, spared'⟩
    · rw [none stays] at result
      cases result
    · right
      refine ⟨?_, ?_, spared'⟩
      · rw [← succeeded_settled start, h.reported finished kept, succeeded_settled]
        exact succeeded_alone_of_result documented (none stays)
      · unfold FileTree.Spared
        rw [there]
        exact spared

/-- **The outcome.** When both batches are done, they agree. -/
theorem Vanishes.isolates :
    Isolates config start sources gone (.ofReports sources.length batch.finished)
      (.ofReports sources.length other.finished) tree after := by
  have perm := finished_perm_of_isDone h.accounted done
  have missing : ∀ report ∈ (BatchReport.ofReports sources.length batch.finished).documents,
      report.source ∈ gone →
        report = .ofFailure config report.source (.noSuchFile report.source) :=
    fun report mem => h.missed report (BatchReport.mem_ofReports.1 mem)
  have others := (filter_settled_ofReports discovered perm fun report mem kept =>
      h.reported mem kept).trans
    (filter_settled_ofReports discovered (h'.finished_perm done') fun report mem _ =>
      h'.reported report mem).symm
  refine ⟨discovered.map_mergeSort_eq _ perm, missing, fun source lost place entry =>
    h.untouched discovered expendable done lost entry, others, fun report mem kept place entry =>
    h.contents discovered expendable h' done done' documented (BatchReport.mem_ofReports.1 mem) kept
      entry, ?_⟩
  -- a document that is gone does not make the batch unsuccessful
  have soft : (BatchReport.ofReports sources.length batch.finished).documents.filter
      DocumentReport.isSerious =
        ((BatchReport.ofReports sources.length batch.finished).documents.filter
          (·.source ∉ gone)).filter DocumentReport.isSerious := by
    rw [List.filter_filter]
    refine List.filter_congr fun report mem => ?_
    by_cases lost : report.source ∈ gone
    · have soft : report.isSerious = false := by
        rw [missing report mem lost]
        rfl
      simp [soft]
    · simp [lost]
  rw [seriousFailures_eq, seriousFailures_eq, soft, map_source_filter_isSerious others,
    List.filter_map, List.filter_filter, List.filter_filter]
  refine congrArg _ (List.filter_congr fun report _ => ?_)
  exact Bool.and_comm _ _

end

end Batch

/-- **Isolation.** Assume that some sources of a directory are expendable. Then the directory is
converted, also if each of them is deleted when it is started; and whatever moves the batch makes
then, and whatever moves it makes if nothing is deleted, each time with a library of its own for
temporary files, it comes to the same for the other documents, and those that vanished are told to
be gone and leave nothing behind. It is so whatever requests are refused in the tree. -/
theorem convertDirectory_isolates (files files' : TemporaryFiles) (documented : files.AsDocumented)
    (documented' : files'.AsDocumented) (config : Configuration) (directory : Path)
    (start : FileTree) (sources gone : List Path)
    (listed : ((Source.discover (FileTree.fileSystemWith files) directory
      config.sourceExtension).run start).1 = .ok sources)
    (expendable : Batch.Expendable config start sources gone) :
    (∃ made output after,
      (convertDirectory (FileTree.fileSystemWith files) config (Batch.vanishing gone) directory).run
        start = (.ok output, after) ∧
      (convertDirectoryBy (FileTree.fileSystemWith files) config (Batch.vanishing gone) made
        directory).run start = (.ok (some output), after)) ∧
    (∃ made output after,
      (convertDirectory (FileTree.fileSystemWith files') config Batch.silent directory).run start =
        (.ok output, after) ∧
      (convertDirectoryBy (FileTree.fileSystemWith files') config Batch.silent made directory).run
        start = (.ok (some output), after)) ∧
    ∀ made report events after made' whole events' afterWhole,
      (convertDirectoryBy (FileTree.fileSystemWith files) config (Batch.vanishing gone) made
        directory).run start = (.ok (some (report, events)), after) →
      (convertDirectoryBy (FileTree.fileSystemWith files') config Batch.silent made' directory).run
        start = (.ok (some (whole, events')), afterWhole) →
      Batch.Isolates config start sources gone report whole after afterWhole := by
  have found := Source.discover_run_of_fst files listed
  have found' := Source.discover_run_of_fst files' listed
  have discovered := Source.discovered_of_run listed
  refine ⟨exists_convertDirectory _ _ _ _ found, exists_convertDirectory _ _ _ _ found', ?_⟩
  intro made report events after made' whole events' afterWhole converted converted'
  -- nothing is deleted but when a document is started
  have idle : ∀ event (tree : FileTree), event.source? = none →
      Batch.vanishing gone event tree = ((), tree) := by
    intro event tree plain
    cases event <;> first | rfl | cases plain
  obtain ⟨done, rfl, -, rfl⟩ := eq_of_convertDirectoryBy found idle converted
  obtain ⟨done', rfl, -, rfl⟩ :=
    eq_of_convertDirectoryBy found' (fun event tree _ => Batch.silent_idle event tree) converted'
  have begins := Batch.vanishes_start files config start sources gone expendable.within
  have begins' : Batch.Follows files config start sources { waiting := sources } start :=
    Batch.follows_start files (List.Perm.refl sources) []
  exact (begins.moveAll discovered expendable documented documented made).isolates discovered
    expendable (begins'.moveAll discovered expendable.toApart documented' documented made') done
    done' documented

theorem convertDirectory_isolates_notes :
    TemporaryFiles.plain.AsDocumented ∧ TemporaryFiles.other.AsDocumented ∧
      ((Source.discover FileTree.fileSystem Batch.content
        (Configuration.into (.ofString "tex")).sourceExtension).run
          FileTree.workspace.withNotes).1 = .ok Batch.notes ∧
      Batch.Expendable (.into (.ofString "tex")) FileTree.workspace.withNotes Batch.notes
        [.ofString "content/a.md"] ∧
      ∃ report events after whole events' afterWhole,
        (convertDirectory FileTree.fileSystem (.into (.ofString "tex"))
          (Batch.vanishing [.ofString "content/a.md"]) Batch.content).run
            FileTree.workspace.withNotes = (.ok (report, events), after) ∧
        (convertDirectory (FileTree.fileSystemWith .other) (.into (.ofString "tex")) Batch.silent
          Batch.content).run FileTree.workspace.withNotes = (.ok (whole, events'), afterWhole) ∧
        Batch.Isolates (.into (.ofString "tex")) FileTree.workspace.withNotes Batch.notes
          [.ofString "content/a.md"] report whole after afterWhole := by
  have plain := TemporaryFiles.asDocumented_plain
  have other := TemporaryFiles.asDocumented_other
  have found := Batch.discover_withNotes .plain (.into (.ofString "tex")) rfl
  have expendable : Batch.Expendable (.into (.ofString "tex")) FileTree.workspace.withNotes
      Batch.notes [.ofString "content/a.md"] := {
    source := by decide +kernel
    directory := by decide +kernel
    within := by decide +kernel
    entry := by decide +kernel
    own := by decide +kernel
    offWay := by decide +kernel }
  obtain ⟨⟨made, ⟨report, events⟩, after, converted, by_moves⟩,
    ⟨made', ⟨whole, events'⟩, afterWhole, converted', by_moves'⟩, isolates⟩ :=
      convertDirectory_isolates .plain .other plain other (.into (.ofString "tex")) Batch.content
        FileTree.workspace.withNotes Batch.notes [.ofString "content/a.md"]
        (congrArg Prod.fst found) expendable
  exact ⟨plain, other, congrArg Prod.fst found, expendable, report, events, after, whole, events',
    afterWhole, converted, converted', isolates made report events after made' whole events'
      afterWhole by_moves by_moves'⟩

/-! ### Documents that are concerned -/

namespace Batch

/-- What might seem to be enough for the others not to notice: no source is a link, no result takes
the place of a source, and the output directory is neither at a source nor below one. -/
structure Distinct (config : Configuration) (start : FileTree) (sources : List Path) : Prop where
  entry : ∀ source ∈ sources, start.locateLast source .busy = start.locate source
  result : ∀ source ∈ sources, ∀ other ∈ sources,
    ∀ place ∈ start.entryOf (Destination.ofSource config other), start.locate source ≠ .ok place
  output : ∀ source ∈ sources, ∀ place ∈ (start.locate source).toOption,
    ∀ location ∈ (start.locate config.outputDirectory.holding).toOption, ¬ place <+: location

instance (config : Configuration) (start : FileTree) (sources : List Path) :
    Decidable (Distinct config start sources) :=
  decidable_of_iff
    ((∀ source ∈ sources, start.locateLast source .busy = start.locate source) ∧
      (∀ source ∈ sources, ∀ other ∈ sources,
        ∀ place ∈ start.entryOf (Destination.ofSource config other),
          start.locate source ≠ .ok place) ∧
      ∀ source ∈ sources, ∀ place ∈ (start.locate source).toOption,
        ∀ location ∈ (start.locate config.outputDirectory.holding).toOption,
          ¬ place <+: location)
    ⟨fun h => ⟨h.1, h.2.1, h.2.2⟩, fun h => ⟨h.entry, h.result, h.output⟩⟩

/-- Two batches of a directory, one in which some sources vanish and one in which none does, each
with a file system of its own, come to something that differs. -/
structure Disturbed (fs fs' : FileSystem (StateM FileTree)) (config : Configuration)
    (directory : Path) (start : FileTree) (sources gone : List Path)
    (differ : BatchReport → FileTree → BatchReport → FileTree → Prop) : Prop where
  listed : (Source.discover fs directory config.sourceExtension).run start = (.ok sources, start)
  listed' : (Source.discover fs' directory config.sourceExtension).run start = (.ok sources, start)
  within : ∀ source ∈ gone, source ∈ sources
  distinct : Distinct config start sources
  differ : ∃ report events after whole events' afterWhole,
    (convertDirectory fs config (vanishing gone) directory).run start =
      (.ok (report, events), after) ∧
    (convertDirectory fs' config silent directory).run start =
      (.ok (whole, events'), afterWhole) ∧
    differ report after whole afterWhole

/-- A document that stays has another report. -/
def NoticedIn (gone : List Path) (report : BatchReport) (_ : FileTree) (whole : BatchReport)
    (_ : FileTree) : Prop :=
  ∃ document ∈ report.documents, document.source ∉ gone ∧ document ∉ whole.documents

section

variable {fs fs' : FileSystem (StateM FileTree)} {config : Configuration} {directory : Path}
  {start : FileTree} {sources gone : List Path}
  (found : (Source.discover fs directory config.sourceExtension).run start = (.ok sources, start))
  (found' : (Source.discover fs' directory config.sourceExtension).run start = (.ok sources, start))
  (nonempty : sources.isEmpty = false) (within : ∀ source ∈ gone, source ∈ sources)
  (distinct : Distinct config start sources)

include found found' nonempty within distinct

/-- It can be told from the runs of the two batches. -/
theorem disturbed_of_run {differ : BatchReport → FileTree → BatchReport → FileTree → Prop}
    (differs :
      let begun : Batch := { waiting := sources, events := [.began sources.length] }
      let run := begun.run fs config (vanishing gone) start
      let runWhole := begun.run fs' config silent start
      differ (.ofReports sources.length run.1.finished) run.2
        (.ofReports sources.length runWhole.1.finished) runWhole.2) :
    Disturbed fs fs' config directory start sources gone differ := by
  obtain ⟨events, converted⟩ := exists_convertDirectory_run (vanishing gone) found nonempty
  obtain ⟨events', converted'⟩ := exists_convertDirectory_run silent found' nonempty
  exact ⟨found, found', within, distinct, _, events, _, _, events', _, converted, converted',
    differs⟩

/-- For the reports of single documents their order does not matter. -/
theorem noticed_of_run
    (differs :
      let begun : Batch := { waiting := sources, events := [.began sources.length] }
      let run := begun.run fs config (vanishing gone) start
      let runWhole := begun.run fs' config silent start
      ∃ report ∈ run.1.finished, report.source ∉ gone ∧ report ∉ runWhole.1.finished) :
    Disturbed fs fs' config directory start sources gone (NoticedIn gone) := by
  refine disturbed_of_run found found' nonempty within distinct ?_
  unfold NoticedIn
  simp only [BatchReport.mem_ofReports]
  exact differs

end

end Batch

/-- A configuration for the working directory, with one document in flight at a time. -/
def Configuration.inPlace : Configuration :=
  { Configuration.into (.ofString ".") with
    concurrency := 1
    concurrency_pos := Nat.one_pos }

/-- A directory with two documents, and a link to it that has the name of the first result. -/
def FileTree.linkedDirectory : FileTree :=
  ((FileTree.workspace.putFile (.ofString "d/b.md") (Text.encode ['B'])).putFile
    (.ofString "d/a.md") (Text.encode ['A'])).putLink (.ofString "a.tex") (.ofString "d")

/-- A tree with two documents, the second of which is no text. -/
def FileTree.garbled : FileTree :=
  (FileTree.workspace.putFile (.ofString "content/b.md") ⟨#[255]⟩).putFile
    (.ofString "content/a.md") (Text.encode ['A'])

/-- **Concern.** It is not enough that the sources are distinct from the results. The other document
has another report
* if the result of the document that vanishes would have taken the place of a link on the way to the
  output directory, or to the other document;
* if the output directory can be made half-way and no further, so that only the first document is
  told why;
* if temporary files cannot be created, and have another name each time;
* if there is room for one document only;
* if the document that vanishes would have been in the way of the output directory.

And a directory on the way to the output directory may be new at the destination of the document
that vanishes, or, if nothing vanishes, at that of the other, which cannot be read. -/
theorem convertDirectory_disturbed :
    Batch.Disturbed FileTree.fileSystem FileTree.fileSystem .throughLink Batch.content .linked
      Batch.notes [.ofString "content/a.md"] (Batch.NoticedIn [.ofString "content/a.md"]) ∧
    Batch.Disturbed FileTree.fileSystem FileTree.fileSystem .inPlace (.ofString "a.tex")
      .linkedDirectory [.ofString "a.tex/a.md", .ofString "a.tex/b.md"] [.ofString "a.tex/a.md"]
      (Batch.NoticedIn [.ofString "a.tex/a.md"]) ∧
    Batch.Disturbed FileTree.fileSystem FileTree.fileSystem .pastFile Batch.content .blocked
      Batch.notes [.ofString "content/a.md"] (Batch.NoticedIn [.ofString "content/a.md"]) ∧
    (TemporaryFiles.plain.AsDocumented ∧ TemporaryFiles.other.AsDocumented ∧
      Batch.Disturbed FileTree.fileSystem (FileTree.fileSystemWith .other)
        (.into (.ofString "tex")) Batch.content .readOnly Batch.notes [.ofString "content/a.md"]
        (Batch.NoticedIn [.ofString "content/a.md"])) ∧
    Batch.Disturbed (FileTree.fileSystemOfSize 7) (FileTree.fileSystemOfSize 7)
      (.into (.ofString "tex")) Batch.content FileTree.workspace.withNotes Batch.notes
      [.ofString "content/a.md"] (Batch.NoticedIn [.ofString "content/a.md"]) ∧
    Batch.Disturbed FileTree.fileSystem FileTree.fileSystem
      (.into (.ofString "content/a.md/../../tex")) Batch.content
      FileTree.workspace.withNotes Batch.notes [.ofString "content/a.md"]
      (Batch.NoticedIn [.ofString "content/a.md"]) ∧
    Batch.Disturbed FileTree.fileSystem FileTree.fileSystem .throughLink Batch.content
      FileTree.workspace.withNotes Batch.notes [.ofString "content/a.md"] (fun _ after _ _ =>
        ∃ place ∈ FileTree.workspace.withNotes.entryOf
          (Destination.ofSource .throughLink (.ofString "content/a.md")),
          after.get? place ≠ FileTree.workspace.withNotes.get? place) ∧
    Batch.Disturbed FileTree.fileSystem FileTree.fileSystem (.into (.ofString "x/b.tex/.."))
      Batch.content .garbled Batch.notes [.ofString "content/a.md"] (fun _ after _ afterWhole =>
        ∃ place ∈ FileTree.garbled.entryOf
          (Destination.ofSource (.into (.ofString "x/b.tex/..")) (.ofString "content/b.md")),
          after.get? place ≠ afterWhole.get? place) := by
  have within : ∀ source ∈ [Path.ofString "content/a.md"], source ∈ Batch.notes := by
    decide +kernel
  refine ⟨?_, ?_, ?_, ?_, ?_, ?_, ?_, ?_⟩
  · have found := Batch.discover_linked .plain .throughLink rfl
    exact Batch.noticed_of_run found found rfl within (by decide +kernel) (by decide +kernel)
  · have listed : FileTree.linkedDirectory.list (.ofString "a.tex") =
        .ok ["a.md".toList, "b.md".toList] := by rfl
    have paths : Source.withExtension (.ofString "a.tex") Configuration.inPlace.sourceExtension
        ["a.md".toList, "b.md".toList] = [.ofString "a.tex/a.md", .ofString "a.tex/b.md"] := by
      decide +kernel
    have found := @Source.discover_of_listed .plain _ _ _ _ _ listed paths (by decide +kernel)
      (by decide +kernel)
    exact Batch.noticed_of_run found found rfl (by decide +kernel) (by decide +kernel)
      (by decide +kernel)
  · have found := Batch.discover_blocked .plain .pastFile rfl
    exact Batch.noticed_of_run found found rfl within (by decide +kernel) (by decide +kernel)
  · have found := Batch.discover_readOnly .plain (.into (.ofString "tex")) rfl
    have found' := Batch.discover_readOnly .other (.into (.ofString "tex")) rfl
    refine ⟨TemporaryFiles.asDocumented_plain, TemporaryFiles.asDocumented_other, ?_⟩
    exact Batch.noticed_of_run found found' rfl within (by decide +kernel) (by decide +kernel)
  · have found := Batch.discover_fileSystemOfSize (.into (.ofString "tex")) rfl 7
    exact Batch.noticed_of_run found found rfl within (by decide +kernel) (by decide +kernel)
  · have found := Batch.discover_withNotes .plain (.into (.ofString "content/a.md/../../tex")) rfl
    exact Batch.noticed_of_run found found rfl within (by decide +kernel) (by decide +kernel)
  · have found := Batch.discover_withNotes .plain .throughLink rfl
    exact Batch.disturbed_of_run found found rfl within (by decide +kernel) (by decide +kernel)
  · have found := Batch.discover_notes .plain (.into (.ofString "x/b.tex/..")) .garbled rfl
      (by rfl) (by decide +kernel)
    exact Batch.disturbed_of_run found found rfl within (by decide +kernel) (by decide +kernel)

end Manuscript
