import Manuscript.CommandLine.Run
import Manuscript.Proofs.Batch.Results
import Manuscript.Proofs.Batch.Streaming

/-!
# A batch on the command line and its documents one by one

The command line converts all documents of a directory, or one document. The exit code of a batch is
made of its serious failures, that of one document of the failure that ended the run; both come down
to whether the report of the document alone is serious (`Batch.isSerious_alone`). And what the batch
leaves in the tree is what the single runs leave there, put together
(`Batch.Written.get?_of_changed`, `Batch.Written.get?_of_unchanged`).

`CommandLine.run_all_agrees` says so of every schedule of the batch and of whatever requests are
refused in the tree, be it to read a document or to write a result; `CommandLine.convertAllBy` is
told the moves to make. It assumes that destinations are apart (`Batch.Apart`); a link on the
way to the output directory cannot be left out of that, nor that requests are refused alike whatever
was written before (`CommandLine.run_all_disagrees`).
-/

namespace Manuscript

/-! ### Whether a document makes a batch unsuccessful -/

namespace Batch

variable {config : Configuration} {start tree : FileTree} {directory : Path} {extension : Text}
  {sources : List Path} {batch : Batch} {files : TemporaryFiles}

/-- The report of a document alone is serious if it failed and was there. -/
theorem isSerious_alone (files : TemporaryFiles) (config : Configuration) (start : FileTree)
    (source : Path) : (alone files config start source).isSerious =
      match ((Source.publish (FileTree.fileSystemWith files) config source).run start).1 with
      | .ok _ => false
      | .error failure => !failure.nothingToConvert := by
  have published := Source.publish_run files start config source
  cases converted : Source.conversionIn start config source with
  | error failure =>
    rw [converted] at published
    rw [alone_of_error converted, published]
    have reading := Source.isOfReading_of_conversionIn converted
    cases failure <;> first | rfl | cases reading
  | ok conversion =>
    rw [converted] at published
    rw [alone_of_ok converted, published]
    dsimp only
    generalize (start.replaceAt files (Destination.ofSource config source)
      conversion.latex.encode).1 = answer
    cases answer <;> rfl

/-- A batch that is done has serious failures if a document alone has. -/
theorem Follows.seriousFailures_eq_nil (h : Follows files config start sources batch tree)
    (done : batch.isDone) :
    (BatchReport.ofReports sources.length batch.finished).seriousFailures = [] ↔
      ∀ source ∈ sources, (alone files config start source).isSerious = false := by
  have same : ∀ report ∈ batch.finished,
      report.isSerious = (alone files config start report.source).isSerious := by
    -- what is left out when a report is settled does not make it serious
    intro report mem
    rw [← isSerious_settled start, h.reported report mem, isSerious_settled]
  rw [seriousFailures_eq, List.filter_eq_nil_iff]
  constructor
  · intro soft source mem
    obtain ⟨report, finished, rfl⟩ := List.mem_map.1 ((h.finished_perm done).mem_iff.2 mem)
    rw [← same report finished]
    exact eq_false_of_ne_true (soft report (BatchReport.mem_ofReports.2 finished))
  · intro soft report mem
    have finished := BatchReport.mem_ofReports.1 mem
    rw [same report finished, soft report.source
      ((h.finished_perm done).mem_iff.1 (List.mem_map_of_mem finished))]
    exact Bool.false_ne_true

end Batch

namespace CommandLine

/-! ### Configurations -/

/-- The configuration that an invocation makes. -/
def Invocation.configuration (invocation : Invocation) : Configuration :=
  { Configuration.into invocation.outputDirectory with
    contentDirectory := invocation.contentDirectory
    concurrency := max invocation.concurrency 1
    closeUnterminated := invocation.closeUnterminated
    callback := if invocation.showsProgress then some () else none
    concurrency_pos := Nat.le_max_right _ _ }

/-- The settings that an invocation asks for can always be taken. -/
theorem Invocation.ofChanges_settings (invocation : Invocation) :
    Configuration.ofChanges invocation.settings = .ok invocation.configuration := by
  have settings : Settings.ofChanges invocation.settings =
      invocation.configuration.toSettings := by
    unfold Invocation.settings Invocation.configuration
    cases invocation.showsProgress <;> rfl
  unfold Configuration.ofChanges Configuration.ofSettings
  rw [settings, dif_pos invocation.configuration.sourceExtension_bare,
    dif_pos invocation.configuration.targetExtension_bare,
    dif_pos invocation.configuration.concurrency_pos]

/-- The invocation for one document, with everything else as it is. -/
def Invocation.only (invocation : Invocation) (source : Path) : Invocation :=
  { invocation with target := .file source false }

/-! ### Exit codes -/

theorem Outcome.exitCode_ofFailure (attempt : String) (failure : Failure) :
    (ofFailure attempt failure).exitCode = if failure.nothingToConvert then 0 else 1 := by
  unfold ofFailure
  split <;> rfl

theorem Outcome.exitCode_ofWritten (invocation : Invocation) (report : DocumentReport) :
    (ofWritten invocation report).exitCode = 0 := by
  unfold ofWritten
  split
  · rfl
  · split <;> rfl

theorem Outcome.exitCode_ofListing (invocation : Invocation) (batch : BatchReport) :
    (ofListing invocation batch).exitCode = 0 := by
  unfold ofListing
  iterate 4 first | rfl | (split; · rfl)
  rfl

theorem Outcome.exitCode_ofBatch (invocation : Invocation) (batch : BatchReport) :
    (ofBatch invocation batch).exitCode = if batch.seriousFailures = [] then 0 else 1 := by
  unfold ofBatch
  simp only [List.length_eq_zero_iff]
  split
  · exact exitCode_ofListing invocation batch
  · rfl

/-! ### Runs -/

section

variable {m : Type → Type} [Monad m] (fs : FileSystem m)

/-- Converts the content directory by the given moves, as `convert` does by those it takes. It gives
nothing if the moves do not bring the batch to its end. -/
def convertAllBy (invocation : Invocation) (made : List Batch.Move) : m (Option Outcome) := do
  match ← (convertDirectoryBy fs invocation.configuration (fun _ => pure ()) made
    invocation.contentDirectory).run with
  | .error failure => return some (.ofFailure "Batch conversion failed" failure)
  | .ok none => return none
  | .ok (some (batch, _)) => return some (.ofBatch invocation batch)

theorem convert_eq (invocation : Invocation) :
    convert fs invocation = convertTarget fs invocation invocation.configuration := by
  unfold convert
  rw [invocation.ofChanges_settings]

theorem run_of_parse {environment : Environment} {arguments : List Text} {invocation : Invocation}
    (parsed : Invocation.parse environment arguments = .ok invocation) :
    run fs environment arguments = convert fs invocation := by
  unfold run
  rw [parsed]

end

variable {invocation : Invocation} {start after : FileTree} {sources : List Path} {source : Path}
  {files files' : TemporaryFiles}

/-- A run for one document publishes it. -/
theorem convert_only_run (files : TemporaryFiles) (invocation : Invocation) (source : Path)
    (start : FileTree) :
    let published :=
      (Source.publish (FileTree.fileSystemWith files) invocation.configuration source).run start
    convert (FileTree.fileSystemWith files) (invocation.only source) start =
      (match published.1 with
        | .error failure => .ofFailure "Conversion failed" failure
        | .ok report => .ofWritten (invocation.only source) report, published.2) := by
  intro published
  have run : convert (FileTree.fileSystemWith files) (invocation.only source) start =
      (match published.1 with
        | .error failure => pure (.ofFailure "Conversion failed" failure)
        | .ok report => pure (.ofWritten (invocation.only source) report) :
          StateM FileTree Outcome) published.2 := by
    rw [convert_eq]
    rfl
  rw [run]
  cases published.1 <;> rfl

/-- It succeeds if the report of the document alone is not serious. -/
theorem exitCode_convert_only (files : TemporaryFiles) (invocation : Invocation) (source : Path)
    (start : FileTree) :
    (convert (FileTree.fileSystemWith files) (invocation.only source) start).1.exitCode =
      if (Batch.alone files invocation.configuration start source).isSerious then 1 else 0 := by
  rw [convert_only_run, Batch.isSerious_alone]
  cases ((Source.publish (FileTree.fileSystemWith files) invocation.configuration source).run
    start).1 with
  | ok report => exact Outcome.exitCode_ofWritten _ report
  | error failure =>
    dsimp only
    rw [Outcome.exitCode_ofFailure]
    by_cases soft : failure.nothingToConvert <;> simp [soft]

section

variable {σ : Type} {fs : FileSystem (StateM σ)} {state last : σ}

/-- A run for all documents converts the content directory. -/
theorem convert_all_run (all : invocation.target = .all) (state : σ) :
    let converted := (convertDirectory fs invocation.configuration (fun _ => pure ())
      invocation.contentDirectory).run state
    convert fs invocation state =
      (match converted.1 with
        | .error failure => .ofFailure "Batch conversion failed" failure
        | .ok (batch, _) => .ofBatch invocation batch, converted.2) := by
  intro converted
  have run : convert fs invocation state =
      (match converted.1 with
        | .error failure => pure (.ofFailure "Batch conversion failed" failure)
        | .ok (batch, _) => pure (.ofBatch invocation batch) :
          StateM σ Outcome) converted.2 := by
    rw [convert_eq]
    unfold convertTarget
    rw [all]
    rfl
  rw [run]
  cases converted.1 <;> rfl

theorem convertAllBy_run (invocation : Invocation) (made : List Batch.Move) (state : σ) :
    let converted := (convertDirectoryBy fs invocation.configuration (fun _ => pure ()) made
      invocation.contentDirectory).run state
    convertAllBy fs invocation made state =
      (match converted.1 with
        | .error failure => some (.ofFailure "Batch conversion failed" failure)
        | .ok none => none
        | .ok (some (batch, _)) => some (.ofBatch invocation batch), converted.2) := by
  intro converted
  have run : convertAllBy fs invocation made state =
      (match converted.1 with
        | .error failure => pure (some (.ofFailure "Batch conversion failed" failure))
        | .ok none => pure none
        | .ok (some (batch, _)) => pure (some (.ofBatch invocation batch)) :
          StateM σ (Option Outcome)) converted.2 := rfl
  rw [run]
  rcases converted.1 with _ | _ | _ <;> rfl

variable {listed : σ} (found : (Source.discover fs invocation.contentDirectory
    invocation.configuration.sourceExtension).run state = (.ok sources, listed))

include found

/-- A run for all documents makes some moves, and they bring its batch to its end. -/
theorem exists_convertAllBy (all : invocation.target = .all) : ∃ made outcome last,
    convert fs invocation state = (outcome, last) ∧
      convertAllBy fs invocation made state = (some outcome, last) := by
  obtain ⟨made, ⟨batch, events⟩, last, converted, by_moves⟩ :=
    exists_convertDirectory fs invocation.configuration (fun _ => pure ()) _ found
  refine ⟨made, .ofBatch invocation batch, last, ?_, ?_⟩
  · rw [convert_all_run all, converted]
  · rw [convertAllBy_run, by_moves]

/-- What it comes to by any moves is the outcome of a batch. -/
theorem exists_of_convertAllBy {made : List Batch.Move} {outcome : Outcome}
    (converted : convertAllBy fs invocation made state = (some outcome, last)) : ∃ batch events,
    (convertDirectoryBy fs invocation.configuration (fun _ => pure ()) made
        invocation.contentDirectory).run state = (.ok (some (batch, events)), last) ∧
      outcome = .ofBatch invocation batch := by
  rw [convertAllBy_run] at converted
  cases run : (convertDirectoryBy fs invocation.configuration (fun _ => pure ()) made
    invocation.contentDirectory).run state with
  | mk answer after =>
    rw [run] at converted
    rcases answer with failure | _ | ⟨batch, events⟩
    · -- the batch fails only if the directory cannot be listed
      exfalso
      cases empty : sources.isEmpty with
      | true =>
        rw [convertDirectoryBy_of_isEmpty _ _ _ _ _ found empty] at run
        cases run
      | false =>
        rw [convertDirectoryBy_run _ _ _ _ _ found empty] at run
        cases run
    · cases converted
    · cases converted
      exact ⟨batch, events, rfl, rfl⟩

end

/-- How a run for all documents agrees with runs for each of them, all from the same start. -/
structure Agrees (start : FileTree) (sources : List Path) (single : Path → Outcome × FileTree)
    (outcome : Outcome) (after : FileTree) : Prop where
  /-- It succeeds if they do. -/
  exitCode : outcome.exitCode = if ∀ source ∈ sources, (single source).1.exitCode = 0 then 0 else 1
  /-- What one of them changes, it changes alike. -/
  changed : ∀ source ∈ sources, ∀ location,
    (single source).2.get? location ≠ start.get? location →
      after.get? location = (single source).2.get? location
  /-- What none of them changes, it does not change. -/
  unchanged : ∀ location,
    (∀ source ∈ sources, (single source).2.get? location = start.get? location) →
      after.get? location = start.get? location

/-- It does not matter what the runs for other documents come to. -/
theorem Agrees.congr {single single' : Path → Outcome × FileTree} {outcome : Outcome}
    (h : Agrees start sources single outcome after)
    (same : ∀ source ∈ sources, single' source = single source) :
    Agrees start sources single' outcome after := by
  constructor
  · rw [h.exitCode]
    refine if_congr (forall₂_congr fun source mem => ?_) rfl rfl
    rw [same source mem]
  · intro source mem
    rw [same source mem]
    exact h.changed source mem
  · intro location unchanged
    refine h.unchanged location fun source mem => ?_
    rw [← same source mem]
    exact unchanged source mem

section

variable (listed : ((Source.discover (FileTree.fileSystemWith files) invocation.contentDirectory
    invocation.configuration.sourceExtension).run start).1 = .ok sources)

include listed

/-- Whatever moves it makes, it agrees with the runs for each document if destinations are apart. -/
theorem agrees_of_apart (documented : files.AsDocumented) (documented' : files'.AsDocumented)
    (apart : Batch.Apart invocation.configuration start sources)
    {made : List Batch.Move} {outcome : Outcome}
    (converted : convertAllBy (FileTree.fileSystemWith files) invocation made start =
      (some outcome, after)) :
    Agrees start sources
      (fun source => convert (FileTree.fileSystemWith files') (invocation.only source) start)
      outcome after := by
  have found := Source.discover_run_of_fst files listed
  have discovered := Source.discovered_of_run listed
  -- the run is that of a batch which is done
  obtain ⟨batch, events, by_moves, rfl⟩ := exists_of_convertAllBy found converted
  obtain ⟨done, rfl, -, rfl⟩ :=
    eq_of_convertDirectoryBy found (fun event tree _ => Batch.silent_idle event tree) by_moves
  have begins : Batch.Follows files' invocation.configuration start sources
      { waiting := sources } start := Batch.follows_start files' (List.Perm.refl sources) []
  have follows := begins.moveAll discovered apart documented documented' made
  have perm := follows.finished_perm done
  have distinct := follows.finished_nodup discovered
  -- and each single run leaves what comes of its document alone
  have alone : ∀ source ∈ sources, Batch.Written invocation.configuration start [source]
      (convert (FileTree.fileSystemWith files') (invocation.only source) start).2 := by
    intro source mem
    have begun : Batch.Written invocation.configuration start [] start := rfl
    rw [convert_only_run]
    exact (begun.publish discovered (List.forall_mem_nil _) List.nodup_nil apart mem
      List.not_mem_nil documented' documented').1
  constructor
  · rw [Outcome.exitCode_ofBatch]
    refine if_congr ((follows.seriousFailures_eq_nil done).trans
      (forall₂_congr fun source mem => ?_)) rfl rfl
    rw [exitCode_convert_only]
    cases (Batch.alone files' invocation.configuration start source).isSerious <;> simp
  · intro source mem location changed
    exact follows.written.get?_of_changed discovered follows.finished_within distinct
      (perm.mem_iff.2 mem) (alone source mem) changed
  · intro location unchanged
    exact follows.written.get?_of_unchanged discovered follows.finished_within distinct
      (fun source mem => alone source (perm.mem_iff.1 mem))
      fun source mem => unchanged source (perm.mem_iff.1 mem)

end

/-! ### What is missing -/

theorem list_of_missing {tree : FileTree} {path : Path}
    (missing : tree.kindAt path = .error .notFound) : tree.list path = .error .notFound := by
  unfold FileTree.kindAt at missing
  unfold FileTree.list FileTree.listAt
  cases located : tree.locate path with
  | error cause =>
    rw [located] at missing
    cases missing
    exact grant_error _ _
  | ok location =>
    rw [located] at missing
    simp only [bind, Except.bind] at missing ⊢
    split at missing <;> cases missing
    next nothing =>
      rw [nothing]
      exact grant_error _ _

/-- A run for the documents of a directory that is missing does nothing, and succeeds. -/
theorem convert_all_of_missing (files : TemporaryFiles) (all : invocation.target = .all)
    (missing : start.kindAt invocation.contentDirectory = .error .notFound) :
    ∃ outcome, convert (FileTree.fileSystemWith files) invocation start = (outcome, start) ∧
      outcome.exitCode = 0 := by
  have found : (Source.discover (FileTree.fileSystemWith files) invocation.contentDirectory
      invocation.configuration.sourceExtension).run start =
        (.error (.noSuchDirectory invocation.contentDirectory), start) := by
    rw [Source.discover_run, list_of_missing missing]
    rfl
  refine ⟨_, ?_, Outcome.exitCode_ofFailure "Batch conversion failed"
    (.noSuchDirectory invocation.contentDirectory)⟩
  rw [convert_all_run all, convertDirectory, Source.bind_run, found]

/-- So does a run for one document that is missing, whether or not it is to be printed. -/
theorem convert_file_of_missing (files : TemporaryFiles) {toStdout : Bool}
    (one : invocation.target = .file source toStdout)
    (missing : start.kindAt source = .error .notFound) :
    ∃ outcome, convert (FileTree.fileSystemWith files) invocation start = (outcome, start) ∧
      outcome.exitCode = 0 := by
  have failed : Source.conversionIn start invocation.configuration source =
      .error (.noSuchFile source) := by
    unfold Source.conversionIn FileTree.kind
    rw [missing, grant_error]
    rfl
  refine ⟨_, ?_, Outcome.exitCode_ofFailure "Conversion failed" (.noSuchFile source)⟩
  cases toStdout with
  | true =>
    have ran := Source.convert_run files start invocation.configuration source
    rw [failed] at ran
    rw [convert_eq]
    unfold convertTarget
    rw [one]
    simp only [bind, StateT.bind]
    rw [ran]
    rfl
  | false =>
    have only : invocation = invocation.only source := by
      unfold Invocation.only
      rw [← one]
    rw [only, convert_only_run, Source.publish_run, failed]

/-- **Batches and single files agree.** Assume that a command line is understood as one for all
documents. Whatever requests are refused in the tree:

* If the content directory can be listed, and no result takes the place of another source, of a link
  on the way to one, or of a link on the way to the output directory, then it agrees with the
  command lines for each document, which have a library of their own for temporary files: it
  succeeds if they do, and fails with 1 otherwise; and it changes what they change, and nothing
  else. It is so whatever moves the batch makes.
* If the content directory is missing, it succeeds and changes nothing, and so does a command line
  for a document that is missing. -/
theorem run_all_agrees (files files' : TemporaryFiles) (documented : files.AsDocumented)
    (documented' : files'.AsDocumented) (environment : Environment) (arguments : List Text)
    (invocation : Invocation)
    (parsed : Invocation.parse environment arguments = .ok invocation)
    (all : invocation.target = .all) (start : FileTree) :
    (∀ sources,
      ((Source.discover (FileTree.fileSystemWith files) invocation.contentDirectory
        invocation.configuration.sourceExtension).run start).1 = .ok sources →
      Batch.Apart invocation.configuration start sources →
      (∃ made outcome after,
        run (FileTree.fileSystemWith files) environment arguments start = (outcome, after) ∧
        convertAllBy (FileTree.fileSystemWith files) invocation made start =
          (some outcome, after)) ∧
      ∀ single : Path → List Text,
        (∀ source ∈ sources,
          Invocation.parse environment (single source) = .ok (invocation.only source)) →
        ∀ made outcome after,
          convertAllBy (FileTree.fileSystemWith files) invocation made start =
            (some outcome, after) →
          Agrees start sources
            (fun source => run (FileTree.fileSystemWith files') environment (single source) start)
            outcome after) ∧
    (start.kindAt invocation.contentDirectory = .error .notFound →
      ∃ outcome, run (FileTree.fileSystemWith files) environment arguments start =
          (outcome, start) ∧ outcome.exitCode = 0) ∧
    ∀ (single : List Text) (only : Invocation) (source : Path) (toStdout : Bool),
      Invocation.parse environment single = .ok only → only.target = .file source toStdout →
      start.kindAt source = .error .notFound →
      ∃ outcome, run (FileTree.fileSystemWith files') environment single start =
          (outcome, start) ∧ outcome.exitCode = 0 := by
  refine ⟨?_, ?_, ?_⟩
  · intro sources listed apart
    rw [run_of_parse _ parsed]
    refine ⟨exists_convertAllBy (Source.discover_run_of_fst files listed) all, ?_⟩
    intro single understood made outcome after converted
    have agrees := agrees_of_apart listed documented documented' apart converted
    refine agrees.congr fun source mem => ?_
    rw [run_of_parse _ (understood source mem)]
  · rw [run_of_parse _ parsed]
    exact convert_all_of_missing files all
  · intro single only source toStdout understood one missing
    rw [run_of_parse _ understood]
    exact convert_file_of_missing files' one missing

/-- An environment in which no variable is set. -/
def bare : Environment := fun _ => none

/-- What `--all` is understood as, with everything else left open. -/
def everything : Invocation where
  target := .all
  outputDirectory := .ofString "tex"
  contentDirectory := Batch.content
  concurrency := 4

theorem run_all_agrees_notes :
    TemporaryFiles.plain.AsDocumented ∧ TemporaryFiles.other.AsDocumented ∧
      Invocation.parse bare ["--all".toList] = .ok everything ∧
      Batch.Apart everything.configuration FileTree.workspace.withNotes Batch.notes ∧
      (∃ outcome after,
        run FileTree.fileSystem bare ["--all".toList] FileTree.workspace.withNotes =
          (outcome, after) ∧
        Agrees FileTree.workspace.withNotes Batch.notes (fun source =>
          run (FileTree.fileSystemWith .other) bare [source.text] FileTree.workspace.withNotes)
          outcome after) ∧
      (∃ outcome, run FileTree.fileSystem bare ["--all".toList] FileTree.workspace =
        (outcome, FileTree.workspace) ∧ outcome.exitCode = 0) ∧
      ∃ outcome,
        run (FileTree.fileSystemWith .other) bare ["a.md".toList] FileTree.workspace =
          (outcome, FileTree.workspace) ∧ outcome.exitCode = 0 := by
  have plain := TemporaryFiles.asDocumented_plain
  have other := TemporaryFiles.asDocumented_other
  have parsed : Invocation.parse bare ["--all".toList] = .ok everything := by decide +kernel
  have found := Batch.discover_withNotes .plain everything.configuration rfl
  have apart : Batch.Apart everything.configuration FileTree.workspace.withNotes Batch.notes :=
    ⟨⟨by decide +kernel⟩, by decide +kernel⟩
  have single : ∀ source ∈ Batch.notes,
      Invocation.parse bare [source.text] = .ok (everything.only source) := by
    decide +kernel
  have agrees := run_all_agrees .plain .other plain other bare ["--all".toList] everything parsed
    rfl FileTree.workspace.withNotes
  have missing := run_all_agrees .plain .other plain other bare ["--all".toList] everything parsed
    rfl FileTree.workspace
  obtain ⟨⟨made, outcome, after, converted, by_moves⟩, agree⟩ :=
    agrees.1 Batch.notes (congrArg Prod.fst found) apart
  refine ⟨plain, other, parsed, apart, ⟨outcome, after, converted, ?_⟩, ?_, ?_⟩
  · exact agree (fun source => [source.text]) single made outcome after by_moves
  · exact missing.2.1 (by rfl)
  · exact missing.2.2 ["a.md".toList] (everything.only (.ofString "a.md")) (.ofString "a.md") false
      (by decide +kernel) rfl (by rfl)

/-- What `--all` is understood as for an output directory that is reached through a link. -/
def throughLink : Invocation :=
  { everything with
    outputDirectory := .ofString "x/a.tex/.."
    concurrency := 1 }

/-- The options that ask for it. -/
def linkOptions : List Text :=
  ["-o".toList, "x/a.tex/..".toList, "-c".toList, "1".toList]

section

variable {fs : FileSystem (StateM FileTree)} {arguments : List Text} {content : Path}

/-- A run for all documents fails if one of its batch has a serious report. -/
theorem exitCode_run_all (parsed : Invocation.parse bare arguments = .ok invocation)
    (all : invocation.target = .all) (directory : invocation.contentDirectory = content)
    (found : (Source.discover fs content invocation.configuration.sourceExtension).run start =
      (.ok sources, start)) (nonempty : sources.isEmpty = false)
    (serious : ∃ report ∈ (Batch.run fs invocation.configuration (fun _ => pure ())
        { waiting := sources, events := [.began sources.length] } start).1.finished,
      report.isSerious) : (run fs bare arguments start).1.exitCode = 1 := by
  obtain ⟨events, converted⟩ := exists_convertDirectory_run (fun _ => pure ()) found nonempty
  rw [run_of_parse _ parsed, convert_all_run all, directory, converted]
  dsimp only
  rw [Outcome.exitCode_ofBatch]
  refine if_neg fun none => ?_
  rw [Batch.seriousFailures_eq, List.filter_eq_nil_iff] at none
  obtain ⟨report, mem, isSerious⟩ := serious
  exact none report (BatchReport.mem_ofReports.2 mem) isSerious

end

/-- **Disagreement.** It is not enough that no result takes the place of another source or of a link
on the way to one. Where the first result takes the place of a link on the way to the output
directory, the batch fails, though the command line for each document succeeds. So it does where
there is room for one document only. -/
theorem run_all_disagrees :
    (Invocation.parse bare ("--all".toList :: linkOptions) = .ok throughLink ∧
      (Source.discover FileTree.fileSystem Batch.content
        throughLink.configuration.sourceExtension).run .linked = (.ok Batch.notes, .linked) ∧
      Batch.SourcesApart throughLink.configuration .linked Batch.notes ∧
      (∀ source ∈ Batch.notes,
        Invocation.parse bare (linkOptions ++ [source.text]) = .ok (throughLink.only source) ∧
        (run FileTree.fileSystem bare (linkOptions ++ [source.text]) .linked).1.exitCode = 0) ∧
      (run FileTree.fileSystem bare ("--all".toList :: linkOptions) .linked).1.exitCode = 1) ∧
    (Invocation.parse bare ["--all".toList] = .ok everything ∧
      (Source.discover (FileTree.fileSystemOfSize 7) Batch.content
        everything.configuration.sourceExtension).run FileTree.workspace.withNotes =
          (.ok Batch.notes, FileTree.workspace.withNotes) ∧
      Batch.Apart everything.configuration FileTree.workspace.withNotes Batch.notes ∧
      (∀ source ∈ Batch.notes,
        Invocation.parse bare [source.text] = .ok (everything.only source) ∧
        (run (FileTree.fileSystemOfSize 7) bare [source.text]
          FileTree.workspace.withNotes).1.exitCode = 0) ∧
      (run (FileTree.fileSystemOfSize 7) bare ["--all".toList]
        FileTree.workspace.withNotes).1.exitCode = 1) := by
  constructor
  · have parsed : Invocation.parse bare ("--all".toList :: linkOptions) = .ok throughLink := by
      decide +kernel
    have found := Batch.discover_linked .plain throughLink.configuration rfl
    refine ⟨parsed, found, ⟨by decide +kernel⟩, by decide +kernel, ?_⟩
    exact exitCode_run_all parsed rfl rfl found rfl (by decide +kernel)
  · have parsed : Invocation.parse bare ["--all".toList] = .ok everything := by decide +kernel
    have found := Batch.discover_fileSystemOfSize everything.configuration rfl 7
    refine ⟨parsed, found, ⟨⟨by decide +kernel⟩, by decide +kernel⟩, by decide +kernel, ?_⟩
    exact exitCode_run_all parsed rfl rfl found rfl (by decide +kernel)

end CommandLine
end Manuscript
