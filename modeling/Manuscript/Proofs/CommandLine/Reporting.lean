import Manuscript.Proofs.Batch.Accounting
import Manuscript.Proofs.CommandLine.Agreement

/-!
# What a run tells about failed documents

A run for all documents tells about its batch in one of three ways: as JSON, by a plain listing, or
by its progress. The JSON of a batch holds the report of every document
(`DocumentReport.infix_pretty`), and the plain listing has a line for every error
(`CommandLine.infix_listingErrors`). But all that progress leaves behind is a summary of the
counters, and a quiet run leaves out even that. So where neither JSON nor the plain listing is asked
for, what is told depends on nothing but numbers (`CommandLine.Outcome.ofBatch_congr`), and no
document is named. Nor does the log name one then, as long as nobody asked for more of it
(`CommandLine.Invocation.logLevel?_of_untold`).

An error is told with the path that it is about. That is the source of the document, unless its
result could not be written (`Batch.blames_reportOf_advance`).

Main statement: `CommandLine.run_all_tells`. A quiet run is quiet about errors as well
(`CommandLine.run_all_untold`).
-/

namespace Manuscript

/-! ### What is printed as JSON -/

theorem Text.infix_joinWith_of_mem (separator : Char) {text : Text} {texts : List Text}
    (mem : text ∈ texts) : text <:+: joinWith separator texts := by
  induction texts with
  | nil => cases mem
  | cons first rest ih =>
    cases rest with
    | nil =>
      obtain rfl := List.mem_singleton.1 mem
      exact List.infix_refl text
    | cons next others =>
      rcases List.mem_cons.1 mem with rfl | mem
      · exact (List.prefix_append text _).isInfix
      · exact (ih mem).trans ((List.suffix_cons _ _).trans (List.suffix_append _ _)).isInfix

namespace Json

/-- A field as it is printed inside an object. -/
def printedField (depth : Nat) (name : Text) (value : Json) : Text :=
  quote name ++ ':' :: ' ' :: value.indented depth

variable {depth : Nat} {value : Json} {name content : Text} {contents : List Text}

theorem infix_indentedBlock_of_mem {opening closing : Char} (mem : content ∈ contents) :
    content <:+: indentedBlock depth opening closing contents := by
  have nonempty : contents.isEmpty = false := List.isEmpty_eq_false_iff.2 (List.ne_nil_of_mem mem)
  have line : newLine (depth + 1) ++ content ∈ contents.map (newLine (depth + 1) ++ ·) :=
    List.mem_map_of_mem mem
  have first : content <:+: newLine (depth + 1) ++ content := (List.suffix_append _ _).isInfix
  have within := Text.infix_joinWith_of_mem ',' line
  rw [indentedBlock, nonempty]
  exact (first.trans within).trans ⟨[opening], newLine depth ++ [closing], by simp [commaSeparated]⟩

theorem infix_printedField : value.indented depth <:+: printedField depth name value :=
  ((List.suffix_cons _ _).trans ((List.suffix_cons _ _).trans (List.suffix_append _ _))).isInfix

theorem indentedElements_eq (depth : Nat) (elements : List Json) :
    indentedElements depth elements = elements.map (indented depth) := by
  induction elements with
  | nil => rw [indentedElements, List.map_nil]
  | cons element rest ih => rw [indentedElements, ih, List.map_cons]

theorem indentedFields_eq (depth : Nat) (fields : List (Text × Json)) :
    indentedFields depth fields = fields.map fun field => printedField depth field.1 field.2 := by
  induction fields with
  | nil => rw [indentedFields, List.map_nil]
  | cons field rest ih =>
    rw [indentedFields, ih, List.map_cons]
    rfl

/-- What is printed for an array holds what is printed for its elements. -/
theorem infix_indented_array {elements : List Json} (mem : value ∈ elements) :
    value.indented (depth + 1) <:+: (array elements).indented depth := by
  rw [indented, indentedElements_eq]
  exact infix_indentedBlock_of_mem (List.mem_map_of_mem mem)

/-- What is printed for an object holds its fields. -/
theorem infix_indented_object {fields : List (Text × Json)} (mem : (name, value) ∈ fields) :
    printedField (depth + 1) name value <:+: (object fields).indented depth := by
  rw [indented, indentedFields_eq]
  exact infix_indentedBlock_of_mem (List.mem_map_of_mem mem)

end Json

/-- The report of a document as it is printed for its batch. -/
def DocumentReport.printed (report : DocumentReport) : Text := report.toJson.indented 2

/-- The report of every document is printed for the batch. -/
theorem DocumentReport.infix_pretty {batch : BatchReport} {report : DocumentReport}
    (mem : report ∈ batch.documents) : report.printed <:+: batch.toJson.pretty := by
  let documents := Json.array (batch.documents.map toJson)
  have element : report.printed <:+: documents.indented 1 :=
    Json.infix_indented_array (List.mem_map_of_mem mem)
  have field : ("files".toList, documents) ∈
      BatchReport.fieldNames.zip [documents, batch.counts.toJson] := List.mem_cons_self
  exact (element.trans Json.infix_printedField).trans (Json.infix_indented_object field)

/-- The report of a document tells its source and its error. -/
theorem DocumentReport.infix_printed (report : DocumentReport) :
    Json.printedField 3 "source".toList report.source.toJson <:+: report.printed ∧
      Json.printedField 3 "error".toList (.ofOption DocumentError.toJson report.error) <:+:
        report.printed := by
  constructor
  · exact Json.infix_indented_object (by simp [fieldNames])
  · exact Json.infix_indented_object (by simp [fieldNames])

/-! ### What an error is about -/

theorem DocumentError.path_infix_message (error : DocumentError) :
    error.path.text <:+: error.message := by
  have starts (path : Path) (wording detail : Text) :
      path.text <:+: path.text ++ wording ++ detail :=
    ((List.prefix_append _ _).trans (List.prefix_append _ _)).isInfix
  cases error with
  | gone path => exact List.infix_append _ _ _
  | unreadable path detail => exact starts path _ detail
  | unwritable path detail => exact starts path _ detail

/-- The path that is told with the error of a document: where its result was to go if that could not
be written, and else its source. -/
def DocumentReport.blamed (report : DocumentReport) : DocumentError → Path
  | .unwritable _ _ => report.destination
  | _ => report.source

namespace Batch

variable {σ : Type} {fs : FileSystem (StateM σ)} {notify : ProgressEvent → StateM σ Unit}
  {config : Configuration} {job : Job} {outcome : Except Failure DocumentReport}
  {state state' : σ}

/-- Only the last step writes, and it writes to the destination of the source. -/
theorem eq_ofSource_of_unwritable {path : Path} {cause : IoError}
    (h : job.advance fs config state = (.ends (.error (.unwritable path cause)), state')) :
    path = Destination.ofSource config job.source := by
  obtain ⟨source, phase⟩ := job
  cases phase with
  | resolving =>
    rw [Job.resolving_run] at h
    split at h <;> cases h
    next failed =>
    rw [Source.resolution.eq_def] at failed
    split at failed <;> cases failed
  | reading =>
    rw [Job.reading_run] at h
    split at h <;> cases h
    next failed =>
    rw [Source.content.eq_def] at failed
    split at failed
    · split at failed <;> cases failed
    all_goals cases failed
  | writing conversion =>
    rw [Job.writing_run] at h
    generalize (fs.replace (Destination.ofSource config source) conversion.latex.encode state).1 =
      answer at h
    cases answer <;> cases h
    rfl

/-- **The error of a report** is about its source, or about its destination if it could not be
written. -/
theorem blames_reportOf_advance (h : job.advance fs config state = (.ends outcome, state'))
    {error : DocumentError} (failed : (reportOf config job.source outcome).error = some error) :
    error.path = (reportOf config job.source outcome).blamed error := by
  cases outcome with
  | ok report =>
    obtain ⟨_, same⟩ | ⟨_, same, -⟩ := advance_ends h
    · cases same
      cases failed
    · cases same
  | error failure =>
    obtain rfl := Option.some.inj failed
    cases failure with
    | unwritable path cause => exact eq_ofSource_of_unwritable h
    | _ => rfl

/-- What every job's last step gives, all documents of a batch have. -/
theorem forall_documents_convertDirectoryBy {Holds : DocumentReport → Prop}
    (given : ∀ {job : Job} {outcome : Except Failure DocumentReport} {state state' : σ},
      job.advance fs config state = (.ends outcome, state') →
        Holds (reportOf config job.source outcome))
    {directory : Path} {after last : σ} {sources : List Path} {made : List Move}
    {report : BatchReport} {events : List ProgressEvent}
    (found : (Source.discover fs directory config.sourceExtension).run state = (.ok sources, after))
    (h : (convertDirectoryBy fs config notify made directory).run state =
      (.ok (some (report, events)), last)) : ∀ document ∈ report.documents, Holds document := by
  cases empty : sources.isEmpty with
  | true =>
    rw [convertDirectoryBy_of_isEmpty fs config notify _ directory found empty] at h
    cases h
    nofun
  | false =>
    rw [convertDirectoryBy_run fs config notify made directory found empty, collectBy_run] at h
    let begun : Batch := { waiting := sources, events := [.began sources.length] }
    have preserved : ∀ {batch after : Batch} {state state' : σ},
        (∀ report ∈ batch.finished, Holds report) →
          Moves fs config notify batch state after state' →
            ∀ report ∈ after.finished, Holds report := by
      intro batch after state state' known moves
      cases moves with
      | start | continues => exact known
      | ends _ stepped =>
        exact List.forall_mem_append.2 ⟨known, List.forall_mem_singleton.2 (given stepped)⟩
    have finished := @moveAll_induction σ fs notify config begun
      (notify (.began sources.length) after).2
      (fun batch _ => ∀ report ∈ batch.finished, Holds report) preserved nofun made
    dsimp only at h
    split at h <;> cases h
    exact fun document mem => finished document (BatchReport.mem_ofReports.1 mem)

end Batch

namespace CommandLine

variable {invocation : Invocation} {batch other : BatchReport}

/-! ### Outcomes -/

/-- Whether an invocation asks for each failure to be told: in the JSON of the batch, or else in the
plain listing. -/
def Invocation.tellsFailures (invocation : Invocation) : Bool :=
  invocation.json || (invocation.noProgress && !invocation.quiet)

/-- The line of the plain listing for an error. -/
def errorLine (error : DocumentError) : Text :=
  line [styled .red "Error:".toList, [' '], error.message]

/-- The plain listing has a line for every error. -/
theorem infix_listingErrors {document : DocumentReport} (mem : document ∈ batch.documents)
    {error : DocumentError} (failed : document.error = some error) :
    errorLine error <:+: listingErrors batch := by
  refine List.IsInfix.trans ?_ (List.prefix_append _ _).isInfix
  exact List.infix_of_mem_flatten (List.mem_map.2 ⟨document, mem, by rw [failed]; rfl⟩)

theorem Outcome.stdout_ofBatch : (ofBatch invocation batch).stdout =
    (ofListing invocation batch).stdout := by
  unfold ofBatch
  dsimp only
  split <;> rfl

theorem Outcome.stderr_ofListing_isPrefix :
    (ofListing invocation batch).stderr <+: (ofBatch invocation batch).stderr := by
  unfold ofBatch
  dsimp only
  split
  · exact List.prefix_refl _
  · exact List.prefix_append _ _

/-- What is told about a batch where neither JSON nor the plain listing is asked for. -/
theorem Outcome.ofListing_of_untold (untold : invocation.tellsFailures = false) :
    ofListing invocation batch =
      if invocation.quiet then {}
      else if batch.counts.discovered = 0 then
        { stdout := line ["No Markdown files found in ".toList, invocation.contentDirectory.text] }
      else { stderr := progressSummary batch.counts } := by
  simp only [Invocation.tellsFailures, Bool.or_eq_false_iff, Bool.and_eq_false_iff,
    Bool.not_eq_false'] at untold
  rw [ofListing, if_neg (Bool.eq_false_iff.1 untold.1)]
  rcases untold.2 with shown | quiet
  · rw [if_neg (Bool.eq_false_iff.1 shown)]
  · rw [if_pos quiet, if_pos quiet]

/-- **Nothing but numbers** is told then. -/
theorem Outcome.ofBatch_congr (untold : invocation.tellsFailures = false)
    (counts : other.counts = batch.counts)
    (serious : other.seriousFailures.length = batch.seriousFailures.length) :
    ofBatch invocation other = ofBatch invocation batch := by
  rw [ofBatch, ofBatch, ofListing_of_untold untold, ofListing_of_untold untold, counts, serious]

/-- Where nothing else tells of failures, the log does not either, unless it is asked to. -/
theorem Invocation.logLevel?_of_untold {environment : Environment} (all : invocation.target = .all)
    (untold : invocation.tellsFailures = false) (brief : invocation.verbose = false)
    (unset : environment logVariable = none) :
    invocation.logLevel? environment = some .error := by
  obtain ⟨noJson, quieted⟩ : invocation.json = false ∧
      (invocation.noProgress → invocation.quiet) := by
    simpa [tellsFailures] using untold
  have silent : invocation.quiet || invocation.showsProgress := by
    cases quiet : invocation.quiet with
    | true => rfl
    | false =>
      have shown : invocation.noProgress = false := by simpa [quiet] using quieted
      simp [showsProgress, all, shown, noJson, quiet]
  simp [logLevel?, unset, brief, silent]

/-- What the outcome of a run tells about a batch. -/
structure Tells (environment : Environment) (invocation : Invocation) (batch : BatchReport)
    (outcome : Outcome) : Prop where
  /-- As JSON, the source and the error of each failed document are printed together. All paths are
  Unicode text here, as everywhere in a run; a batch with any other path in it would not be written
  (`BatchReport.serialize`), and nothing printed. -/
  json : invocation.json → ∀ document ∈ batch.documents, ∀ error, document.error = some error →
    document.printed <:+: outcome.stdout ∧
      Json.printedField 3 "source".toList document.source.toJson <:+: document.printed ∧
      Json.printedField 3 "error".toList error.toJson <:+: document.printed
  /-- The plain listing has a line for each error. -/
  listing : invocation.json = false → invocation.tellsFailures →
    ∀ document ∈ batch.documents, ∀ error, document.error = some error →
      errorLine error <:+: outcome.stderr
  /-- Otherwise any batch with the same numbers is told about in the same words, and so no document
  is named as long as the log, which does not belong to the outcome, has no warnings. -/
  untold : invocation.tellsFailures = false →
    invocation.logLevel? environment = some .error → ∀ other : BatchReport,
      other.counts = batch.counts →
        other.seriousFailures.length = batch.seriousFailures.length →
          outcome = .ofBatch invocation other

theorem tells_ofBatch (environment : Environment)
    (discovered : batch.counts.discovered = batch.documents.length) :
    Tells environment invocation batch (.ofBatch invocation batch) where
  json := by
    intro json document mem error failed
    have printed := document.infix_printed
    rw [failed] at printed
    refine ⟨?_, printed⟩
    rw [Outcome.stdout_ofBatch, Outcome.ofListing, if_pos json]
    exact (DocumentReport.infix_pretty mem).trans ⟨[], ['\n'], by simp [line]⟩
  listing := by
    intro json told document mem error failed
    have nonempty : batch.counts.discovered ≠ 0 := by
      rw [discovered]
      exact List.length_pos_iff.2 (List.ne_nil_of_mem mem) |>.ne'
    simp only [Invocation.tellsFailures, json, Bool.false_or, Bool.and_eq_true,
      Bool.not_eq_true'] at told
    have stderr : (Outcome.ofListing invocation batch).stderr = listingErrors batch := by
      simp [Outcome.ofListing, json, told.1, told.2, nonempty]
    refine (infix_listingErrors mem failed).trans ?_
    rw [← stderr]
    exact Outcome.stderr_ofListing_isPrefix.isInfix
  untold := by
    intro untold _ other counts serious
    exact (Outcome.ofBatch_congr untold counts serious).symm

/-- **What a run tells about failed documents.** Assume that a command line is understood as one for
all documents, and that its content directory can be listed. Whatever moves the batch makes, and
whatever the file system answers, there is a report for each document.

* If JSON or the plain listing is asked for, the run tells each error. It does so with the source of
  the document, but the plain listing names the destination if that could not be written.
* Otherwise it tells no more than how many documents there are, were converted, and failed although
  they were there, unless a log was asked for that has warnings in it. -/
theorem run_all_tells {σ : Type} (fs : FileSystem (StateM σ)) (lists : fs.ListsNames)
    (environment : Environment) (arguments : List Text) (invocation : Invocation)
    (parsed : Invocation.parse environment arguments = .ok invocation)
    (all : invocation.target = .all) (state : σ) (sources : List Path)
    (listed : ((Source.discover fs invocation.contentDirectory
      invocation.configuration.sourceExtension).run state).1 = .ok sources) :
    (∃ made outcome last, run fs environment arguments state = (outcome, last) ∧
      convertAllBy fs invocation made state = (some outcome, last)) ∧
    ∀ made outcome last, convertAllBy fs invocation made state = (some outcome, last) →
      ∃ batch events,
        (convertDirectoryBy fs invocation.configuration (fun _ => pure ()) made
          invocation.contentDirectory).run state = (.ok (some (batch, events)), last) ∧
        batch.Accounts invocation.configuration sources ∧
        (∀ document ∈ batch.documents, ∀ error, document.error = some error →
          error.path = document.blamed error ∧ error.path.text <:+: error.message) ∧
        Tells environment invocation batch outcome := by
  obtain ⟨after, found⟩ : ∃ after, (Source.discover fs invocation.contentDirectory
      invocation.configuration.sourceExtension).run state = (.ok sources, after) :=
    ⟨_, Prod.ext listed rfl⟩
  constructor
  · rw [run_of_parse fs parsed]
    exact exists_convertAllBy found all
  · intro made outcome last converted
    obtain ⟨batch, events, by_moves, rfl⟩ := exists_of_convertAllBy found converted
    have accounts := (accounts_convertDirectoryBy fs _ found lists by_moves).1
    have blames : ∀ document ∈ batch.documents, ∀ error, document.error = some error →
        error.path = document.blamed error :=
      Batch.forall_documents_convertDirectoryBy
        (fun stepped _ => Batch.blames_reportOf_advance stepped) found by_moves
    refine ⟨batch, events, by_moves, accounts, fun document mem error failed => ⟨?_, ?_⟩,
      tells_ofBatch environment accounts.discovered⟩
    · exact blames document mem error failed
    · exact error.path_infix_message

/-! ### A document that is not text -/

/-- A document that cannot be decoded. -/
def undecodable : Path := .ofString "content/a.md"

/-- A tree with that document in the directory. -/
def undecodableTree : FileTree := FileTree.workspace.putFile undecodable ⟨#[255]⟩

theorem discover_undecodable (config : Configuration)
    (extension : config.sourceExtension = "md".toList) :
    (Source.discover (FileTree.fileSystemWith .plain) Batch.content config.sourceExtension).run
      undecodableTree = (.ok [undecodable], undecodableTree) := by
  have paths : Source.withExtension Batch.content "md".toList ["a.md".toList] = [undecodable] := by
    decide +kernel
  have regular : ∀ source ∈ [undecodable], undecodableTree.isFileAt source := by decide +kernel
  rw [extension]
  exact Source.discover_of_listed (by rfl) paths regular (List.pairwise_singleton _ _)

theorem run_all_tells_undecodable :
    Invocation.parse bare ["--all".toList, "--json".toList] = .ok { everything with json := true } ∧
      ∃ outcome last, ∃ batch : BatchReport,
        run FileTree.fileSystem bare ["--all".toList, "--json".toList] undecodableTree =
          (outcome, last) ∧
        batch.documents.map DocumentReport.source = [undecodable] ∧
        ∀ document ∈ batch.documents, ∀ error, document.error = some error →
          document.printed <:+: outcome.stdout := by
  have parsed : Invocation.parse bare ["--all".toList, "--json".toList] =
      .ok { everything with json := true } := by decide +kernel
  let invocation : Invocation := { everything with json := true }
  have found := discover_undecodable invocation.configuration rfl
  obtain ⟨⟨made, outcome, last, ran, converted⟩, tells⟩ :=
    run_all_tells (FileTree.fileSystemWith .plain) (FileTree.listsNames .plain) bare _ _ parsed rfl
      undecodableTree _ (congrArg Prod.fst found)
  obtain ⟨batch, -, -, accounts, -, tells⟩ := tells made outcome last converted
  exact ⟨parsed, outcome, last, batch, ran, accounts.documents, fun document mem error failed =>
    (tells.json rfl document mem error failed).1⟩

/-- Its report. -/
def undecodableReport : DocumentReport :=
  .ofFailure everything.configuration undecodable (.notUtf8 undecodable)

/-- What `--all` is understood as, with or without `--quiet`. -/
def keeping (quiet : Bool) : Invocation := { everything with quiet }

theorem convert_keeping_undecodable (quiet : Bool) :
    (convert (FileTree.fileSystemWith .plain) (keeping quiet) undecodableTree).1 =
      .ofBatch (keeping quiet)
        { documents := [undecodableReport], counts := { discovered := 1, failed := 1 } } := by
  have found := discover_undecodable (keeping quiet).configuration rfl
  obtain ⟨events, converted⟩ := exists_convertDirectory_run (fun _ => pure ()) found rfl
  have finished : (Batch.run (FileTree.fileSystemWith .plain) (keeping quiet).configuration
      (fun _ => pure ()) { waiting := [undecodable], events := [.began 1] }
        undecodableTree).1.finished = [undecodableReport] := by
    cases quiet <;> decide +kernel
  have reported : BatchReport.ofReports 1 [undecodableReport] =
      { documents := [undecodableReport], counts := { discovered := 1, failed := 1 } } := by
    rw [BatchReport.ofReports, List.mergeSort_singleton]
    decide +kernel
  have content : (keeping quiet).contentDirectory = Batch.content := rfl
  rw [convert_all_run (show (keeping quiet).target = .all from rfl), content, converted]
  exact congrArg (Outcome.ofBatch (keeping quiet))
    ((congrArg (BatchReport.ofReports 1) finished).trans reported)

/-- **Quiet about errors.** A document is discovered that is not text. A quiet run tells that one
document failed, but neither which nor why, though errors are what it is not to suppress. Nor is it
told by a run that shows its progress, but not to a terminal. Neither run logs warnings. -/
theorem run_all_untold :
    let stop := "Error: 1 of 1 file(s) failed to convert\n"
    let summary := "\x1b[31m✘\x1b[0m \x1b[1m0\x1b[0m/1 files converted  (\x1b[31m1\x1b[0m failed)\n"
    (Source.discover FileTree.fileSystem Batch.content "md".toList).run undecodableTree =
        (.ok [undecodable], undecodableTree) ∧
      ((Source.publish FileTree.fileSystem everything.configuration undecodable).run
        undecodableTree).1 = .error (.notUtf8 undecodable) ∧
      (run FileTree.fileSystem bare ["--all".toList, "--quiet".toList] undecodableTree).1 =
        { exitCode := 1, stderr := stop.toList } ∧
      (run FileTree.fileSystem bare ["--all".toList] undecodableTree).1 =
        { exitCode := 1, stderr := summary.toList ++ stop.toList } ∧
      ∀ quiet, (keeping quiet).logLevel? bare = some .error := by
  intro stop summary
  have quiet : Invocation.parse bare ["--all".toList, "--quiet".toList] = .ok (keeping true) := by
    decide +kernel
  have shown : Invocation.parse bare ["--all".toList] = .ok (keeping false) := by decide +kernel
  have logged (quiet : Bool) : (keeping quiet).logLevel? bare = some .error :=
    Invocation.logLevel?_of_untold rfl rfl rfl rfl
  refine ⟨discover_undecodable everything.configuration rfl, by decide +kernel, ?_, ?_, logged⟩
  · rw [run_of_parse _ quiet]
    exact (convert_keeping_undecodable true).trans (by decide +kernel)
  · rw [run_of_parse _ shown]
    exact (convert_keeping_undecodable false).trans (by decide +kernel)

end CommandLine
end Manuscript
