import Manuscript.Batch.Directory
import Manuscript.CommandLine.Arguments
import Manuscript.Json.Printer
import Manuscript.Report.Json

/-!
# Running the command line

A run converts what the arguments ask for and tells about it: results, reports and listings go to
the standard output, complaints and the progress of a batch to the standard error. A run succeeds
(exit code 0) also if there was nothing to convert; it fails (1) if something could not be
converted, and is refused (2) if the arguments cannot be understood.

Progress is shown for a batch unless it is switched off or the output is to be quiet or JSON. The
plain listing of a batch takes its place where it is switched off.

What is told stands between the lines of a log on the standard error. The log is left out here; but
`Invocation.logLevel?` says how much of it there is, since the failure of a document is logged as a
warning.
-/

namespace Manuscript
namespace CommandLine

/-- What a run leaves behind, beside the files it wrote. -/
structure Outcome where
  exitCode : Nat := 0
  stdout : Text := []
  stderr : Text := []
deriving DecidableEq, Repr

/-! ### Wording -/

/-- The ways in which a terminal sets text off. -/
inductive Style
  | bold
  | red
  | green
  | cyan
deriving DecidableEq, Repr

/-- The number by which a terminal knows a style. -/
def Style.code : Style → Nat
  | bold => 1
  | red => 31
  | green => 32
  | cyan => 36

/-- Text set off in a style. -/
def styled (style : Style) (text : Text) : Text :=
  "\x1b[".toList ++ Text.decimal style.code ++ 'm' :: text ++ "\x1b[0m".toList

/-- Texts one after the other, ended by a line feed. -/
def line (parts : List Text) : Text := parts.flatten ++ ['\n']

/-- A cause, with its number if there are several; further lines are set in as far as the first. -/
def indentedCause (number : Option Nat) (cause : Text) : Text :=
  let (lead, indent) := match number with
    | some number => ("    ".toList ++ Text.decimal number ++ ": ".toList, List.replicate 7 ' ')
    | none => (List.replicate 4 ' ', List.replicate 4 ' ')
  lead ++ cause.flatMap fun c => if c = '\n' then '\n' :: indent else [c]

/-- What is told about a failure that ends the run: what was attempted, the failure, and what the
file system said, if it was asked. -/
def failureReport (attempt : String) (failure : Failure) : Text :=
  let causes := match failure.cause? with
    | none => ['\n' :: indentedCause none failure.message]
    | some cause =>
      ['\n' :: indentedCause (some 0) failure.message,
        '\n' :: indentedCause (some 1) cause.message]
  line ("Error: ".toList :: attempt.toList :: "\n\nCaused by:".toList :: causes)

/-- What is told about a conversion: where the result of which source went. -/
def convertedLine (report : DocumentReport) : Text :=
  line ["Converted: ".toList, report.source.text, " → ".toList, report.destination.text]

/-- The warning that a source ends inside a literal block. -/
def unterminatedLine (source : Path) : Text :=
  line [styled .cyan "⚠".toList, [' '], source.text, " ends inside a fenced block".toList]

/-- What the progress display leaves behind when a batch is done. -/
def progressSummary (counts : BatchCounts) : Text :=
  let converted := styled .bold (Text.decimal counts.converted)
  let failed := counts.discovered - counts.converted
  if failed = 0 then
    line [styled .green "✔".toList, [' '], converted, " files converted successfully".toList]
  else
    let mark :=
      if failed = counts.discovered then styled .red "✘".toList else styled .cyan "⚠".toList
    line [mark, [' '], converted, ['/'], Text.decimal counts.discovered,
      " files converted  (".toList, styled .red (Text.decimal failed), " failed)".toList]

/-- The plain listing of a batch on the standard output. -/
def listing (batch : BatchReport) : Text :=
  line ["Found ".toList, Text.decimal batch.counts.discovered,
      " Markdown file(s) to convert:".toList] ++
    batch.documents.flatMap fun report => if report.error.isNone then convertedLine report else []

/-- The plain listing of a batch on the standard error. -/
def listingErrors (batch : BatchReport) : Text :=
  (batch.documents.flatMap fun report =>
    match report.error with
    | none => []
    | some error => line [styled .red "Error:".toList, [' '], error.message]) ++
  line ["Converted ".toList, Text.decimal batch.counts.converted, ['/'],
    Text.decimal batch.counts.discovered, " files in ".toList,
    Text.decimal batch.counts.milliseconds, "ms".toList]

/-! ### Outcomes -/

/-- The outcome of a run that ended in a failure. There being nothing to convert is told, but does
not make the run fail. -/
def Outcome.ofFailure (attempt : String) (failure : Failure) : Outcome :=
  if failure.nothingToConvert then { stderr := line ["Error: ".toList, failure.message] }
  else { exitCode := 1, stderr := failureReport attempt failure }

/-- The outcome of a run that printed a result. -/
def Outcome.ofPrinted (json : Bool) (conversion : Conversion) : Outcome :=
  if json then { stdout := line [conversion.toJson.pretty] }
  else if conversion.latex.getLast? = some '\n' then { stdout := conversion.latex }
  else { stdout := line [conversion.latex] }

/-- The outcome of a run that wrote a result. -/
def Outcome.ofWritten (invocation : Invocation) (report : DocumentReport) : Outcome :=
  if invocation.json then { stdout := line [report.toJson.pretty] }
  else if invocation.quiet then {}
  else
    { stdout := convertedLine report
      stderr :=
        if report.stats.any (·.unterminatedLiteral) then unterminatedLine report.source else [] }

/-- What is told about a batch, whether it succeeded or not. -/
def Outcome.ofListing (invocation : Invocation) (batch : BatchReport) : Outcome :=
  if invocation.json then { stdout := line [batch.toJson.pretty] }
  else if invocation.quiet then {}
  else if batch.counts.discovered = 0 then
    { stdout := line ["No Markdown files found in ".toList, invocation.contentDirectory.text] }
  else if invocation.noProgress then
    { stdout := listing batch, stderr := listingErrors batch }
  else { stderr := progressSummary batch.counts }

/-- The outcome of a run that converted a batch. It fails if a document failed that was there. -/
def Outcome.ofBatch (invocation : Invocation) (batch : BatchReport) : Outcome :=
  let told := ofListing invocation batch
  let hard := batch.seriousFailures.length
  if hard = 0 then told
  else
    { told with
      exitCode := 1
      stderr := told.stderr ++ line ["Error: ".toList, Text.decimal hard, " of ".toList,
        Text.decimal batch.counts.discovered, " file(s) failed to convert".toList] }

/-! ### Runs -/

/-- Whether the progress of a batch is shown. -/
def Invocation.showsProgress (invocation : Invocation) : Bool :=
  invocation.target = .all && !invocation.quiet && !invocation.noProgress && !invocation.json

/-- The least serious events that are logged. -/
inductive LogLevel
  | error
  /-- Warnings, among them that a document failed. -/
  | warning
  | debug
deriving DecidableEq, Repr

/-- The environment variable that says what is logged. -/
def logVariable : Text := "RUST_LOG".toList

/-- What is logged of a run. Where the environment says so itself, the invocation does not count. -/
def Invocation.logLevel? (environment : Environment) (invocation : Invocation) : Option LogLevel :=
  if (environment logVariable).isSome then none
  else if invocation.verbose then some .debug
  else if invocation.quiet || invocation.showsProgress then some .error
  else some .warning

/-- The changes to the default settings that an invocation asks for. -/
def Invocation.settings (invocation : Invocation) : List Setting :=
  [.outputDirectory invocation.outputDirectory, .contentDirectory invocation.contentDirectory,
    .concurrency invocation.concurrency, .closeUnterminated invocation.closeUnterminated] ++
  if invocation.showsProgress then [.reportsProgress] else []

variable {m : Type → Type} [Monad m] (fs : FileSystem m)

/-- Converts what an invocation asks for under its configuration. -/
def convertTarget (invocation : Invocation) (config : Configuration) : m Outcome := do
  match invocation.target with
  | .file input true =>
    match ← (Source.convert fs config input).run with
    | .error failure => return .ofFailure "Conversion failed" failure
    | .ok conversion => return .ofPrinted invocation.json conversion
  | .file input false =>
    match ← (Source.publish fs config input).run with
    | .error failure => return .ofFailure "Conversion failed" failure
    | .ok report => return .ofWritten invocation report
  | .all =>
    match ← (convertDirectory fs config (fun _ => pure ()) config.contentDirectory).run with
    | .error failure => return .ofFailure "Batch conversion failed" failure
    | .ok (batch, _) => return .ofBatch invocation batch

/-- Converts what an invocation asks for. -/
def convert (invocation : Invocation) : m Outcome :=
  match Configuration.ofChanges invocation.settings with
  | .ok config => convertTarget fs invocation config
  | .error error => return .ofFailure "Invalid configuration" error.toFailure

/-! ### Refusals -/

/-- What is told about a command line that cannot be understood. -/
def UsageError.message : UsageError → Text
  | unknownArgument argument => "unexpected argument '".toList ++ argument ++ "' found".toList
  | repeatedArgument name =>
    "the argument '--".toList ++ name ++ "' cannot be used multiple times".toList
  | missingValue name =>
    "a value is required for '--".toList ++ name ++ "' but none was supplied".toList
  | unneededValue name => "'--".toList ++ name ++ "' takes no value".toList
  | invalidValue name value =>
    "invalid value '".toList ++ value ++ "' for '--".toList ++ name ++ "'".toList
  | secondInput argument => "unexpected argument '".toList ++ argument ++ "' found".toList
  | emptyInput => "the path of the input is empty".toList
  | conflict first second =>
    "'".toList ++ first ++ "' cannot be used with '".toList ++ second ++ "'".toList
  | noInput => "no input file given".toList

/-- What is told about the version. -/
def versionText : Text := "md2tex 0.1.0\n".toList

/-- What is told about the arguments. -/
def helpText : Text :=
  "Convert thesis chapters from Markdown to LaTeX

Usage: md2tex [OPTIONS] [INPUT]

Arguments:
  [INPUT]  Markdown file to convert

Options:
      --all                        Convert every Markdown file in the content directory
  -o, --output-dir <OUTPUT_DIR>    Directory the LaTeX files are written to
      --content-dir <CONTENT_DIR>  Directory scanned by --all
  -c, --concurrency <CONCURRENCY>  Number of documents converted at once by --all
      --stdout                     Print the LaTeX to stdout instead of writing a file
      --json                       Print the conversion report as JSON
      --close-unterminated         Close a fenced block left open at the end of a document
      --no-progress                Disable progress bar
  -v, --verbose                    Enable DEBUG-level tracing logs
  -q, --quiet                      Suppress all output except errors
  -h, --help                       Print help
  -V, --version                    Print version
".toList

/-- The outcome of a run in which nothing is to be converted. -/
def Outcome.ofStop : Stop → Outcome
  | .help => { stdout := helpText }
  | .version => { stdout := versionText }
  | .usage error => { exitCode := 2, stderr := line ["error: ".toList, error.message] }

/-- Runs the command line. -/
def run (environment : Environment) (arguments : List Text) : m Outcome :=
  match Invocation.parse environment arguments with
  | .ok invocation => convert fs invocation
  | .error stop => return .ofStop stop

end CommandLine
end Manuscript
