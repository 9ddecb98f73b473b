import Manuscript.Proofs.Report.Paths
import Manuscript.Report.Json

/-!
# Reports survive JSON

For each type of report stand here its counters, its format, and the parts of one value of it. What
the reader of the type takes is told by these parts (`ofJson?_eq_some_iff`), and the rest follows
from the format: by `Json.Survives.record` for a record, and by `Json.Survives.tagged` for the error
of a document, which is told by the one field of an object.

The formats differ in what they tolerate. A report may lack its counters and its error, which are
optional, and nothing else; an error without details has no field for them, so that details are an
unknown field there.

All this is shown of paths that are text. A report about paths of the system is written as the one
report about text that it comes from, and refused if there is none. So whatever survives of paths
that are text survives of paths of the system (`Json.Survives.asText`), where it can be written.

Main statement: `reports_survive`. What does not survive is told by `reports_refused`.
-/

namespace Manuscript

open Json (Part Survives)

variable {α : Type} {json : Json}

/-! ### Paths of the system -/

namespace Json

/-- The writer, which refuses a value if one of its paths is no text, and the reader survive one
another. -/
structure SurvivesAsText (write : α → Except Text Json) (read : Json → Option α)
    (paths : α → List SystemPath) (counters : α → List Nat) (format : Format) : Prop where
  /-- A value is written if and only if all its paths are text. -/
  written_iff : ∀ value, (∃ json, write value = .ok json) ↔ ∀ path ∈ paths value, path.IsText
  /-- Otherwise this is what is told. -/
  refused : ∀ {value cause}, write value = .error cause → cause = SystemPath.refusal
  /-- The format is that of what is written. -/
  describes : ∀ {value json}, write value = .ok json → format.Describes json
  /-- What is written is read back if and only if its counters are in range. -/
  read_write : ∀ {value json}, write value = .ok json →
    (read json = some value ↔ ∀ n ∈ counters value, n < counterBound)
  /-- Any number of edits leave what is read as it is. -/
  read_edited : ∀ {json json' value}, Relation.ReflTransGen format.Edits json json' →
    read json = some value → read json' = some value
  /-- Whatever is read can be written and read again. -/
  read_again : ∀ {json value}, read json = some value →
    ∃ again, write value = .ok again ∧ read again = some value

section

variable {β : Type} {asText? : α → Option β} {embed : β → α} {write : β → Json}
  {read : Json → Option β} {paths : α → List SystemPath} {counters : β → List Nat}
  {counters' : α → List Nat} {format : Format} {value : α}

/-- A value is written as the one with paths that are text which it comes from. -/
theorem writeAsText_eq_ok_iff
    (inverse : ∀ value text, asText? value = some text ↔ embed text = value) :
    writeAsText asText? write value = .ok json ↔
      ∃ text, embed text = value ∧ write text = json := by
  simp only [← inverse, writeAsText]
  cases asText? value <;> simp

/-- Where the paths are text to begin with, nothing is different. -/
theorem writeAsText_embed
    (inverse : ∀ value text, asText? value = some text ↔ embed text = value) (text : β) :
    writeAsText asText? write (embed text) = .ok (write text) :=
  (writeAsText_eq_ok_iff inverse).2 ⟨text, rfl, rfl⟩

/-- **What survives of text** survives of paths of the system. -/
theorem Survives.asText (survives : Survives write read counters format)
    (inverse : ∀ value text, asText? value = some text ↔ embed text = value)
    (textual : ∀ value, (∃ text, embed text = value) ↔ ∀ path ∈ paths value, path.IsText)
    (counted : ∀ text, counters' (embed text) = counters text) :
    SurvivesAsText (writeAsText asText? write) (fun json => (read json).map embed) paths counters'
      format := by
  -- a value comes from one value with paths that are text at most
  have injective : Function.Injective embed := fun text other same =>
    Option.some.inj (((inverse _ text).2 rfl).symm.trans ((inverse _ other).2 same.symm))
  have map_eq_some_iff {json : Json} {text : β} :
      (read json).map embed = some (embed text) ↔ read json = some text := by
    rw [← Option.map_some, Option.map_inj_right injective]
  constructor
  case written_iff =>
    intro value
    simp only [writeAsText_eq_ok_iff inverse, ← textual]
    exact ⟨fun ⟨_, text, same, _⟩ => ⟨text, same⟩, fun ⟨text, same⟩ => ⟨_, text, same, rfl⟩⟩
  case refused =>
    intro value cause refused
    unfold writeAsText at refused
    split at refused
    · cases refused
    · exact (Except.error.inj refused).symm
  case describes =>
    intro value json written
    obtain ⟨text, -, rfl⟩ := (writeAsText_eq_ok_iff inverse).1 written
    exact survives.describes text
  case read_write =>
    intro value json written
    obtain ⟨text, rfl, rfl⟩ := (writeAsText_eq_ok_iff inverse).1 written
    rw [map_eq_some_iff, survives.read_write, counted]
  case read_edited =>
    intro json json' value edits reads
    obtain ⟨text, found, rfl⟩ := Option.map_eq_some_iff.1 reads
    exact map_eq_some_iff.2 (survives.read_edited edits found)
  case read_again =>
    intro json value reads
    obtain ⟨text, found, rfl⟩ := Option.map_eq_some_iff.1 reads
    exact ⟨write text, writeAsText_embed inverse text,
      map_eq_some_iff.2 (survives.read_again found)⟩

end

end Json

/-! ### Paths that are text -/

theorem Path.survives : Survives Path.toJson Path.ofJson? (fun _ => []) .plain :=
  .of_edits (fun _ => .plain nofun nofun) (by simp [Path.toJson, Path.ofJson?, Json.string?]) nofun
    (by simp [Path.toJson, Path.ofJson?, Json.string?])

namespace Stats

/-- The counters of a document. -/
def counters (stats : Stats) : List Nat :=
  [stats.inputLines, stats.outputLines, stats.headings, stats.listItems, stats.listsOpened,
    stats.literalBlocks]

/-- Seven fields, all of them required. -/
def format : Json.Format := .record (fieldNames.zip (.replicate 7 (.required, .plain)))

/-- The fields for one value. -/
def parts (stats : Stats) : List Part :=
  [.required "input_lines".toList .counter stats.inputLines,
    .required "output_lines".toList .counter stats.outputLines,
    .required "headings".toList .counter stats.headings,
    .required "list_items".toList .counter stats.listItems,
    .required "lists_opened".toList .counter stats.listsOpened,
    .required "literal_blocks".toList .counter stats.literalBlocks,
    .required "unterminated_literal".toList .truth stats.unterminatedLiteral]

theorem ofJson?_eq_some_iff {stats : Stats} :
    ofJson? json = some stats ↔ Json.Reads stats.parts json := by
  unfold ofJson?
  refine Json.bind_fields?_eq_some_iff rfl fun values length => ?_
  -- told field by field, the reader and the parts ask for the same
  match values, length with
  | [a, b, c, d, e, f, g], _ =>
    obtain ⟨⟩ := stats
    simp only [Option.bind_eq_bind, Option.bind_eq_some_iff, Option.pure_def, Option.some.injEq,
      Stats.mk.injEq, parts, List.forall₂_cons, Part.accepts_required, List.forall₂_nil_left_iff]
    grind

theorem survives : Survives toJson ofJson? counters format :=
  .record parts (fun _ => rfl) (by decide +kernel) (fun _ => rfl) (fun _ => rfl)
    fun _ _ => ofJson?_eq_some_iff

end Stats

namespace Conversion

/-- The counters of a converted document. -/
def counters (conversion : Conversion) : List Nat := conversion.stats.counters

/-- The text and the counters, both required. -/
def format : Json.Format :=
  .record (fieldNames.zip [(.required, .plain), (.required, Stats.format)])

/-- The fields for one value. -/
def parts (conversion : Conversion) : List Part :=
  [.required "latex".toList .text conversion.latex,
    .required "stats".toList Stats.survives conversion.stats]

theorem ofJson?_eq_some_iff {conversion : Conversion} :
    ofJson? json = some conversion ↔ Json.Reads conversion.parts json := by
  unfold ofJson?
  refine Json.bind_fields?_eq_some_iff rfl fun values length => ?_
  match values, length with
  | [a, b], _ =>
    obtain ⟨⟩ := conversion
    simp only [Option.bind_eq_bind, Option.bind_eq_some_iff, Option.pure_def, Option.some.injEq,
      Conversion.mk.injEq, parts, List.forall₂_cons, Part.accepts_required,
      List.forall₂_nil_left_iff]
    grind

theorem survives : Survives toJson ofJson? counters format :=
  .record parts (fun _ => rfl) (by decide +kernel)
    (fun _ => by simp [counters, parts, Part.required]) (fun _ => rfl)
    fun _ _ => ofJson?_eq_some_iff

end Conversion

namespace DocumentError

/-- An error has no counters. -/
def counters (_ : DocumentError α) : List Nat := []

/-- One kind of error for each name, and only the path is known of the first. -/
def format : Json.Format :=
  .tagged
    [(goneName, .record [("path".toList, .required, .plain)]),
      (unreadableName, .record (fieldNames.zip (.replicate 2 (.required, .plain)))),
      (unwritableName, .record (fieldNames.zip (.replicate 2 (.required, .plain))))]

/-- The name of the kind of the error. -/
def tag : DocumentError → Text
  | gone _ => goneName
  | unreadable _ _ => unreadableName
  | unwritable _ _ => unwritableName

/-- The fields for one error. -/
def parts : DocumentError → List Part
  | gone path => [.required "path".toList Path.survives path]
  | unreadable path detail | unwritable path detail =>
    [.required "path".toList Path.survives path, .required "detail".toList .text detail]

theorem ofJson?_object {name : Text} {entries : List (Text × Json)} {error : DocumentError} :
    ofJson? (.object [(name, .object entries)]) = some error ↔
      name = error.tag ∧ Json.Reads error.parts (.object entries) := by
  have different : goneName ≠ unreadableName ∧ goneName ≠ unwritableName ∧
      unreadableName ≠ unwritableName := by
    decide +kernel
  simp only [ofJson?, Json.fields?, fieldNames, List.map_cons, List.map_nil,
    Option.bind_eq_bind, Option.bind_some, Option.pure_def, Json.reads_object]
  -- the kinds differ in name, and that is all that counts of the names
  cases error <;>
    simp only [parts, List.forall_mem_cons, Part.accepts_required, Part.name_required, tag] <;>
    generalize entries.lookup "path".toList = path, entries.lookup "detail".toList = detail,
      goneName = first, unreadableName = second, unwritableName = third at different ⊢ <;>
    grind [Option.bind_eq_some_iff]

theorem ofJson?_eq_some_iff {error : DocumentError} :
    ofJson? json = some error ↔
      ∃ entries, json = .object [(error.tag, .object entries)] ∧
        Json.Reads error.parts (.object entries) := by
  by_cases shape : ∃ name entries, json = .object [(name, .object entries)]
  · obtain ⟨name, entries, rfl⟩ := shape
    rw [ofJson?_object]
    simp
  · have refused : ofJson? json = none := by
      unfold ofJson?
      split
      · exact absurd ⟨_, _, rfl⟩ shape
      · rfl
    rw [refused]
    refine ⟨nofun, ?_⟩
    rintro ⟨entries, rfl, -⟩
    exact absurd ⟨_, _, rfl⟩ shape

theorem survives : Survives toJson ofJson? counters format := by
  refine .tagged tag parts (fun error => ?known) (by decide +kernel) (fun error => ?distinct)
    (fun error => ?counters) (fun error => ?written) fun _ _ => ofJson?_eq_some_iff
  case known => cases error <;> simp [tag, parts, fieldNames, Part.field, Part.required]
  case distinct =>
    have names : fieldNames.Nodup := by decide +kernel
    cases error with
    | gone path => exact List.nodup_singleton _
    | _ => exact names
  case counters => cases error <;> rfl
  case written => cases error <;> rfl

end DocumentError

namespace DocumentReport

/-- The counters of a report, with those of the document if it was converted. -/
def counters (report : DocumentReport α) : List Nat :=
  report.bytesWritten :: (report.stats.toList.flatMap Stats.counters ++ [report.milliseconds])

/-- What was counted and what went wrong are optional. -/
def format : Json.Format :=
  .record <| fieldNames.zip
    [(.required, .plain), (.required, .plain), (.required, .plain), (.optional, Stats.format),
      (.optional, DocumentError.format), (.required, .plain)]

/-- The fields for one report. Nothing optional is null if it is there. -/
def parts (report : DocumentReport) : List Part :=
  [.required "source".toList Path.survives report.source,
    .required "destination".toList Path.survives report.destination,
    .required "output_bytes".toList .counter report.bytesWritten,
    .optional "stats".toList Stats.survives (fun _ => nofun) report.stats,
    .optional "error".toList DocumentError.survives (fun error => by cases error <;> nofun)
      report.error,
    .required "duration_ms".toList .counter report.milliseconds]

theorem ofJson?_eq_some_iff {report : DocumentReport} :
    ofJson? json = some report ↔ Json.Reads report.parts json := by
  unfold ofJson?
  refine Json.bind_fields?_eq_some_iff rfl fun values length => ?_
  match values, length with
  | [a, b, c, d, e, f], _ =>
    obtain ⟨⟩ := report
    simp only [Option.bind_eq_bind, Option.bind_eq_some_iff, Option.pure_def, Option.some.injEq,
      DocumentReport.mk.injEq, parts, List.forall₂_cons, Part.accepts_required,
      Part.accepts_optional, List.forall₂_nil_left_iff]
    grind

theorem survives : Survives toJson ofJson? counters format :=
  .record parts (fun _ => rfl) (by decide +kernel)
    (fun _ => by simp [counters, parts, Part.required, Part.optional, DocumentError.counters])
    (fun _ => rfl) fun _ _ => ofJson?_eq_some_iff

end DocumentReport

namespace BatchCounts

/-- The counters of a batch. -/
def counters (counts : BatchCounts) : List Nat :=
  [counts.discovered, counts.converted, counts.failed, counts.milliseconds]

/-- Four fields, all of them required. -/
def format : Json.Format := .record (fieldNames.zip (.replicate 4 (.required, .plain)))

/-- The fields for one value. -/
def parts (counts : BatchCounts) : List Part :=
  [.required "discovered".toList .counter counts.discovered,
    .required "converted".toList .counter counts.converted,
    .required "failed".toList .counter counts.failed,
    .required "total_duration_ms".toList .counter counts.milliseconds]

theorem ofJson?_eq_some_iff {counts : BatchCounts} :
    ofJson? json = some counts ↔ Json.Reads counts.parts json := by
  unfold ofJson?
  refine Json.bind_fields?_eq_some_iff rfl fun values length => ?_
  match values, length with
  | [a, b, c, d], _ =>
    obtain ⟨⟩ := counts
    simp only [Option.bind_eq_bind, Option.bind_eq_some_iff, Option.pure_def, Option.some.injEq,
      BatchCounts.mk.injEq, parts, List.forall₂_cons, Part.accepts_required,
      List.forall₂_nil_left_iff]
    grind

theorem survives : Survives toJson ofJson? counters format :=
  .record parts (fun _ => rfl) (by decide +kernel) (fun _ => rfl) (fun _ => rfl)
    fun _ _ => ofJson?_eq_some_iff

end BatchCounts

namespace BatchReport

/-- The counters of a batch and of all its reports. -/
def counters (batch : BatchReport α) : List Nat :=
  batch.documents.flatMap DocumentReport.counters ++ batch.counts.counters

/-- The reports and the counters, both required. -/
def format : Json.Format :=
  .record <| fieldNames.zip
    [(.required, .list DocumentReport.format), (.required, BatchCounts.format)]

theorem counters_mapPaths {β : Type} {f : α → β} (batch : BatchReport α) :
    (batch.mapPaths f).counters = batch.counters := by
  simp only [counters, mapPaths, List.flatMap_map]
  rfl

/-- The fields for one batch. -/
def parts (batch : BatchReport) : List Part :=
  [.required "files".toList DocumentReport.survives.list batch.documents,
    .required "stats".toList BatchCounts.survives batch.counts]

theorem ofJson?_eq_some_iff {batch : BatchReport} :
    ofJson? json = some batch ↔ Json.Reads batch.parts json := by
  unfold ofJson?
  refine Json.bind_fields?_eq_some_iff rfl fun values length => ?_
  match values, length with
  | [a, b], _ =>
    obtain ⟨⟩ := batch
    simp only [Option.bind_eq_bind, Option.bind_eq_some_iff, Option.pure_def, Option.some.injEq,
      BatchReport.mk.injEq, parts, List.forall₂_cons, Part.accepts_required,
      List.forall₂_nil_left_iff]
    grind

theorem survives : Survives toJson ofJson? counters format :=
  .record parts (fun _ => rfl) (by decide +kernel)
    (fun _ => by simp [counters, parts, Part.required]) (fun _ => rfl)
    fun _ _ => ofJson?_eq_some_iff

/-- What a run prints of its batch is what the writer for all paths of the system gives. -/
theorem serialize_mapPaths (batch : BatchReport) :
    (batch.mapPaths Path.toSystem).serialize = .ok batch.toJson :=
  Json.writeAsText_embed
    (fun _ _ => mapPaths?_eq_some_iff fun _ _ => SystemPath.path?_eq_some_iff) batch

end BatchReport

/-- **Reports survive JSON.** A report of any type, about whatever paths of the system, is written
in its format if all its paths are text, and else refused. What is written is read back if and only
if its counters fit 64 bits. Unknown fields may come into any record in it, and optional fields that
are null may go, in any number and order, and the same report is read; and whatever report is read,
from a value of any shape, can be written and read again. -/
theorem reports_survive :
    Survives Conversion.toJson Conversion.ofJson? Conversion.counters Conversion.format ∧
    Survives Stats.toJson Stats.ofJson? Stats.counters Stats.format ∧
    Survives BatchCounts.toJson BatchCounts.ofJson? BatchCounts.counters BatchCounts.format ∧
    Json.SurvivesAsText DocumentError.serialize DocumentError.deserialize? DocumentError.paths
      DocumentError.counters DocumentError.format ∧
    Json.SurvivesAsText DocumentReport.serialize DocumentReport.deserialize? DocumentReport.paths
      DocumentReport.counters DocumentReport.format ∧
    Json.SurvivesAsText BatchReport.serialize BatchReport.deserialize? BatchReport.paths
      BatchReport.counters BatchReport.format := by
  have inverse (system : SystemPath) (path : Path) :
      system.path? = some path ↔ path.toSystem = system := SystemPath.path?_eq_some_iff
  refine ⟨Conversion.survives, Stats.survives, BatchCounts.survives, ?error, ?document, ?batch⟩
  case error =>
    exact DocumentError.survives.asText (fun _ _ => DocumentError.mapPaths?_eq_some_iff inverse)
      (fun _ => DocumentError.exists_mapPaths_eq_iff) fun _ => rfl
  case document =>
    exact DocumentReport.survives.asText (fun _ _ => DocumentReport.mapPaths?_eq_some_iff inverse)
      (fun _ => DocumentReport.exists_mapPaths_eq_iff) fun _ => rfl
  case batch =>
    exact BatchReport.survives.asText (fun _ _ => BatchReport.mapPaths?_eq_some_iff inverse)
      (fun _ => BatchReport.exists_mapPaths_eq_iff) BatchReport.counters_mapPaths

/-- A report about a document whose name is no text: the byte 255, with an extension. -/
def DocumentReport.unspelled : DocumentReport SystemPath where
  source := ⟨⟨#[255, 46, 109, 100]⟩⟩
  destination := ⟨⟨#[255, 46, 116, 101, 120]⟩⟩
  bytesWritten := 0
  stats := some {}
  error := none

/-- A report that is told by the position of its fields, the optional ones among them as given. -/
def DocumentReport.placed (optional : List Json) : Json :=
  .array <|
    [.string "content/a.md".toList, .string "tex/a.tex".toList, .int 0] ++ optional ++ [.int 0]

/-- **What does not survive.**
* A report is not written, although its counters are in range, if the name of its document is no
  text.
* A report that is told by the position of its fields is read if what is optional is null, and not
  if it is left out. -/
theorem reports_refused :
    ((∀ n ∈ DocumentReport.unspelled.counters, n < Json.counterBound) ∧
      DocumentReport.unspelled.serialize = .error SystemPath.refusal) ∧
    (DocumentReport.deserialize? (DocumentReport.placed [.null, .null])).isSome ∧
    DocumentReport.deserialize? (DocumentReport.placed []) = none := by
  have noText : DocumentReport.unspelled.mapPaths? SystemPath.path? = none := by decide +kernel
  refine ⟨⟨by decide +kernel, ?_⟩, by decide +kernel, by decide +kernel⟩
  unfold DocumentReport.serialize Json.writeAsText
  rw [noText]

/-- Every level tolerates what its format tells: a report may have a field that it does not know and
lack its counters, an error may have details that it does not need, and the counters of the batch
may be told by position. A second name beside that of the error is refused. -/
example :
    let error (others : List (String × Json)) : Json :=
      .record (("Missing", .record [("detail", .null), ("path", .string ['p'])]) :: others)
    let batch (others : List (String × Json)) : Json :=
      .record [("stats", .array [.int 1, .int 0, .int 1, .int 0]),
        ("files", .array [.record [("source", .string ['p']), ("note", .bool true),
          ("destination", .string ['q']), ("output_bytes", .int 0), ("error", error others),
          ("duration_ms", .int 0)]])]
    BatchReport.ofJson? (batch []) = some {
        documents := [{
          source := ⟨['p']⟩, destination := ⟨['q']⟩, bytesWritten := 0, stats := none,
          error := some (.gone ⟨['p']⟩) }]
        counts := { discovered := 1, failed := 1 } } ∧
      BatchReport.ofJson? (batch [("note", .bool true)]) = none := by
  decide +kernel

end Manuscript
