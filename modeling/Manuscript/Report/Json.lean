import Manuscript.Json.Basic
import Manuscript.Path.System
import Manuscript.Report.Paths

/-!
# Reports as JSON

Reports are written as objects, field by field, and read back. Reading ignores fields it does not
know and takes a missing optional field for null; everything else has to be there and of its type.
The error of a file is an object with exactly one field, whose name tells the kind of the error.

A path is written as a string, and only text can be. So a report about paths of the system
(`SystemPath`) is refused as a whole if one of its paths is no text (`Json.writeAsText`); what is
read has paths that are.
-/

namespace Manuscript

/-- A path as a value. -/
def Path.toJson (path : Path) : Json := .string path.text

/-- The path that a value holds. -/
def Path.ofJson? (value : Json) : Option Path := value.string?.map Path.mk

namespace Stats

/-- The names of the counters of a document. -/
def fieldNames : List Text :=
  ["input_lines", "output_lines", "headings", "list_items", "lists_opened", "literal_blocks",
    "unterminated_literal"].map String.toList

/-- The counters of a document as a value. -/
def toJson (stats : Stats) : Json :=
  .object <| fieldNames.zip
    [.ofNat stats.inputLines, .ofNat stats.outputLines, .ofNat stats.headings,
      .ofNat stats.listItems, .ofNat stats.listsOpened, .ofNat stats.literalBlocks,
      .bool stats.unterminatedLiteral]

/-- The counters of a document that a value holds. -/
def ofJson? (value : Json) : Option Stats := do
  let [inputLines, outputLines, headings, listItems, listsOpened, literalBlocks, unterminated] ←
    value.fields? fieldNames | none
  return {
    inputLines := ← Json.required Json.counter? inputLines
    outputLines := ← Json.required Json.counter? outputLines
    headings := ← Json.required Json.counter? headings
    listItems := ← Json.required Json.counter? listItems
    listsOpened := ← Json.required Json.counter? listsOpened
    literalBlocks := ← Json.required Json.counter? literalBlocks
    unterminatedLiteral := ← Json.required Json.bool? unterminated }

end Stats

namespace Conversion

/-- The names of the parts of a converted document. -/
def fieldNames : List Text := ["latex", "stats"].map String.toList

/-- A converted document as a value. -/
def toJson (conversion : Conversion) : Json :=
  .object <| fieldNames.zip [.string conversion.latex, conversion.stats.toJson]

/-- The converted document that a value holds. -/
def ofJson? (value : Json) : Option Conversion := do
  let [latex, stats] ← value.fields? fieldNames | none
  return {
    latex := ← Json.required Json.string? latex
    stats := ← Json.required Stats.ofJson? stats }

end Conversion

namespace DocumentError

/-- The name of an error without details. -/
def goneName : Text := "Missing".toList

/-- The name of an error met in reading. -/
def unreadableName : Text := "ReadFailed".toList

/-- The name of an error met in writing. -/
def unwritableName : Text := "WriteFailed".toList

/-- The names of what is known of an error. -/
def fieldNames : List Text := ["path", "detail"].map String.toList

/-- The error of a document as a value. -/
def toJson : DocumentError → Json
  | gone path => .object [(goneName, .object (fieldNames.zip [path.toJson]))]
  | unreadable path detail =>
    .object [(unreadableName, .object (fieldNames.zip [path.toJson, .string detail]))]
  | unwritable path detail =>
    .object [(unwritableName, .object (fieldNames.zip [path.toJson, .string detail]))]

/-- The error of a document that a value holds. -/
def ofJson? : Json → Option DocumentError
  | .object [(name, .object fields)] => do
    let [path, detail] ← (Json.object fields).fields? fieldNames | none
    let path ← Json.required Path.ofJson? path
    if name = goneName then return gone path
    let detail ← Json.required Json.string? detail
    if name = unreadableName then return unreadable path detail
    if name = unwritableName then return unwritable path detail
    none
  | _ => none

end DocumentError

namespace DocumentReport

/-- The names of the parts of a document's report. -/
def fieldNames : List Text :=
  ["source", "destination", "output_bytes", "stats", "error", "duration_ms"].map String.toList

/-- The report of a document as a value. -/
def toJson (report : DocumentReport) : Json :=
  .object <| fieldNames.zip
    [report.source.toJson, report.destination.toJson, .ofNat report.bytesWritten,
      .ofOption Stats.toJson report.stats, .ofOption DocumentError.toJson report.error,
      .ofNat report.milliseconds]

/-- The report of a document that a value holds. -/
def ofJson? (value : Json) : Option DocumentReport := do
  let [source, destination, bytesWritten, stats, error, milliseconds] ←
    value.fields? fieldNames | none
  return {
    source := ← Json.required Path.ofJson? source
    destination := ← Json.required Path.ofJson? destination
    bytesWritten := ← Json.required Json.counter? bytesWritten
    stats := ← Json.optional Stats.ofJson? stats
    error := ← Json.optional DocumentError.ofJson? error
    milliseconds := ← Json.required Json.counter? milliseconds }

end DocumentReport

namespace BatchCounts

/-- The names of the counters of a batch. -/
def fieldNames : List Text :=
  ["discovered", "converted", "failed", "total_duration_ms"].map String.toList

/-- The counters of a batch as a value. -/
def toJson (counts : BatchCounts) : Json :=
  .object <| fieldNames.zip
    [.ofNat counts.discovered, .ofNat counts.converted, .ofNat counts.failed,
      .ofNat counts.milliseconds]

/-- The counters of a batch that a value holds. -/
def ofJson? (value : Json) : Option BatchCounts := do
  let [discovered, converted, failed, milliseconds] ← value.fields? fieldNames | none
  return {
    discovered := ← Json.required Json.counter? discovered
    converted := ← Json.required Json.counter? converted
    failed := ← Json.required Json.counter? failed
    milliseconds := ← Json.required Json.counter? milliseconds }

end BatchCounts

namespace BatchReport

/-- The names of the parts of a batch's outcome. -/
def fieldNames : List Text := ["files", "stats"].map String.toList

/-- The outcome of a batch as a value. -/
def toJson (batch : BatchReport) : Json :=
  .object <| fieldNames.zip
    [.array (batch.documents.map DocumentReport.toJson), batch.counts.toJson]

/-- The outcome of a batch that a value holds. -/
def ofJson? (value : Json) : Option BatchReport := do
  let [documents, counts] ← value.fields? fieldNames | none
  return {
    documents := ← Json.required (Json.array? DocumentReport.ofJson?) documents
    counts := ← Json.required BatchCounts.ofJson? counts }

end BatchReport

/-! ### Paths of the system -/

/-- What is told when a path is to be written that is no text. -/
def SystemPath.refusal : Text := "path contains invalid UTF-8 characters".toList

/-- Writes a value with paths of the system as it is written with paths that are text, if `asText?`
finds all of them to be. -/
def Json.writeAsText {α β : Type} (asText? : β → Option α) (write : α → Json) (value : β) :
    Except Text Json :=
  match asText? value with
  | some text => .ok (write text)
  | none => .error SystemPath.refusal

/-- Writes an error about any path of the system. -/
def DocumentError.serialize : DocumentError SystemPath → Except Text Json :=
  Json.writeAsText (mapPaths? SystemPath.path?) toJson

/-- The error about a path of the system that a value holds. -/
def DocumentError.deserialize? (value : Json) : Option (DocumentError SystemPath) :=
  (ofJson? value).map (mapPaths Path.toSystem)

/-- Writes a report about any paths of the system. -/
def DocumentReport.serialize : DocumentReport SystemPath → Except Text Json :=
  Json.writeAsText (mapPaths? SystemPath.path?) toJson

/-- The report about paths of the system that a value holds. -/
def DocumentReport.deserialize? (value : Json) : Option (DocumentReport SystemPath) :=
  (ofJson? value).map (mapPaths Path.toSystem)

/-- Writes the outcome of a batch of any paths of the system. -/
def BatchReport.serialize : BatchReport SystemPath → Except Text Json :=
  Json.writeAsText (mapPaths? SystemPath.path?) toJson

/-- The outcome of a batch of paths of the system that a value holds. -/
def BatchReport.deserialize? (value : Json) : Option (BatchReport SystemPath) :=
  (ofJson? value).map (mapPaths Path.toSystem)

end Manuscript
