import Manuscript.Document.Rule

/-!
# Documents

A document is converted from first line to last, starting with nothing open. At its end an open list
is closed; an open literal block is counted as unterminated, and closed only if the options ask for
it. Every text is a document, and its conversion never fails.

A `Session` converts one document after another, line by line. What is open, the lines emitted and
the counters are kept in the session; each document starts afresh, whatever the one before it left
there.
-/

namespace Manuscript

/-- The choices that a conversion leaves open. -/
structure Options where
  /-- Whether a literal block that the document leaves open is closed at its end. -/
  closeUnterminated : Bool := false
deriving DecidableEq, Repr

/-- The counters of a converted document. -/
structure Stats where
  /-- The lines of the document; a line feed at its end begins one more, empty line. -/
  inputLines : Nat := 0
  /-- The lines of the result, markers included. -/
  outputLines : Nat := 0
  headings : Nat := 0
  listItems : Nat := 0
  /-- The lists opened; a change of kind opens another one. -/
  listsOpened : Nat := 0
  literalBlocks : Nat := 0
  /-- Whether the document ended inside a literal block. -/
  unterminatedLiteral : Bool := false
deriving DecidableEq, Repr

/-- A converted document. -/
structure Conversion where
  latex : Text
  stats : Stats
deriving DecidableEq, Repr

namespace Document

/-- What the end of a document contributes, given what is open there. -/
def ending (options : Options) : BlockContext → Step
  | .prose => .stay .prose
  | .list kind => .closeList kind
  | .literal =>
    if options.closeUnterminated then
      { Step.closeLiteral with events := [.unterminated true] }
    else { Step.stay .literal with events := [.unterminated false] }

/-- What the lines of a document contribute. -/
def body (precedence : Precedence) (text : Text) : Step :=
  Step.ofLines precedence .prose text.lines

/-- What a whole document contributes. -/
def whole (precedence : Precedence) (options : Options) (text : Text) : Step :=
  let body := body precedence text
  body.andThen (ending options body.context)

/-- The conversion of a document under a given precedence of rules. -/
def convertBy (precedence : Precedence) (options : Options) (text : Text) : Conversion :=
  let whole := whole precedence options text
  { latex := Text.joinLines whole.lines
    stats :=
      { inputLines := text.lines.length
        outputLines := whole.lines.length
        headings := whole.tally.headings
        listItems := whole.tally.listItems
        listsOpened := whole.tally.listsOpened
        literalBlocks := whole.tally.literalBlocks
        unterminatedLiteral := (body precedence text).context == .literal } }

/-- The conversion of a document. -/
def convert (options : Options) (text : Text) : Conversion := convertBy .standard options text

/-- The events of a document's conversion, in order. -/
def trace (options : Options) (text : Text) : List TraceEvent :=
  (whole .standard options text).events

end Document

/-- The counters after a step was taken. -/
def Stats.count (stats : Stats) (tally : Tally) : Stats :=
  { stats with
    headings := stats.headings + tally.headings
    listItems := stats.listItems + tally.listItems
    listsOpened := stats.listsOpened + tally.listsOpened
    literalBlocks := stats.literalBlocks + tally.literalBlocks }

/-- Converts documents one after another, each line by line. -/
structure Session where
  options : Options := {}
  /-- What is open after the last line, or was left open by the last document. -/
  context : BlockContext := .prose
  /-- The lines emitted for a document. They stay until the next document begins. -/
  emitted : List Text := []
  /-- What is counted in a document. It is handed over with the result. -/
  stats : Stats := {}
deriving DecidableEq, Repr

namespace Session

/-- A document begins: whatever the last one left is dropped. -/
def startDocument (session : Session) : Session :=
  { session with context := .prose, emitted := [], stats := {} }

/-- The session after a step was taken. -/
def take (session : Session) (step : Step) : Session :=
  { session with
    context := step.context
    emitted := session.emitted ++ step.lines
    stats := session.stats.count step.tally }

/-- The next line of the document. -/
def readLine (session : Session) (line : Text) : Session :=
  let counted := { session with
    stats := { session.stats with inputLines := session.stats.inputLines + 1 } }
  counted.take (Step.ofLine .standard session.context line)

/-- The end of the document. -/
def endDocument (session : Session) : Session :=
  let ended := session.take (Document.ending session.options session.context)
  if session.context = .literal then
    { ended with stats := { ended.stats with unterminatedLiteral := true } }
  else ended

/-- Converts the next document. -/
def convert (session : Session) (text : Text) : Conversion × Session :=
  let ended := (text.lines.foldl readLine session.startDocument).endDocument
  ({ latex := Text.joinLines ended.emitted
     stats := { ended.stats with outputLines := ended.emitted.length } },
    { ended with stats := {} })

end Session

end Manuscript
