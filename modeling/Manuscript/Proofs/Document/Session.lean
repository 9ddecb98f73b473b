import Manuscript.Proofs.Document.Statistics

/-!
# Sessions

A session keeps what is open, the lines emitted and the counters from one line to the next, and
still has them when the next document begins. None of it reaches that document: reading its lines
one by one takes the step that they contribute together (`Session.foldl_readLine`), from a state in
which everything left behind is dropped.

Main statement: `Session.convertAll_eq`.
-/

namespace Manuscript

namespace Stats

/-- The counters after two steps. -/
theorem count_count (stats : Stats) (first second : Tally) :
    (stats.count first).count second = stats.count (first + second) := by
  simp [count, Nat.add_assoc]

@[simp] theorem count_empty (stats : Stats) : stats.count {} = stats := rfl

end Stats

namespace Session

/-- The conversions of some documents, one after another, each with what is open after it. -/
def convertAll (session : Session) : List Text → List (Conversion × BlockContext)
  | [] => []
  | text :: rest =>
    let (conversion, next) := session.convert text
    (conversion, next.context) :: next.convertAll rest

variable (session : Session)

/-! ### Taking steps -/

@[simp] theorem context_take (step : Step) : (session.take step).context = step.context := rfl

theorem take_take (first second : Step) :
    (session.take first).take second = session.take (first.andThen second) := by
  simp only [take, Stats.count_count, List.append_assoc]
  rfl

/-- The session with more lines read, but no step taken for them yet. -/
def advance (count : Nat) : Session :=
  { session with stats := { session.stats with inputLines := session.stats.inputLines + count } }

theorem advance_take_advance (first second : Nat) (step : Step) :
    ((session.advance first).take step).advance second =
      (session.advance (first + second)).take step := by
  simp [advance, take, Stats.count, Nat.add_assoc]

/-- **Reading lines.** Lines are counted, and the step is taken that they contribute together. -/
theorem foldl_readLine (lines : List Text) :
    lines.foldl readLine session =
      (session.advance lines.length).take (Step.ofLines .standard session.context lines) := by
  induction lines generalizing session with
  | nil => simp [take, advance, Step.ofLines, Step.stay]
  | cons line rest ih =>
    -- the others are read where the first line leaves the session
    have first : session.readLine line =
        (session.advance 1).take (Step.ofLine .standard session.context line) := rfl
    rw [List.foldl_cons, ih, first, advance_take_advance, take_take, context_take,
      List.length_cons, Nat.add_comm 1]
    rfl

/-! ### One document -/

/-- A step taken at the start of a document is all there is. -/
theorem take_startDocument (count : Nat) (step : Step) :
    (session.startDocument.advance count).take step =
      { options := session.options
        context := step.context
        emitted := step.lines
        stats :=
          { inputLines := count
            headings := step.tally.headings
            listItems := step.tally.listItems
            listsOpened := step.tally.listsOpened
            literalBlocks := step.tally.literalBlocks } } := by
  simp [startDocument, advance, take, Stats.count]

/-- At the end of a document, a session has taken the step that the whole document contributes. -/
theorem endDocument_foldl_readLine (text : Text) :
    (text.lines.foldl readLine session.startDocument).endDocument =
      { options := session.options
        context := (Document.whole .standard session.options text).context
        emitted := (Document.whole .standard session.options text).lines
        stats := { (Document.convert session.options text).stats with outputLines := 0 } } := by
  have body : text.lines.foldl readLine session.startDocument =
      (session.startDocument.advance text.lines.length).take (Document.body .standard text) :=
    foldl_readLine session.startDocument text.lines
  have whole : (Document.body .standard text).andThen
      (Document.ending session.options (Document.body .standard text).context) =
        Document.whole .standard session.options text := rfl
  have options : ((session.startDocument.advance text.lines.length).take
      (Document.body .standard text)).options = session.options := rfl
  rw [endDocument, body, take_take, context_take, options, whole, take_startDocument]
  by_cases inside : (Document.body .standard text).context = .literal
  · have unterminated : ((Document.body .standard text).context == .literal) = true := by
      rw [inside]
      rfl
    rw [if_pos inside, Document.convert, Document.convertBy, unterminated]
  · have terminated : ((Document.body .standard text).context == .literal) = false :=
      beq_false_of_ne inside
    rw [if_neg inside, Document.convert, Document.convertBy, terminated]

/-- **One document.** Whatever is in the session, the conversion is that of the document alone. -/
theorem convert_eq (text : Text) :
    session.convert text =
      (Document.convert session.options text,
        { options := session.options
          context := (Document.whole .standard session.options text).context
          emitted := (Document.whole .standard session.options text).lines
          stats := {} }) := by
  rw [convert, endDocument_foldl_readLine]
  rfl

/-- What a document leaves open. -/
theorem context_whole (options : Options) (text : Text) :
    (Document.whole .standard options text).context =
      if text.lines.countP Line.isFence % 2 = 1 ∧ options.closeUnterminated = false then .literal
      else .prose := by
  simp only [← Document.body_eq_literal_iff, Document.whole, Step.context_andThen]
  cases context : (Document.body .standard text).context with
  | prose => simp [Document.ending, Step.stay]
  | list kind => simp [Document.ending, Step.closeList]
  | literal =>
    cases close : options.closeUnterminated <;>
      simp [Document.ending, close, Step.stay, Step.closeLiteral]

/-! ### One document after another -/

/-- **No document reaches the next.** Whatever a session has left, and whatever documents it
converts one after another, each conversion is that of the document alone. A literal block is open
after it exactly if the document ends inside one, having an odd number of fences, and such blocks
are not closed; a list never is, and otherwise nothing is. -/
theorem convertAll_eq (texts : List Text) :
    session.convertAll texts = texts.map fun text =>
      (Document.convert session.options text,
        if text.lines.countP Line.isFence % 2 = 1 ∧ session.options.closeUnterminated = false then
          .literal
        else .prose) := by
  induction texts generalizing session with
  | nil => rfl
  | cons text rest ih =>
    rw [convertAll, convert_eq, List.map_cons]
    show (_, _) :: convertAll _ rest = _
    rw [ih, context_whole]

/-- A list that is open at the last line of a document, and a block that is left open, do not reach
the documents behind them. -/
example :
    let texts : List Text := ["- one".toList, "```
- two".toList, "# three".toList]
    (convertAll {} texts).map Prod.snd = [.prose, .literal, .prose] ∧
      ((convertAll {} texts).map (·.1.latex)).getLast? = some "\\chapter\x7bthree\x7d".toList := by
  decide +kernel

end Session
end Manuscript
