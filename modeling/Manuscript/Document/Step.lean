import Manuscript.Line.ListItem

/-!
# Steps of a conversion

A document is converted line by line. What one line carries over to the next is a `BlockContext` and
nothing else; what it contributes is a `Step`: the context it leaves, the lines it emits, the events
it records and what it adds to the counters. Steps compose (`Step.andThen`), so a document's
conversion is the composition of the steps of its lines, however they are grouped
(`Step.andThen_assoc`).
-/

namespace Manuscript

/-- What is open between two lines. A literal block and a list are never open together: opening a
block closes the list first. -/
inductive BlockContext
  /-- Nothing is open. -/
  | prose
  /-- A list of the given kind is open. -/
  | list (kind : ListKind)
  /-- A literal block is open. -/
  | literal
deriving DecidableEq, Repr

/-- The rules by which a line is converted. -/
inductive Rule
  /-- Opens or closes a literal block. -/
  | fence
  /-- Copies a line of a literal block. -/
  | literal
  | heading
  | listItem
  /-- Ends an open list in front of other text; claims no line. -/
  | closeList
  | blank
  /-- Formats any line. -/
  | paragraph
deriving DecidableEq, Repr

/-- What can be observed of a conversion while it runs. -/
inductive TraceEvent
  | openList (kind : ListKind)
  | closeList (kind : ListKind)
  | openLiteral
  /-- A rule has claimed the current line. -/
  | claimed (rule : Rule)
  /-- The document ended inside a literal block, which is now closed or left open. -/
  | unterminated (closed : Bool)
deriving DecidableEq, Repr

/-- What is counted line by line. -/
structure Tally where
  headings : Nat := 0
  listItems : Nat := 0
  listsOpened : Nat := 0
  literalBlocks : Nat := 0
deriving DecidableEq, Repr

namespace Tally

/-- The counters of two stretches of a document together. -/
def add (first second : Tally) : Tally where
  headings := first.headings + second.headings
  listItems := first.listItems + second.listItems
  listsOpened := first.listsOpened + second.listsOpened
  literalBlocks := first.literalBlocks + second.literalBlocks

instance : Add Tally := ⟨add⟩

theorem add_assoc (first second third : Tally) :
    first + second + third = first + (second + third) := by
  show add (add first second) third = add first (add second third)
  simp [add, Nat.add_assoc]

@[simp] theorem empty_add (tally : Tally) : {} + tally = tally := by
  show add {} tally = tally
  simp [add]

@[simp] theorem add_empty (tally : Tally) : tally + {} = tally := rfl

end Tally

/-- What a stretch of a document contributes to its conversion. -/
structure Step where
  /-- What is open afterwards. -/
  context : BlockContext
  /-- The lines emitted, in order. -/
  lines : List Text := []
  /-- The events recorded, in order. -/
  events : List TraceEvent := []
  /-- What is added to the counters. -/
  tally : Tally := {}
deriving DecidableEq, Repr

namespace Step

/-- The step that contributes nothing. -/
def stay (context : BlockContext) : Step := { context }

/-- One stretch after the other. -/
def andThen (first second : Step) : Step where
  context := second.context
  lines := first.lines ++ second.lines
  events := first.events ++ second.events
  tally := first.tally + second.tally

/-- The step that emits one line and leaves everything open that is. -/
def emit (context : BlockContext) (line : Text) : Step := { context, lines := [line] }

/-- The list that opens. -/
def openList (kind : ListKind) : Step where
  context := .list kind
  lines := [kind.environment.opening]
  events := [.openList kind]
  tally := { listsOpened := 1 }

/-- The list that closes. -/
def closeList (kind : ListKind) : Step where
  context := .prose
  lines := [kind.environment.closing]
  events := [.closeList kind]

/-- The literal block that opens. -/
def openLiteral : Step where
  context := .literal
  lines := [Latex.Environment.verbatim.opening]
  events := [.openLiteral]
  tally := { literalBlocks := 1 }

/-- The literal block that closes. -/
def closeLiteral : Step where
  context := .prose
  lines := [Latex.Environment.verbatim.closing]

/-- The list closes if one is open; whatever else is open stays open. -/
def closeAnyList : BlockContext → Step
  | .list kind => closeList kind
  | context => stay context

/-- The step with one more event, recorded last. -/
def record (step : Step) (event : TraceEvent) : Step :=
  { step with events := step.events ++ [event] }

/-- The step with more added to the counters. -/
def count (step : Step) (more : Tally) : Step := { step with tally := step.tally + more }

/-! ### Composition -/

theorem andThen_assoc (first second third : Step) :
    (first.andThen second).andThen third = first.andThen (second.andThen third) := by
  simp [andThen, Tally.add_assoc]

@[simp] theorem stay_andThen (context : BlockContext) (step : Step) :
    (stay context).andThen step = step := by
  simp [andThen, stay]

@[simp] theorem andThen_stay (step : Step) : step.andThen (stay step.context) = step := by
  simp [andThen, stay]

@[simp] theorem context_andThen (first second : Step) :
    (first.andThen second).context = second.context := rfl

end Step
end Manuscript
