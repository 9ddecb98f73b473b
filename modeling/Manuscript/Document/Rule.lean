import Manuscript.Document.Step
import Manuscript.Line.Heading

/-!
# Rules

Each line is offered to the rules in turn, and the first that claims it decides what it contributes.
A rule that does not claim the line lets it pass; the rule `closeList` claims nothing, but ends an
open list before it lets a line pass that does not start like an item. Which rules there are, and in
which order they are tried, is a value (`Precedence`), so that two orders can be compared.
-/

namespace Manuscript

/-- The order in which rules are tried on a line, and kinds of list on an item. -/
structure Precedence where
  rules : List Rule
  kinds : List ListKind
deriving DecidableEq, Repr

/-- Literal blocks come before everything else; a list is closed when neither a heading nor an item
has claimed the line; any line is a paragraph at last. -/
def Precedence.standard : Precedence where
  rules := [.fence, .literal, .heading, .listItem, .closeList, .blank, .paragraph]
  kinds := ListKind.all

namespace Rule

/-- What a line contributes that the rule claims; `none` if the rule does not claim it. -/
def claim? (kinds : List ListKind) (context : BlockContext) (line : Text) : Rule → Option Step
  | fence =>
    if Line.isFence line then
      some <| match context with
        | .literal => .closeLiteral
        | _ => (Step.closeAnyList context).andThen .openLiteral
    else none
  | literal => if context = .literal then some (.emit .literal line) else none
  | heading =>
    (Line.heading? line).map fun heading =>
      let closed := Step.closeAnyList context
      closed.andThen ((Step.emit closed.context heading.latex).count { headings := 1 })
  | listItem =>
    (Line.listItemAmong? kinds line).map fun item =>
      let opened :=
        if context = .list item.kind then Step.stay context
        else (Step.closeAnyList context).andThen (.openList item.kind)
      opened.andThen ((Step.emit opened.context item.latex).count { listItems := 1 })
  | closeList => none
  | blank => if Line.isBlank line then some (.emit context []) else none
  | paragraph => some (.emit context (Inline.format line))

/-- What a line contributes that the rule lets pass. -/
def letPass (context : BlockContext) (line : Text) : Rule → Step
  | closeList => if Line.startsLikeItem line then .stay context else .closeAnyList context
  | _ => .stay context

end Rule

/-- What a line contributes under the given rules. -/
def Step.ofRules (kinds : List ListKind) (context : BlockContext) (line : Text) : List Rule → Step
  | [] => .stay context
  | rule :: rules =>
    match rule.claim? kinds context line with
    | some step => step.record (.claimed rule)
    | none =>
      let passed := rule.letPass context line
      passed.andThen (ofRules kinds passed.context line rules)

/-- What a line contributes, given what is open in front of it. -/
def Step.ofLine (precedence : Precedence) (context : BlockContext) (line : Text) : Step :=
  ofRules precedence.kinds context line precedence.rules

/-- What consecutive lines contribute, given what is open in front of the first. -/
def Step.ofLines (precedence : Precedence) (context : BlockContext) : List Text → Step
  | [] => .stay context
  | line :: rest =>
    let step := ofLine precedence context line
    step.andThen (ofLines precedence step.context rest)

/-- Lines contribute what the first of them contribute, and then the others, given what the first
leave open. -/
theorem Step.ofLines_append (precedence : Precedence) (context : BlockContext)
    (before after : List Text) :
    ofLines precedence context (before ++ after) =
      (ofLines precedence context before).andThen
        (ofLines precedence (ofLines precedence context before).context after) := by
  induction before generalizing context with
  | nil => exact (stay_andThen context _).symm
  | cons line rest ih => simp only [List.cons_append, ofLines, ih, andThen_assoc, context_andThen]

end Manuscript
