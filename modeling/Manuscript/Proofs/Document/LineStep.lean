import Manuscript.Document.Conversion
import Manuscript.Proofs.Inline.Rendered
import Manuscript.Proofs.Lines
import Manuscript.Proofs.LineClass

/-!
# The step of a line

The seven rules, tried in their standard order, come to one step for each class of lines in each
context (`Step.ofLine_standard`). Two observations carry everything that follows.

* A line that does not continue an open list contributes what it would contribute in prose, after
  the end of the list (`Step.ofLine_list`). So the end of a list looks the same whatever ends it: a
  fence, a heading, an item of the other kind, other text, or the end of the document.
* Every line but a fence contributes one line of its own, last of all (`Step.ofClass`).
-/

namespace Manuscript

/-- Whether a line of this class leaves an open list of the given kind open. -/
def Line.Class.continues (kind : ListKind) : Line.Class → Bool
  | .item entry => entry.kind == kind
  | .bareMarker => true
  | _ => false

/-- What is open after a line of this class, given what is open in front of it. -/
def Line.Class.leaves : Line.Class → BlockContext → BlockContext
  | .fence, .literal => .prose
  | _, .literal => .literal
  | .fence, _ => .literal
  | .item entry, _ => .list entry.kind
  | .bareMarker, context => context
  | _, _ => .prose

namespace Step

/-- The step of a list item inside its list. -/
def item (item : Line.ListItem) : Step :=
  ((emit (.list item.kind) item.latex).count { listItems := 1 }).record (.claimed .listItem)

/-- What a line contributes where nothing is open. -/
def inProse (line : Text) : Line.Class → Step
  | .fence => openLiteral.record (.claimed .fence)
  | .heading heading =>
    ((emit .prose heading.latex).count { headings := 1 }).record (.claimed .heading)
  | .item item => (openList item.kind).andThen (Step.item item)
  | .blank => (emit .prose []).record (.claimed .blank)
  | .bareMarker | .paragraph => (emit .prose (Inline.format line)).record (.claimed .paragraph)

/-- What a line contributes that leaves the open list of the given kind open. -/
def inList (kind : ListKind) (line : Text) : Line.Class → Step
  | .item item => Step.item item
  | _ => (emit (.list kind) (Inline.format line)).record (.claimed .paragraph)

/-- What a line contributes inside a literal block. -/
def inLiteral (line : Text) : Line.Class → Step
  | .fence => closeLiteral.record (.claimed .fence)
  | _ => (emit .literal line).record (.claimed .literal)

/-- What a line contributes, by what is open in front of it and by its class. -/
def ofClass (line : Text) (type : Line.Class) : BlockContext → Step
  | .prose => inProse line type
  | .list kind =>
    if type.continues kind then inList kind line type
    else (closeList kind).andThen (inProse line type)
  | .literal => inLiteral line type

/-- An item of the open list is emitted as it is. -/
theorem ofClass_item_self (line : Text) (entry : Line.ListItem) :
    ofClass line (.item entry) (.list entry.kind) = item entry := by
  have goesOn : (Line.Class.item entry).continues entry.kind = true := beq_self_eq_true _
  rw [ofClass, if_pos goesOn]
  rfl

/-- An item of another kind ends the open list, and begins one of its own. -/
theorem ofClass_item_of_ne (line : Text) {entry : Line.ListItem} {kind : ListKind}
    (h : entry.kind ≠ kind) :
    ofClass line (.item entry) (.list kind) =
      (closeList kind).andThen ((openList entry.kind).andThen (item entry)) := by
  have ends : ¬ (Line.Class.item entry).continues kind = true := mt beq_iff_eq.1 h
  rw [ofClass, if_neg ends]
  rfl

@[simp] theorem context_stay (context : BlockContext) : (stay context).context = context := rfl

@[simp] theorem context_openList (kind : ListKind) : (openList kind).context = .list kind := rfl

@[simp] theorem context_closeList (kind : ListKind) : (closeList kind).context = .prose := rfl

@[simp] theorem closeAnyList_prose : closeAnyList .prose = stay .prose := rfl

@[simp] theorem closeAnyList_list (kind : ListKind) : closeAnyList (.list kind) = closeList kind :=
  rfl

@[simp] theorem closeAnyList_literal : closeAnyList .literal = stay .literal := rfl

@[simp] theorem record_andThen (first second : Step) (event : TraceEvent) :
    (first.andThen second).record event = first.andThen (second.record event) := by
  simp [record, andThen]

/-- **The rules, by class.** -/
theorem ofLine_standard (context : BlockContext) (line : Text) :
    ofLine .standard context line = ofClass line (Line.classify line) context := by
  have item? : Line.listItemAmong? ListKind.all line = Line.listItem? line := rfl
  simp only [ofLine, Precedence.standard, ofRules, Rule.claim?, Rule.letPass, item?, Line.classify]
  -- the cases follow the rules in their order, each knowing that those before it have let pass
  by_cases fence : Line.isFence line
  · cases context <;> simp [ofClass, inProse, inLiteral, Line.Class.continues, fence]
  simp only [fence]
  cases heading : Line.heading? line with
  | some _ => cases context <;> simp [ofClass, inProse, inLiteral, Line.Class.continues]
  | none =>
    cases found : Line.listItem? line with
    | some entry =>
      cases context with
      | prose => simp [ofClass, inProse, item]
      | literal => simp [ofClass, inLiteral]
      | list kind =>
        -- the one line whose step depends on which list is open
        by_cases same : entry.kind = kind
        · subst same
          simp [ofClass_item_self, item]
        · simp [ofClass_item_of_ne line same, item, Ne.symm same, andThen_assoc]
    | none =>
      -- a bare marker keeps the list open, and is a paragraph in any case: it is not blank
      by_cases marker : Line.startsLikeItem line
      · have blank : ¬ Line.isBlank line := fun blank => by
          simp [Line.not_startsLikeItem_of_isBlank blank] at marker
        cases context <;>
          simp [ofClass, inProse, inList, inLiteral, Line.Class.continues, marker, blank]
      · by_cases blank : Line.isBlank line <;> cases context <;>
          simp [ofClass, inProse, inLiteral, Line.Class.continues, marker, blank]

/-- A line that does not continue an open list is converted as in prose, after the list's end. -/
theorem ofLine_list {kind : ListKind} {line : Text}
    (h : (Line.classify line).continues kind = false) :
    ofLine .standard (.list kind) line =
      (closeList kind).andThen (ofLine .standard .prose line) := by
  rw [ofLine_standard, ofLine_standard]
  simp [ofClass, h]

theorem context_ofLine (context : BlockContext) (line : Text) :
    (ofLine .standard context line).context = (Line.classify line).leaves context := by
  rw [ofLine_standard]
  cases context with
  | prose => cases Line.classify line <;> rfl
  | literal => cases Line.classify line <;> rfl
  | list kind =>
    rw [ofClass]
    split
    · -- an item of the list, or a bare marker
      next continued =>
      cases type : Line.classify line <;> simp [type, Line.Class.continues] at continued <;> rfl
    · -- the list has ended, and what the line leaves open it leaves open in prose
      next ended =>
      cases type : Line.classify line <;> simp [type, Line.Class.continues] at ended <;> rfl

/-! ### Runs -/

theorem ofLines_concat (precedence : Precedence) (context : BlockContext) (lines : List Text)
    (line : Text) :
    ofLines precedence context (lines ++ [line]) =
      (ofLines precedence context lines).andThen
        (ofLine precedence (ofLines precedence context lines).context line) := by
  simp [ofLines_append, ofLines]

/-! ### What is emitted -/

/-- What a line can emit: a marker line, its own text in some form, or nothing but an empty line. -/
inductive Emits (line : Text) : Text → Prop
  | opening (environment : Latex.Environment) : Emits line environment.opening
  | closing (environment : Latex.Environment) : Emits line environment.closing
  | heading {heading : Line.Heading} :
      Line.heading? line = some heading → Emits line heading.latex
  | item {item : Line.ListItem} : Line.listItem? line = some item → Emits line item.latex
  | formatted : Emits line (Inline.format line)
  | copied : Emits line line
  | empty : Emits line []

theorem emits_of_mem_inProse {line out : Text}
    (h : out ∈ (inProse line (Line.classify line)).lines) : Emits line out := by
  cases type : Line.classify line with
  | fence =>
    obtain rfl := by simpa [type, inProse, openLiteral, record] using h
    exact .opening _
  | heading heading =>
    obtain rfl := by simpa [type, inProse, emit, count, record] using h
    exact .heading (by rw [Line.heading?_eq_classify, type]; rfl)
  | item item =>
    have : out = item.kind.environment.opening ∨ out = item.latex := by
      simpa [type, inProse, openList, Step.item, emit, count, record, andThen] using h
    rcases this with rfl | rfl
    · exact .opening _
    · exact .item (by rw [Line.listItem?_eq_classify, type]; rfl)
  | blank =>
    obtain rfl := by simpa [type, inProse, emit, record] using h
    exact .empty
  | bareMarker | paragraph =>
    obtain rfl := by simpa [type, inProse, emit, record] using h
    exact .formatted

theorem emits_of_mem_ofLine {context : BlockContext} {line out : Text}
    (h : out ∈ (ofLine .standard context line).lines) : Emits line out := by
  rw [ofLine_standard] at h
  cases context with
  | prose => exact emits_of_mem_inProse h
  | list kind =>
    rw [ofClass] at h
    split at h
    · -- the list goes on
      cases type : Line.classify line with
      | item item =>
        obtain rfl := by simpa [type, inList, Step.item, emit, count, record] using h
        exact .item (by rw [Line.listItem?_eq_classify, type]; rfl)
      | _ =>
        obtain rfl := by simpa [type, inList, emit, record] using h
        exact .formatted
    · -- the list's end, or what the line emits in prose
      rcases List.mem_append.1 h with h | h
      · obtain rfl := by simpa [closeList] using h
        exact .closing _
      · exact emits_of_mem_inProse h
  | literal =>
    cases type : Line.classify line with
    | fence =>
      obtain rfl := by simpa [type, ofClass, inLiteral, closeLiteral, record] using h
      exact .closing _
    | _ =>
      obtain rfl := by simpa [type, ofClass, inLiteral, emit, record] using h
      exact .copied

theorem emits_of_mem_ofLines {context : BlockContext} {lines : List Text} {out : Text}
    (h : out ∈ (ofLines .standard context lines).lines) : ∃ line ∈ lines, Emits line out := by
  induction lines generalizing context with
  | nil => simp [ofLines, stay] at h
  | cons line rest ih =>
    rcases List.mem_append.1 h with h | h
    · exact ⟨line, by simp, emits_of_mem_ofLine h⟩
    · obtain ⟨other, mem, emits⟩ := ih h
      exact ⟨other, List.mem_cons_of_mem _ mem, emits⟩

theorem lines_ofLine_ne_nil (context : BlockContext) (line : Text) :
    (ofLine .standard context line).lines ≠ [] := by
  rw [ofLine_standard]
  cases context with
  | prose =>
    cases Line.classify line <;>
      simp [ofClass, inProse, openLiteral, openList, emit, count, record, andThen]
  | list kind =>
    rw [ofClass]
    split
    · cases Line.classify line <;> simp [inList, Step.item, emit, count, record]
    · simp [closeList, andThen]
  | literal => cases Line.classify line <;> simp [ofClass, inLiteral, closeLiteral, emit, record]

/-- Nothing that a line emits holds a line feed, unless the line does. -/
theorem Emits.lineFeed_not_mem {line out : Text} (h : Emits line out) (plain : '\n' ∉ line) :
    '\n' ∉ out := by
  cases h with
  | opening environment => cases environment <;> decide
  | closing environment => cases environment <;> decide
  | heading found =>
    -- the command is one of six, and the title is part of the line
    obtain ⟨front, title, cut, -, spelled⟩ := Line.exists_title_of_heading? found
    have titlePlain : '\n' ∉ title := fun mem => plain (by simp [cut, mem])
    have command : ∀ level, '\n' ∉ Latex.command (Latex.sectioningCommand level) [] := by
      intro level
      unfold Latex.sectioningCommand
      split <;> decide
    rw [spelled, Latex.heading, Inline.mem_command, not_or]
    exact ⟨command _, Inline.lineFeed_not_mem_format (mt Text.mem_of_mem_trim titlePlain)⟩
  | item found =>
    -- the indent and the content are parts of the line, and the token is fixed
    obtain ⟨marker, content, cut, -, spelled⟩ := Line.exists_content_of_listItem? found
    have contentPlain : '\n' ∉ content := fun mem => plain (by rw [cut]; simp [mem])
    have indent : '\n' ∉ line.takeWhile Text.isBlank :=
      mt (fun mem => (List.takeWhile_prefix _).subset mem) plain
    rw [spelled, Latex.item, List.mem_append, List.mem_append, not_or, not_or]
    exact ⟨⟨indent, by decide⟩, Inline.lineFeed_not_mem_format contentPlain⟩
  | formatted => exact Inline.lineFeed_not_mem_format plain
  | copied => exact plain
  | empty => simp

end Step

namespace Document

variable (options : Options) (text : Text)

theorem emits_of_mem_whole {out : Text} (h : out ∈ (whole .standard options text).lines) :
    ∃ line ∈ text.lines, Step.Emits line out := by
  rcases List.mem_append.1 h with h | h
  · exact Step.emits_of_mem_ofLines h
  · -- whatever the end adds is a marker line, and some line could have added it
    have closing : ∃ environment : Latex.Environment, out = environment.closing := by
      cases context : (body .standard text).context with
      | prose => simp [context, ending, Step.stay] at h
      | list kind => exact ⟨_, by simpa [context, ending, Step.closeList] using h⟩
      | literal =>
        cases close : options.closeUnterminated with
        | false => simp [context, ending, close, Step.stay] at h
        | true => exact ⟨.verbatim, by simpa [context, ending, close, Step.closeLiteral] using h⟩
    obtain ⟨environment, rfl⟩ := closing
    obtain ⟨line, rest, lines⟩ := List.exists_cons_of_ne_nil text.lines_ne_nil
    exact ⟨line, by simp [lines], .closing environment⟩

theorem lines_body_ne_nil : (body .standard text).lines ≠ [] := by
  obtain ⟨line, rest, lines⟩ := List.exists_cons_of_ne_nil text.lines_ne_nil
  rw [body, lines, Step.ofLines]
  exact List.append_ne_nil_of_left_ne_nil (Step.lines_ofLine_ne_nil _ _) _

theorem lines_whole_ne_nil : (whole .standard options text).lines ≠ [] :=
  List.append_ne_nil_of_left_ne_nil (lines_body_ne_nil text) _

/-- **The lines of the result are the lines emitted.** -/
theorem lines_latex :
    (convert options text).latex.lines = (whole .standard options text).lines := by
  refine Text.lines_joinLines (lines_whole_ne_nil options text) fun out mem => ?_
  obtain ⟨line, hline, emits⟩ := emits_of_mem_whole options text mem
  exact emits.lineFeed_not_mem (Text.lineFeed_not_mem_of_mem_lines hline)

end Document
end Manuscript
