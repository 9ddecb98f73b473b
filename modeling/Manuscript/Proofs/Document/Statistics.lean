import Manuscript.Proofs.Document.LookBack

/-!
# The counters in closed form

Each counter of a conversion is a number of lines of the document, told by looking back
(`LookBack`). The number of lines of the result follows from a law of conservation
(`Step.length_lines_ofLines`): every line contributes one line, every list two more, of which the
second is owed for as long as the list is open.

Main statement: `Document.stats_closed_form`.
-/

namespace Manuscript

/-! ### What is counted -/

namespace Placed

/-- A heading outside literal blocks: the number of fences in front of it is even. -/
def isHeading (place : Placed) : Bool :=
  (Line.heading? place.line).isSome && place.earlier.countP Line.isFence % 2 == 0

/-- A list item outside literal blocks: the number of fences in front of it is even. -/
def isItem (place : Placed) : Bool :=
  (Line.listItem? place.line).isSome && place.earlier.countP Line.isFence % 2 == 0

/-- An item that opens a list: the nearest earlier line that is no bare marker is missing, or is not
an item of the same kind. -/
def opensList (place : Placed) : Bool :=
  place.isItem &&
    ((LookBack.nearest? place.earlier).bind Line.listItem?).map (·.kind) !=
      (Line.listItem? place.line).map (·.kind)

/-- A fence that opens a literal block: the number of fences in front of it is even. -/
def opensLiteral (place : Placed) : Bool :=
  Line.isFence place.line && place.earlier.countP Line.isFence % 2 == 0

/-- What a line adds to the counters. -/
def tally (place : Placed) : Tally where
  headings := place.isHeading.toNat
  listItems := place.isItem.toNat
  listsOpened := place.opensList.toNat
  literalBlocks := place.opensLiteral.toNat

end Placed

namespace LookBack

theorem even_eq_not_insideLiteral (earlier : List Text) :
    (earlier.countP Line.isFence % 2 == 0) = !insideLiteral earlier := by
  rw [insideLiteral]
  rcases Nat.mod_two_eq_zero_or_one (earlier.countP Line.isFence) with h | h <;> simp [h]

/-- Outside literal blocks, the open list is that of the nearest line: a fence is no item. -/
theorem openList?_eq_of_outside {earlier : List Text} (outside : insideLiteral earlier = false) :
    openList? earlier = ((nearest? earlier).bind Line.listItem?).map (·.kind) := by
  rw [openList?, outside]
  cases nearest? earlier with
  | none => rfl
  | some near =>
    show (if Line.isFence near then none else _) = (Line.listItem? near).map _
    rw [Line.isFence_eq_classify, Line.listItem?_eq_classify]
    cases Line.classify near <;> rfl

/-! ### A step counts its line -/

theorem tally_ofLine (earlier : List Text) (line : Text) :
    (Step.ofLine .standard (context earlier) line).tally = (⟨earlier, line⟩ : Placed).tally := by
  rw [Step.ofLine_standard, Placed.tally, Placed.isHeading, Placed.opensList, Placed.isItem,
    Placed.opensLiteral, even_eq_not_insideLiteral, Line.isFence_eq_classify,
    Line.heading?_eq_classify, Line.listItem?_eq_classify, context]
  cases outside : insideLiteral earlier with
  | true => cases Line.classify line <;> simp <;> rfl
  | false =>
    -- outside literal blocks, the line that decides whether a list opens is that of the open list
    rw [← openList?_eq_of_outside outside]
    cases openList? earlier with
    | none => cases Line.classify line <;> simp <;> rfl
    | some kind =>
      cases Line.classify line with
      | item item =>
        -- an item opens a list unless the list open in front of it is of its kind
        show (Step.ofClass line (.item item) (.list kind)).tally =
          ⟨0, 1, (true && (some kind != some item.kind)).toNat, 0⟩
        by_cases same : item.kind = kind
        · subst same
          rw [Step.ofClass_item_self, bne_self_eq_false]
          rfl
        · have other : (some kind != some item.kind) = true :=
            bne_iff_ne.2 fun h => same (Option.some.inj h).symm
          rw [Step.ofClass_item_of_ne line same, other]
          rfl
      | _ =>
        simp
        rfl

end LookBack

/-! ### A run counts its lines -/

namespace Tally

variable (first second : Tally)

@[simp] theorem headings_add : (first + second).headings = first.headings + second.headings := rfl

@[simp] theorem listItems_add : (first + second).listItems = first.listItems + second.listItems :=
  rfl

@[simp] theorem listsOpened_add :
    (first + second).listsOpened = first.listsOpened + second.listsOpened := rfl

@[simp] theorem literalBlocks_add :
    (first + second).literalBlocks = first.literalBlocks + second.literalBlocks := rfl

end Tally

@[simp] theorem Step.tally_andThen (first second : Step) :
    (first.andThen second).tally = first.tally + second.tally := rfl

@[simp] theorem Step.lines_andThen (first second : Step) :
    (first.andThen second).lines = first.lines ++ second.lines := rfl

/-- What the lines of a document add to the counters. -/
def tallyOf (lines : List Text) : Tally where
  headings := (placed lines).countP Placed.isHeading
  listItems := (placed lines).countP Placed.isItem
  listsOpened := (placed lines).countP Placed.opensList
  literalBlocks := (placed lines).countP Placed.opensLiteral

theorem tallyOf_concat (lines : List Text) (line : Text) :
    tallyOf (lines ++ [line]) = tallyOf lines + (⟨lines, line⟩ : Placed).tally := by
  have count (p : Placed → Bool) : (placed (lines ++ [line])).countP p =
      (placed lines).countP p + (p ⟨lines, line⟩).toNat := by
    rw [placed_concat, List.countP_append, List.countP_singleton]
    cases p ⟨lines, line⟩ <;> rfl
  simp only [tallyOf, count]
  rfl

theorem LookBack.tally_ofLines (lines : List Text) :
    (Step.ofLines .standard .prose lines).tally = tallyOf lines := by
  induction lines using List.reverseRecOn with
  | nil => rfl
  | append_singleton earlier line ih =>
    rw [Step.ofLines_concat, Step.tally_andThen, ih, context_ofLines, tally_ofLine, tallyOf_concat]

/-- Every second fence opens a literal block, beginning with the first. -/
theorem literalBlocks_tallyOf (lines : List Text) :
    (tallyOf lines).literalBlocks = (lines.countP Line.isFence + 1) / 2 := by
  induction lines using List.reverseRecOn with
  | nil => rfl
  | append_singleton earlier line ih =>
    rw [tallyOf_concat, Tally.literalBlocks_add, ih, List.countP_append, List.countP_singleton,
      Placed.tally, Placed.opensLiteral]
    cases Line.isFence line with
    | false => simp
    | true =>
      -- the fence opens a block iff the fences in front of it are even in number
      rcases Nat.mod_two_eq_zero_or_one (earlier.countP Line.isFence) with parity | parity <;>
        simp [parity] <;> omega

/-! ### Conservation -/

/-- The lines still owed: the end of an open list. -/
def BlockContext.owed : BlockContext → Nat
  | .list _ => 1
  | _ => 0

namespace Step

theorem length_lines_inProse (line : Text) (type : Line.Class) :
    (inProse line type).lines.length + (inProse line type).context.owed =
      1 + 2 * (inProse line type).tally.listsOpened := by
  cases type <;> rfl

/-- **Conservation, one line.** -/
theorem length_lines_ofLine (context : BlockContext) (line : Text) :
    (ofLine .standard context line).lines.length + (ofLine .standard context line).context.owed =
      1 + context.owed + 2 * (ofLine .standard context line).tally.listsOpened := by
  rw [ofLine_standard]
  cases context with
  | prose => exact length_lines_inProse line _
  | literal => cases Line.classify line <;> rfl
  | list kind =>
    rw [ofClass]
    split
    · -- the list goes on: one line, and its end is still owed
      cases Line.classify line <;> rfl
    · -- the end that was owed is emitted, and the line is converted as in prose
      have prose := length_lines_inProse line (Line.classify line)
      have owed : (BlockContext.list kind).owed = 1 := rfl
      simp only [lines_andThen, List.length_append, context_andThen, tally_andThen,
        Tally.listsOpened_add, closeList, List.length_singleton, owed]
      omega

/-- **Conservation.** Every line contributes one line, every list two more, and what is owed at the
end of a run has not been emitted yet. -/
theorem length_lines_ofLines (context : BlockContext) (lines : List Text) :
    (ofLines .standard context lines).lines.length +
        (ofLines .standard context lines).context.owed =
      lines.length + context.owed + 2 * (ofLines .standard context lines).tally.listsOpened := by
  induction lines generalizing context with
  | nil => simp [ofLines, stay]
  | cons line rest ih =>
    have first := length_lines_ofLine context line
    have others := ih (ofLine .standard context line).context
    rw [ofLines]
    simp only [lines_andThen, List.length_append, context_andThen, tally_andThen,
      Tally.listsOpened_add, List.length_cons]
    omega

end Step

namespace Document

/-- The end of a document emits what is owed, and the end of a literal block on request. -/
theorem length_lines_ending (options : Options) (context : BlockContext) :
    (ending options context).lines.length =
      context.owed + (if context = .literal ∧ options.closeUnterminated then 1 else 0) := by
  cases context with
  | literal => cases close : options.closeUnterminated <;> simp [ending, close] <;> rfl
  | _ => rfl

theorem tally_ending (options : Options) (context : BlockContext) :
    (ending options context).tally = {} := by
  cases context with
  | literal => cases close : options.closeUnterminated <;> simp [ending, close] <;> rfl
  | _ => rfl

/-- The end of a document is not counted. -/
theorem tally_whole_eq_tally_body (options : Options) (text : Text) :
    (whole .standard options text).tally = (body .standard text).tally := by
  rw [whole, Step.tally_andThen, tally_ending, Tally.add_empty]

theorem tally_whole (options : Options) (text : Text) :
    (whole .standard options text).tally = tallyOf text.lines := by
  rw [tally_whole_eq_tally_body, body, LookBack.tally_ofLines]

theorem length_lines_whole (options : Options) (text : Text) :
    (whole .standard options text).lines.length =
      text.lines.length + 2 * (tallyOf text.lines).listsOpened +
        (if (body .standard text).context = .literal ∧ options.closeUnterminated then 1
          else 0) := by
  have run := Step.length_lines_ofLines .prose text.lines
  have start : BlockContext.prose.owed = 0 := rfl
  rw [LookBack.tally_ofLines, start] at run
  rw [whole, Step.lines_andThen, List.length_append, length_lines_ending, body]
  omega

theorem unterminatedLiteral_iff (options : Options) (text : Text) :
    (convert options text).stats.unterminatedLiteral ↔ (body .standard text).context = .literal :=
  beq_iff_eq

theorem body_eq_literal_iff (text : Text) :
    (body .standard text).context = .literal ↔ text.lines.countP Line.isFence % 2 = 1 := by
  rw [context_body, LookBack.context_eq_literal_iff, LookBack.insideLiteral, beq_iff_eq]

/-- **The counters, in closed form.** -/
theorem stats_closed_form (options : Options) (text : Text) :
    let stats := (convert options text).stats
    let fences := text.lines.countP Line.isFence
    stats.literalBlocks = (fences + 1) / 2 ∧
      (stats.unterminatedLiteral ↔ fences % 2 = 1) ∧
      stats.inputLines = text.count '\n' + 1 ∧
      stats.headings = (placed text.lines).countP Placed.isHeading ∧
      stats.listItems = (placed text.lines).countP Placed.isItem ∧
      stats.listsOpened = (placed text.lines).countP Placed.opensList ∧
      stats.outputLines = stats.inputLines + 2 * stats.listsOpened +
        (if stats.unterminatedLiteral ∧ options.closeUnterminated then 1 else 0) ∧
      stats.outputLines = (convert options text).latex.count '\n' + 1 := by
  intro stats fences
  have tally : (whole .standard options text).tally = tallyOf text.lines := tally_whole options text
  have unterminated : stats.unterminatedLiteral ↔ (body .standard text).context = .literal :=
    beq_iff_eq
  have opened : stats.listsOpened = (tallyOf text.lines).listsOpened :=
    congrArg Tally.listsOpened tally
  refine ⟨?_, ?_, Text.length_lines text, congrArg Tally.headings tally,
    congrArg Tally.listItems tally, opened, ?_, ?_⟩
  · exact (congrArg Tally.literalBlocks tally).trans (literalBlocks_tallyOf text.lines)
  · rw [unterminated, body_eq_literal_iff]
  · simp only [opened, unterminated]
    exact length_lines_whole options text
  · rw [← Text.length_lines, lines_latex]
    rfl

end Document

end Manuscript
