import Manuscript.Proofs.Document.Statistics

/-!
# The seam between two documents

Two documents with a line feed between them are converted as one. Where nothing goes on across the
seam, neither a literal block nor a list, the result is that of the two conversions, one after the
other: the end of a list that the first leaves open is emitted by the first document's end, or else
by the second document's first line, and both emit the same (`Separate.wholeOfLines_append`). Where
the second document begins with another item of that list, neither its end nor a new beginning is
emitted.

Main statement: `Document.convert_append`.
-/

namespace Manuscript

/-- The counters of two documents together; the second decides how the whole ends. -/
def Stats.append (first second : Stats) : Stats where
  inputLines := first.inputLines + second.inputLines
  outputLines := first.outputLines + second.outputLines
  headings := first.headings + second.headings
  listItems := first.listItems + second.listItems
  listsOpened := first.listsOpened + second.listsOpened
  literalBlocks := first.literalBlocks + second.literalBlocks
  unterminatedLiteral := second.unterminatedLiteral

/-- Whether a line leaves a list of the given kind open: an item of it, or a bare marker. -/
def Line.continues (kind : ListKind) (line : Text) : Bool :=
  Line.isBareMarker line || (Line.listItem? line).any (·.kind == kind)

theorem Line.continues_classify (kind : ListKind) (line : Text) :
    (Line.classify line).continues kind = Line.continues kind line := by
  rw [Line.continues, Line.isBareMarker_eq_classify, Line.listItem?_eq_classify]
  cases Line.classify line <;> rfl

namespace Step

/-- A run that does not go on with the list open in front of it is one in prose, after its end. -/
theorem ofLines_list {kind : ListKind} {first : Text} (rest : List Text)
    (h : Line.continues kind first = false) :
    ofLines .standard (.list kind) (first :: rest) =
      (closeList kind).andThen (ofLines .standard .prose (first :: rest)) := by
  rw [ofLines, ofLines, ofLine_list (by rw [Line.continues_classify, h]), context_andThen,
    andThen_assoc]

/-- A run in prose that starts with an item is one inside its list, after its beginning. -/
theorem ofLines_prose_of_listItem? {first : Text} {item : Line.ListItem} (rest : List Text)
    (h : Line.listItem? first = some item) :
    ofLines .standard .prose (first :: rest) =
      (openList item.kind).andThen (ofLines .standard (.list item.kind) (first :: rest)) := by
  have type : Line.classify first = .item item := by
    rw [Line.listItem?_eq_classify] at h
    cases type : Line.classify first <;> simp [type, Line.Class.item?] at h
    rw [h]
  have inside : ofLine .standard (.list item.kind) first = Step.item item := by
    rw [ofLine_standard, type, ofClass_item_self]
  have outside : ofLine .standard .prose first = (openList item.kind).andThen (Step.item item) := by
    rw [ofLine_standard, type]
    rfl
  rw [ofLines, ofLines, inside, outside, context_andThen, andThen_assoc]

end Step

namespace Document

/-- What lines contribute as a document of their own. -/
def wholeOfLines (options : Options) (lines : List Text) : Step :=
  let body := Step.ofLines .standard .prose lines
  body.andThen (ending options body.context)

/-! ### Where nothing goes on -/

/-- Nothing goes on from the lines before a seam to those after it: neither a literal block nor a
list. -/
structure Separate (before after : List Text) : Prop where
  outside : (Step.ofLines .standard .prose before).context ≠ .literal
  ends : ∀ kind, (Step.ofLines .standard .prose before).context = .list kind →
    ∀ next ∈ after.head?, Line.continues kind next = false

namespace Separate

variable {before after : List Text} (options : Options)

theorem of_context_eq_prose
    (h : (Step.ofLines .standard .prose before).context = .prose) : Separate before after where
  outside := by
    rw [h]
    simp
  ends := by
    intro kind context
    rw [h] at context
    cases context

/-- Of the lines after a seam, only the first decides whether anything goes on. -/
theorem of_head?_eq {other : List Text} (h : Separate before after)
    (same : other.head? = after.head?) : Separate before other where
  outside := h.outside
  ends := by
    rw [same]
    exact h.ends

/-- **A run across a seam.** What the end of the lines in front emits is what the first line after
them would have emitted in its place. -/
theorem ofLines_append (h : Separate before after) (nonempty : after ≠ []) :
    Step.ofLines .standard .prose (before ++ after) =
      (wholeOfLines options before).andThen (Step.ofLines .standard .prose after) := by
  obtain ⟨first, rest, rfl⟩ := List.exists_cons_of_ne_nil nonempty
  rw [Step.ofLines_append, wholeOfLines, Step.andThen_assoc]
  cases context : (Step.ofLines .standard .prose before).context with
  | prose =>
    -- nothing is open, and the end of the lines in front is empty
    rw [ending, Step.stay_andThen]
  | list kind => rw [ending, Step.ofLines_list rest (h.ends kind context first rfl)]
  | literal => exact absurd context h.outside

/-- Lines after a seam are outside literal blocks if they are without what is in front of it. -/
theorem outside_of_append {middle : List Text} (h : Separate before (middle ++ after))
    (outside : (Step.ofLines .standard .prose (before ++ middle)).context ≠ .literal) :
    (Step.ofLines .standard .prose middle).context ≠ .literal := by
  cases middle with
  | nil => simp [Step.ofLines]
  | cons first rest =>
    have separate : Separate before (first :: rest) := h.of_head?_eq rfl
    rwa [separate.ofLines_append {} (by simp), Step.context_andThen] at outside

/-- **Two wholes across a seam.** -/
theorem wholeOfLines_append (h : Separate before after) :
    wholeOfLines options (before ++ after) =
      (wholeOfLines options before).andThen (wholeOfLines options after) := by
  by_cases nonempty : after = []
  · subst nonempty
    have ended : (wholeOfLines options before).context = .prose := by
      rw [wholeOfLines, Step.context_andThen]
      cases context : (Step.ofLines .standard .prose before).context with
      | literal => exact absurd context h.outside
      | _ => rfl
    have last : wholeOfLines options [] = .stay (wholeOfLines options before).context := by
      rw [ended]
      rfl
    rw [List.append_nil, last, Step.andThen_stay]
  · rw [wholeOfLines, h.ofLines_append options nonempty, Step.context_andThen, Step.andThen_assoc]
    rfl

end Separate

/-! ### Where a list goes on -/

variable {a b : Text}

/-- **A list across the seam.** The body of the first document, without its end, is followed by the
second document without the beginning of its list. -/
theorem exists_body_append_of_listItem? {item : Line.ListItem}
    (context : (body .standard a).context = .list item.kind)
    (found : Line.listItem? (b.lines.head b.lines_ne_nil) = some item) :
    ∃ rest : Step, rest.lines ≠ [] ∧
      body .standard b = (Step.openList item.kind).andThen rest ∧
      body .standard (a ++ '\n' :: b) = (body .standard a).andThen rest := by
  obtain ⟨first, others, lines⟩ := List.exists_cons_of_ne_nil b.lines_ne_nil
  refine ⟨Step.ofLines .standard (.list item.kind) b.lines, ?_, ?_, ?_⟩
  · rw [lines, Step.ofLines]
    exact List.append_ne_nil_of_left_ne_nil (Step.lines_ofLine_ne_nil _ _) _
  · have found : Line.listItem? first = some item := by
      simpa only [lines, List.head_cons] using found
    rw [body, lines]
    exact Step.ofLines_prose_of_listItem? others found
  · rw [← context, body, Text.lines_append, Step.ofLines_append]
    rfl

/-! ### Two documents -/

/-- The counters are those of the body, but for the lines of the result. -/
theorem stats_eq (options : Options) (text : Text) :
    (convert options text).stats =
      { inputLines := text.lines.length
        outputLines := (whole .standard options text).lines.length
        headings := (body .standard text).tally.headings
        listItems := (body .standard text).tally.listItems
        listsOpened := (body .standard text).tally.listsOpened
        literalBlocks := (body .standard text).tally.literalBlocks
        unterminatedLiteral := (body .standard text).context == .literal } := by
  rw [← tally_whole_eq_tally_body options text]
  rfl

/-- Nothing is lost or added where no list goes on across the seam. -/
theorem convert_append_of_ends (options : Options) (outside : (body .standard a).context ≠ .literal)
    (ends : ∀ kind, (body .standard a).context = .list kind →
      Line.continues kind (b.lines.head b.lines_ne_nil) = false) :
    (convert options (a ++ '\n' :: b)).latex =
        (convert options a).latex ++ '\n' :: (convert options b).latex ∧
      (convert options (a ++ '\n' :: b)).stats =
        (convert options a).stats.append (convert options b).stats := by
  have separate : Separate a.lines b.lines :=
    { outside
      ends := fun kind context next mem => by
        rw [← List.head_of_mem_head? mem]
        exact ends kind context }
  have seam : body .standard (a ++ '\n' :: b) =
      (whole .standard options a).andThen (body .standard b) := by
    rw [body, Text.lines_append]
    exact separate.ofLines_append options b.lines_ne_nil
  have joined : whole .standard options (a ++ '\n' :: b) =
      (whole .standard options a).andThen (whole .standard options b) := by
    rw [whole, seam, Step.context_andThen, Step.andThen_assoc]
    rfl
  constructor
  · show Text.joinLines _ = Text.joinLines _ ++ '\n' :: Text.joinLines _
    rw [joined, Step.lines_andThen,
      Text.joinLines_append (lines_whole_ne_nil options a) (lines_whole_ne_nil options b)]
  · rw [stats_eq, stats_eq, stats_eq, joined, seam, Text.lines_append, Step.tally_andThen,
      tally_whole_eq_tally_body]
    simp [Stats.append]

/-- Where a list goes on across the seam, its end and its new beginning are left out. -/
theorem convert_append_of_listItem? (options : Options) {item : Line.ListItem}
    (context : (body .standard a).context = .list item.kind)
    (found : Line.listItem? (b.lines.head b.lines_ne_nil) = some item) :
    (∃ front back : Text,
      (convert options a).latex = front ++ '\n' :: item.kind.environment.closing ∧
      (convert options b).latex = item.kind.environment.opening ++ '\n' :: back ∧
      (convert options (a ++ '\n' :: b)).latex = front ++ '\n' :: back) ∧
    (convert options a).stats.append (convert options b).stats =
      { (convert options (a ++ '\n' :: b)).stats with
        listsOpened := (convert options (a ++ '\n' :: b)).stats.listsOpened + 1
        outputLines := (convert options (a ++ '\n' :: b)).stats.outputLines + 2 } := by
  obtain ⟨rest, nonempty, body_b, body_ab⟩ := exists_body_append_of_listItem? context found
  have whole_a : (whole .standard options a).lines =
      (body .standard a).lines ++ [item.kind.environment.closing] := by
    rw [whole, Step.lines_andThen, context]
    rfl
  have whole_b : (whole .standard options b).lines =
      item.kind.environment.opening :: (rest.lines ++ (ending options rest.context).lines) := by
    rw [whole, body_b]
    rfl
  have whole_ab : (whole .standard options (a ++ '\n' :: b)).lines =
      (body .standard a).lines ++ (rest.lines ++ (ending options rest.context).lines) := by
    rw [whole, body_ab]
    simp only [Step.lines_andThen, Step.context_andThen, List.append_assoc]
  have back_ne_nil : rest.lines ++ (ending options rest.context).lines ≠ [] :=
    List.append_ne_nil_of_left_ne_nil nonempty _
  constructor
  · refine ⟨Text.joinLines (body .standard a).lines,
      Text.joinLines (rest.lines ++ (ending options rest.context).lines), ?_, ?_, ?_⟩
    · show Text.joinLines (whole .standard options a).lines = _
      rw [whole_a, Text.joinLines_append (lines_body_ne_nil a) (by simp)]
      rfl
    · show Text.joinLines (whole .standard options b).lines = _
      rw [whole_b]
      exact Text.joinWith_cons _ _ back_ne_nil
    · show Text.joinLines (whole .standard options (a ++ '\n' :: b)).lines = _
      rw [whole_ab, Text.joinLines_append (lines_body_ne_nil a) back_ne_nil]
  · rw [stats_eq, stats_eq, stats_eq, whole_a, whole_b, whole_ab, body_b, body_ab,
      Text.lines_append]
    simp [Stats.append, Step.openList]
    omega

/-- **Conversion is compositional.** Where no literal block is open at the end of the first
document, its result is followed by that of the second, unless a list goes on from the one into the
other; then the two marker lines at the seam are left out, and the two lists are counted as one. -/
theorem convert_append (options : Options) (a b : Text)
    (outside : (body .standard a).context ≠ .literal) :
    let first := b.lines.head b.lines_ne_nil
    let joined := convert options (a ++ '\n' :: b)
    ((∀ kind, (body .standard a).context = .list kind → Line.continues kind first = false) →
      joined.latex = (convert options a).latex ++ '\n' :: (convert options b).latex ∧
      joined.stats = (convert options a).stats.append (convert options b).stats) ∧
    (∀ item, (body .standard a).context = .list item.kind → Line.listItem? first = some item →
      (∃ front back : Text,
        (convert options a).latex = front ++ '\n' :: item.kind.environment.closing ∧
        (convert options b).latex = item.kind.environment.opening ++ '\n' :: back ∧
        joined.latex = front ++ '\n' :: back) ∧
      (convert options a).stats.append (convert options b).stats =
        { joined.stats with
          listsOpened := joined.stats.listsOpened + 1
          outputLines := joined.stats.outputLines + 2 }) :=
  ⟨convert_append_of_ends options outside, fun _ context found =>
    convert_append_of_listItem? options context found⟩

/-- A list that is open at the end of a document is ended by text and continued by an item. -/
theorem convert_append_plan :
    let plan : Text := "# Plan\n- one".toList
    let text : Text := "Text".toList
    let item : Text := "- two\n".toList
    (convert {} (plan ++ '\n' :: text)).latex =
        (convert {} plan).latex ++ '\n' :: (convert {} text).latex ∧
      (convert {} plan).stats.append (convert {} item).stats =
        { (convert {} (plan ++ '\n' :: item)).stats with
          listsOpened := (convert {} (plan ++ '\n' :: item)).stats.listsOpened + 1
          outputLines := (convert {} (plan ++ '\n' :: item)).stats.outputLines + 2 } := by
  intro plan text item
  have outside : (body .standard plan).context ≠ .literal := by decide +kernel
  have ended : ∀ kind, (body .standard plan).context = .list kind →
      Line.continues kind (text.lines.head text.lines_ne_nil) = false := by
    intro kind _
    cases kind <;> decide +kernel
  have list : (body .standard plan).context = .list .unordered := by decide +kernel
  have found : Line.listItem? (item.lines.head item.lines_ne_nil) =
      some ⟨.unordered, "\\item two".toList⟩ := by decide +kernel
  exact ⟨((convert_append {} plan text outside).1 ended).1,
    ((convert_append {} plan item outside).2 ⟨.unordered, _⟩ list found).2⟩

end Document
end Manuscript
