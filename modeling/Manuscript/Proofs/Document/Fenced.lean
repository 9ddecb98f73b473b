import Manuscript.Proofs.Document.Blocks

/-!
# A literal block between two documents

A literal block is an island. What is in front of it is converted as a document of its own: the
opening fence ends whatever list is open, as the end of a document would. What is behind it starts
with nothing open, as a document does. And what is in it is copied, whatever it looks like, so that
nothing of it reaches the counters but its number of lines.

* `Document.whole_fenced`: the three parts contribute one after the other.
* `Document.convert_fenced`: the result and the counters of such a document.
-/

namespace Manuscript

/-- The lines of joined texts are the lines of the one after those of the other. -/
theorem Text.lines_joinLines_eq_flatMap {texts : List Text} (nonempty : texts ≠ []) :
    (joinLines texts).lines = texts.flatMap lines := by
  induction texts with
  | nil => exact absurd rfl nonempty
  | cons text rest ih =>
    cases rest with
    | nil => simp [joinLines, joinWith]
    | cons next rest =>
      calc (joinLines (text :: next :: rest)).lines
          = (text ++ '\n' :: joinLines (next :: rest)).lines := rfl
        _ = text.lines ++ (joinLines (next :: rest)).lines := lines_append _ _
        _ = text.lines ++ (next :: rest).flatMap lines := by rw [ih (by simp)]
        _ = (text :: next :: rest).flatMap lines := List.flatMap_cons.symm

/-- Texts without line feeds are lines already. -/
theorem Text.flatMap_lines {texts : List Text} (plain : ∀ text ∈ texts, '\n' ∉ text) :
    texts.flatMap lines = texts := by
  induction texts with
  | nil => rfl
  | cons text rest ih =>
    have single : text.lines = [text] := splitOn_eq_singleton (plain text (by simp))
    rw [List.flatMap_cons, single, ih fun other mem => plain other (by simp [mem])]
    rfl

/-- No list goes on with a fence. -/
theorem Line.continues_of_isFence (kind : ListKind) {line : Text} (fence : Line.isFence line) :
    Line.continues kind line = false := by
  rw [← Line.continues_classify, Line.classify_eq_fence_iff.2 fence]
  rfl

/-- A line that a literal block can hold: a single line, and no fence. -/
structure Line.Copied (line : Text) : Prop where
  plain : '\n' ∉ line
  inside : Line.isFence line = false

instance (line : Text) : Decidable (Line.Copied line) :=
  decidable_of_iff ('\n' ∉ line ∧ Line.isFence line = false)
    ⟨fun h => ⟨h.1, h.2⟩, fun h => ⟨h.plain, h.inside⟩⟩

/-- A line that a literal block can begin or end with. -/
structure Line.Fence (line : Text) : Prop where
  plain : '\n' ∉ line
  isFence : Line.isFence line

instance (line : Text) : Decidable (Line.Fence line) :=
  decidable_of_iff ('\n' ∉ line ∧ Line.isFence line)
    ⟨fun h => ⟨h.1, h.2⟩, fun h => ⟨h.plain, h.isFence⟩⟩

namespace Document

/-- The document that has a literal block between two others, which may have any number of lines. -/
def fenced (before opening : Text) (copied : List Text) (closing after : Text) : Text :=
  Text.joinLines (before :: opening :: (copied ++ [closing, after]))

variable {before opening closing : Text} {copied : List Text}

theorem lines_fenced (opens : Line.Fence opening) (inside : ∀ line ∈ copied, Line.Copied line)
    (closes : Line.Fence closing) (after : Text) :
    (fenced before opening copied closing after).lines =
      before.lines ++ ((opening :: (copied ++ [closing])) ++ after.lines) := by
  have first : opening.lines = [opening] := Text.splitOn_eq_singleton opens.plain
  have last : closing.lines = [closing] := Text.splitOn_eq_singleton closes.plain
  have middle : copied.flatMap Text.lines = copied :=
    Text.flatMap_lines fun line mem => (inside line mem).plain
  rw [fenced, Text.lines_joinLines_eq_flatMap (by simp)]
  simp [first, middle, last]

variable (options : Options) (after : Text)

/-- **Three parts.** The text in front, the literal block, and the text behind contribute one after
the other, each as a document of its own; and up to the end of the document likewise. -/
theorem whole_fenced (outside : (body .standard before).context ≠ .literal)
    (opens : Line.Fence opening) (inside : ∀ line ∈ copied, Line.Copied line)
    (closes : Line.Fence closing) :
    ∃ events, let block : Step :=
        { context := .prose
          lines := Latex.Environment.verbatim.opening :: (copied ++
            [Latex.Environment.verbatim.closing])
          events
          tally := { literalBlocks := 1 } }
      whole .standard options (fenced before opening copied closing after) =
          (whole .standard options before).andThen
            (block.andThen (whole .standard options after)) ∧
        body .standard (fenced before opening copied closing after) =
          (whole .standard options before).andThen (block.andThen (body .standard after)) := by
  have plain : ∀ line ∈ copied, Line.isFence line = false :=
    fun line mem => (inside line mem).inside
  obtain ⟨events, block⟩ := wholeOfLines_literal options opens.isFence plain closes.isFence
  -- nothing goes on into the block, since it begins with a fence, and nothing out of it
  have into : Separate before.lines ((opening :: (copied ++ [closing])) ++ after.lines) :=
    { outside
      ends := by
        rintro kind - next ⟨⟩
        exact Line.continues_of_isFence kind opens.isFence }
  have outOf := separate_literal after.lines opens.isFence plain closes.isFence
  refine ⟨events, ?_, ?_⟩
  · show wholeOfLines options _ = _
    rw [lines_fenced opens inside closes after, into.wholeOfLines_append,
      outOf.wholeOfLines_append, block]
    rfl
  · rw [body, lines_fenced opens inside closes after, into.ofLines_append options (by simp),
      outOf.ofLines_append options after.lines_ne_nil, block]
    rfl

theorem context_ne_literal {options : Options} {text : Text}
    (h : (convert options text).stats.unterminatedLiteral = false) :
    (body .standard text).context ≠ .literal := by
  rw [← Bool.not_eq_true, unterminatedLiteral_iff] at h
  exact h

section Parts

variable (outside : (convert options before).stats.unterminatedLiteral = false)
  (opens : Line.Fence opening) (inside : ∀ line ∈ copied, Line.Copied line)
  (closes : Line.Fence closing)

include outside opens inside closes

/-- The lines of the block are copied between two markers. -/
theorem latex_fenced :
    (convert options (fenced before opening copied closing after)).latex =
      Text.joinLines ((convert options before).latex :: Latex.Environment.verbatim.opening ::
        (copied ++ [Latex.Environment.verbatim.closing, (convert options after).latex])) := by
  obtain ⟨events, parts, -⟩ := whole_fenced options after (context_ne_literal outside) opens inside
    closes
  have middle : copied.flatMap Text.lines = copied :=
    Text.flatMap_lines fun line mem => (inside line mem).plain
  have markers : Latex.Environment.verbatim.opening.lines = [Latex.Environment.verbatim.opening] ∧
      Latex.Environment.verbatim.closing.lines = [Latex.Environment.verbatim.closing] := by
    decide +kernel
  -- both sides have the same lines
  rw [← Text.lines_inj, lines_latex, parts, Text.lines_joinLines_eq_flatMap (by simp)]
  simp [middle, markers, lines_latex]

/-- The counters are those of the two documents and of one literal block between them. -/
theorem stats_fenced :
    (convert options (fenced before opening copied closing after)).stats =
      ((convert options before).stats.append
        { inputLines := copied.length + 2, outputLines := copied.length + 2,
          literalBlocks := 1 }).append (convert options after).stats := by
  obtain ⟨events, parts, bodies⟩ := whole_fenced options after (context_ne_literal outside) opens
    inside closes
  rw [stats_eq, stats_eq, stats_eq, parts, bodies, lines_fenced opens inside closes after]
  simp [Stats.append, tally_whole_eq_tally_body]
  omega

/-- **Literal blocks are verbatim and isolated.** A literal block between two documents is copied
between the results of the two, and copying other lines in their place changes no counter but those
of the lines. -/
theorem convert_fenced :
    (convert options (fenced before opening copied closing after)).latex =
        Text.joinLines ((convert options before).latex :: Latex.Environment.verbatim.opening ::
          (copied ++ [Latex.Environment.verbatim.closing, (convert options after).latex])) ∧
      ∀ other : List Text, (∀ line ∈ other, Line.Copied line) →
        let changed := (convert options (fenced before opening other closing after)).stats
        changed = { (convert options (fenced before opening copied closing after)).stats with
          inputLines := changed.inputLines
          outputLines := changed.outputLines } := by
  refine ⟨latex_fenced options after outside opens inside closes, fun other insideOther => ?_⟩
  rw [stats_fenced options after outside opens inside closes,
    stats_fenced options after outside opens insideOther closes]
  rfl

end Parts

/-- An indented fence with a language ends a list, and text in the block that looks like a heading,
an item or markup is copied. -/
theorem convert_fenced_listing :
    let before : Text := "- one".toList
    let opening : Text := "  ```text".toList
    let listing : List Text := ["# two".toList, "- **three**".toList, "  ".toList, []]
    let closing : Text := "\t``` end".toList
    let after : Text := "- four\n# five".toList
    let result := convert {} (fenced before opening listing closing after)
    ((convert {} before).stats.unterminatedLiteral = false ∧ Line.Fence opening ∧
      (∀ line ∈ listing, Line.Copied line) ∧ Line.Fence closing) ∧
    result.latex =
        Text.joinLines ((convert {} before).latex :: Latex.Environment.verbatim.opening ::
          (listing ++ [Latex.Environment.verbatim.closing, (convert {} after).latex])) ∧
      (convert {} (fenced before opening [] closing after)).stats =
        { result.stats with inputLines := 5, outputLines := 9 } := by
  intro before opening listing closing after result
  have outside : (convert {} before).stats.unterminatedLiteral = false := by decide +kernel
  have opens : Line.Fence opening := by decide +kernel
  have inside : ∀ line ∈ listing, Line.Copied line := by decide +kernel
  have closes : Line.Fence closing := by decide +kernel
  have empty : ∀ line ∈ ([] : List Text), Line.Copied line := nofun
  obtain ⟨latex, stats⟩ := convert_fenced {} after outside opens inside closes
  refine ⟨⟨outside, opens, inside, closes⟩, latex, (stats [] empty).trans ?_⟩
  decide +kernel

end Document
end Manuscript
