import Manuscript.Proofs.Document.Blocks
import Manuscript.Proofs.Inline.Markup

/-!
# Documents without markup

A conversion gives a document back exactly if none of its lines has anything to convert
(`Line.MarkupFree`). Such lines are easily seen to stay as they are. Conversely, nothing that a
conversion changes can come out right by accident: the environment of a block begins with a marker
where the document has a fence or an item, a heading loses its signs, a blank line its blanks, and
what formatting has changed stays changed.

Main statement: `Document.latex_eq_self_iff`.
-/

namespace Manuscript

namespace Line

variable {line : Text}

/-- A line with nothing to convert. -/
structure MarkupFree (line : Text) : Prop where
  /-- It opens and closes no literal block. -/
  fence : ¬ "```".toList <+: line.trim
  heading : heading? line = none
  item : listItem? line = none
  /-- There are no blanks to drop from it. -/
  blank : (∀ c ∈ line, Text.isBlank c) → line = []
  strong : ∀ delimiter ∈ "*_".toList, ¬ Inline.HasStrong delimiter line
  emphasis : ∀ delimiter ∈ "*_".toList, ¬ Inline.HasEmphasis delimiter line
  code : ¬ Inline.HasCode line
  citation : ¬ Inline.HasCitation line

theorem markupFree_iff (line : Text) :
    MarkupFree line ↔ isFence line = false ∧ heading? line = none ∧ listItem? line = none ∧
      (isBlank line → line = []) ∧ ¬ ∃ pass : Inline.Pass, pass.Markup line := by
  have fence : isFence line = false ↔ ¬ "```".toList <+: line.trim := by
    rw [isFence, ← List.isPrefixOf_iff_prefix, Bool.not_eq_true]
  rw [fence, isBlank_iff]
  constructor
  · intro free
    refine ⟨free.fence, free.heading, free.item, free.blank, ?_⟩
    rintro ⟨pass, markup⟩
    cases pass with
    | strongStar => exact free.strong '*' (by decide) markup
    | strongUnderscore => exact free.strong '_' (by decide) markup
    | emphasisStar => exact free.emphasis '*' (by decide) markup
    | emphasisUnderscore => exact free.emphasis '_' (by decide) markup
    | code => exact free.code markup
    | citation => exact free.citation markup
  · rintro ⟨fence, heading, item, blank, none⟩
    have either : ∀ delimiter ∈ "*_".toList, delimiter = '*' ∨ delimiter = '_' := by simp
    refine ⟨fence, heading, item, blank, ?_, ?_, ?_, ?_⟩
    · intro delimiter mem markup
      rcases either delimiter mem with rfl | rfl
      · exact none ⟨.strongStar, markup⟩
      · exact none ⟨.strongUnderscore, markup⟩
    · intro delimiter mem markup
      rcases either delimiter mem with rfl | rfl
      · exact none ⟨.emphasisStar, markup⟩
      · exact none ⟨.emphasisUnderscore, markup⟩
    · exact fun markup => none ⟨.code, markup⟩
    · exact fun markup => none ⟨.citation, markup⟩

/-- A heading begins with a sign, and what is emitted for it with a backslash. -/
theorem latex_ne_of_heading? {heading : Heading} (h : heading? line = some heading) :
    heading.latex ≠ line := by
  obtain ⟨front, title, -, -, spelled⟩ := exists_title_of_heading? h
  intro same
  have sign := lead_of_heading? h
  rw [← same, spelled] at sign
  have backslash : lead (Latex.heading heading.level (Inline.format title.trim)) = some '\\' := rfl
  rw [backslash] at sign
  cases sign

/-- What a line of its own emits is the line iff there is nothing to convert. -/
theorem alone_eq_self_iff (fence : isFence line = false) (item : listItem? line = none)
    (plain : '\n' ∉ line) : alone line = line ↔ MarkupFree line := by
  rw [markupFree_iff, alone]
  cases heading : heading? line with
  | some found =>
    have changed : found.latex ≠ line := latex_ne_of_heading? heading
    simp [changed]
  | none =>
    by_cases blank : isBlank line
    · -- a blank line becomes an empty one, and that holds no markup
      have markup : line = [] → ¬ ∃ pass : Inline.Pass, pass.Markup line := by
        rintro rfl
        exact (Inline.format_eq_self_iff plain).1 (by decide +kernel)
      constructor
      · intro same
        rw [if_pos blank] at same
        exact ⟨fence, rfl, item, fun _ => same.symm, markup same.symm⟩
      · rintro ⟨-, -, -, empty, -⟩
        rw [if_pos blank, empty blank]
    · have formatted := Inline.format_eq_self_iff plain
      constructor
      · intro same
        rw [if_neg blank] at same
        exact ⟨fence, rfl, item, fun h => absurd h blank, formatted.1 same⟩
      · rintro ⟨-, -, -, -, none⟩
        rw [if_neg blank, formatted.2 none]

/-- The first line of a list or of a literal block is not left as it is: the marker that begins the
block stands in its place, and no marker is a fence or an item. -/
theorem not_markupFree_of_first (h : isFence line ∨ ∃ item, listItem? line = some item) :
    ¬ MarkupFree line ∧ ∀ environment : Latex.Environment, environment.opening ≠ line := by
  have marker (environment : Latex.Environment) :
      isFence environment.opening = false ∧ listItem? environment.opening = none := by
    cases environment <;> decide +kernel
  rcases h with fence | ⟨item, found⟩
  · constructor
    · intro free
      exact free.fence (List.isPrefixOf_iff_prefix.1 fence)
    · rintro environment rfl
      simp [(marker environment).1] at fence
  · constructor
    · intro free
      simp [free.item] at found
    · rintro environment rfl
      simp [(marker environment).2] at found

end Line

namespace Document

variable (options : Options)

/-- **Lines that are emitted as they are.** Block by block: a line of its own stays iff there is
nothing to convert, and a list or a literal block begins with a marker in the place of its first
line. -/
theorem lines_wholeOfLines_eq_self_iff {lines : List Text} (plain : ∀ line ∈ lines, '\n' ∉ line) :
    (wholeOfLines options lines).lines = lines ↔ ∀ line ∈ lines, Line.MarkupFree line := by
  induction lines using block_induction with
  | nil =>
    have nothing : (wholeOfLines options []).lines = [] := rfl
    simp [nothing]
  | single line rest fence item ih =>
    obtain ⟨events, headings, block⟩ := wholeOfLines_single options fence item
    have others := ih fun other mem => plain other (by simp [mem])
    have alone := Line.alone_eq_self_iff fence item (plain line (by simp))
    rw [(separate_single rest fence item).wholeOfLines_append, Step.lines_andThen, block]
    calc [Line.alone line] ++ (wholeOfLines options rest).lines = [line] ++ rest
      _ ↔ Line.alone line = line ∧ (wholeOfLines options rest).lines = rest := List.cons_eq_cons
      _ ↔ Line.MarkupFree line ∧ ∀ other ∈ rest, Line.MarkupFree other := and_congr alone others
      _ ↔ ∀ other ∈ [line] ++ rest, Line.MarkupFree other := List.forall_mem_cons.symm
  | list item first others rest starts goOn ends _ =>
    obtain ⟨events, listItems, block⟩ := wholeOfLines_list options starts goOn
    obtain ⟨notFree, marker⟩ := Line.not_markupFree_of_first (.inr ⟨item, starts⟩)
    rw [(separate_list starts goOn ends).wholeOfLines_append, Step.lines_andThen, block]
    -- neither side holds: the marker is not the first item, and an item is not free of markup
    refine iff_of_false (fun same => ?_) fun free => notFree (free first (by simp))
    exact marker _ (List.cons_eq_cons.1 same).1
  | literal opening copied closing rest fence copy closes _ =>
    obtain ⟨events, block⟩ := wholeOfLines_literal options fence copy closes
    obtain ⟨notFree, marker⟩ := Line.not_markupFree_of_first (.inl fence)
    rw [(separate_literal rest fence copy closes).wholeOfLines_append, Step.lines_andThen, block]
    refine iff_of_false (fun same => ?_) fun free => notFree (free opening (by simp))
    exact marker _ (List.cons_eq_cons.1 same).1
  | unterminated opening copied fence copy =>
    obtain ⟨events, block⟩ := wholeOfLines_unterminated options fence copy
    obtain ⟨notFree, marker⟩ := Line.not_markupFree_of_first (.inl fence)
    rw [block]
    refine iff_of_false (fun same => ?_) fun free => notFree (free opening (by simp))
    exact marker _ (List.cons_eq_cons.1 same).1

/-- **Fixed points.** A conversion gives a document back iff none of its lines has anything to
convert. -/
theorem latex_eq_self_iff (text : Text) :
    (convert options text).latex = text ↔ ∀ line ∈ text.lines, Line.MarkupFree line := by
  calc (convert options text).latex = text
    _ ↔ (convert options text).latex.lines = text.lines := Text.lines_inj.symm
    _ ↔ (wholeOfLines options text.lines).lines = text.lines := by rw [lines_latex]; rfl
    _ ↔ ∀ line ∈ text.lines, Line.MarkupFree line :=
      lines_wholeOfLines_eq_self_iff options fun _ => Text.lineFeed_not_mem_of_mem_lines

-- Marks without a partner, or with nothing between them, are no markup.
example : let notes : Text := "2 * 3, **a*\n\n__ [ref:] `b\n-".toList
    (convert {} notes).latex = notes := by
  decide +kernel

end Document
end Manuscript
