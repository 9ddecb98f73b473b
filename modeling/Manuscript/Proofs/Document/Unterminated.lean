import Manuscript.Proofs.Document.Blocks

/-!
# Documents that end inside a literal block

Whether a literal block that a document leaves open is closed matters at the end of the document
and nowhere else. Closing it there is the same as writing a fence on one more line.

* `Document.body_concat_fence`: the fence on one more line ends the block and does nothing else.
* `Document.convert_closeUnterminated`: the two ways of ending a document, compared.
-/

namespace Manuscript

/-- The options under which a literal block that a document leaves open is closed. -/
def Options.closing : Options := { closeUnterminated := true }

/-- The options under which it is left open. -/
def Options.leaving : Options := { closeUnterminated := false }

/-- The fence without an indent and without a language. -/
def Line.plainFence : Text := "```".toList

theorem Line.isFence_plainFence : Line.isFence Line.plainFence := by decide +kernel

namespace Document

theorem body_eq_literal_or (text : Text) :
    (text.lines.countP Line.isFence % 2 = 0 ∧ (body .standard text).context ≠ .literal) ∨
      (text.lines.countP Line.isFence % 2 = 1 ∧ (body .standard text).context = .literal) := by
  rw [Ne, body_eq_literal_iff]
  omega

/-- The options are looked at only where a literal block is open at the end. -/
theorem ending_eq_of_ne_literal {context : BlockContext} (outside : context ≠ .literal)
    (first second : Options) : ending first context = ending second context := by
  cases context with
  | literal => exact absurd rfl outside
  | _ => rfl

theorem convert_eq_of_outside {text : Text} (outside : (body .standard text).context ≠ .literal)
    (first second : Options) : convert first text = convert second text := by
  have same : whole .standard first text = whole .standard second text := by
    rw [whole, whole, ending_eq_of_ne_literal outside first second]
  rw [convert, convertBy, same]
  rfl

section Inside

variable {text : Text} (inside : (body .standard text).context = .literal)

include inside

/-- A document that is left open emits what its lines emit. -/
theorem lines_whole_leaving :
    (whole .standard .leaving text).lines = (body .standard text).lines := by
  rw [whole, inside]
  exact List.append_nil _

/-- A document that is closed emits the end of the block behind it. -/
theorem lines_whole_closing :
    (whole .standard .closing text).lines =
      (body .standard text).lines ++ [Latex.Environment.verbatim.closing] := by
  rw [whole, inside]
  rfl

/-- **One more fence.** It ends the open block, and counts nothing. -/
theorem body_concat_fence :
    body .standard (text ++ '\n' :: Line.plainFence) =
      (body .standard text).andThen (Step.closeLiteral.record (.claimed .fence)) := by
  have single : Line.plainFence.lines = [Line.plainFence] := by decide +kernel
  rw [body, Text.lines_append, single, Step.ofLines_concat]
  show Step.andThen _ (Step.ofLine .standard (body .standard text).context Line.plainFence) = _
  rw [inside, Step.ofLine_literal_of_isFence Line.isFence_plainFence]
  rfl

/-- The end of the block comes behind the result of the document that is left open. -/
theorem latex_closing :
    (convert .closing text).latex =
      (convert .leaving text).latex ++ '\n' :: Latex.Environment.verbatim.closing := by
  show Text.joinLines (whole .standard .closing text).lines =
    Text.joinLines (whole .standard .leaving text).lines ++ _
  rw [lines_whole_closing inside, lines_whole_leaving inside,
    Text.joinLines_append (lines_body_ne_nil text) (by simp)]
  rfl

/-- Closing a document is writing one more fence. -/
theorem latex_closing_eq_latex_fence :
    (convert .closing text).latex = (convert .leaving (text ++ '\n' :: Line.plainFence)).latex := by
  have fenced : (whole .standard .leaving (text ++ '\n' :: Line.plainFence)).lines =
      (body .standard text).lines ++ [Latex.Environment.verbatim.closing] := by
    rw [whole, body_concat_fence inside]
    exact List.append_nil _
  show Text.joinLines (whole .standard .closing text).lines = Text.joinLines _
  rw [lines_whole_closing inside, fenced]

/-- Only the lines of the result are counted differently. -/
theorem stats_closing :
    (convert .closing text).stats =
      { (convert .leaving text).stats with
        outputLines := (convert .leaving text).stats.outputLines + 1 } := by
  rw [stats_eq, stats_eq, lines_whole_closing inside, lines_whole_leaving inside,
    List.length_append]
  rfl

end Inside

/-- **Closing what is left open.** A document that ends outside literal blocks, with an even number
of fences, is converted alike whether or not such blocks are closed. One that ends inside a literal
block is closed by one more line behind its result, which is also the result of writing a fence on
one more line; and only that line is counted. -/
theorem convert_closeUnterminated (text : Text) :
    (text.lines.countP Line.isFence % 2 = 0 → convert .closing text = convert .leaving text) ∧
    (text.lines.countP Line.isFence % 2 = 1 →
      (convert .closing text).latex =
          (convert .leaving text).latex ++ '\n' :: Latex.Environment.verbatim.closing ∧
        (convert .closing text).latex = (convert .leaving (text ++ '\n' :: Line.plainFence)).latex ∧
        (convert .closing text).stats =
          { (convert .leaving text).stats with
            outputLines := (convert .leaving text).stats.outputLines + 1 }) := by
  rcases body_eq_literal_or text with ⟨even, outside⟩ | ⟨odd, inside⟩
  · exact ⟨fun _ => convert_eq_of_outside outside _ _, fun odd => by omega⟩
  · refine ⟨fun even => by omega, fun _ => ⟨latex_closing inside, ?_, stats_closing inside⟩⟩
    exact latex_closing_eq_latex_fence inside

/-- A block behind a list is left open, and its text looks like an item; a fence and another item
later, a list is open at the end, and no block. -/
theorem convert_closeUnterminated_list :
    let block : Text := "- one\n  ```text\n- two".toList
    let list : Text := block ++ '\n' :: "```\n- three".toList
    (convert .closing block).latex =
        (convert .leaving block).latex ++ '\n' :: Latex.Environment.verbatim.closing ∧
      convert .closing list = convert .leaving list := by
  intro block list
  have odd : block.lines.countP Line.isFence % 2 = 1 := by decide +kernel
  have even : list.lines.countP Line.isFence % 2 = 0 := by decide +kernel
  exact ⟨((convert_closeUnterminated block).2 odd).1, (convert_closeUnterminated list).1 even⟩

end Document
end Manuscript
