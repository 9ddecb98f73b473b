import Manuscript.Proofs.Inline.Places
import Manuscript.Proofs.Inline.Precedence

/-!
# Plain surroundings

What stands before and behind a text is no matter to its formatting, if no delimiter stands in it:
no span starts before the text, and none ends behind it. A span needs both of its marks, so text
that holds no character of a closing mark may hold opening marks, and the beginning of an opening
mark at the end of the text in the middle is never completed.

* `Pass.pieces_surrounded`: a pass finds the same spans, and characters around them.
* `Inline.codeSpans_surrounded`: code lies where it lay, behind the text in front.
* `Inline.renderCitationsFrom_shift`: so a citation is inside code iff it was.

Main statement: `Inline.format_surrounded`.
-/

namespace Manuscript
namespace Delimiters

variable {marks : Delimiters} {before : Option Char} {text back : Text}

/-! ### Text without closing marks -/

section Behind

variable (nonempty : marks.closing ≠ []) (apart : ∀ c ∈ back, c ∉ marks.closing)

include apart in
/-- A closing mark does not reach into text without its characters. -/
theorem closing_isPrefixOf_append :
    marks.closing.isPrefixOf (text ++ back) = marks.closing.isPrefixOf text := by
  rw [Bool.eq_iff_iff, List.isPrefixOf_iff_prefix, List.isPrefixOf_iff_prefix]
  constructor
  · intro closed
    rcases List.prefix_or_prefix_of_prefix closed (List.prefix_append text back) with
      inside | ⟨rest, spelled⟩
    · exact inside
    · -- what the mark has behind the text would be in the other one
      have reaches : rest <+: back := by
        rw [← spelled] at closed
        exact (List.prefix_append_right_inj text).1 closed
      have plain : rest = [] := List.eq_nil_iff_forall_not_mem.2 fun c mem =>
        apart c (reaches.subset mem) (by simp [← spelled, mem])
      have whole : marks.closing = text := by
        rw [← spelled, plain, List.append_nil]
      exact ⟨[], (List.append_nil _).trans whole⟩
  · exact fun closed => closed.trans (List.prefix_append _ _)

include nonempty apart

theorem bodyBeforeClosing_of_apart : marks.bodyBeforeClosing back = none := by
  obtain ⟨c, rest, spelled⟩ := List.exists_cons_of_ne_nil nonempty
  refine bodyBeforeClosing_eq_none fun inside => ?_
  exact apart c (inside.subset (by simp [spelled])) (by simp [spelled])

theorem bodyBeforeClosing_append_of_apart :
    marks.bodyBeforeClosing (text ++ back) = marks.bodyBeforeClosing text := by
  induction text with
  | nil => exact bodyBeforeClosing_of_apart nonempty apart
  | cons c rest ih =>
    rw [List.cons_append, bodyBeforeClosing, bodyBeforeClosing, ih, closing_isPrefixOf_append apart]

/-- A span starts where one did. An opening mark that only the text behind completes has no closing
mark. -/
theorem bodyAtStart_append_of_apart :
    marks.bodyAtStart (text ++ back) = marks.bodyAtStart text := by
  unfold bodyAtStart
  by_cases opened : marks.opening <+: text
  · obtain ⟨rest, rfl⟩ := opened
    rw [List.append_assoc, if_pos (List.isPrefixOf_iff_prefix.2 (List.prefix_append _ _)),
      if_pos (List.isPrefixOf_iff_prefix.2 (List.prefix_append _ _)), List.drop_left,
      List.drop_left, bodyBeforeClosing_append_of_apart nonempty apart]
  · rw [if_neg (mt List.isPrefixOf_iff_prefix.1 opened)]
    split
    · next completed =>
      have longer : text.length ≤ marks.opening.length := by
        by_contra shorter
        exact opened (List.prefix_of_prefix_length_le (List.isPrefixOf_iff_prefix.1 completed)
          (List.prefix_append text back) (by omega))
      rw [List.drop_append, List.drop_eq_nil_of_le longer, List.nil_append]
      exact bodyBeforeClosing_of_apart nonempty fun c mem => apart c (List.mem_of_mem_drop mem)
    · rfl

/-- Without closing marks there are no spans. -/
theorem piecesAfter_of_apart : marks.piecesAfter before back = back.map .char := by
  induction back generalizing before with
  | nil => rw [piecesAfter]; rfl
  | cons c rest ih =>
    -- all of the text may be taken for what stands behind an empty one
    have nothing : marks.bodyAtStart ([] ++ c :: rest) = marks.bodyAtStart [] :=
      bodyAtStart_append_of_apart nonempty apart
    rw [bodyAtStart_nil, List.nil_append] at nothing
    rw [piecesAfter_cons_of_refused, ih]
    · rfl
    · exact fun d mem => apart d (List.mem_cons_of_mem c mem)
    · intro body found
      cases nothing.symm.trans found

/-- **Nothing behind the text takes part in a span.** -/
theorem piecesAfter_append_of_apart
    (neighbour : ∀ c ∈ back, ∀ left, marks.permits left (some c) = marks.permits left none) :
    marks.piecesAfter before (text ++ back) =
      marks.piecesAfter before text ++ back.map .char := by
  have starts (rest : Text) : marks.bodyAtStart (rest ++ back) = marks.bodyAtStart rest :=
    bodyAtStart_append_of_apart nonempty apart
  -- a neighbour from the text behind is allowed wherever the end of the text is
  have likeEnd (rest : Text) (left : Option Char) :
      marks.permits left (rest ++ back).head? = marks.permits left rest.head? := by
    cases rest with
    | cons c rest => rfl
    | nil =>
      cases back with
      | nil => rfl
      | cons c others => exact neighbour c List.mem_cons_self left
  -- what follows a span in the text follows it, and then the text behind
  have drop_enclose_append {c : Char} {rest body : Text}
      (found : marks.bodyAtStart (c :: rest) = some body) :
      (c :: (rest ++ back)).drop (marks.enclose body).length =
        rest.drop ((marks.enclose body).length - 1) ++ back := by
    rw [← drop_enclose rest found, ← List.cons_append,
      List.drop_append_of_le_length (enclose_isPrefix_of_bodyAtStart found).length_le]
  -- the induction is on the search in the text alone, and the other one takes the same branches
  fun_induction piecesAfter marks before text with
  | case1 before => exact piecesAfter_of_apart nonempty apart
  | case2 before c rest body found after permitted ih =>
    have found' : marks.bodyAtStart (c :: (rest ++ back)) = some body := (starts _).trans found
    have behind : (rest ++ back).drop ((marks.enclose body).length - 1) = after ++ back := by
      rw [← drop_enclose _ found', drop_enclose_append found]
    rw [List.cons_append, piecesAfter, found']
    simp only [behind, likeEnd, permitted, if_true, ih]
    rfl
  | case3 before c rest body found after refused ih =>
    rw [List.cons_append, piecesAfter_cons_of_refused, ih]
    · rfl
    · intro other found'
      obtain rfl := Option.some.inj (found'.symm.trans ((starts _).trans found))
      rw [drop_enclose_append found, likeEnd]
      exact refused
  | case4 before c rest found ih =>
    rw [List.cons_append, piecesAfter_cons_of_refused, ih]
    · rfl
    · intro body found'
      cases (found'.symm.trans ((starts _).trans found) :)

end Behind

/-! ### Text without opening marks -/

/-- All that matters of the character in front of a text is which neighbours it allows. -/
theorem piecesAfter_congr {before' : Option Char}
    (like : ∀ right, marks.permits before right = marks.permits before' right) (text : Text) :
    marks.piecesAfter before text = marks.piecesAfter before' text := by
  cases text with
  | nil => rw [piecesAfter, piecesAfter]
  | cons c rest => rw [piecesAfter, piecesAfter]; simp only [like]

end Delimiters

namespace Inline

variable {front text back : Text}

/-- A pass sees no mark in what stands around a text: none opens before it, and none closes behind
it. -/
structure Pass.Overlooks (pass : Pass) (front back : Text) : Prop where
  front : pass.delimiter ∉ front
  back : ∀ c ∈ back, c ∉ pass.marks.closing

theorem Pass.head?_opening (pass : Pass) : pass.marks.opening.head? = some pass.delimiter := by
  cases pass <;> rfl

/-- A character that is no delimiter is like an end of the text, as a neighbour of a span. -/
theorem Pass.permits_of_ne_delimiter {pass : Pass} {c : Char} (h : c ≠ pass.delimiter)
    (other : Option Char) : pass.marks.permits (some c) other = pass.marks.permits none other ∧
      pass.marks.permits other (some c) = pass.marks.permits other none := by
  cases pass with
  | emphasisStar | emphasisUnderscore =>
    exact permits_of_not_reserved (mt List.mem_singleton.1 h) other
  | _ => exact ⟨rfl, rfl⟩

namespace Pass.Overlooks

variable {pass : Pass} (plain : pass.Overlooks front back)

include plain

theorem startsNowhere (rest : Text) : Delimiters.StartsNowhere pass.marks.opening front rest := by
  refine Delimiters.startsNowhere_of_forall (fun c mem others start => ?_) rest
  obtain ⟨tail, spelled⟩ := List.head?_eq_some_iff.1 pass.head?_opening
  rw [spelled, List.cons_prefix_cons] at start
  exact plain.front (start.1 ▸ mem)

theorem permits_getLast? (right : Option Char) :
    pass.marks.permits (front.getLast?.or none) right = pass.marks.permits none right := by
  cases last : front.getLast? with
  | none => rfl
  | some c =>
    have differs : c ≠ pass.delimiter :=
      ne_of_mem_of_not_mem (List.mem_of_getLast? last) plain.front
    exact (permits_of_ne_delimiter differs right).1

theorem permits_of_mem {c : Char} (mem : c ∈ back) (left : Option Char) :
    pass.marks.permits left (some c) = pass.marks.permits left none := by
  cases pass with
  | emphasisStar | emphasisUnderscore =>
    exact (permits_of_ne_delimiter (List.ne_of_not_mem_cons (plain.back c mem)) left).2
  | _ => rfl

/-- **A pass finds the same spans.** -/
theorem pieces_surrounded (text : Text) :
    pass.marks.pieces (front ++ (text ++ back)) =
      front.map .char ++ (pass.marks.pieces text ++ back.map .char) := by
  rw [Delimiters.pieces, Delimiters.piecesAfter_append (plain.startsNowhere _),
    Delimiters.piecesAfter_congr plain.permits_getLast?,
    Delimiters.piecesAfter_append_of_apart (pass.mark_ne_nil .closing) plain.back
      fun c mem left => plain.permits_of_mem mem left]
  rfl

/-- What a pass makes of the text in the middle is all that it makes. -/
theorem rewrite_surrounded (text : Text) :
    pass.rewrite (front ++ (text ++ back)) = front ++ (pass.rewrite text ++ back) := by
  rw [Pass.rewrite_eq, Pass.rewrite_eq, Delimiters.render, plain.pieces_surrounded,
    flatMap_render_chars, List.flatMap_append, flatMap_render_map_char]
  rfl

end Pass.Overlooks

theorem rewriteAll_surrounded {order : List Pass}
    (plain : ∀ pass ∈ order, pass.Overlooks front back) (text : Text) :
    rewriteAll order (front ++ (text ++ back)) = front ++ (rewriteAll order text ++ back) := by
  induction order generalizing text with
  | nil => rfl
  | cons pass order ih =>
    obtain ⟨first, others⟩ := List.forall_mem_cons.1 plain
    show rewriteAll order (pass.rewrite (front ++ (text ++ back))) = _
    rw [first.rewrite_surrounded, ih others]
    rfl

/-! ### Code and citations -/

/-- **Code lies where it lay,** behind the text in front. -/
theorem codeSpans_surrounded (plain : Pass.code.Overlooks front back) (text : Text) :
    codeSpans (front ++ (text ++ back)) = (codeSpans text).map (Span.shift front.length) := by
  have found : codeMarks.pieces (front ++ (text ++ back)) = _ := plain.pieces_surrounded text
  rw [codeSpans, found, codeSpansFrom_append, codeSpansFrom_append, codeSpansFrom_map_char,
    codeSpansFrom_map_char, List.nil_append, List.append_nil, flatMap_render_map_char,
    Nat.zero_add]
  exact codeSpansFrom_shift front.length 0 _

theorem renderCitations_surrounded (plain : Pass.citation.Overlooks front back)
    (code : List Span) (text : Text) :
    renderCitations (code.map (Span.shift front.length)) (front ++ (text ++ back)) =
      front ++ (renderCitations code text ++ back) := by
  have found : citationMarks.pieces (front ++ (text ++ back)) = _ := plain.pieces_surrounded text
  have length : (front.map Piece.char).flatMap (Piece.source citationMarks) = front := by
    rw [List.flatMap_map]
    exact List.flatMap_singleton' front
  rw [renderCitations, found, renderCitationsFrom_append, renderCitationsFrom_append,
    renderCitationsFrom_map_char, renderCitationsFrom_map_char, length, Nat.zero_add]
  exact congrArg (fun inner => front ++ (inner ++ back))
    (renderCitationsFrom_shift code front.length 0 _)

/-- Without delimiters in front and closing marks behind, no pass sees a mark there. -/
theorem Pass.overlooks (pass : Pass) (hfront : ∀ c ∈ front, c ∉ "*_`[".toList)
    (hback : ∀ c ∈ back, c ∉ "*_`]".toList) : pass.Overlooks front back := by
  have delimiter : pass.delimiter ∈ "*_`[".toList := by
    cases pass <;> decide
  have closing : pass.marks.closing ⊆ "*_`]".toList := by
    cases pass <;> decide
  exact ⟨fun mem => hfront _ mem delimiter, fun c mem mark => hback c mem (closing mark)⟩

/-- **Plain surroundings stay as they are,** and what they surround is formatted as if it stood
alone. -/
theorem format_surrounded (text : Text) (hfront : ∀ c ∈ front, c ∉ "*_`[".toList)
    (hback : ∀ c ∈ back, c ∉ "*_`]".toList) :
    format (front ++ text ++ back) = front ++ format text ++ back := by
  have plain (pass : Pass) : pass.Overlooks front back := pass.overlooks hfront hback
  have emphasised : renderAllEmphasis (front ++ (text ++ back)) =
      front ++ (renderAllEmphasis text ++ back) := by
    have passes : ∀ pass ∈ emphasisPasses, pass.Overlooks front back := fun pass _ => plain pass
    exact rewriteAll_surrounded passes text
  have coded (text : Text) :
      renderCode (front ++ (text ++ back)) = front ++ (renderCode text ++ back) :=
    (plain .code).rewrite_surrounded text
  calc format (front ++ text ++ back)
    _ = renderCitations (codeSpans (renderAllEmphasis (front ++ (text ++ back))))
          (renderCode (renderAllEmphasis (front ++ (text ++ back)))) := by
      rw [List.append_assoc]
      rfl
    _ = renderCitations ((codeSpans (renderAllEmphasis text)).map (Span.shift front.length))
          (front ++ (renderCode (renderAllEmphasis text) ++ back)) := by
      rw [emphasised, codeSpans_surrounded (plain .code), coded]
    _ = front ++ (format text ++ back) := renderCitations_surrounded (plain .citation) _ _
    _ = front ++ format text ++ back := (List.append_assoc _ _ _).symm

/-- Marks without a partner at both ends of the text, and an opening mark that goes on behind it. -/
theorem format_surrounded_unbalanced :
    let front := "é] ref:".toList
    let text := "**a* `[ref:b`] _c_ *[re".toList
    let back := "f:d [ref:e é".toList
    (∀ c ∈ front, c ∉ "*_`[".toList) ∧ (∀ c ∈ back, c ∉ "*_`]".toList) ∧
      format (front ++ text ++ back) = front ++ format text ++ back :=
  ⟨by simp, by simp, format_surrounded _ (by simp) (by simp)⟩

end Inline
end Manuscript
