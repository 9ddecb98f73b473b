import Manuscript.Inline.Citation

/-!
# Where code lies

The code pass reports the places of its typewriter commands as positions in the text that it has
written, and the citation pass reads its text by these positions. Both walk over pieces and carry
the position along, so what they say of some pieces is what they say of the first ones and then,
from the position reached, of the others (`Inline.codeSpansFrom_append`,
`Inline.renderCitationsFrom_append`).

* `Inline.mem_codeSpansFrom_iff`: each place holds a typewriter command, and all have one.
* `Inline.pairwise_codeSpansFrom`: the places come in order and do not overlap.
* `Inline.renderCitationsFrom_shift`: if the text moves, and code with it, the same citations are
  rendered.
-/

namespace Manuscript
namespace Inline

variable {span : Span} {start : Nat} {pieces : List Piece}

/-! ### Piece by piece -/

theorem codeSpansFrom_append (start : Nat) (left right : List Piece) :
    codeSpansFrom start (left ++ right) = codeSpansFrom start left ++
      codeSpansFrom (start + (left.flatMap (Piece.render Latex.typewriter)).length) right := by
  induction left generalizing start with
  | nil => rfl
  | cons piece left ih =>
    cases piece with
    | char c =>
      rw [List.cons_append, codeSpansFrom, codeSpansFrom, ih, List.flatMap_cons, List.length_append,
        Nat.add_assoc]
      rfl
    | span body =>
      rw [List.cons_append, codeSpansFrom, codeSpansFrom, ih, List.flatMap_cons, List.length_append,
        Nat.add_assoc]
      rfl

@[simp] theorem codeSpansFrom_map_char (start : Nat) (chars : Text) :
    codeSpansFrom start (chars.map .char) = [] := by
  induction chars generalizing start with
  | nil => rfl
  | cons c chars ih => exact ih (start + 1)

theorem renderCitationsFrom_append (code : List Span) (start : Nat) (left right : List Piece) :
    renderCitationsFrom code start (left ++ right) = renderCitationsFrom code start left ++
      renderCitationsFrom code (start + (left.flatMap (Piece.source citationMarks)).length)
        right := by
  induction left generalizing start with
  | nil => rfl
  | cons piece left ih =>
    cases piece with
    | char c =>
      rw [List.cons_append, renderCitationsFrom, renderCitationsFrom, ih, List.flatMap_cons,
        List.length_append, Nat.add_assoc]
      rfl
    | span key =>
      rw [List.cons_append, renderCitationsFrom, renderCitationsFrom, ih, List.flatMap_cons,
        List.length_append, Nat.add_assoc, List.append_assoc]
      rfl

@[simp] theorem renderCitationsFrom_map_char (code : List Span) (start : Nat) (chars : Text) :
    renderCitationsFrom code start (chars.map .char) = chars := by
  induction chars generalizing start with
  | nil => rfl
  | cons c chars ih => exact congrArg (c :: ·) (ih (start + 1))

/-! ### Each place, and all of them -/

/-- **The places are those of the commands.** -/
theorem mem_codeSpansFrom_iff : span ∈ codeSpansFrom start pieces ↔
    ∃ left body right, pieces = left ++ .span body :: right ∧
      span.start = start + (left.flatMap (Piece.render Latex.typewriter)).length ∧
      span.stop = span.start + (Latex.typewriter body).length := by
  constructor
  · intro mem
    induction pieces generalizing start with
    | nil => cases mem
    | cons piece rest ih =>
      cases piece with
      | char c =>
        obtain ⟨left, body, right, rfl, first, last⟩ := ih mem
        refine ⟨.char c :: left, body, right, rfl, ?_, last⟩
        rw [first, List.flatMap_cons, List.length_append, ← Nat.add_assoc]
        rfl
      | span body =>
        rcases List.mem_cons.1 mem with rfl | mem
        · exact ⟨[], body, rest, rfl, rfl, rfl⟩
        · obtain ⟨left, inner, right, rfl, first, last⟩ := ih mem
          refine ⟨.span body :: left, inner, right, rfl, ?_, last⟩
          rw [first, List.flatMap_cons, List.length_append, ← Nat.add_assoc]
          rfl
  · rintro ⟨left, body, right, rfl, first, last⟩
    rw [codeSpansFrom_append, codeSpansFrom]
    refine List.mem_append_right _ (List.mem_cons.2 (.inl ?_))
    cases span
    rw [Span.mk.injEq]
    exact ⟨first, last.trans (congrArg (· + _) first)⟩

theorem start_le_of_mem_codeSpansFrom (h : span ∈ codeSpansFrom start pieces) :
    start ≤ span.start := by
  obtain ⟨left, body, right, -, first, -⟩ := mem_codeSpansFrom_iff.1 h
  rw [first]
  exact Nat.le_add_right _ _

/-- **The places are in order and apart.** -/
theorem pairwise_codeSpansFrom (start : Nat) (pieces : List Piece) :
    (codeSpansFrom start pieces).Pairwise fun left right => left.stop ≤ right.start := by
  induction pieces generalizing start with
  | nil => exact .nil
  | cons piece rest ih =>
    cases piece with
    | char c => exact ih (start + 1)
    | span body => exact .cons (fun _ mem => start_le_of_mem_codeSpansFrom mem) (ih _)

/-! ### Places that move -/

/-- The place of a span behind so many more characters. -/
def Span.shift (count : Nat) (span : Span) : Span := ⟨count + span.start, count + span.stop⟩

theorem Span.contains_shift (count : Nat) (outer inner : Span) :
    (outer.shift count).contains (inner.shift count) = outer.contains inner := by
  simp [Span.contains, Span.shift]

theorem codeSpansFrom_shift (count start : Nat) (pieces : List Piece) :
    codeSpansFrom (count + start) pieces = (codeSpansFrom start pieces).map (Span.shift count) := by
  induction pieces generalizing start with
  | nil => rfl
  | cons piece rest ih =>
    cases piece with
    | char c => exact ih (start + 1)
    | span body =>
      rw [codeSpansFrom, codeSpansFrom, List.map_cons, ← ih, Nat.add_assoc]
      rfl

/-- **A citation is inside code iff it was,** if code has moved as the text has. -/
theorem renderCitationsFrom_shift (code : List Span) (count start : Nat) (pieces : List Piece) :
    renderCitationsFrom (code.map (Span.shift count)) (count + start) pieces =
      renderCitationsFrom code start pieces := by
  induction pieces generalizing start with
  | nil => rfl
  | cons piece rest ih =>
    cases piece with
    | char c => exact congrArg (c :: ·) (ih (start + 1))
    | span key =>
      have inside (stop : Nat) :
          (code.map (Span.shift count)).any (·.contains ⟨count + start, count + stop⟩) =
            code.any (·.contains ⟨start, stop⟩) := by
        rw [List.any_map]
        exact congrArg code.any (funext fun outer => outer.contains_shift count ⟨start, stop⟩)
      rw [renderCitationsFrom, renderCitationsFrom, Nat.add_assoc, inside, ih]

end Inline
end Manuscript
