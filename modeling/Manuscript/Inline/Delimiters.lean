import Manuscript.Text.Basic

/-!
# Delimited spans

All inline markup has one form: an opening mark, a body, a closing mark. `Delimiters` says what the
two marks are, which characters a body may hold, and which neighbours a span may have.
`Delimiters.pieces` cuts a text, from left to right, into the spans it contains and the characters
between them.

* **Leftmost.** A span starts at the first place where one can start.
* **Shortest.** Its body is the shortest non-empty run of allowed characters that the closing mark
  follows. A body may begin with a character of the closing mark, since it is never empty.
* **Vetted.** The characters before and after a span may rule it out. Its first character is then
  ordinary text, and the search goes on one character further.

Main statement: `Delimiters.flatMap_source_pieces`, the pieces spell the text they were cut from.
-/

namespace Manuscript

/-- A form of inline markup. -/
structure Delimiters where
  /-- The mark in front of the body. -/
  opening : Text
  /-- The mark after the body. -/
  closing : Text
  /-- The characters that a body may hold. -/
  allows : Char → Bool
  /-- Whether a span may stand between these two characters; `none` is an end of the text. -/
  permits : Option Char → Option Char → Bool := fun _ _ => true

/-- What a text consists of, with regard to one form of inline markup. -/
inductive Piece
  /-- A character outside every span. -/
  | char (c : Char)
  /-- A span, given by its body. -/
  | span (body : Text)
deriving DecidableEq, Repr

namespace Delimiters

/-- The shortest non-empty run of allowed characters at the start of a text that the closing mark
follows. -/
def bodyBeforeClosing (marks : Delimiters) : Text → Option Text
  | [] => none
  | c :: rest =>
    if marks.allows c then
      if marks.closing.isPrefixOf rest then some [c]
      else (marks.bodyBeforeClosing rest).map (c :: ·)
    else none

/-- The body of the span that starts where the text starts, if one does. -/
def bodyAtStart (marks : Delimiters) (text : Text) : Option Text :=
  if marks.opening.isPrefixOf text then marks.bodyBeforeClosing (text.drop marks.opening.length)
  else none

/-- A span in full: its body between the two marks. -/
def enclose (marks : Delimiters) (body : Text) : Text := marks.opening ++ body ++ marks.closing

/-- The spans of a text and the characters between them, in order. The first argument is the
character in front of the text. -/
def piecesAfter (marks : Delimiters) (before : Option Char) : Text → List Piece
  | [] => []
  | c :: rest =>
    match marks.bodyAtStart (c :: rest) with
    | some body =>
      let after := rest.drop ((marks.enclose body).length - 1)
      if marks.permits before after.head? then
        .span body :: marks.piecesAfter (marks.enclose body).getLast? after
      else .char c :: marks.piecesAfter (some c) rest
    | none => .char c :: marks.piecesAfter (some c) rest
termination_by text => text.length
decreasing_by all_goals simp only [List.length_drop, List.length_cons]; omega

/-- The spans of a text and the characters between them, in order. -/
def pieces (marks : Delimiters) (text : Text) : List Piece := marks.piecesAfter none text

end Delimiters

namespace Piece

/-- The text that a piece was cut from. -/
def source (marks : Delimiters) : Piece → Text
  | char c => [c]
  | span body => marks.enclose body

/-- A piece with its span, if it is one, written by `wrap`. -/
def render (wrap : Text → Text) : Piece → Text
  | char c => [c]
  | span body => wrap body

end Piece

namespace Delimiters

/-- The text with every span written by `wrap` instead of between its marks. -/
def render (marks : Delimiters) (wrap : Text → Text) (text : Text) : Text :=
  (marks.pieces text).flatMap (Piece.render wrap)

/-! ### The pieces spell the text -/

/-- A body found in front of the closing mark is in front of it. -/
theorem append_closing_isPrefix_of_bodyBeforeClosing {marks : Delimiters} {text body : Text}
    (h : marks.bodyBeforeClosing text = some body) : body ++ marks.closing <+: text := by
  induction text generalizing body with
  | nil => simp [bodyBeforeClosing] at h
  | cons c rest ih =>
    rw [bodyBeforeClosing] at h
    split at h
    · split at h
      · next closed =>
        obtain rfl := (Option.some.inj h).symm
        simpa using List.isPrefixOf_iff_prefix.1 closed
      · obtain ⟨tail, found, rfl⟩ := Option.map_eq_some_iff.1 h
        simpa using ih found
    · cases h

/-- A span found at the start of a text, marks included, is what the text starts with. -/
theorem enclose_isPrefix_of_bodyAtStart {marks : Delimiters} {text body : Text}
    (h : marks.bodyAtStart text = some body) : marks.enclose body <+: text := by
  rw [bodyAtStart] at h
  split at h
  · next opened =>
    obtain ⟨rest, rfl⟩ := List.isPrefixOf_iff_prefix.1 opened
    rw [List.drop_left] at h
    simpa [enclose, List.append_assoc] using append_closing_isPrefix_of_bodyBeforeClosing h
  · cases h

theorem ne_nil_of_bodyBeforeClosing {marks : Delimiters} {text body : Text}
    (h : marks.bodyBeforeClosing text = some body) : body ≠ [] := by
  cases text with
  | nil => simp [bodyBeforeClosing] at h
  | cons c rest =>
    rw [bodyBeforeClosing] at h
    split at h
    · split at h
      · simp [← Option.some.inj h]
      · obtain ⟨tail, -, rfl⟩ := Option.map_eq_some_iff.1 h
        simp
    · cases h

/-- The body of a span is never empty. -/
theorem ne_nil_of_bodyAtStart {marks : Delimiters} {text body : Text}
    (h : marks.bodyAtStart text = some body) : body ≠ [] := by
  rw [bodyAtStart] at h
  split at h
  · exact ne_nil_of_bodyBeforeClosing h
  · cases h

/-- A span takes up at least its first character. -/
theorem drop_enclose {marks : Delimiters} {c : Char} (rest : Text) {body : Text}
    (h : marks.bodyAtStart (c :: rest) = some body) :
    (c :: rest).drop (marks.enclose body).length =
      rest.drop ((marks.enclose body).length - 1) := by
  have nonempty : 0 < (marks.enclose body).length := by
    have := List.length_pos_iff.2 (ne_nil_of_bodyAtStart h)
    simp only [enclose, List.length_append]; omega
  obtain ⟨n, hn⟩ := Nat.exists_eq_add_of_lt nonempty
  simp [hn]

theorem flatMap_source_piecesAfter (marks : Delimiters) (before : Option Char) (text : Text) :
    (marks.piecesAfter before text).flatMap (Piece.source marks) = text := by
  fun_induction piecesAfter marks before text with
  | case1 => rfl
  | case2 before c rest body found after permitted ih =>
    obtain ⟨tail, spelled⟩ := enclose_isPrefix_of_bodyAtStart found
    -- What follows the span is what remains of the text behind it.
    have remains : after = tail := by
      calc after = (c :: rest).drop (marks.enclose body).length := (drop_enclose rest found).symm
        _ = (marks.enclose body ++ tail).drop (marks.enclose body).length := by rw [spelled]
        _ = tail := List.drop_left
    rw [List.flatMap_cons, ih, Piece.source, remains, spelled]
  | case3 before c rest body found after refused ih => simp [Piece.source, ih]
  | case4 before c rest found ih => simp [Piece.source, ih]

theorem flatMap_source_pieces (marks : Delimiters) (text : Text) :
    (marks.pieces text).flatMap (Piece.source marks) = text :=
  flatMap_source_piecesAfter marks none text

end Delimiters
end Manuscript
