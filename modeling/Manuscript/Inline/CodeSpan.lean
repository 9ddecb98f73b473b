import Manuscript.Inline.Delimiters
import Manuscript.Latex

/-!
# Code spans

A code span stands between backticks and becomes text in the typewriter face. Beside the rendered
text this pass reports where the typewriter commands lie in it: a citation inside one is code, and
is left alone.
-/

namespace Manuscript
namespace Inline

/-- The characters of a text from position `start` up to, and not including, position `stop`. -/
structure Span where
  start : Nat
  stop : Nat
deriving DecidableEq, Repr

/-- Whether the characters of one span are all characters of the other. -/
def Span.contains (outer inner : Span) : Bool :=
  outer.start ≤ inner.start && inner.stop ≤ outer.stop

/-- A code span: a backtick on either side of a body without a line feed. -/
def codeMarks : Delimiters where
  opening := "`".toList
  closing := "`".toList
  allows c := c != '\n'

/-- Where the typewriter commands lie in the rendering of some pieces, the first of which is
rendered at position `start`. -/
def codeSpansFrom (start : Nat) : List Piece → List Span
  | [] => []
  | .char _ :: rest => codeSpansFrom (start + 1) rest
  | .span body :: rest =>
    let stop := start + (Latex.typewriter body).length
    ⟨start, stop⟩ :: codeSpansFrom stop rest

/-- The text with its code spans rendered. -/
def renderCode (text : Text) : Text := codeMarks.render Latex.typewriter text

/-- Where the typewriter commands lie in the text with its code spans rendered. -/
def codeSpans (text : Text) : List Span := codeSpansFrom 0 (codeMarks.pieces text)

end Inline
end Manuscript
