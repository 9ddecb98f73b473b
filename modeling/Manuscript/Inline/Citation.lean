import Manuscript.Inline.CodeSpan

/-!
# Citations

A citation names a bibliography entry between brackets, `[ref:key]`. It is rendered wherever it
stands, also around or across a typewriter command; only one that lies inside such a command is
code.
-/

namespace Manuscript
namespace Inline

/-- A citation: a key without closing brackets between its two marks. -/
def citationMarks : Delimiters where
  opening := "[ref:".toList
  closing := [']']
  allows c := c != ']'

/-- The rendering of some pieces, the first of which starts at position `start` of the text they
were cut from, with those citations rendered that lie in none of the `code` spans of that text. -/
def renderCitationsFrom (code : List Span) (start : Nat) : List Piece → Text
  | [] => []
  | .char c :: rest => c :: renderCitationsFrom code (start + 1) rest
  | .span key :: rest =>
    let stop := start + (citationMarks.enclose key).length
    let rendered :=
      if code.any (·.contains ⟨start, stop⟩) then citationMarks.enclose key else Latex.citation key
    rendered ++ renderCitationsFrom code stop rest

/-- The text with those citations rendered that lie in none of the `code` spans. -/
def renderCitations (code : List Span) (text : Text) : Text :=
  renderCitationsFrom code 0 (citationMarks.pieces text)

end Inline
end Manuscript
