import Manuscript.Inline.Delimiters
import Manuscript.Latex

/-!
# Emphasis

Strong emphasis stands between doubled delimiters, plain emphasis between lone ones; asterisks and
underscores serve alike. Strong emphasis is rendered first, so what plain emphasis finds doubled is
a strong mark without a partner, and no half of it may open or close plain emphasis.
-/

namespace Manuscript
namespace Inline

/-- Strong emphasis: two delimiters on either side of a body without a line feed. -/
def strongMarks (delimiter : Char) : Delimiters where
  opening := [delimiter, delimiter]
  closing := [delimiter, delimiter]
  allows c := c != '\n'

/-- Emphasis: one delimiter on either side of a body without delimiters. Neither of the two may have
another delimiter as its outer neighbour. -/
def emphasisMarks (delimiter : Char) : Delimiters where
  opening := [delimiter]
  closing := [delimiter]
  allows c := c != delimiter
  permits before after := before != some delimiter && after != some delimiter

/-- The text with strong emphasis by the given delimiter rendered. -/
def renderStrong (delimiter : Char) (text : Text) : Text :=
  (strongMarks delimiter).render Latex.strong text

/-- The text with emphasis by the given delimiter rendered. -/
def renderEmphasis (delimiter : Char) (text : Text) : Text :=
  (emphasisMarks delimiter).render Latex.emphasis text

end Inline
end Manuscript
