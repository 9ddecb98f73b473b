import Manuscript.Inline.Format
import Manuscript.Line.Basic

/-!
# Headings

A heading is a line that starts with one to six number signs, followed by blanks and a title. The
number of signs is its level.
-/

namespace Manuscript
namespace Line

/-- A line recognised as a heading. -/
structure Heading where
  /-- From 1, a chapter, to 6, a subparagraph. -/
  level : Nat
  /-- The sectioning command around the formatted title. -/
  latex : Text
deriving DecidableEq, Repr

/-- The heading that a line is, if it is one. Blanks around the title are not part of it. -/
def heading? (line : Text) : Option Heading :=
  let level := (line.takeWhile (· == '#')).length
  if 1 ≤ level && level ≤ 6 then
    (textAfterBlanks (line.drop level)).map fun title =>
      ⟨level, Latex.heading level (Inline.format title.trim)⟩
  else none

example : heading? "## A *b* ".toList =
    some ⟨2, Latex.heading 2 ("A ".toList ++ Latex.emphasis "b".toList)⟩ := by
  decide +kernel

example : heading? "####### A".toList = none := by decide +kernel

-- The last of several blanks is a title, an empty one.
example : heading? "# ".toList = none ∧ heading? "#  ".toList = some ⟨1, Latex.heading 1 []⟩ := by
  decide +kernel

end Line
end Manuscript
