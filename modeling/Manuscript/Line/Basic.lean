import Manuscript.Text.CharClass

/-!
# Lines

What can be said of a line without looking at its neighbours: whether it is blank, whether it is a
fence, and which text follows a mark that opens it. The classes of lines that carry content,
headings and list items, have modules of their own.
-/

namespace Manuscript
namespace Line

/-- A line of blanks only. -/
def isBlank (line : Text) : Bool := line.trim.isEmpty

/-- A fence opens or closes a literal block: three backticks in front, whatever the indent and
whatever follows. -/
def isFence (line : Text) : Bool := "```".toList.isPrefixOf line.trim

/-- The text that follows a mark: set off from it by at least one blank, not empty, and without a
line feed. As many blanks as can be count as separation, but text of blanks alone keeps the last
one. -/
def textAfterBlanks (rest : Text) : Option Text :=
  let blanks := min (rest.takeWhile Text.isBlank).length (rest.length - 1)
  let text := rest.drop blanks
  if blanks = 0 || text.contains '\n' then none else some text

end Line
end Manuscript
