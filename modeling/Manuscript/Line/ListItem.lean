import Manuscript.Inline.Format
import Manuscript.Line.Basic

/-!
# List items

An item of a list is a line with an indent of blanks, a marker, more blanks, and content. The marker
tells the two kinds of list apart: digits and a period, or one of three bullets. A line with a
marker and no content is not an item, but does not end a list either.
-/

namespace Manuscript

/-- The two kinds of list. -/
inductive ListKind
  /-- Numbered items. -/
  | ordered
  /-- Bulleted items. -/
  | unordered
deriving DecidableEq, Repr

namespace ListKind

/-- The environment that holds the items of such a list. -/
def environment : ListKind → Latex.Environment
  | ordered => .enumerate
  | unordered => .itemize

/-- What follows the marker of such an item at the start of a text, if the text starts with one:
digits and a period for a numbered item; a hyphen, an asterisk or a plus sign for a bulleted one. -/
def afterMarker : ListKind → Text → Option Text
  | ordered, text =>
    if (text.takeWhile Text.isDigit).isEmpty then none
    else match text.dropWhile Text.isDigit with
      | '.' :: rest => some rest
      | _ => none
  | unordered, bullet :: rest => if "-*+".toList.contains bullet then some rest else none
  | unordered, [] => none

/-- Both kinds, in the order in which a line is tried as an item of one. -/
def all : List ListKind := [ordered, unordered]

end ListKind

namespace Line

/-- A line recognised as a list item. -/
structure ListItem where
  kind : ListKind
  /-- The indent, the item token and the formatted content. -/
  latex : Text
deriving DecidableEq, Repr

/-- The item of the given kind that a line is, if it is one. The indent is kept as it is. -/
def listItemOf? (kind : ListKind) (line : Text) : Option ListItem :=
  ((kind.afterMarker line.trimStart).bind textAfterBlanks).map fun content =>
    ⟨kind, Latex.item (line.takeWhile Text.isBlank) (Inline.format content)⟩

/-- The item that a line is, if it is one: of the first of the given kinds that fits. -/
def listItemAmong? (kinds : List ListKind) (line : Text) : Option ListItem :=
  kinds.findSome? (listItemOf? · line)

/-- The item that a line is, if it is one. -/
def listItem? (line : Text) : Option ListItem := listItemAmong? ListKind.all line

/-- Whether a line starts like a list item: an indent, a marker and a blank, with or without
content. -/
def startsLikeItem (line : Text) : Bool :=
  ListKind.all.any fun kind =>
    match kind.afterMarker line.trimStart with
    | some (c :: _) => Text.isBlank c
    | _ => false

example : listItem? "  2. _b_".toList =
    some ⟨.ordered, Latex.item "  ".toList (Latex.emphasis "b".toList)⟩ := by
  decide +kernel

-- A marker without content is no item, but still a marker.
example : listItem? "- ".toList = none ∧ startsLikeItem "- ".toList := by decide +kernel

end Line
end Manuscript
