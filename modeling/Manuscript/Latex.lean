import Manuscript.Text.Basic

/-!
# The LaTeX vocabulary

The spelling of every command that a converted document can contain beside its own text: sectioning
commands, environments, the item token, and the four commands that wrap a piece of a line. What a
line *is* gets decided elsewhere; only the spelling lives here.
-/

namespace Manuscript
namespace Latex

/-- A command applied to one argument: a backslash, the name, and the argument in braces. -/
def command (name argument : Text) : Text := '\\' :: name ++ '{' :: argument ++ ['}']

/-! ### Headings -/

/-- The sectioning command of a heading level. Levels run from 1 to 6; a level outside that range
takes the nearest one inside it. -/
def sectioningCommand : Nat → Text
  | 0 | 1 => "chapter".toList
  | 2 => "section".toList
  | 3 => "subsection".toList
  | 4 => "subsubsection".toList
  | 5 => "paragraph".toList
  | _ => "subparagraph".toList

/-- A heading of the given level. -/
def heading (level : Nat) (title : Text) : Text := command (sectioningCommand level) title

/-! ### Environments -/

/-- The environments that a converted document opens and closes on lines of their own. -/
inductive Environment
  /-- The items of a numbered list. -/
  | enumerate
  /-- The items of a bulleted list. -/
  | itemize
  /-- The lines of a literal block. -/
  | verbatim
deriving DecidableEq, Repr

namespace Environment

/-- The name that stands between the braces of the two marker lines. -/
def name : Environment → Text
  | enumerate => "enumerate".toList
  | itemize => "itemize".toList
  | verbatim => "verbatim".toList

/-- The marker line that opens the environment. -/
def opening (environment : Environment) : Text := command "begin".toList environment.name

/-- The marker line that closes the environment. -/
def closing (environment : Environment) : Text := command "end".toList environment.name

end Environment

/-! ### Items and spans -/

/-- The token between the indent of an item and its content. -/
def itemToken : Text := "\\item ".toList

/-- An item of a list. -/
def item (indent content : Text) : Text := indent ++ itemToken ++ content

/-- Strongly emphasised text. -/
def strong (text : Text) : Text := command "textbf".toList text

/-- Emphasised text. -/
def emphasis (text : Text) : Text := command "textit".toList text

/-- Text in the typewriter face. -/
def typewriter (text : Text) : Text := command "texttt".toList text

/-- A reference to a bibliography entry. -/
def citation (key : Text) : Text := command "cite".toList key

end Latex
end Manuscript
