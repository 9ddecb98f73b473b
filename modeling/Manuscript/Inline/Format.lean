import Manuscript.Inline.Citation
import Manuscript.Inline.Emphasis

/-!
# Inline formatting

The markup inside one line is rendered in a fixed order of passes, each of which sees the text that
the one before it left: strong emphasis, emphasis, code spans, citations. Marks without a partner
stay as they are, so every text has a formatted form.
-/

namespace Manuscript
namespace Inline

/-- The text with all emphasis rendered: strong before plain, and asterisks before underscores. -/
def renderAllEmphasis (text : Text) : Text :=
  renderEmphasis '_' (renderEmphasis '*' (renderStrong '_' (renderStrong '*' text)))

/-- The text with all inline markup rendered. -/
def format (text : Text) : Text :=
  let emphasised := renderAllEmphasis text
  renderCitations (codeSpans emphasised) (renderCode emphasised)

-- Strong emphasis takes its marks before plain emphasis looks for its own.
example : format "**a** and *b*".toList =
    Latex.strong "a".toList ++ " and ".toList ++ Latex.emphasis "b".toList := by
  decide +kernel

-- A strong mark without a partner neither opens nor closes plain emphasis.
example : format "**a* b".toList = "**a* b".toList := by decide +kernel

-- Only a citation inside a code span is code.
example : format "`[ref:a]` [ref:`b`]".toList =
    Latex.typewriter "[ref:a]".toList ++ ' ' :: Latex.citation (Latex.typewriter "b".toList) := by
  decide +kernel

end Inline
end Manuscript
