import Manuscript.Configuration
import Manuscript.FileSystem
import Manuscript.Text.Utf8

/-!
# Destinations

The result of a source goes to the output directory, under the source's name with the extension
replaced. Which directory the source is in does not matter. The result is written as a whole or not
at all.
-/

namespace Manuscript
namespace Destination

/-- The stem of a result whose source has no name. -/
def defaultStem : Text := "output".toList

/-- Where the result of a source goes. -/
def ofSource (config : Configuration) (source : Path) : Path :=
  config.outputDirectory.join ((source.stem?.getD defaultStem) ++ '.' :: config.targetExtension)

/-- What an answer to the request to replace a file means for the result that goes there. -/
def outcome (destination : Path) : Except IoError Unit → Except Failure Unit
  | .ok () => .ok ()
  | .error cause => .error (.unwritable destination cause)

variable {m : Type → Type} [Monad m] (fs : FileSystem m)

/-- Writes a result. -/
def write (destination : Path) (result : Text) : ExceptT Failure m Unit :=
  ExceptT.mk (outcome destination <$> fs.replace destination result.encode)

end Destination
end Manuscript
