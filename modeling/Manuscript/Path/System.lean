import Manuscript.Path.Basic
import Manuscript.Text.Utf8

/-!
# Paths of the system

To the system a path is bytes, and nobody says that they encode a text. The library takes the paths
that do (`Path`); where others may come in, they are left as they are (`SystemPath`).

* `SystemPath.path?_eq_some_iff`: a path of the system is at most one text.
-/

namespace Manuscript

/-- A path as the bytes that the system keeps. -/
structure SystemPath where
  bytes : ByteArray

/-- The path as the system keeps it. -/
def Path.toSystem (path : Path) : SystemPath := ⟨path.text.encode⟩

namespace SystemPath

/-- Some text has the bytes of the path for its UTF-8 encoding. -/
def IsText (path : SystemPath) : Prop := ∃ text : Path, text.toSystem = path

/-- The path as text, if it is one. -/
def path? (path : SystemPath) : Option Path := (Text.decode? path.bytes).map Path.mk

theorem path?_eq_some_iff {system : SystemPath} {path : Path} :
    system.path? = some path ↔ path.toSystem = system := by
  obtain ⟨bytes⟩ := system
  obtain ⟨text⟩ := path
  simp [path?, Path.toSystem, Text.decode?_eq_some_iff]

end SystemPath
end Manuscript
