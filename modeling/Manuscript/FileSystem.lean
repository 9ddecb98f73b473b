import Manuscript.Failure

/-!
# What is asked of a file system

The library reaches files through four requests and no others. They may be answered by the disk or
by a `FileTree`, in whatever monad the answers come; the code that asks is the same.
-/

namespace Manuscript

/-- What a path leads to once symbolic links are followed. -/
inductive EntryKind
  | file
  | directory
  | other
deriving DecidableEq, Repr

/-- The requests that a file system answers. -/
structure FileSystem (m : Type → Type) where
  /-- What does the path lead to? -/
  kind : Path → m (Except IoError EntryKind)
  /-- What does the file hold? -/
  read : Path → m (Except IoError ByteArray)
  /-- Which names does the directory list, in any order? -/
  list : Path → m (Except IoError (List Text))
  /-- Let the file at the path hold the given bytes, as a whole or not at all; make the directories
  that lead to it. -/
  replace : Path → ByteArray → m (Except IoError Unit)

end Manuscript
