import Manuscript.FileSystem
import Manuscript.FileTree.Locate

/-!
# Reading a file tree

Three of the four requests leave the tree as it is: what a path leads to, what a file holds, and
which names a directory lists. `kindAt`, `readAt` and `listAt` are the answers that can be read off
the tree; `kind`, `read` and `list` are those that are given, unless they are refused.
-/

namespace Manuscript
namespace FileTree

/-- What the path leads to, all links followed. -/
def kindAt (tree : FileTree) (path : Path) : Except IoError EntryKind := do
  match tree.get? (← tree.locate path) with
  | none => .error .notFound
  | some .directory => .ok .directory
  | some (.file _) => .ok .file
  | some _ => .ok .other

/-- What the file holds that the path leads to. -/
def readAt (tree : FileTree) (path : Path) : Except IoError ByteArray := do
  match tree.get? (← tree.locate path) with
  | none => .error .notFound
  | some .directory => .error .isADirectory
  | some (.file content) => .ok content
  | some _ => .ok ByteArray.empty

/-- The names in the directory that the path leads to. -/
def listAt (tree : FileTree) (path : Path) : Except IoError (List Text) := do
  let location ← tree.locate path
  match tree.get? location with
  | none => .error .notFound
  | some .directory => .ok ((tree.namesIn location).map Name.text)
  | some _ => .error .notADirectory

/-- What is told about what the path leads to. -/
def kind (tree : FileTree) (path : Path) : Except IoError EntryKind :=
  grant (tree.refusals.kind path) (tree.kindAt path)

/-- What is told about what the file holds. -/
def read (tree : FileTree) (path : Path) : Except IoError ByteArray :=
  grant (tree.refusals.read path) (tree.readAt path)

/-- What is told about the names in the directory. -/
def list (tree : FileTree) (path : Path) : Except IoError (List Text) :=
  grant (tree.refusals.list path) (tree.listAt path)

end FileTree
end Manuscript
