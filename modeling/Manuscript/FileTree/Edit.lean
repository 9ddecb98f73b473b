import Manuscript.FileTree.Replace

/-!
# Editing a file tree

What others do to a file tree: put files, directories and links into it, remove them,
and look at what is there. Where a directory is refused nothing is put into it.
-/

namespace Manuscript
namespace FileTree

/-- The tree with a file at the path, and the directories that lead to it. A link is written
through; where the path cannot be followed, or leads to a directory or a device, no file is put. -/
def putFile (tree : FileTree) (path : Path) (content : ByteArray) : FileTree :=
  let prepared := (tree.makeDirectories path.directory.ancestors).2
  match prepared.locate path with
  | .ok location =>
    match prepared.get? location with
    | none | some (.file _) => prepared.insert location (.file content)
    | some _ => prepared
  | .error _ => prepared

/-- The tree with a directory at the path, and those that lead to it. -/
def putDirectory (tree : FileTree) (path : Path) : FileTree :=
  (tree.makeDirectories path.ancestors).2

/-- The tree with a symbolic link at the path, and the directories that lead to it. Nothing is put
where something stands. -/
def putLink (tree : FileTree) (path target : Path) : FileTree :=
  let prepared := (tree.makeDirectories path.directory.ancestors).2
  match prepared.locateLast path .alreadyExists with
  | .ok location =>
    if (prepared.get? location).isSome then prepared
    else prepared.insert location (.link target)
  | .error _ => prepared

/-- The tree without the entry that the last name of the path denotes, and without what is below it.
-/
def remove (tree : FileTree) (path : Path) : FileTree :=
  match tree.locateLast path .busy with
  | .ok location => tree.eraseFrom location
  | .error _ => tree

/-- The tree without the entry that the last name of the path denotes, unless it is a
directory. -/
def unlink (tree : FileTree) (path : Path) : FileTree :=
  match tree.locateLast path .busy with
  | .ok location => if tree.isDirectoryAt location then tree else tree.erase location
  | .error _ => tree

/-- What stands below the working directory, each entry under its path from there. A directory comes
before what is in it, and the entries of a directory are in the order of their names. -/
def listing (tree : FileTree) : List (Path × Entry) :=
  let below := tree.entries.filterMap fun (location, entry) =>
    if tree.workingDirectory.isPrefixOf location && location ≠ tree.workingDirectory then
      some ((location.drop tree.workingDirectory.length).map Name.text, entry)
    else none
  (below.mergeSort fun first second => decide (¬ second.1 < first.1)).map fun (names, entry) =>
    (⟨Text.joinWith '/' names⟩, entry)

/-- A working directory with nothing in it, beside the directory of the null device. -/
def workspace : FileTree :=
  let work : Name := ⟨"work".toList, by decide⟩
  let dev : Name := ⟨"dev".toList, by decide⟩
  let null : Name := ⟨"null".toList, by decide⟩
  (empty [work]).insert [work] .directory
    |>.insert [dev] .directory
    |>.insert [dev, null] .device

end FileTree
end Manuscript
