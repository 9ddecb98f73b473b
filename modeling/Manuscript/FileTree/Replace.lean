import Manuscript.FileTree.Access

/-!
# Replacing a file

A file is replaced as a whole or not at all. The directory that is to hold it is made if it is
missing; a temporary file is created beside the destination and filled with the new content; and
that file is then moved onto the destination, whatever file, link or device was there. If it cannot
be filled or moved it is removed again.

Each of these steps may be refused. Whether a directory is there already is read off the tree; one
that is there and out of reach shows when the temporary file is created.

Temporary files are named, told about and removed by a library (`TemporaryFiles`).
-/

namespace Manuscript

/-! ### Temporary files -/

/-- What a library does about temporary files. -/
structure TemporaryFiles where
  /-- The name of the file that is created for a path, in a directory with the given names. -/
  name : Path → List Name → Name
  /-- The reason why that file could not be created or filled, in the words of the library. -/
  words : Path → IoError → IoError
  /-- What the file holds when filling it with the content failed. -/
  part : Path → ByteArray → ByteArray
  /-- The tree once the file at a location was removed. -/
  drop : FileTree → Location → FileTree

/-- A name that is none of those taken: longer than any of them. -/
def TemporaryFiles.freshName (taken : List Name) : Name where
  text := ".tmp".toList ++ List.replicate (taken.flatMap Name.text).length 'x'
  isName := by simp [IsName, List.mem_replicate]

theorem TemporaryFiles.freshName_notMem (taken : List Name) :
    TemporaryFiles.freshName taken ∉ taken := by
  intro member
  -- The fresh name would be no longer than all names together, and it is longer by four characters.
  have among := List.mem_map_of_mem (f := Name.text) member
  have within := (List.sublist_flatten_of_mem among).length_le
  simp only [TemporaryFiles.freshName, List.length_append, List.length_replicate,
    List.flatMap] at within
  exact absurd within (by simp)

/-- Temporary files of the given name, as long as it is free. A reason is followed by the path of
the file. -/
def TemporaryFiles.called (name : Name) : TemporaryFiles where
  name _ taken := if name ∈ taken then freshName taken else name
  words path cause :=
    .other (cause.message ++ " at path ".toList ++
      Text.quoted (path.directory.join name.text).text)
  part _ _ := ByteArray.empty
  drop tree location := tree.erase location

/-- Temporary files of a plain name. -/
def TemporaryFiles.plain : TemporaryFiles := .called ⟨".tmp".toList, by decide⟩

namespace FileTree

/-! ### Directories -/

/-- The tree with a new directory. -/
def makeDirectory (tree : FileTree) (path : Path) : Except IoError FileTree := do
  let location ← tree.locateLast path .alreadyExists
  if (tree.get? location).isSome then .error .alreadyExists
  else grant (tree.refusals.make path) (.ok (tree.insert location .directory))

/-- Whether the path leads to a directory. -/
def leadsToDirectory (tree : FileTree) (path : Path) : Bool :=
  match tree.kindAt path with
  | .ok .directory => true
  | _ => false

/-- A directory as wanted: made by the request, or there already. -/
def acceptDirectory (tree : FileTree) (path : Path) :
    Except IoError FileTree → Except IoError Unit × FileTree
  | .ok made => (.ok (), made)
  | .error cause => if tree.leadsToDirectory path then (.ok (), tree) else (.error cause, tree)

/-- Makes a directory together with those above it that are missing. Its path comes first, the paths
of those above it follow. What was made stays when a later request is refused. -/
def makeDirectories (tree : FileTree) : List Path → Except IoError Unit × FileTree
  | [] => (.ok (), tree)
  | path :: above =>
    match tree.makeDirectory path with
    | .error .notFound =>
      match tree.makeDirectories above with
      | (.ok (), tree) => tree.acceptDirectory path (tree.makeDirectory path)
      | refused => refused
    | answer => tree.acceptDirectory path answer

/-! ### The temporary file -/

/-- A temporary file for the path, created empty in its directory, and the tree with it. -/
def createTemporary (tree : FileTree) (files : TemporaryFiles) (path : Path) :
    Except IoError (Location × FileTree) :=
  let created : Except IoError (Location × FileTree) := do
    let location ← tree.locate path.directory
    if tree.isDirectoryAt location then
      let temporary := location ++ [files.name path (tree.namesIn location)]
      grant (tree.refusals.create path)
        (.ok (temporary, tree.insert temporary (.file ByteArray.empty)))
    else .error .notADirectory
  created.mapError (files.words path)

/-- Fills the temporary file for the path. -/
def fillTemporary (tree : FileTree) (files : TemporaryFiles) (path : Path) (temporary : Location)
    (content : ByteArray) : Except IoError Unit × FileTree :=
  match tree.refusals.fill path with
  | none => (.ok (), tree.insert temporary (.file content))
  | some cause =>
    (.error (files.words path cause), tree.insert temporary (.file (files.part path content)))

/-- Where a file is moved to that is moved onto the path: to the entry that its last name denotes. A
directory is not replaced. -/
def landing (tree : FileTree) (path : Path) : Except IoError Location := do
  if path.text.contains '\x00' then throw .invalidArgument
  let destination ← tree.locateLast path .busy
  if path.endsWithSlash then throw .notADirectory
  if tree.isDirectoryAt destination then throw .isADirectory
  return destination

/-- The tree after the file at a location was moved onto the path. -/
def moveFile (tree : FileTree) (source : Location) (path : Path) : Except IoError FileTree := do
  let destination ← tree.landing path
  match tree.get? source with
  | none => throw .notFound
  | some entry =>
    grant (tree.refusals.move path) (.ok ((tree.erase source).insert destination entry))

/-! ### The whole request -/

/-- Lets the file at the path hold the given bytes. -/
def replaceAt (tree : FileTree) (files : TemporaryFiles) (path : Path) (content : ByteArray) :
    Except IoError Unit × FileTree :=
  match tree.makeDirectories path.directory.ancestors with
  | (.error cause, tree) => (.error cause, tree)
  | (.ok (), tree) =>
    match tree.createTemporary files path with
    | .error cause => (.error cause, tree)
    | .ok (temporary, tree) =>
      match tree.fillTemporary files path temporary content with
      | (.error cause, tree) => (.error cause, files.drop tree temporary)
      | (.ok (), tree) =>
        match tree.moveFile temporary path with
        | .error cause => (.error cause, files.drop tree temporary)
        | .ok moved => (.ok (), moved)

/-! ### A file tree as a file system -/

/-- A file tree answers the requests that are put to a file system, with the help of a library for
temporary files. -/
def fileSystemWith (files : TemporaryFiles) : FileSystem (StateM FileTree) where
  kind path := fun tree => (tree.kind path, tree)
  read path := fun tree => (tree.read path, tree)
  list path := fun tree => (tree.list path, tree)
  replace path content := fun tree => tree.replaceAt files path content

/-- The file system of a tree, with a library that calls temporary files by a plain name. -/
def fileSystem : FileSystem (StateM FileTree) := fileSystemWith .plain

end FileTree
end Manuscript
