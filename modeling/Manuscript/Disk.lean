import Manuscript.FileSystem

/-!
# The disk

The file system of the machine, as far as the library asks for it. A file is replaced by writing a
new one beside it and moving that onto it, so that nobody ever sees half of it.
-/

namespace Manuscript

namespace IoError

/-- The number of an error as the operating system counts, whatever its sign was. -/
def numberOf (code : UInt32) : Nat := if code < 0x80000000 then code.toNat else (-code).toNat

/-- The reason that the operating system gives. -/
def ofError : IO.Error → IoError
  | .alreadyExists _ code details | .noFileOrDirectory _ code details
  | .permissionDenied _ code details | .invalidArgument _ code details
  | .inappropriateType _ code details | .resourceExhausted _ code details
  | .noSuchThing _ code details | .interrupted _ code details
  | .resourceBusy code details | .resourceVanished code details
  | .unsupportedOperation code details | .hardwareFault code details
  | .unsatisfiedConstraints code details | .illegalOperation code details
  | .protocolError code details | .timeExpired code details
  | .otherError code details => ofNumber details.toList (numberOf code)
  | error => other error.toString.toList

end IoError

namespace Disk

/-- What an action gives, or the reason why it failed. -/
def attempt {α : Type} (action : IO α) : IO (Except IoError α) := do
  match ← action.toBaseIO with
  | .ok value => return .ok value
  | .error error => return .error (.ofError error)

/-- The kind of an entry. -/
def kindOf : IO.FS.FileType → EntryKind
  | .file => .file
  | .dir => .directory
  | _ => .other

/-- What a path leads to. -/
def kind (path : Path) : IO EntryKind := do
  let metadata ← (System.mkFilePath [String.ofList path.text]).metadata
  return kindOf metadata.type

/-- The names in a directory. -/
def list (path : Path) : IO (List Text) := do
  let entries ← (System.mkFilePath [String.ofList path.text]).readDir
  return entries.toList.map (·.fileName.toList)

/-- Makes a directory, unless it is there. -/
def makeDirectory (path : Path) : IO Unit := do
  try IO.FS.createDir (String.ofList path.text)
  catch error =>
    match ← attempt (kind path) with
    | .ok .directory => return
    | _ => throw error

/-- Makes a directory together with those above it that are missing. Its path comes first, the paths
of those above it follow. -/
def makeDirectories : List Path → IO Unit
  | [] => return
  | path :: above => do
    try makeDirectory path
    catch error =>
      if IoError.ofError error = .notFound then
        makeDirectories above
        makeDirectory path
      else throw error

/-- Lets the file at a path hold the given bytes. -/
def replace (path : Path) (content : ByteArray) : IO Unit := do
  makeDirectories path.directory.ancestors
  let now ← IO.monoNanosNow
  let temporary := String.ofList (path.directory.join (".tmp".toList ++ Text.decimal now)).text
  let handle ← IO.FS.Handle.mk temporary .writeNew
  try
    handle.write content
    handle.flush
    IO.FS.rename temporary (String.ofList path.text)
  catch error =>
    IO.FS.removeFile temporary
    throw error

/-- The disk answers the requests that are put to a file system. -/
def fileSystem : FileSystem IO where
  kind path := attempt (kind path)
  read path := attempt (IO.FS.readBinFile (String.ofList path.text))
  list path := attempt (list path)
  replace path content := attempt (replace path content)

end Disk
end Manuscript
