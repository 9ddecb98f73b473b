import Manuscript.FileSystem
import Manuscript.Text.Utf8

/-!
# Sources

A source is a regular file that holds a document. Whether there is one at all is asked before it is
read, so that a missing source is told apart from every other failure. The sources of a batch are
the files directly inside a directory that have the wanted extension, in the order of their paths.
-/

namespace Manuscript
namespace Source

/-- What an answer to the question for the kind of an entry means for a source at the path. -/
def resolution (path : Path) : Except IoError EntryKind → Except Failure Path
  | .ok .file => .ok path
  | .ok _ => .error (.notRegular path)
  | .error .notFound => .error (.noSuchFile path)
  | .error .permissionDenied => .error (.permissionDenied path)
  | .error cause => .error (.unreadable path cause)

/-- What an answer to the request for the content of a file means for a source at the path. -/
def content (path : Path) : Except IoError ByteArray → Except Failure Text
  | .ok bytes =>
    match Text.decode? bytes with
    | some text => .ok text
    | none => .error (.notUtf8 path)
  | .error .notFound => .error (.noSuchFile path)
  | .error .permissionDenied => .error (.permissionDenied path)
  | .error cause => .error (.unreadable path cause)

/-- What an answer to the request for the names in a directory means for a batch taken from it. -/
def listing (directory : Path) : Except IoError (List Text) → Except Failure (List Text)
  | .ok names => .ok names
  | .error .notFound => .error (.noSuchDirectory directory)
  | .error cause => .error (.unreadable directory cause)

variable {m : Type → Type} [Monad m] (fs : FileSystem m)

/-- The path, once it is known to lead to a regular file. -/
def resolve (path : Path) : ExceptT Failure m Path :=
  ExceptT.mk (resolution path <$> fs.kind path)

/-- The text of the source at the path. -/
def read (path : Path) : ExceptT Failure m Text :=
  ExceptT.mk (content path <$> fs.read path)

/-- Those of the paths that lead to regular files. -/
def filesAmong : List Path → m (List Path)
  | [] => return []
  | path :: rest => do
    let kind ← fs.kind path
    let files ← filesAmong rest
    match kind with
    | .ok .file => return path :: files
    | _ => return files

/-- The paths of the entries of a directory that have the given extension. -/
def withExtension (directory : Path) (extension : Text) (names : List Text) : List Path :=
  (names.map directory.join).filter fun path => path.extension? = some extension

/-- The sources directly inside a directory. -/
def discover (directory : Path) (extension : Text) : ExceptT Failure m (List Path) := do
  let names ← ExceptT.mk (listing directory <$> fs.list directory)
  let files ← ExceptT.lift (filesAmong fs (withExtension directory extension names))
  return files.mergeSort Path.le

end Source
end Manuscript
