import Manuscript.Path.Basic
import Manuscript.Text.Quoted

/-!
# Failures

Converting a text never fails; reading a source and writing a result can. A `Failure` ends one
operation and is told to whoever asked for it. A `DocumentError` is what remains of it in the report
of a batch, which goes on with the other documents.

Two failures mean only that there was nothing to convert (`Failure.nothingToConvert`).
-/

namespace Manuscript

/-- Why the file system refused a request. -/
inductive IoError
  | notFound
  | permissionDenied
  | busy
  | alreadyExists
  | notADirectory
  | isADirectory
  | invalidArgument
  | noSpace
  | nameTooLong
  | tooManyLinks
  /-- The null character cannot occur in a name. -/
  | nullInName
  /-- Any other reason, in its own words. -/
  | other (reason : Text)
deriving DecidableEq, Repr

namespace IoError

/-- An error in words, with its number behind them. -/
def numbered (wording : Text) (number : Nat) : Text :=
  wording ++ " (os error ".toList ++ Text.decimal number ++ [')']

/-- The reason in words. -/
def message : IoError → Text
  | notFound => numbered "No such file or directory".toList 2
  | permissionDenied => numbered "Permission denied".toList 13
  | busy => numbered "Device or resource busy".toList 16
  | alreadyExists => numbered "File exists".toList 17
  | notADirectory => numbered "Not a directory".toList 20
  | isADirectory => numbered "Is a directory".toList 21
  | invalidArgument => numbered "Invalid argument".toList 22
  | noSpace => numbered "No space left on device".toList 28
  | nameTooLong => numbered "File name too long".toList 36
  | tooManyLinks => numbered "Too many levels of symbolic links".toList 40
  | nullInName => "file name contained an unexpected NUL byte".toList
  | other reason => reason

/-- The error with the given number. One that has no name here keeps the wording it comes with. -/
def ofNumber (wording : Text) : Nat → IoError
  | 2 => notFound
  | 13 => permissionDenied
  | 16 => busy
  | 17 => alreadyExists
  | 20 => notADirectory
  | 21 => isADirectory
  | 22 => invalidArgument
  | 28 => noSpace
  | 36 => nameTooLong
  | 40 => tooManyLinks
  | number => other (numbered wording number)

end IoError

/-- Why an operation could not be carried out. -/
inductive Failure
  | noSuchFile (path : Path)
  | noSuchDirectory (path : Path)
  /-- The path leads to a directory or to something else that is not a regular file. -/
  | notRegular (path : Path)
  | permissionDenied (path : Path)
  /-- The file is not UTF-8. -/
  | notUtf8 (path : Path)
  | unreadable (path : Path) (cause : IoError)
  | unwritable (path : Path) (cause : IoError)
  | invalidConfig (reason : Text)
  | internal (reason : Text)
deriving DecidableEq, Repr

namespace Failure

/-- What is told about a failure. -/
def message : Failure → Text
  | noSuchFile path => "File ".toList ++ path.text ++ " does not exist".toList
  | noSuchDirectory path => "Directory ".toList ++ path.text ++ " does not exist".toList
  | notRegular path => "'".toList ++ path.text ++ "' is not a regular file".toList
  | permissionDenied path =>
    "Permission denied reading '".toList ++ path.text ++ "'\nTry: chmod +r ".toList ++
      Text.quoted path.text
  | notUtf8 path => "'".toList ++ path.text ++ "' is not valid UTF-8 text".toList
  | unreadable path cause =>
    "Failed to read '".toList ++ path.text ++ "': ".toList ++ cause.message
  | unwritable path cause =>
    "Failed to write output file '".toList ++ path.text ++ "': ".toList ++ cause.message
  | invalidConfig reason => "Invalid configuration: ".toList ++ reason
  | internal reason => "Internal error: ".toList ++ reason

/-- The refusal of the file system behind a failure, if there is one. -/
def cause? : Failure → Option IoError
  | unreadable _ cause | unwritable _ cause => some cause
  | _ => none

/-- Whether there was nothing to convert. -/
def nothingToConvert : Failure → Bool
  | noSuchFile _ | noSuchDirectory _ => true
  | _ => false

end Failure

/-- Why one document of a batch could not be converted. What is taken for a path is left open, since
an error that is written and read again may be about any path of the system. -/
inductive DocumentError (α : Type := Path)
  /-- The document was discovered and then gone. -/
  | gone (path : α)
  /-- The document could not be read as text. -/
  | unreadable (path : α) (detail : Text)
  /-- The result could not be written to the path. -/
  | unwritable (path : α) (detail : Text)
deriving DecidableEq, Repr

namespace DocumentError

/-- The error of the document at `source` that failed to be converted. -/
def ofFailure (source : Path) : Failure → DocumentError
  | .noSuchFile _ => gone source
  | .unwritable path cause => unwritable path cause.message
  | failure => unreadable source failure.message

/-- What is told about an error. -/
def message : DocumentError → Text
  | gone path => "File ".toList ++ path.text ++ " does not exist".toList
  | unreadable path detail => path.text ++ ": read failed: ".toList ++ detail
  | unwritable path detail => path.text ++ ": write failed: ".toList ++ detail

/-- The path that an error is about. -/
def path {α : Type} : DocumentError α → α
  | gone path | unreadable path _ | unwritable path _ => path

end DocumentError
end Manuscript
