import Manuscript.Document.Conversion
import Manuscript.Failure

/-!
# Configuration

Where sources are found, where results go, how many documents are converted at once, and what the
conversion itself leaves open. A configuration is made from settings, later ones replacing earlier
ones; only the outcome is checked (`Configuration.ofChanges`), so a value that is replaced again
does no harm.

Who is told about the progress of a batch is a setting like any other, and of any type (`Callback`).
A batch calls it through `notify` (`Batch.tell`), so that all it takes from its configuration is
whether there is one; where the type is not named, that is all there is to it.
-/

namespace Manuscript

/-- A configuration before it is checked. -/
structure Settings (Callback : Type := Unit) where
  /-- The directory that results are written to. -/
  outputDirectory : Path := .ofString "tex"
  /-- The directory that a batch is taken from when none is given. -/
  contentDirectory : Path := .ofString "content"
  /-- The extension of sources, without its period. -/
  sourceExtension : Text := "md".toList
  /-- The extension of results, without its period. -/
  targetExtension : Text := "tex".toList
  /-- How many documents of a batch are in flight at most. -/
  concurrency : Nat := 4
  /-- Whether a literal block that a document leaves open is closed at its end. -/
  closeUnterminated : Bool := false
  /-- Who is told about the progress of a batch. -/
  callback : Option Callback := none
deriving DecidableEq, Repr

/-- One change to the settings. -/
inductive Setting (Callback : Type := Unit)
  | outputDirectory (path : Path)
  | contentDirectory (path : Path)
  /-- A period at the start of the extension is dropped. -/
  | sourceExtension (extension : Text)
  /-- A period at the start of the extension is dropped. -/
  | targetExtension (extension : Text)
  /-- At least one document is in flight. -/
  | concurrency (count : Nat)
  | closeUnterminated (value : Bool)
  | callback (callback : Callback)
deriving DecidableEq, Repr

/-- Somebody is told about the progress of a batch. -/
def Setting.reportsProgress : Setting := .callback ()

variable {Callback : Type}

/-- Whether somebody is told about the progress of a batch. -/
def Settings.reportsProgress (settings : Settings Callback) : Bool := settings.callback.isSome

/-- An extension without the period that it may start with. -/
def dropPeriod : Text → Text
  | '.' :: rest => rest
  | extension => extension

/-- The settings after one change. -/
def Settings.apply (settings : Settings Callback) : Setting Callback → Settings Callback
  | .outputDirectory path => { settings with outputDirectory := path }
  | .contentDirectory path => { settings with contentDirectory := path }
  | .sourceExtension extension => { settings with sourceExtension := dropPeriod extension }
  | .targetExtension extension => { settings with targetExtension := dropPeriod extension }
  | .concurrency count => { settings with concurrency := max count 1 }
  | .closeUnterminated value => { settings with closeUnterminated := value }
  | .callback callback => { settings with callback := some callback }

/-- The default settings after some changes, in order. -/
def Settings.ofChanges (changes : List (Setting Callback)) : Settings Callback :=
  changes.foldl Settings.apply {}

/-- An extension that can be put after a period at the end of a name. -/
def IsBareExtension (extension : Text) : Prop :=
  extension ≠ [] ∧ '/' ∉ extension ∧ '\\' ∉ extension ∧ '.' ∉ extension

instance (extension : Text) : Decidable (IsBareExtension extension) :=
  inferInstanceAs (Decidable (_ ∧ _))

/-- A configuration. -/
structure Configuration (Callback : Type := Unit) extends Settings Callback where
  sourceExtension_bare : IsBareExtension sourceExtension
  targetExtension_bare : IsBareExtension targetExtension
  concurrency_pos : 0 < concurrency
deriving DecidableEq, Repr

/-- Which of the two extensions. -/
inductive ExtensionRole
  | source
  | target
deriving DecidableEq, Repr

/-- Why settings make no configuration. -/
inductive ConfigurationError
  | emptyExtension (role : ExtensionRole)
  | notBareExtension (role : ExtensionRole) (extension : Text)
  | noConcurrency
deriving DecidableEq, Repr

namespace ConfigurationError

/-- The extension in words. -/
def roleName : ExtensionRole → Text
  | .source => "source".toList
  | .target => "target".toList

/-- What is told about an error. -/
def message : ConfigurationError → Text
  | emptyExtension role => roleName role ++ " extension must not be empty".toList
  | notBareExtension role extension =>
    roleName role ++ " extension must be a bare extension like 'md', got '".toList ++ extension ++
      "'".toList
  | noConcurrency => "Concurrency must be ≥ 1".toList

/-- The failure that the error is told as. -/
def toFailure (error : ConfigurationError) : Failure := .invalidConfig error.message

/-- What is wrong with an extension that is not bare. -/
def ofExtension (role : ExtensionRole) (extension : Text) : ConfigurationError :=
  if extension = [] then emptyExtension role else notBareExtension role extension

end ConfigurationError

namespace Configuration

/-- The configuration with the given settings. The source extension is checked first, then the
target extension, then the concurrency. -/
def ofSettings (settings : Settings Callback) :
    Except ConfigurationError (Configuration Callback) :=
  if source : IsBareExtension settings.sourceExtension then
    if target : IsBareExtension settings.targetExtension then
      if concurrency : 0 < settings.concurrency then
        .ok ⟨settings, source, target, concurrency⟩
      else .error .noConcurrency
    else .error (.ofExtension .target settings.targetExtension)
  else .error (.ofExtension .source settings.sourceExtension)

/-- The configuration that some changes to the default settings make. -/
def ofChanges (changes : List (Setting Callback)) :
    Except ConfigurationError (Configuration Callback) :=
  ofSettings (Settings.ofChanges changes)

/-- The choices that concern the conversion itself. -/
def options (config : Configuration Callback) : Options where
  closeUnterminated := config.closeUnterminated

/-- The configuration spelled out, field by field. -/
def describe (config : Configuration Callback) : Text :=
  let truth (value : Bool) : Text := if value then "true".toList else "false".toList
  "ConversionConfig \x7b output_dir: ".toList ++ config.outputDirectory.text.quoted ++
    ", content_dir: ".toList ++ config.contentDirectory.text.quoted ++
    ", source_extension: ".toList ++ config.sourceExtension.quoted ++
    ", target_extension: ".toList ++ config.targetExtension.quoted ++
    ", concurrency: ".toList ++ Text.decimal config.concurrency ++
    ", close_unterminated_literal: ".toList ++ truth config.closeUnterminated ++
    ", progress_callback: ".toList ++
    (if config.reportsProgress then "Some(\"<dyn ConversionProgressCallback>\")".toList
      else "None".toList) ++ " \x7d".toList

end Configuration
end Manuscript
