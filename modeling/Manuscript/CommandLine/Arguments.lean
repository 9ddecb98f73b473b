import Manuscript.Path.Basic

/-!
# Command-line arguments

The command line takes one source, or the flag `--all`; flags; and parameters with a value. A flag
and a parameter have a long name and may have a letter. Letters may share a hyphen, and the value of
a parameter may be attached to either. After a lone double hyphen everything is a source.

Arguments are read from left to right, and the first that is wrong, or asks for help or for the
version, ends the reading. What the arguments leave open is taken from the environment, and then
from defaults.
-/

namespace Manuscript
namespace CommandLine

/-! ### What there is -/

/-- The options without a value. -/
inductive Flag
  /-- Convert every source in the content directory. -/
  | all
  /-- Print the result instead of writing it. -/
  | stdout
  /-- Print the report as JSON. -/
  | json
  /-- Close a literal block that a document leaves open. -/
  | closeUnterminated
  /-- Show no progress. -/
  | noProgress
  /-- Log in detail. -/
  | verbose
  /-- Print errors only. -/
  | quiet
deriving DecidableEq, Repr

namespace Flag

/-- All flags. -/
def list : List Flag := [all, stdout, json, closeUnterminated, noProgress, verbose, quiet]

/-- The name after a double hyphen. -/
def longName : Flag → Text
  | all => "all".toList
  | stdout => "stdout".toList
  | json => "json".toList
  | closeUnterminated => "close-unterminated".toList
  | noProgress => "no-progress".toList
  | verbose => "verbose".toList
  | quiet => "quiet".toList

/-- The letter after a hyphen. -/
def letter? : Flag → Option Char
  | verbose => some 'v'
  | quiet => some 'q'
  | _ => none

/-- The environment variable that may set the flag. -/
def variableName? : Flag → Option Text
  | all | stdout => none
  | json => some "MD2TEX_JSON".toList
  | closeUnterminated => some "MD2TEX_CLOSE_UNTERMINATED".toList
  | noProgress => some "MD2TEX_NO_PROGRESS".toList
  | verbose => some "MD2TEX_VERBOSE".toList
  | quiet => some "MD2TEX_QUIET".toList

end Flag

/-- The options with a value. -/
inductive Parameter
  /-- The directory that results are written to. -/
  | outputDirectory
  /-- The directory that a batch is taken from. -/
  | contentDirectory
  /-- How many documents are in flight at most. -/
  | concurrency
deriving DecidableEq, Repr

/-- The number of documents in flight that a value stands for: a positive number below 2 ^ 32 in
decimal digits, perhaps with a plus sign. -/
def concurrency? (value : Text) : Option Nat :=
  let digits := match value with
    | '+' :: rest => rest
    | _ => value
  if digits.isEmpty || !digits.all Char.isDigit then none
  else
    let count := Nat.ofDigitChars 10 digits 0
    if 1 ≤ count && count < UInt32.size then some count else none

namespace Parameter

/-- All parameters. -/
def list : List Parameter := [outputDirectory, contentDirectory, concurrency]

/-- The name after a double hyphen. -/
def longName : Parameter → Text
  | outputDirectory => "output-dir".toList
  | contentDirectory => "content-dir".toList
  | concurrency => "concurrency".toList

/-- The letter after a hyphen. -/
def letter? : Parameter → Option Char
  | outputDirectory => some 'o'
  | contentDirectory => none
  | concurrency => some 'c'

/-- The environment variable that may give the value. -/
def variableName : Parameter → Text
  | outputDirectory => "MD2TEX_OUTPUT_DIR".toList
  | contentDirectory => "MD2TEX_CONTENT_DIR".toList
  | concurrency => "MD2TEX_CONCURRENCY".toList

/-- The value when none is given. -/
def default : Parameter → Text
  | outputDirectory => "tex".toList
  | contentDirectory => "content".toList
  | concurrency => "4".toList

/-- Whether a text is a value of the parameter: any path but the empty one, or a number of
documents. -/
def accepts : Parameter → Text → Bool
  | outputDirectory, value | contentDirectory, value => !value.isEmpty
  | concurrency, value => (concurrency? value).isSome

end Parameter

/-! ### What is given -/

/-- Why the command line cannot be understood. -/
inductive UsageError
  | unknownArgument (argument : Text)
  | repeatedArgument (name : Text)
  | missingValue (name : Text)
  | unneededValue (name : Text)
  | invalidValue (name value : Text)
  | secondInput (argument : Text)
  | emptyInput
  /-- Two arguments that exclude each other. -/
  | conflict (first second : Text)
  | noInput
deriving DecidableEq, Repr

/-- Why nothing is converted. -/
inductive Stop
  | help
  | version
  | usage (error : UsageError)
deriving DecidableEq, Repr

/-- What the arguments give. -/
structure Given where
  flags : List Flag := []
  values : List (Parameter × Text) := []
  input : Option Path := none
deriving DecidableEq, Repr

namespace Given

/-- One more flag; none may be given twice. -/
def addFlag (given : Given) (flag : Flag) : Except Stop Given :=
  if flag ∈ given.flags then .error (.usage (.repeatedArgument flag.longName))
  else .ok { given with flags := flag :: given.flags }

/-- The value of one more parameter; none may be given twice. -/
def addValue (given : Given) (parameter : Parameter) (value : Text) : Except Stop Given :=
  if (given.values.lookup parameter).isSome then
    .error (.usage (.repeatedArgument parameter.longName))
  else if !parameter.accepts value then
    .error (.usage (.invalidValue parameter.longName value))
  else .ok { given with values := (parameter, value) :: given.values }

/-- The source; there is only one, and its path is not empty. -/
def addInput (given : Given) (argument : Text) : Except Stop Given :=
  if given.input.isSome then .error (.usage (.secondInput argument))
  else if argument.isEmpty then .error (.usage .emptyInput)
  else .ok { given with input := some ⟨argument⟩ }

/-- The letters after a hyphen. The last one may be that of a parameter whose value is the next
argument; that parameter comes with the answer. -/
def addLetters (given : Given) : Text → Except Stop (Given × Option Parameter)
  | [] => .ok (given, none)
  | letter :: rest =>
    if letter = 'h' then .error .help
    else if letter = 'V' then .error .version
    else match Flag.list.find? (·.letter? = some letter) with
      | some flag => do (← given.addFlag flag).addLetters rest
      | none =>
        match Parameter.list.find? (·.letter? = some letter), rest with
        | some parameter, [] => .ok (given, some parameter)
        | some parameter, '=' :: value => do return (← given.addValue parameter value, none)
        | some parameter, value => do return (← given.addValue parameter value, none)
        | none, _ => .error (.usage (.unknownArgument ['-', letter]))

/-- The name after a double hyphen, with the value that an equals sign attached to it. A parameter
whose value is the next argument comes with the answer. -/
def addName (given : Given) (name : Text) (value? : Option Text) :
    Except Stop (Given × Option Parameter) :=
  match Parameter.list.find? (·.longName = name), value? with
  | some parameter, some value => do return (← given.addValue parameter value, none)
  | some parameter, none => .ok (given, some parameter)
  | none, value? =>
    let known := name = "help".toList || name = "version".toList ||
      Flag.list.any (·.longName = name)
    if !known then .error (.usage (.unknownArgument ('-' :: '-' :: name)))
    else if value?.isSome then .error (.usage (.unneededValue name))
    else match Flag.list.find? (·.longName = name) with
      | some flag => do return (← given.addFlag flag, none)
      | none => if name = "help".toList then .error .help else .error .version

/-- An argument other than a lone double hyphen. -/
def addArgument (given : Given) : Text → Except Stop (Given × Option Parameter)
  | '-' :: '-' :: long =>
    given.addName (long.takeWhile (· ≠ '=')) (long.dropWhile (· ≠ '=')).tail?
  | '-' :: letter :: letters => given.addLetters (letter :: letters)
  | input => do return (← given.addInput input, none)

/-- Whether an argument can be a value: it does not start with a hyphen, unless it is nothing else.
-/
def isValue : Text → Bool
  | '-' :: _ :: _ => false
  | _ => true

/-- All arguments, one after the other. -/
def addAll (given : Given) : List Text → Except Stop Given
  | [] => .ok given
  | argument :: rest =>
    if argument = "--".toList then rest.foldlM addInput given
    else do
      match ← given.addArgument argument, rest with
      | (given, none), rest => given.addAll rest
      | (given, some parameter), value :: rest =>
        if isValue value then (← given.addValue parameter value).addAll rest
        else .error (.usage (.missingValue parameter.longName))
      | (_, some parameter), [] => .error (.usage (.missingValue parameter.longName))

end Given

/-! ### What is meant -/

/-- The values of the environment variables that are set. -/
abbrev Environment := Text → Option Text

/-- Whether a flag is set: by the arguments, or else by the environment. -/
def flagSet (given : Given) (environment : Environment) (flag : Flag) : Except Stop Bool :=
  if flag ∈ given.flags then .ok true
  else match flag.variableName?.bind environment with
    | none => .ok false
    | some value =>
      if value = "true".toList then .ok true
      else if value = "false".toList then .ok false
      else .error (.usage (.invalidValue flag.longName value))

/-- The value of a parameter: from the arguments, or else from the environment, or else the default.
-/
def valueOf (given : Given) (environment : Environment) (parameter : Parameter) :
    Except Stop Text :=
  match given.values.lookup parameter with
  | some value => .ok value
  | none =>
    match environment parameter.variableName with
    | none => .ok parameter.default
    | some value =>
      if parameter.accepts value then .ok value
      else .error (.usage (.invalidValue parameter.longName value))

/-- What is to be converted. -/
inductive Target
  /-- Every source in the content directory. -/
  | all
  /-- One source; its result may go to the standard output. -/
  | file (input : Path) (toStdout : Bool)
deriving DecidableEq, Repr

/-- A command line that was understood. -/
structure Invocation where
  target : Target
  outputDirectory : Path
  contentDirectory : Path
  concurrency : Nat
  json : Bool := false
  closeUnterminated : Bool := false
  noProgress : Bool := false
  verbose : Bool := false
  quiet : Bool := false
deriving DecidableEq, Repr

/-- What the source and the flags that choose it amount to. -/
def Target.ofGiven (given : Given) : Except Stop Target :=
  let all := .all ∈ given.flags
  let stdout := .stdout ∈ given.flags
  match given.input with
  | some input =>
    if all then .error (.usage (.conflict input.text Flag.all.longName))
    else .ok (.file input stdout)
  | none =>
    if !all then .error (.usage .noInput)
    else if stdout then .error (.usage (.conflict Flag.stdout.longName Flag.all.longName))
    else .ok .all

/-- What the arguments mean in an environment. -/
def Invocation.parse (environment : Environment) (arguments : List Text) :
    Except Stop Invocation := do
  let given ← Given.addAll {} arguments
  let outputDirectory ← valueOf given environment .outputDirectory
  let contentDirectory ← valueOf given environment .contentDirectory
  let concurrency ← valueOf given environment .concurrency
  return {
    target := ← Target.ofGiven given
    outputDirectory := ⟨outputDirectory⟩
    contentDirectory := ⟨contentDirectory⟩
    concurrency := (concurrency? concurrency).getD 1
    json := ← flagSet given environment .json
    closeUnterminated := ← flagSet given environment .closeUnterminated
    noProgress := ← flagSet given environment .noProgress
    verbose := ← flagSet given environment .verbose
    quiet := ← flagSet given environment .quiet }

end CommandLine
end Manuscript
