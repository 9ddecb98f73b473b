import Manuscript.Path.Name

/-!
# Paths

A path is text, kept as it was given. What it means lies between its slashes: names to go into,
single periods to stay, double periods to go up. Of the directions to stay only one at the very
start of a relative path counts as a component. Paths are ordered by their components, not by their
text. The text is Unicode: paths of other bytes than UTF-8 are left out here.

* `Path.stem?` and `Path.extension?` are those of the last component, if that is a name.
* `Path.join` adds a name to a directory, `Path.parent?` takes the last component away.
-/

namespace Manuscript

/-- A path, as the text it was given as. -/
structure Path where
  text : Text
deriving DecidableEq, Repr, Inhabited

namespace Path

/-- The path spelled by a string. -/
def ofString (s : String) : Path := ⟨s.toList⟩

/-- Whether the path starts at the root. -/
def isAbsolute (path : Path) : Bool := path.text.head? = some '/'

/-- Whether the path ends with a slash, and so asks for a directory. -/
def endsWithSlash (path : Path) : Bool := path.text.getLast? = some '/'

/-! ### Directions -/

/-- The texts between the slashes of a path. An absolute path starts with an empty one, which stands
for the root. -/
def pieces (path : Path) : List Text := path.text.splitOn '/'

/-- Where a path leads on to. -/
inductive Direction
  | stay
  /-- To the directory above. -/
  | up
  /-- To the entry with the given name. -/
  | into (name : Name)
deriving DecidableEq, Repr

/-- The direction given by the text between two slashes; an empty text gives none. -/
def Direction.ofText? (text : Text) : Option Direction :=
  if text = ['.'] then some stay
  else if text = ['.', '.'] then some up
  else if valid : IsName text then some (into ⟨text, valid⟩)
  else none

/-- The directions that a path gives, first to last. -/
def directions (path : Path) : List Direction :=
  path.pieces.filterMap Direction.ofText?

/-! ### Components -/

/-- What a path consists of. -/
inductive Component
  /-- The root directory. -/
  | root
  /-- The directory where a relative path starts. -/
  | current
  /-- The directory above. -/
  | parent
  /-- The entry with the given name. -/
  | normal (name : Name)
deriving DecidableEq, Repr

/-- The component that a direction counts as. -/
def Component.ofDirection? : Direction → Option Component
  | .stay => none
  | .up => some parent
  | .into name => some (normal name)

/-- The components of a path, first to last. -/
def components (path : Path) : List Component :=
  let rest := path.directions.filterMap Component.ofDirection?
  if path.isAbsolute then .root :: rest
  else if path.directions.head? = some .stay then .current :: rest
  else rest

/-- The name of the entry that the path leads to: its last component, if that is a name. -/
def fileName? (path : Path) : Option Name :=
  match path.components.getLast? with
  | some (.normal name) => some name
  | _ => none

/-- The stem of the path's last name. -/
def stem? (path : Path) : Option Text := path.fileName?.map Name.stem

/-- The extension of the path's last name. -/
def extension? (path : Path) : Option Text := path.fileName?.bind Name.extension?

/-- The path of the entry with the given name in a directory. A slash goes between the two unless
the directory's text is empty or ends with one. -/
def join (directory : Path) (name : Text) : Path :=
  if directory.text = [] || directory.endsWithSlash then ⟨directory.text ++ name⟩
  else ⟨directory.text ++ '/' :: name⟩

/-! ### The directory above

The path of the directory above is the text in front of the last component, whatever is said twice
or to no purpose in it: a path that is too long is not made shorter on the way up.
-/

/-- Whether the text between two slashes leads nowhere. -/
def isIdle (piece : Text) : Bool := piece = [] || piece = ['.']

/-- The pieces of a path without the idle ones at its end. The first is kept, since it says where
the path starts. -/
def trimIdle : List Text → List Text
  | [] => []
  | first :: rest => first :: (rest.reverse.dropWhile isIdle).reverse

/-- The path that has the given pieces. -/
def ofPieces : List Text → Path
  | [[]] => ⟨['/']⟩
  | pieces => ⟨Text.joinWith '/' pieces⟩

/-- The path without its last component; `none` if there is no component or only the root. -/
def parent? (path : Path) : Option Path :=
  match trimIdle path.pieces with
  | [] | [[]] => none
  | [_] => some ⟨[]⟩
  | pieces => some (ofPieces (trimIdle pieces.dropLast))

/-- The directory that holds the entry a path denotes: the starting directory, if no other is
named. -/
def directory (path : Path) : Path :=
  match path.parent? with
  | some parent => if parent.text = [] then ofString "." else parent
  | none => ofString "."

/-- A path and the paths of the directories that lead to it, the outermost last. -/
def ancestors (path : Path) : List Path := path :: above (trimIdle path.pieces).dropLast.reverse
where
  /-- The paths that end with the first, the second, and each further piece of a reversed list, the
  idle ones passed over. -/
  above : List Text → List Path
    | [] => []
    | [first] => [ofPieces [first]]
    | last :: rest =>
      if isIdle last then above rest else ofPieces (last :: rest).reverse :: above rest

example : (ofString "a//./b/.").parent? = some (ofString "a") := by decide +kernel

example : (ofString "./a//b/c").ancestors.map (String.ofList ·.text) =
    ["./a//b/c", "./a//b", "./a", "."] := by
  decide +kernel

example : (ofString "a/b.tar.gz/.").stem? = some "b.tar".toList := by decide +kernel

example : (ofString ".hidden").stem? = some ".hidden".toList ∧ (ofString "a/..").stem? = none := by
  decide +kernel

/-! ### Order -/

/-- A component as a list of numbers that orders like it: the root, the starting directory, the
directory above, and then names by their characters. -/
def Component.sortKey : Component → List Nat
  | root => [0]
  | current => [1]
  | parent => [2]
  | normal name => 3 :: name.text.map Char.toNat

/-- The components of a path as a key by which paths are sorted. -/
def sortKey (path : Path) : List (List Nat) := path.components.map Component.sortKey

/-- Whether one path comes before another, or has the same components: the other is not before
it. -/
def le (first second : Path) : Bool := decide (¬ second.sortKey < first.sortKey)

end Path
end Manuscript
