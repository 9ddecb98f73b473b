import Manuscript.Failure
import Manuscript.FileTree.Basic
import Manuscript.Text.Utf8

/-!
# Following paths

A path is followed direction by direction from the root or from the working directory. Every
direction but the last has to lead to a directory; a symbolic link stands for the path it holds,
taken from the directory it is in. A limited number of links is followed, so a link that leads back
to itself is an error and not a loop.

The entry that a path ends with need not exist: `FileTree.locate` says where it stands or would
stand.
-/

namespace Manuscript

/-- The directions in which a path is followed. A slash at its end asks for a directory, as a
direction to stay there does. -/
def Path.route (path : Path) : List Path.Direction :=
  if path.endsWithSlash && path.directions ≠ [] then path.directions ++ [.stay] else path.directions

namespace FileTree

/-- How many symbolic links are followed along one path. -/
def linkLimit : Nat := 40

/-- How many bytes a name has at most. -/
def nameLimit : Nat := 255

/-- How many bytes a path has at most. -/
def pathLimit : Nat := 4095

/-- Where the following of directions comes to a halt. -/
inductive Halt
  /-- All directions are followed, and this is where they lead. -/
  | arrived (location : Location)
  /-- The link at the given location has to be followed before the remaining directions. -/
  | link (place : Location) (target : Path) (rest : List Path.Direction)

/-- Follows directions from a location up to the first link that has to be followed. The link that
the last name may lead to is followed on request. -/
def walk (tree : FileTree) (follow : Bool) (location : Location) :
    List Path.Direction → Except IoError Halt
  | [] => .ok (.arrived location)
  | direction :: rest =>
    if !tree.isDirectoryAt location then .error .notADirectory
    else match direction with
      | .stay => tree.walk follow location rest
      | .up => tree.walk follow location.dropLast rest
      | .into name =>
        if nameLimit < name.text.byteLength then .error .nameTooLong
        else match tree.get? (location ++ [name]) with
          | none => if rest = [] then .ok (.arrived (location ++ [name])) else .error .notFound
          | some (.link target) =>
            if rest = [] && !follow then .ok (.arrived (location ++ [name]))
            else .ok (.link (location ++ [name]) target rest)
          | some _ => tree.walk follow (location ++ [name]) rest

/-- Where a link leads on from, given its location. -/
def baseOf (target : Path) (place : Location) : Location :=
  if target.isAbsolute then [] else place.dropLast

/-- Follows directions from a location, with at most so many links. -/
def walkLinks (tree : FileTree) (follow : Bool) (links : Nat) (location : Location)
    (directions : List Path.Direction) : Except IoError Location :=
  match tree.walk follow location directions with
  | .error cause => .error cause
  | .ok (.arrived location) => .ok location
  | .ok (.link place target rest) =>
    match links with
    | 0 => .error .tooManyLinks
    | links + 1 => tree.walkLinks follow links (baseOf target place) (target.route ++ rest)

/-- Refuses the paths that cannot be followed at all. -/
def checkPath (path : Path) : Except IoError Unit :=
  if path.text.contains '\x00' then .error .nullInName
  else if path.text = [] then .error .notFound
  else if pathLimit < Text.byteLength path.text then .error .nameTooLong
  else .ok ()

/-- Where a path starts. -/
def startOf (tree : FileTree) (path : Path) : Location :=
  if path.isAbsolute then [] else tree.workingDirectory

/-- Where the entry stands that a path leads to, all links followed, or where it would stand. -/
def locate (tree : FileTree) (path : Path) : Except IoError Location := do
  checkPath path
  tree.walkLinks true linkLimit (tree.startOf path) path.route

/-- Where the entry stands that the last name of a path denotes, be it a link, or where it would
stand. A path that does not end with a name is refused as said. -/
def locateLast (tree : FileTree) (path : Path) (refusal : IoError) : Except IoError Location := do
  checkPath path
  let location ← tree.walkLinks false linkLimit (tree.startOf path) path.directions
  match path.directions.getLast? with
  | some (.into _) => return location
  | _ => throw refusal

end FileTree
end Manuscript
