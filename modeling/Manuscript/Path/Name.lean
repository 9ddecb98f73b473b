import Manuscript.Text.Basic

/-!
# Names

A name is what an entry of a directory can be called. Its last period cuts it into a stem and an
extension, unless that period is its first character: a hidden file has no extension for being
hidden. Names are Unicode text: those of other bytes than UTF-8 are left out here.
-/

namespace Manuscript

/-- Whether a text can name an entry of a directory. The two names that every directory has for
itself and for the one above it are not free. -/
def IsName (text : Text) : Prop :=
  text ≠ [] ∧ '/' ∉ text ∧ text ≠ ['.'] ∧ text ≠ ['.', '.']

instance (text : Text) : Decidable (IsName text) := inferInstanceAs (Decidable (_ ∧ _))

/-- The name of an entry. -/
structure Name where
  text : Text
  isName : IsName text
deriving DecidableEq, Repr

namespace Name

/-- The name cut at its last period, unless that is its first character or there is none. -/
def cut (name : Name) : Text × Option Text :=
  let extension := (name.text.reverse.takeWhile (· ≠ '.')).reverse
  let stem := name.text.take (name.text.length - extension.length - 1)
  if extension.length = name.text.length || stem = [] then (name.text, none)
  else (stem, some extension)

/-- The name up to its last period. -/
def stem (name : Name) : Text := name.cut.1

/-- What follows the last period of the name. -/
def extension? (name : Name) : Option Text := name.cut.2

end Name
end Manuscript
