import Manuscript.Text.Basic

/-!
# JSON values

A JSON value keeps the fields of an object in their order. A number is either whole or a decimal
fraction, since a counter may be read from the first and never from the second.

A record type is read by `Json.fields?`: an object gives each field by its name, whatever other
fields it has; an array gives the fields by position, all of them and no more.
-/

namespace Manuscript

/-- A JSON value. -/
inductive Json
  | null
  | bool (value : Bool)
  | int (value : Int)
  /-- The number `mantissa` · 10 ^ -`scale`, written with a fraction or an exponent. -/
  | decimal (mantissa : Int) (scale : Nat)
  | string (value : Text)
  | array (elements : List Json)
  | object (fields : List (Text × Json))
deriving Repr, Inhabited

namespace Json

variable {α : Type}

/-- The fields of a record with the given names, each one `none` if it is missing. -/
def fields? (names : List Text) : Json → Option (List (Option Json))
  | object fields => some (names.map fun name => fields.lookup name)
  | array elements =>
    if elements.length = names.length then some (elements.map some) else none
  | _ => none

/-- A field that has to be there. -/
def required (read : Json → Option α) (field : Option Json) : Option α := field.bind read

/-- A field that may be missing or null. -/
def optional (read : Json → Option α) : Option Json → Option (Option α)
  | none | some null => some none
  | some value => (read value).map some

/-- The value of a truth value. -/
def bool? : Json → Option Bool
  | bool value => some value
  | _ => none

/-- The largest counter is one less than this. -/
def counterBound : Nat := UInt64.size

/-- The value of a counter: a whole number that fits an unsigned word of 64 bits. -/
def counter? : Json → Option Nat
  | int (.ofNat n) => if n < counterBound then some n else none
  | _ => none

/-- The value of a string. -/
def string? : Json → Option Text
  | string value => some value
  | _ => none

/-- The values of an array, each one read by `read`. -/
def array? (read : Json → Option α) : Json → Option (List α)
  | array elements => elements.mapM read
  | _ => none

/-- A counter as a value. -/
def ofNat (n : Nat) : Json := int n

/-- A value that may be missing, written as null if it is. -/
def ofOption (write : α → Json) : Option α → Json
  | none => null
  | some value => write value

/-- An object from field names and values. -/
def record (fields : List (String × Json)) : Json :=
  object (fields.map fun field => (field.1.toList, field.2))

end Json
end Manuscript
