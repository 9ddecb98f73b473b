import Manuscript.Json.Basic

/-!
# Writing JSON

A value is written in one of two layouts: compact, without any blank, or indented, with every
element and every field on a line of its own. Characters outside ASCII are written as they are.
-/

namespace Manuscript
namespace Json

/-- A hexadecimal digit. -/
def hexDigit (n : Nat) : Char := Nat.digitChar (n % 16)

/-- A character inside a string. Quotes, backslashes and control characters are escaped, five of the
latter by a letter and the others by their code point. -/
def escapeChar (c : Char) : Text :=
  if c = '"' then "\\\"".toList
  else if c = '\\' then "\\\\".toList
  else if c = '\n' then "\\n".toList
  else if c = '\r' then "\\r".toList
  else if c = '\t' then "\\t".toList
  else if c = '\x08' then "\\b".toList
  else if c = '\x0c' then "\\f".toList
  else if c.toNat < 0x20 then "\\u00".toList ++ [hexDigit (c.toNat / 16), hexDigit c.toNat]
  else [c]

/-- A string with its quotes. -/
def quote (text : Text) : Text := '"' :: text.flatMap escapeChar ++ ['"']

/-- A whole number. -/
def integer (n : Int) : Text := (toString n).toList

/-- The number `mantissa` · 10 ^ -`scale`. -/
def fraction (mantissa : Int) (scale : Nat) : Text :=
  integer mantissa ++ 'e' :: '-' :: Text.decimal scale

/-- Texts with commas between them. -/
def commaSeparated : List Text → Text := Text.joinWith ','

mutual

/-- A value without any blank. -/
def compact : Json → Text
  | null => "null".toList
  | bool value => if value then "true".toList else "false".toList
  | int value => integer value
  | decimal mantissa scale => fraction mantissa scale
  | string value => quote value
  | array elements => '[' :: commaSeparated (compactElements elements) ++ [']']
  | object fields => '{' :: commaSeparated (compactFields fields) ++ ['}']

/-- The elements of an array without any blank. -/
def compactElements : List Json → List Text
  | [] => []
  | element :: rest => compact element :: compactElements rest

/-- The fields of an object without any blank. -/
def compactFields : List (Text × Json) → List Text
  | [] => []
  | (name, value) :: rest => (quote name ++ ':' :: compact value) :: compactFields rest

end

/-- A line feed and an indent of the given depth. -/
def newLine (depth : Nat) : Text := '\n' :: List.replicate (2 * depth) ' '

/-- What stands between two brackets, each text on a line of its own. -/
def indentedBlock (depth : Nat) (opening closing : Char) (contents : List Text) : Text :=
  if contents.isEmpty then [opening, closing]
  else
    opening :: commaSeparated (contents.map (newLine (depth + 1) ++ ·)) ++
      newLine depth ++ [closing]

mutual

/-- A value whose brackets, if it has any, close at the given depth of indentation. -/
def indented (depth : Nat) : Json → Text
  | array elements => indentedBlock depth '[' ']' (indentedElements (depth + 1) elements)
  | object fields => indentedBlock depth '{' '}' (indentedFields (depth + 1) fields)
  | null => "null".toList
  | bool value => if value then "true".toList else "false".toList
  | int value => integer value
  | decimal mantissa scale => fraction mantissa scale
  | string value => quote value

/-- The elements of an array, each one indented on its own. -/
def indentedElements (depth : Nat) : List Json → List Text
  | [] => []
  | element :: rest => indented depth element :: indentedElements depth rest

/-- The fields of an object, each one indented on its own. -/
def indentedFields (depth : Nat) : List (Text × Json) → List Text
  | [] => []
  | (name, value) :: rest =>
    (quote name ++ ':' :: ' ' :: indented depth value) :: indentedFields depth rest

end

/-- A value over several lines, with two blanks for each depth of indentation. -/
def pretty (value : Json) : Text := indented 0 value

end Json
end Manuscript
