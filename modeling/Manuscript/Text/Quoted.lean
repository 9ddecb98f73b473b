import Manuscript.Text.Unprintable

/-!
# Quoted text

Text between double quotes, in which quotes, backslashes and unprintable characters are escaped, so
that a path or a name can be shown without doubt about where it starts and ends.
-/

namespace Manuscript
namespace Text

/-- A number in lower-case hexadecimal digits. -/
def hexadecimal (n : Nat) : Text := Nat.toDigits 16 n

/-- A character inside quotes. The tab, the line feed, the carriage return and the null character
are escaped by a letter or digit, other unprintable characters by their code point. -/
def escapeQuoted (c : Char) : Text :=
  if c = '"' then "\\\"".toList
  else if c = '\\' then "\\\\".toList
  else if c = '\t' then "\\t".toList
  else if c = '\n' then "\\n".toList
  else if c = '\r' then "\\r".toList
  else if c = '\x00' then "\\0".toList
  else if CharClass.unprintable.contains c then
    "\\u\x7b".toList ++ hexadecimal c.toNat ++ "\x7d".toList
  else [c]

/-- The text between double quotes. -/
def quoted (text : Text) : Text := '"' :: text.flatMap escapeQuoted ++ ['"']

end Text
end Manuscript
