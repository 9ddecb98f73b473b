/-!
# Text

Everything the library reads and writes is text, taken as a list of characters. This module holds
the operations that are not about any one kind of text: cutting at a separator character and joining
again, and the decimal spelling of a number.

* `Text.splitOn_ne_nil`: a text has at least one piece, so the empty document has one (empty) line.
* `Text.splitOn_append_cons`: the pieces of two texts with the separator between them are the pieces
  of the one and then of the other.
* `Text.joinWith_splitOn`: joining the pieces with the separator gives the text back.
-/

namespace Manuscript

/-- A piece of text, as its characters in order. -/
abbrev Text := List Char

namespace Text

/-- The pieces of a text between the occurrences of `separator`: one more than it has occurrences.
-/
def splitOn (separator : Char) : Text → List Text
  | [] => [[]]
  | c :: rest =>
    if c = separator then [] :: splitOn separator rest
    else (splitOn separator rest).modifyHead (c :: ·)

/-- The texts one after the other, with `separator` between neighbours. -/
def joinWith (separator : Char) : List Text → Text
  | [] => []
  | [text] => text
  | text :: next :: rest => text ++ separator :: joinWith separator (next :: rest)

/-- The lines of a document. Only a line feed ends a line: a carriage return stays in it. -/
def lines (text : Text) : List Text := text.splitOn '\n'

/-- The document that has the given lines. -/
def joinLines (lines : List Text) : Text := joinWith '\n' lines

/-- A number in decimal digits. -/
def decimal (n : Nat) : Text := (toString n).toList

theorem splitOn_ne_nil (separator : Char) (text : Text) : text.splitOn separator ≠ [] := by
  induction text with
  | nil => simp [splitOn]
  | cons c rest ih =>
    rw [splitOn]
    split
    · simp
    · simpa [List.modifyHead_eq_nil_iff] using ih

/-- A character in front of the first text is a character in front of the joined text. -/
theorem joinWith_modifyHead_cons (separator c : Char) {texts : List Text} (h : texts ≠ []) :
    joinWith separator (texts.modifyHead (c :: ·)) = c :: joinWith separator texts := by
  match texts, h with
  | [text], _ => rfl
  | text :: next :: rest, _ => rfl

theorem joinWith_nil_cons (separator : Char) {texts : List Text} (h : texts ≠ []) :
    joinWith separator ([] :: texts) = separator :: joinWith separator texts := by
  match texts, h with
  | text :: rest, _ => rfl

/-- A text that ends where the separator stands has the pieces of both sides. -/
theorem splitOn_append_cons (separator : Char) (before after : Text) :
    (before ++ separator :: after).splitOn separator =
      before.splitOn separator ++ after.splitOn separator := by
  induction before with
  | nil => simp [splitOn]
  | cons c rest ih =>
    rw [List.cons_append, splitOn, splitOn, ih]
    split
    · rfl
    · obtain ⟨first, others, split⟩ := List.exists_cons_of_ne_nil (splitOn_ne_nil separator rest)
      simp [split]

theorem joinWith_splitOn (separator : Char) (text : Text) :
    joinWith separator (text.splitOn separator) = text := by
  induction text with
  | nil => rfl
  | cons c rest ih =>
    rw [splitOn]
    split
    · next h => rw [joinWith_nil_cons _ (splitOn_ne_nil _ _), ih, h]
    · rw [joinWith_modifyHead_cons _ _ (splitOn_ne_nil _ _), ih]

end Text
end Manuscript
