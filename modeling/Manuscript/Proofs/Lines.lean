import Manuscript.Text.Basic

/-!
# Cutting and joining

`Text.splitOn` and `Text.joinWith` undo each other: joining the pieces of a text gives the text
(`Text.joinWith_splitOn`), and cutting a joined text gives the pieces, as long as there is one and
none of them holds the separator.

* `Text.splitOn_joinWith`: the pieces of a joined text are the texts it was joined from.
* `Text.not_mem_of_mem_splitOn`: no piece holds the separator.
* `Text.joinWith_append`: two joined texts, with the separator between them, are joined.
-/

namespace Manuscript
namespace Text

theorem splitOn_eq_singleton {separator : Char} {text : Text} (h : separator ∉ text) :
    text.splitOn separator = [text] := by
  induction text with
  | nil => rfl
  | cons c rest ih =>
    rw [List.mem_cons, not_or] at h
    rw [splitOn, if_neg (Ne.symm h.1), ih h.2]
    rfl

/-- The separator is in no piece: it is where the text was cut. -/
theorem not_mem_of_mem_splitOn {separator : Char} {text piece : Text}
    (h : piece ∈ text.splitOn separator) : separator ∉ piece := by
  induction text generalizing piece with
  | nil =>
    rw [splitOn, List.mem_singleton] at h
    simp [h]
  | cons c rest ih =>
    obtain ⟨first, others, cut⟩ := List.exists_cons_of_ne_nil (splitOn_ne_nil separator rest)
    rw [splitOn] at h
    split at h
    · -- the text is cut here: the first piece is empty, the others are those of the rest
      rcases List.mem_cons.1 h with rfl | h
      · simp
      · exact ih h
    · next distinct =>
      rw [cut, List.modifyHead_cons] at h
      rcases List.mem_cons.1 h with rfl | h
      · -- the first piece has grown by a character that is no separator
        have firstPlain : separator ∉ first := ih (by simp [cut])
        simp [Ne.symm distinct, firstPlain]
      · exact ih (by simp [cut, h])

theorem joinWith_cons (separator : Char) (text : Text) {texts : List Text} (h : texts ≠ []) :
    joinWith separator (text :: texts) = text ++ separator :: joinWith separator texts := by
  match texts, h with
  | next :: rest, _ => rfl

/-- Two runs of joined texts, joined. -/
theorem joinWith_append (separator : Char) {first second : List Text}
    (hfirst : first ≠ []) (hsecond : second ≠ []) :
    joinWith separator (first ++ second) =
      joinWith separator first ++ separator :: joinWith separator second := by
  induction first with
  | nil => exact absurd rfl hfirst
  | cons text rest ih =>
    rw [List.cons_append, joinWith_cons _ _ (List.append_ne_nil_of_right_ne_nil rest hsecond)]
    cases rest with
    | nil => rfl
    | cons next rest => rw [ih (by simp), joinWith_cons _ text (by simp), List.append_assoc]; rfl

/-- Cutting undoes joining, where nothing that was joined holds the separator itself. -/
theorem splitOn_joinWith {separator : Char} {texts : List Text} (nonempty : texts ≠ [])
    (h : ∀ text ∈ texts, separator ∉ text) :
    (joinWith separator texts).splitOn separator = texts := by
  induction texts with
  | nil => exact absurd rfl nonempty
  | cons text rest ih =>
    have first : text.splitOn separator = [text] := splitOn_eq_singleton (h text (by simp))
    cases rest with
    | nil => exact first
    | cons next rest =>
      -- the first separator ends the first text, since the text itself holds none
      rw [joinWith_cons _ _ (by simp), splitOn_append_cons, first,
        ih (by simp) fun other mem => h other (List.mem_cons_of_mem _ mem)]
      rfl

/-- There is one piece more than there are separators. -/
theorem length_splitOn (separator : Char) (text : Text) :
    (text.splitOn separator).length = text.count separator + 1 := by
  induction text with
  | nil => rfl
  | cons c rest ih =>
    rw [splitOn, List.count_cons]
    split
    · next h => simp [ih, h]
    · next h => simp [ih, h]

/-! ### Lines -/

theorem lines_ne_nil (text : Text) : text.lines ≠ [] := splitOn_ne_nil _ text

/-- A line holds no line feed. -/
theorem lineFeed_not_mem_of_mem_lines {text line : Text} (h : line ∈ text.lines) : '\n' ∉ line :=
  not_mem_of_mem_splitOn h

theorem lines_joinLines {lines : List Text} (nonempty : lines ≠ [])
    (h : ∀ line ∈ lines, '\n' ∉ line) : (joinLines lines).lines = lines :=
  splitOn_joinWith nonempty h

/-- A text is determined by its lines. -/
theorem lines_inj {text other : Text} : text.lines = other.lines ↔ text = other := by
  constructor
  · intro same
    calc text = joinLines text.lines := (joinWith_splitOn _ text).symm
      _ = joinLines other.lines := by rw [same]
      _ = other := joinWith_splitOn _ other
  · rintro rfl
    rfl

theorem length_lines (text : Text) : text.lines.length = text.count '\n' + 1 :=
  length_splitOn _ text

/-- The lines of two documents with a line feed between them. -/
theorem lines_append (before after : Text) :
    (before ++ '\n' :: after).lines = before.lines ++ after.lines :=
  splitOn_append_cons _ before after

theorem joinLines_append {first second : List Text} (hfirst : first ≠ []) (hsecond : second ≠ []) :
    joinLines (first ++ second) = joinLines first ++ '\n' :: joinLines second :=
  joinWith_append _ hfirst hsecond

end Text
end Manuscript
