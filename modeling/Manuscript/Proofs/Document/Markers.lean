import Manuscript.Proofs.Document.Blocks

/-!
# Markers

A marker is the line that begins an environment, or the one that ends it. As long as no line of the
document is one, the markers in the result are those that the conversion has put there: a heading,
an item and a formatted line are never markers, since a command that they begin with or that
formatting brings has another name (`Line.unmarked_alone`, `Line.unmarked_entry`). So what stands
between two markers can be told from the result alone (`eq_of_append_marker_eq`).
-/

namespace Manuscript

/-- A marker: the line that begins an environment, or the one that ends it. -/
inductive Marker
  | opening (environment : Latex.Environment)
  | closing (environment : Latex.Environment)
deriving DecidableEq

namespace Marker

/-- The line that the marker is. -/
def text : Marker → Text
  | opening environment => environment.opening
  | closing environment => environment.closing

/-- The six markers. -/
def all : List Marker :=
  [opening .enumerate, closing .enumerate, opening .itemize, closing .itemize, opening .verbatim,
    closing .verbatim]

/-- The marker that a line is. -/
def ofLine? (line : Text) : Option Marker := all.find? (·.text == line)

/-- Whether the marker begins a list. -/
def opensList : Marker → Bool
  | opening .enumerate | opening .itemize => true
  | _ => false

/-- The two markers of an environment. -/
def pair (environment : Latex.Environment) : List Marker :=
  [opening environment, closing environment]

theorem mem_all (marker : Marker) : marker ∈ all := by
  cases marker with
  | opening environment => cases environment <;> simp [all]
  | closing environment => cases environment <;> simp [all]

/-- What is asked of every marker is asked of six. -/
instance (p : Marker → Prop) [DecidablePred p] : Decidable (∀ marker, p marker) :=
  decidable_of_iff (∀ marker ∈ all, p marker)
    ⟨fun h marker => h marker (mem_all marker), fun h marker _ => h marker⟩

@[simp] theorem ofLine?_text : ∀ marker : Marker, ofLine? marker.text = some marker := by decide

theorem text_injective {marker other : Marker} (h : marker.text = other.text) : marker = other := by
  rw [← Option.some_inj, ← ofLine?_text, h, ofLine?_text]

end Marker

/-- The markers among lines, in order. -/
def markers (lines : List Text) : List Marker := lines.filterMap Marker.ofLine?

/-- A line that is no marker. -/
def Line.Unmarked (line : Text) : Prop := ∀ marker : Marker, line ≠ marker.text

theorem Line.Unmarked.ofLine? {line : Text} (h : Unmarked line) : Marker.ofLine? line = none := by
  rw [Marker.ofLine?, List.find?_eq_none]
  intro marker _ same
  exact h marker (beq_iff_eq.1 same).symm

/-! ### No other line is a marker -/

namespace Line

variable {line : Text}

theorem unmarked_empty : Unmarked [] := by
  show ∀ marker : Marker, [] ≠ marker.text
  decide

/-- The token of an item holds a blank, and no marker does. -/
theorem unmarked_item {item : ListItem} (h : listItem? line = some item) : Unmarked item.latex := by
  obtain ⟨marker, content, -, -, spelled⟩ := exists_content_of_listItem? h
  have plain : ∀ marker : Marker, ' ' ∉ marker.text := by decide
  have blank : ' ' ∈ item.latex := by
    have token : ' ' ∈ Latex.itemToken := by decide
    rw [spelled, Latex.item]
    exact List.mem_append_left _ (List.mem_append_right _ token)
  intro marker same
  rw [same] at blank
  exact plain marker blank

/-- After its backslash, a marker goes on with the letter of `begin` or `end`, and a heading with
that of a sectioning command. -/
theorem unmarked_heading {heading : Heading} (h : heading? line = some heading) :
    Unmarked heading.latex := by
  obtain ⟨front, title, -, -, spelled⟩ := exists_title_of_heading? h
  have command : ∀ level, ∃ c rest, Latex.sectioningCommand level = c :: rest ∧ c ∉ ['b', 'e'] := by
    intro level
    unfold Latex.sectioningCommand
    split <;> exact ⟨_, _, rfl, by decide⟩
  have letters : ∀ marker : Marker, marker.text[1]? = some 'b' ∨ marker.text[1]? = some 'e' := by
    decide
  obtain ⟨c, rest, name, other⟩ := command heading.level
  intro marker same
  have second : marker.text[1]? = some c := by
    rw [← same, spelled, Latex.heading, Latex.command, name]
    rfl
  have letter := letters marker
  rw [second] at letter
  exact other (by simpa using letter)

/-- Formatting that changes a line leaves a letter in it that no marker holds. -/
theorem unmarked_format (h : Unmarked line) : Unmarked (Inline.format line) := by
  have letters : ∀ marker : Marker, 'x' ∉ marker.text ∧ 'c' ∉ marker.text := by decide
  intro marker same
  rcases Inline.format_eq_self_or_mem line with unchanged | brought | brought
  · exact h marker (unchanged.symm.trans same)
  · rw [same] at brought
    exact (letters marker).1 brought
  · rw [same] at brought
    exact (letters marker).2 brought

theorem unmarked_alone (h : Unmarked line) : Unmarked (alone line) := by
  rw [alone]
  split
  · next heading found => exact unmarked_heading found
  · split
    · exact unmarked_empty
    · exact unmarked_format h

theorem unmarked_entry (h : Unmarked line) : Unmarked (entry line) := by
  rw [entry]
  split
  · next item found => exact unmarked_item found
  · exact unmarked_format h

end Line

/-! ### The markers among lines -/

section Markers

variable {lines : List Text}

theorem markers_append (before after : List Text) :
    markers (before ++ after) = markers before ++ markers after := List.filterMap_append

theorem markers_cons_opening (environment : Latex.Environment) (after : List Text) :
    markers (environment.opening :: after) = .opening environment :: markers after :=
  List.filterMap_cons_some (Marker.ofLine?_text (.opening environment))

theorem markers_cons_closing (environment : Latex.Environment) (after : List Text) :
    markers (environment.closing :: after) = .closing environment :: markers after :=
  List.filterMap_cons_some (Marker.ofLine?_text (.closing environment))

theorem markers_eq_nil (h : ∀ line ∈ lines, Line.Unmarked line) : markers lines = [] :=
  List.filterMap_eq_nil_iff.2 fun line mem => (h line mem).ofLine?

theorem unmarked_of_markers_eq_nil (h : markers lines = []) {line : Text} (mem : line ∈ lines) :
    Line.Unmarked line := by
  rintro marker rfl
  have := List.filterMap_eq_nil_iff.1 h _ mem
  simp at this

theorem markers_map_entry (h : ∀ line ∈ lines, Line.Unmarked line) :
    markers (lines.map Line.entry) = [] := by
  refine markers_eq_nil fun out mem => ?_
  obtain ⟨line, hline, rfl⟩ := List.mem_map.1 mem
  exact Line.unmarked_entry (h line hline)

theorem markers_alone {line : Text} (h : Line.Unmarked line) : markers [Line.alone line] = [] := by
  refine markers_eq_nil fun out mem => ?_
  rw [List.mem_singleton.1 mem]
  exact Line.unmarked_alone h

theorem mem_markers {marker : Marker} (h : marker.text ∈ lines) : marker ∈ markers lines :=
  List.mem_filterMap.2 ⟨marker.text, h, Marker.ofLine?_text marker⟩

/-- The markers of an environment around lines without any. -/
theorem markers_environment (environment : Latex.Environment) (h : markers lines = []) :
    markers (environment.opening :: (lines ++ [environment.closing])) =
      Marker.pair environment := by
  rw [markers_cons_opening, markers_append, h, markers_cons_closing]
  rfl

end Markers

section Cuts

variable {α : Type} {first second before after : List α} {a : α}

/-- An element of two lists in a row is in the first or in the second. -/
theorem cut_of_append_eq (h : first ++ second = before ++ a :: after) :
    (∃ behind, first = before ++ a :: behind ∧ after = behind ++ second) ∨
      ∃ middle, before = first ++ middle ∧ second = middle ++ a :: after := by
  rcases List.append_eq_append_iff.1 h with ⟨middle, rfl, same⟩ | ⟨behind, rfl, same⟩
  · exact .inr ⟨middle, rfl, same⟩
  · rcases List.cons_eq_append_iff.1 same with ⟨rfl, rfl⟩ | ⟨rest, rfl, rfl⟩
    · exact .inr ⟨[], by simp, rfl⟩
    · exact .inl ⟨rest, rfl, rfl⟩

end Cuts

/-! ### Lines between markers -/

section Between

variable {before after other rest inside : List Text} (marker : Marker)

/-- A marker that is not among the first lines is among the others. -/
theorem exists_middle_of_not_mem (h : other ++ rest = before ++ marker.text :: after)
    (none : marker ∉ markers other) :
    ∃ middle, before = other ++ middle ∧ rest = middle ++ marker.text :: after := by
  rcases cut_of_append_eq h with ⟨behind, rfl, -⟩ | later
  · exact absurd (mem_markers (by simp)) none
  · exact later

/-- The lines in front of the first marker are determined by it. -/
theorem eq_of_append_marker_eq (h : before ++ marker.text :: after = other ++ marker.text :: rest)
    (hbefore : markers before = []) (hother : markers other = []) : before = other := by
  rcases cut_of_append_eq h with ⟨behind, rfl, -⟩ | ⟨middle, rfl, same⟩
  · exact absurd rfl (unmarked_of_markers_eq_nil hbefore (by simp) marker)
  · cases middle with
    | nil => simp
    | cons next rest =>
      obtain ⟨rfl, -⟩ := List.cons.inj same
      exact absurd rfl (unmarked_of_markers_eq_nil hother (by simp) marker)

/-- The only beginning in an environment around lines without markers is its own. -/
theorem eq_nil_of_environment_eq {environment found : Latex.Environment}
    (plain : markers inside = [])
    (h : environment.opening :: (inside ++ [environment.closing]) =
      before ++ found.opening :: after) :
    before = [] ∧ environment = found ∧ after = inside ++ [environment.closing] := by
  cases before with
  | nil =>
    obtain ⟨same, tail⟩ := List.cons.inj h
    have own : Marker.opening environment = .opening found := Marker.text_injective same
    exact ⟨rfl, Marker.opening.inj own, tail.symm⟩
  | cons next before =>
    obtain ⟨rfl, tail⟩ := List.cons.inj h
    have mem : Marker.opening found ∈ markers (inside ++ [environment.closing]) :=
      mem_markers (by rw [tail]; simp [Marker.text])
    rw [markers_append, plain, markers_cons_closing] at mem
    simp [markers] at mem

end Between

end Manuscript
