import Manuscript.Proofs.Path.Names
import Manuscript.Proofs.Publication

/-!
# Where results go

A destination is the path of an entry of the output directory, and so it stays there whatever the
source is: what is above it has the components of the output directory, however that is written
(`Path.exists_parent?_join`). Its name is cut behind the stem that it was made with, since there is
no period in the extension of a result (`Destination.stem_nameOf`). So the destination of a source
gives its stem back, and nothing else of it.

Main statement: `Destination.contained`.
-/

namespace Manuscript

/-! ### The directory above an entry -/

namespace Path

/-- The first piece of a relative path that is not empty gives a direction. -/
theorem directions_ofPieces_ne_nil {pieces rest : List Text} {first : Text}
    (h : pieces = first :: rest) (plain : ∀ piece ∈ pieces, '/' ∉ piece) (first_ne : first ≠ []) :
    pieces.filterMap Direction.ofText? ≠ [] := by
  have gives : ∃ direction, Direction.ofText? first = some direction := by
    cases idle : isIdle first with
    | true =>
      obtain rfl : first = ['.'] := by simpa [isIdle, first_ne] using idle
      exact ⟨.stay, by decide⟩
    | false => exact exists_ofText?_of_not_isIdle (plain first (h ▸ List.mem_cons_self)) idle
  obtain ⟨direction, given⟩ := gives
  rw [h, List.filterMap_cons_some given]
  exact List.cons_ne_nil _ _

/-- Idle pieces at the end of a path are none of its components. -/
theorem components_ofPieces_trimIdle {path : Path} {first rest : List Text}
    (h : path.pieces = first ++ rest) (idle : ∀ piece ∈ rest, isIdle piece) (nonempty : first ≠ [])
    (text_ne : path.text ≠ []) : (ofPieces (trimIdle first)).components = path.components := by
  obtain ⟨trimmed, split, isIdle⟩ := exists_trimIdle_append first
  have plain := slash_not_mem_of_mem_trimIdle h
  have nonempty := trimIdle_ne_nil nonempty
  have h : path.pieces = trimIdle first ++ (trimmed ++ rest) := by
    rw [h, ← List.append_assoc, ← split]
  by_cases none : trimmed ++ rest = []
  · -- nothing is left out, and the path is made of its pieces
    rw [none, List.append_nil] at h
    have several : trimIdle first ≠ [[]] := by
      intro root
      rw [text_eq_joinWith_pieces, h, root] at text_ne
      exact text_ne rfl
    have same : ofPieces (trimIdle first) = path := by
      rw [ofPieces, ← h, ← text_eq_joinWith_pieces]
      exact several
    rw [same]
  · obtain ⟨stays, gives⟩ :=
      directions_of_isIdle (List.forall_mem_append.2 ⟨isIdle, idle⟩)
    have directions : path.directions =
        (ofPieces (trimIdle first)).directions ++ List.replicate stays .stay := by
      rw [directions_ofPieces plain nonempty, Path.directions, h, List.filterMap_append, gives]
    have still : (List.replicate stays Direction.stay).filterMap Component.ofDirection? = [] := by
      simp [List.filterMap_eq_nil_iff, Component.ofDirection?]
    have absolute := isAbsolute_ofPieces plain nonempty h none
    rw [components, components, absolute, directions, List.filterMap_append, still,
      List.append_nil]
    cases relative : path.isAbsolute with
    | true => rfl
    | false =>
      -- what is left gives the first direction of both
      obtain ⟨next, others, pieces⟩ := List.exists_cons_of_ne_nil nonempty
      have next_ne : next ≠ [] := by
        rintro rfl
        rw [pieces, List.cons_append] at h
        have : path.isAbsolute := (isAbsolute_iff h).2 ⟨rfl, by simp [none]⟩
        simp [this] at relative
      have some_direction := directions_ofPieces_ne_nil pieces plain next_ne
      rw [← directions_ofPieces plain nonempty] at some_direction
      rw [List.head?_append_of_ne_nil _ some_direction]

/-- **What is above an entry** has the components of its directory. -/
theorem exists_parent?_join (directory : Path) (name : Name) :
    ∃ above, (directory.join name.text).parent? = some above ∧
      above.components = directory.components := by
  rw [parent?_join]
  refine ⟨_, rfl, ?_⟩
  by_cases empty : directory.text = []
  · obtain rfl : directory = ⟨[]⟩ := congrArg Path.mk empty
    rfl
  · have nonempty : directory.pieces ≠ [] := Text.splitOn_ne_nil '/' directory.text
    have split : ∃ last, directory.pieces = directory.front ++ last ∧
        (∀ piece ∈ last, isIdle piece) ∧ directory.front ≠ [] := by
      rw [front, if_neg empty]
      split
      · next slash =>
        obtain ⟨text, spelled⟩ := List.getLast?_eq_some_iff.1 (by simpa [endsWithSlash] using slash)
        have pieces : directory.pieces = Text.splitOn '/' text ++ [[]] := by
          rw [Path.pieces, spelled, Text.splitOn_append_cons]
          rfl
        rw [pieces, List.dropLast_concat]
        exact ⟨[[]], rfl, by simp [isIdle], Text.splitOn_ne_nil '/' text⟩
      · exact ⟨[], (List.append_nil _).symm, List.forall_mem_nil _, nonempty⟩
    obtain ⟨last, pieces, idle, front_ne⟩ := split
    rw [if_neg front_ne, components_ofPieces_trimIdle pieces idle front_ne empty]

end Path

/-! ### The name of a result -/

namespace Destination

variable (config : Configuration) (source other : Path)

/-- The stem of the result of a source: that of the source's name, if it has one. -/
def stemOf : Text :=
  match source.components.getLast? with
  | some (.normal name) => name.stem
  | _ => defaultStem

theorem stemOf_eq : stemOf source = source.stem?.getD defaultStem := by
  rw [stemOf, Path.stem?, Path.fileName?]
  cases source.components.getLast? with
  | none => rfl
  | some last => cases last <;> rfl

theorem stemOf_ne_nil : stemOf source ≠ [] := by
  rw [stemOf]
  split
  · next name _ => exact name.stem_ne_nil
  · decide

theorem text_nameOf :
    (nameOf config source).text = stemOf source ++ '.' :: config.targetExtension :=
  congrArg (· ++ '.' :: config.targetExtension) (stemOf_eq source).symm

/-- A result has the stem of its source. -/
theorem stem_nameOf : (nameOf config source).stem = stemOf source :=
  Name.stem_eq (text_nameOf config source) config.targetExtension_bare.2.2.2 (stemOf_ne_nil source)

theorem extension?_nameOf : (nameOf config source).extension? = some config.targetExtension :=
  Name.extension?_eq_some_iff.2 ⟨stemOf source, stemOf_ne_nil source, text_nameOf config source,
    config.targetExtension_bare.2.2.2⟩

theorem fileName?_ofSource : (ofSource config source).fileName? = some (nameOf config source) :=
  Path.fileName?_join config.outputDirectory (nameOf config source)

theorem stemOf_ofSource : stemOf (ofSource config source) = stemOf source := by
  rw [stemOf_eq, Path.stem?, fileName?_ofSource, ← stem_nameOf config source]
  rfl

/-- A destination is made of the configuration and the stem of the source. -/
theorem ofSource_eq_of_stemOf (same : stemOf source = stemOf other) :
    ofSource config source = ofSource config other := by
  rw [ofSource, ofSource, ← stemOf_eq, ← stemOf_eq, same]

/-- How the results of a configuration are placed. -/
structure Contained (config : Configuration) : Prop where
  /-- What is above a result has the components of the output directory. -/
  parent : ∀ source, ∃ above, (ofSource config source).parent? = some above ∧
    above.components = config.outputDirectory.components
  extension : ∀ source, (ofSource config source).extension? = some config.targetExtension
  /-- The stem is that of the last component of the source, or else the default. -/
  stem : ∀ source, (ofSource config source).stem? = some (stemOf source)
  /-- Results share a place iff their sources share the stem. -/
  eq_iff : ∀ source other,
    ofSource config source = ofSource config other ↔ stemOf source = stemOf other
  /-- A result, taken as a source, has its own place. -/
  again : ∀ source, ofSource config (ofSource config source) = ofSource config source

/-- **Results stay in the output directory,** each under the stem of its source. -/
theorem contained (config : Configuration) : Contained config where
  parent source := Path.exists_parent?_join config.outputDirectory (nameOf config source)
  extension source := by
    rw [Path.extension?, fileName?_ofSource]
    exact extension?_nameOf config source
  stem source := by
    rw [Path.stem?, fileName?_ofSource, ← stem_nameOf config source]
    rfl
  eq_iff source other := by
    refine ⟨fun same => ?_, ofSource_eq_of_stemOf config source other⟩
    rw [← stemOf_ofSource config source, same, stemOf_ofSource]
  again source :=
    ofSource_eq_of_stemOf config _ source (stemOf_ofSource config source)

end Destination
end Manuscript
