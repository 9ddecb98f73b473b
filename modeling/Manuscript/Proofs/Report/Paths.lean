import Manuscript.Proofs.Json.Survival
import Manuscript.Report.Paths
import Mathlib.Data.Set.List

/-!
# Reports about other paths, forth and back

Let `f` undo `g`, for all the paths that `g` gives. Then replacing the paths of a report by `f`, if
it can be done, undoes replacing them by `g`, and it can be done just where `g` gives all of them.
-/

namespace Manuscript

variable {α β : Type} {f : α → Option β} {g : β → α}

/-! ### Undoing -/

section

variable (inverse : ∀ a b, f a = some b ↔ g b = a)

include inverse

theorem DocumentError.mapPaths?_eq_some_iff {error : DocumentError α} {other : DocumentError β} :
    error.mapPaths? f = some other ↔ other.mapPaths g = error := by
  cases error <;> cases other <;> simp [mapPaths?, mapPaths, Option.bind_eq_some_iff, inverse] <;>
    exact fun _ => eq_comm

theorem DocumentReport.mapPaths?_eq_some_iff {report : DocumentReport α}
    {other : DocumentReport β} :
    report.mapPaths? f = some other ↔ other.mapPaths g = report := by
  obtain ⟨_, _, _, _, error, _⟩ := report
  obtain ⟨_, _, _, _, error', _⟩ := other
  have same : error.mapM (DocumentError.mapPaths? f) = some error' ↔
      error'.map (DocumentError.mapPaths g) = error := by
    cases error <;> cases error' <;> simp [DocumentError.mapPaths?_eq_some_iff inverse]
  -- both sides say the same of each field, but for what stands left and right
  simp only [mapPaths?, mapPaths, Option.bind_eq_bind, Option.bind_eq_some_iff, Option.pure_def,
    Option.some_inj, DocumentReport.mk.injEq, inverse, ← same]
  grind

theorem BatchReport.mapPaths?_eq_some_iff {batch : BatchReport α} {other : BatchReport β} :
    batch.mapPaths? f = some other ↔ other.mapPaths g = batch := by
  obtain ⟨documents, _⟩ := batch
  obtain ⟨documents', _⟩ := other
  have same : documents.mapM (DocumentReport.mapPaths? f) = some documents' ↔
      documents'.map (DocumentReport.mapPaths g) = documents := by
    rw [Json.Survives.mapM_eq_some_iff]
    simp only [DocumentReport.mapPaths?_eq_some_iff inverse]
    rw [← List.forall₂_map_left_iff, List.forall₂_eq_eq_eq]
  simp only [mapPaths?, mapPaths, Option.bind_eq_bind, Option.bind_eq_some_iff, Option.pure_def,
    Option.some_inj, BatchReport.mk.injEq, ← same]
  grind

end

/-! ### Where it can be done -/

theorem exists_of_mem_map {paths : List β} : ∀ path ∈ paths.map g, ∃ q, g q = path :=
  List.forall_mem_map.2 fun path _ => ⟨path, rfl⟩

theorem DocumentError.paths_mapPaths (error : DocumentError β) :
    (error.mapPaths g).paths = error.paths.map g := by
  cases error <;> rfl

theorem DocumentReport.paths_mapPaths (report : DocumentReport β) :
    (report.mapPaths g).paths = report.paths.map g := by
  simp only [paths, mapPaths, List.map_cons]
  cases report.error with
  | none => rfl
  | some error => simp [DocumentError.paths_mapPaths]

theorem BatchReport.paths_mapPaths (batch : BatchReport β) :
    (batch.mapPaths g).paths = batch.paths.map g := by
  simp [paths, mapPaths, List.flatMap_map, List.map_flatMap, DocumentReport.paths_mapPaths]

theorem DocumentError.exists_mapPaths_eq_iff {error : DocumentError α} :
    (∃ other : DocumentError β, other.mapPaths g = error) ↔
      ∀ path ∈ error.paths, ∃ q, g q = path := by
  constructor
  · rintro ⟨other, rfl⟩
    rw [paths_mapPaths]
    exact exists_of_mem_map
  · intro all
    obtain ⟨other, same⟩ := all error.path (List.mem_singleton_self _)
    cases error with
    | gone path => exact ⟨.gone other, congrArg gone same⟩
    | unreadable path detail =>
      exact ⟨.unreadable other detail, congrArg (unreadable · detail) same⟩
    | unwritable path detail =>
      exact ⟨.unwritable other detail, congrArg (unwritable · detail) same⟩

theorem DocumentReport.exists_mapPaths_eq_iff {report : DocumentReport α} :
    (∃ other : DocumentReport β, other.mapPaths g = report) ↔
      ∀ path ∈ report.paths, ∃ q, g q = path := by
  constructor
  · rintro ⟨other, rfl⟩
    rw [paths_mapPaths]
    exact exists_of_mem_map
  · intro all
    obtain ⟨⟨source, sameSource⟩, ⟨destination, sameDestination⟩, within⟩ :
        (∃ q, g q = report.source) ∧ (∃ q, g q = report.destination) ∧
          ∀ path ∈ report.error.toList.flatMap DocumentError.paths, ∃ q, g q = path := by
      simpa [paths] using all
    obtain ⟨error, sameError⟩ :
        ∃ error : Option (DocumentError β),
          error.map (DocumentError.mapPaths g) = report.error := by
      -- only the path of the error is still to be found, if there is an error
      cases failed : report.error with
      | none => exact ⟨none, rfl⟩
      | some error =>
        obtain ⟨other, same⟩ := DocumentError.exists_mapPaths_eq_iff.2
          (by simpa [failed] using within : ∀ path ∈ error.paths, ∃ q, g q = path)
        exact ⟨some other, congrArg some same⟩
    let other : DocumentReport β :=
      ⟨source, destination, report.bytesWritten, report.stats, error, report.milliseconds⟩
    exact ⟨other, by simp [other, mapPaths, sameSource, sameDestination, sameError]⟩

theorem BatchReport.exists_mapPaths_eq_iff {batch : BatchReport α} :
    (∃ other : BatchReport β, other.mapPaths g = batch) ↔
      ∀ path ∈ batch.paths, ∃ q, g q = path := by
  constructor
  · rintro ⟨other, rfl⟩
    rw [paths_mapPaths]
    exact exists_of_mem_map
  · intro all
    have each : ∀ document ∈ batch.documents,
        document ∈ Set.range (DocumentReport.mapPaths g) := fun document mem =>
      DocumentReport.exists_mapPaths_eq_iff.2 fun path within =>
        all path (List.mem_flatMap.2 ⟨document, mem, within⟩)
    obtain ⟨documents, same⟩ :
        batch.documents ∈ Set.range (List.map (DocumentReport.mapPaths g)) := by
      rw [Set.range_list_map]
      exact each
    exact ⟨⟨documents, batch.counts⟩, by rw [mapPaths, same]⟩

end Manuscript
