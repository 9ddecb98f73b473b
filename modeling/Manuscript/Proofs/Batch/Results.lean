import Manuscript.Proofs.Batch.Written

/-!
# What stands where after some documents

`Batch.Written` says what a tree is when some documents are done. Here it is said location by
location: at the place of a result stands the result (`Batch.Written.get?_of_result`), and at every
other place what stood there at the start, or what stands there once the directories are made, if
some document was converted (`Batch.Written.get?_of_free`).

A result can only stand under its own name in the output directory, so the entry that a destination
denotes is free unless its own document has a result (`Batch.entry_free`). A tree spares what it is
free of: nothing is different there but that a directory may be new (`Batch.Written.spared`).
-/

namespace Manuscript
namespace Batch

/-- The result of a source, with the place where it is written, if it can be converted and written
in a tree. -/
def resultOf (config : Configuration) (start : FileTree) (source : Path) :
    Option (Location × ByteArray) :=
  match start.makeDirectories config.outputDirectory.holding.ancestors with
  | (.error _, _) => none
  | (.ok (), made) => fileOf config start made source

/-- Whether some of the documents can be converted. -/
def anyConverted (config : Configuration) (start : FileTree) (done : List Path) : Bool :=
  done.any fun source => (Source.conversionIn start config source).isOk

variable {config : Configuration} {start tree : FileTree} {directory : Path} {extension : Text}
  {sources done : List Path} {source other : Path} {place : Location} {content content' : ByteArray}

theorem resultOf_eq_some (h : resultOf config start source = some (place, content)) :
    ∃ made conversion,
      start.makeDirectories config.outputDirectory.holding.ancestors = (.ok (), made) ∧
      fileOf config start made source = some (place, content) ∧
      Source.conversionIn start config source = .ok conversion ∧
      content = conversion.latex.encode ∧
      made.landing (Destination.ofSource config source) = .ok place := by
  unfold resultOf at h
  split at h
  · cases h
  · next made making =>
    obtain ⟨conversion, converted, written, lands⟩ := fileOf_eq_some h
    exact ⟨made, conversion, making, h, converted, written, lands⟩

/-- A result is written where the destination's entry stands. -/
theorem mem_entryOf_of_result (h : resultOf config start source = some (place, content)) :
    place ∈ start.entryOf (Destination.ofSource config source) := by
  obtain ⟨made, _, making, -, -, -, lands⟩ := resultOf_eq_some h
  unfold FileTree.entryOf FileTree.prepared
  rw [Destination.directory_ofSource, making, (FileTree.locateLast_of_landing lands).1]
  rfl

theorem ne_nil_of_result (h : resultOf config start source = some (place, content)) :
    place ≠ [] := by
  obtain ⟨made, _, -, -, -, -, lands⟩ := resultOf_eq_some h
  exact FileTree.ne_nil_of_isDirectoryAt (FileTree.locateLast_of_landing lands).2

section

variable (discovered : Source.Discovered start directory extension sources)

include discovered

/-- The entry that a destination denotes is the place of no other result. -/
theorem entry_free (mem : source ∈ sources) (mem' : other ∈ sources) (differ : source ≠ other)
    (entry : place ∈ start.entryOf (Destination.ofSource config source)) (content : ByteArray) :
    resultOf config start other ≠ some (place, content) := by
  intro result
  obtain ⟨made, _, making, -, -, -, lands⟩ := resultOf_eq_some result
  obtain ⟨links, location, reaches⟩ := FileTree.exists_reaches_of_makeDirectories making
  obtain ⟨stays, goes⟩ :=
    config.outputDirectory.goesOn_directory_join (Destination.nameOf config source)
  rw [Path.directory_join] at goes
  -- both stand in the output directory, each under its own name
  have denoted : made.locateLast (Destination.ofSource config source) .busy = .ok place := by
    unfold FileTree.entryOf FileTree.prepared at entry
    rw [Destination.directory_ofSource, making] at entry
    cases located : made.locateLast (Destination.ofSource config source) .busy with
    | error cause =>
      rw [located] at entry
      cases entry
    | ok there =>
      rw [located] at entry
      cases entry
      rfl
  rw [Destination.ofSource_eq,
    reaches.locateLast_eq goes (FileTree.locateLast_eq_ok_iff.1 denoted).1] at denoted
  split at denoted
  · cases denoted
  · rw [eq_of_landing reaches lands] at denoted
    have names := (List.cons.inj (List.append_cancel_left (Except.ok.inj denoted))).1
    exact differ (discovered.nameOf_inj config mem mem' names)

variable (within : ∀ source ∈ done, source ∈ sources) (distinct : done.Nodup)
  (h : Written config start done tree)

include within distinct h

/-- **Results.** At its place stands the result of a document that is done. -/
theorem Written.get?_of_result (mem : source ∈ done)
    (result : resultOf config start source = some (place, content)) :
    tree.get? place = some (.file content) := by
  obtain ⟨made, conversion, making, file, converted, -, -⟩ := resultOf_eq_some result
  have tried : done.any fun source => (Source.conversionIn start config source).isOk := by
    rw [List.any_eq_true]
    exact ⟨source, mem, by rw [converted]; rfl⟩
  unfold Written at h
  rw [if_pos tried, making] at h
  obtain ⟨links, location, reaches⟩ := FileTree.exists_reaches_of_makeDirectories making
  rw [h.get?]
  exact FileTree.get?_insertAll_of_mem (nodup_fileOf discovered within distinct reaches)
    (List.mem_filterMap.2 ⟨source, mem, file⟩) (ne_nil_of_result result)

omit discovered within distinct in
/-- **Elsewhere.** At a place without a result stands what stood there, or once there was something
to write, what stands there when the directories are made. -/
theorem Written.get?_of_free
    (free : ∀ source ∈ done, ∀ content, resultOf config start source ≠ some (place, content)) :
    tree.get? place = if anyConverted config start done then
      (start.makeDirectories config.outputDirectory.holding.ancestors).2.get? place
      else start.get? place := by
  unfold Written at h
  unfold anyConverted
  split at h
  · next tried =>
    rw [if_pos tried]
    cases making : start.makeDirectories config.outputDirectory.holding.ancestors with
    | mk answer made =>
      rw [making] at h
      cases answer with
      | error cause => rw [h]
      | ok =>
        rw [h.get?]
        apply FileTree.get?_insertAll_of_not_mem
        intro placed
        obtain ⟨⟨place, content⟩, file, rfl⟩ := List.mem_map.1 placed
        obtain ⟨source, done, file⟩ := List.mem_filterMap.1 file
        apply free source done content
        rw [resultOf, making]
        exact file
  · next untried =>
    rw [if_neg untried, h]

omit discovered within distinct in
/-- At such a place nothing is different but that a directory may be new. -/
theorem Written.spared
    (free : ∀ source ∈ done, ∀ content, resultOf config start source ≠ some (place, content))
    (source : Path) : start.Spared (Destination.ofSource config source) tree place := by
  have found := h.get?_of_free free
  split at found
  · apply FileTree.spared_of_get?_eq
    rw [found, FileTree.prepared, Destination.directory_ofSource]
  · exact .inl found

/-- **Destinations.** At the entry that a destination denotes stands the result of its document, if
there is one and the document is done; if not, nothing is different but that a directory may be
new. -/
theorem Written.entry_cases (mem : source ∈ sources)
    (entry : place ∈ start.entryOf (Destination.ofSource config source)) :
    (source ∈ done ∧ ∃ content, resultOf config start source = some (place, content) ∧
        tree.get? place = some (.file content)) ∨
      ((source ∈ done → resultOf config start source = none) ∧
        start.Spared (Destination.ofSource config source) tree place) := by
  by_cases written : source ∈ done ∧ (resultOf config start source).isSome
  · obtain ⟨⟨there, content⟩, result⟩ := Option.isSome_iff_exists.1 written.2
    obtain rfl := Option.mem_unique (mem_entryOf_of_result result) entry
    exact .inl ⟨written.1, content, result,
      h.get?_of_result discovered within distinct written.1 result⟩
  · have none : source ∈ done → resultOf config start source = none := fun done =>
      Option.not_isSome_iff_eq_none.1 fun result => written ⟨done, result⟩
    refine .inr ⟨none, h.spared (fun other done content result => ?_) source⟩
    by_cases same : source = other
    · subst same
      rw [none done] at result
      cases result
    · exact entry_free discovered mem (within other done) same entry content result

end

/-! ### All documents and each of them -/

/-- Where a result is written, the directories that are made for it change nothing. -/
theorem get?_made_of_result (result : resultOf config start source = some (place, content)) :
    (start.makeDirectories config.outputDirectory.holding.ancestors).2.get? place =
      start.get? place := by
  obtain ⟨made, _, making, -, -, -, lands⟩ := resultOf_eq_some result
  have grows := start.growsTo_makeDirectories config.outputDirectory.holding.ancestors
  rw [making] at grows ⊢
  rcases grows.get? place with kept | ⟨-, new⟩
  · exact kept
  · -- a result does not take the place of a directory
    have plain := (FileTree.locateLast_of_landing lands).2
    simp [FileTree.isDirectoryAt, new] at plain

theorem anyConverted_of_mem (mem : source ∈ done) (converted : anyConverted config start [source]) :
    anyConverted config start done := by
  unfold anyConverted at *
  exact List.any_eq_true.2 ⟨source, mem, by simpa using converted⟩

section

variable {single : FileTree} (discovered : Source.Discovered start directory extension sources)
  (within : ∀ source ∈ done, source ∈ sources) (distinct : done.Nodup)
  (h : Written config start done tree)

include discovered within distinct h

/-- **What one changes.** What a document changes when it is the only one, it changes alike among
others. -/
theorem Written.get?_of_changed (mem : source ∈ done) (alone : Written config start [source] single)
    (changed : single.get? place ≠ start.get? place) : tree.get? place = single.get? place := by
  have withinAlone : ∀ other ∈ [source], other ∈ sources := fun other only =>
    List.mem_singleton.1 only ▸ within source mem
  have distinctAlone : [source].Nodup := List.nodup_singleton source
  by_cases taken : ∃ other ∈ done, ∃ content, resultOf config start other = some (place, content)
  · obtain ⟨other, done, content, result⟩ := taken
    by_cases same : other = source
    · subst same
      rw [h.get?_of_result discovered within distinct done result,
        alone.get?_of_result discovered withinAlone distinctAlone List.mem_cons_self result]
    · -- the document alone changes nothing at the place of another's result
      exfalso
      have free : ∀ only ∈ [source], ∀ content,
          resultOf config start only ≠ some (place, content) := by
        intro only single content
        rw [List.mem_singleton.1 single]
        exact entry_free discovered (within other done) (within source mem) same
          (mem_entryOf_of_result result) content
      apply changed
      rw [alone.get?_of_free free, get?_made_of_result result, ite_self]
  · have free : ∀ other ∈ done, ∀ content, resultOf config start other ≠ some (place, content) :=
      fun other mem content result => taken ⟨other, mem, content, result⟩
    have freeAlone : ∀ only ∈ [source], ∀ content,
        resultOf config start only ≠ some (place, content) := fun only single =>
      List.mem_singleton.1 single ▸ free source mem
    rw [alone.get?_of_free freeAlone] at changed ⊢
    split at changed
    · next converted =>
      rw [h.get?_of_free free, if_pos converted, if_pos (anyConverted_of_mem mem converted)]
    · exact absurd rfl changed

/-- **What none changes.** What no document changes when it is the only one, they do not change. -/
theorem Written.get?_of_unchanged {singles : Path → FileTree}
    (alone : ∀ source ∈ done, Written config start [source] (singles source))
    (unchanged : ∀ source ∈ done, (singles source).get? place = start.get? place) :
    tree.get? place = start.get? place := by
  by_cases taken : ∃ source ∈ done, ∃ content, resultOf config start source = some (place, content)
  · obtain ⟨source, mem, content, result⟩ := taken
    have withinAlone : ∀ other ∈ [source], other ∈ sources := fun other only =>
      List.mem_singleton.1 only ▸ within source mem
    rw [h.get?_of_result discovered within distinct mem result, ← unchanged source mem]
    exact ((alone source mem).get?_of_result discovered withinAlone (List.nodup_singleton source)
      List.mem_cons_self result).symm
  · have free : ∀ other ∈ done, ∀ content, resultOf config start other ≠ some (place, content) :=
      fun other mem content result => taken ⟨other, mem, content, result⟩
    rw [h.get?_of_free free]
    split
    · next converted =>
      -- some document is converted, also when it is the only one
      obtain ⟨source, mem, converted⟩ := List.any_eq_true.1 converted
      have freeAlone : ∀ only ∈ [source], ∀ content,
          resultOf config start only ≠ some (place, content) := fun only single =>
        List.mem_singleton.1 single ▸ free source mem
      have only : anyConverted config start [source] := by
        simpa [anyConverted] using converted
      rw [← unchanged source mem, (alone source mem).get?_of_free freeAlone, if_pos only]
    · rfl

end

end Batch
end Manuscript
