import Manuscript.FileTree.Edit
import Manuscript.Proofs.FileTree.Replacement
import Manuscript.Publication

/-!
# What publication leaves behind

A source is published as a whole or not at all (`Source.publish_whole_or_nothing`), whichever of the
requests is refused and for whatever reason. Where it cannot be resolved, read or decoded, nothing
is different afterwards. Where its result cannot be written, be it that a directory is not made, or
that the temporary file is not created, filled or moved, what stood somewhere still stands there,
and nothing is new but directories on the way to the destination. Otherwise the result stands under
the destination's last name, in place of the file, link or device that was there, and that and new
directories on the way are the only differences.

* `Destination.ofSource_eq`: a destination is the path of an entry of the output directory.
* `Source.convert_run`, `Source.publish_run`: a conversion reads the tree, and a publication then
  puts one request to it.
-/

namespace Manuscript

variable (files : TemporaryFiles) (tree : FileTree) (config : Configuration) (source : Path)

/-! ### Destinations -/

/-- The stem of a name with an extension put behind it is a name again. -/
theorem isName_stem_append {stem extension : Text} (stem_ne : stem ≠ []) (stem_plain : '/' ∉ stem)
    (bare : IsBareExtension extension) : IsName (stem ++ '.' :: extension) := by
  obtain ⟨c, rest, rfl⟩ := List.exists_cons_of_ne_nil stem_ne
  obtain ⟨d, more, rfl⟩ := List.exists_cons_of_ne_nil bare.1
  have plain : '/' ∉ d :: more := bare.2.1
  refine ⟨by simp, ?_, by simp, ?_⟩
  · simp only [List.mem_append, List.mem_cons, not_or] at *
    exact ⟨stem_plain, by decide, plain⟩
  · -- it is longer than two periods
    intro same
    have longer := congrArg List.length same
    simp only [List.length_append, List.length_cons, List.length_nil] at longer
    omega

theorem Name.stem_ne_nil (name : Name) : name.stem ≠ [] := by
  rw [Name.stem, Name.cut]
  split
  · exact name.isName.1
  · next h =>
    simp only [Bool.or_eq_true, decide_eq_true_eq, not_or] at h
    exact h.2

theorem Name.slash_not_mem_stem (name : Name) : '/' ∉ name.stem := by
  rw [Name.stem, Name.cut]
  split
  · exact name.slash_not_mem
  · exact fun mem => name.slash_not_mem (List.mem_of_mem_take mem)

/-- The name under which the result of a source stands in the output directory. -/
def Destination.nameOf : Name where
  text := source.stem?.getD defaultStem ++ '.' :: config.targetExtension
  isName := by
    cases named : source.fileName? with
    | none =>
      rw [Path.stem?, named]
      exact isName_stem_append (by decide) (by decide) config.targetExtension_bare
    | some name =>
      rw [Path.stem?, named]
      exact isName_stem_append name.stem_ne_nil name.slash_not_mem_stem config.targetExtension_bare

theorem Destination.ofSource_eq : Destination.ofSource config source =
    config.outputDirectory.join (Destination.nameOf config source).text :=
  rfl

/-- All results are held by one directory. -/
theorem Destination.directory_ofSource :
    (Destination.ofSource config source).directory = config.outputDirectory.holding :=
  Path.directory_join config.outputDirectory (Destination.nameOf config source)

/-! ### What is read -/

/-- Whether a failure is one to find out what a source holds. -/
def Failure.isOfReading : Failure → Bool
  | noSuchFile _ | notRegular _ | permissionDenied _ | notUtf8 _ | unreadable _ _ => true
  | _ => false

/-- A regular file is what a path leads to if its bytes can be read there. -/
theorem FileTree.exists_file_of_kind {tree : FileTree} {path : Path}
    (h : tree.kind path = .ok .file) : ∃ place bytes, tree.locate path = .ok place ∧
      tree.get? place = some (.file bytes) ∧ tree.readAt path = .ok bytes := by
  replace h : tree.kindAt path = .ok .file := (grant_eq_ok_iff.1 h).2
  rw [kindAt] at h
  cases located : tree.locate path with
  | error cause =>
    rw [located] at h
    cases h
  | ok place =>
    rw [located] at h
    cases found : tree.get? place with
    | none => simp [found, bind, Except.bind] at h
    | some entry =>
      cases entry with
      | file bytes =>
        exact ⟨place, bytes, rfl, found, by simp [readAt, located, found, bind, Except.bind]⟩
      | _ => simp [found, bind, Except.bind] at h

namespace Source

/-- The conversion of a source, as far as it can be resolved, read and decoded in a tree. -/
def conversionIn : Except Failure Conversion :=
  match resolution source (tree.kind source) with
  | .error failure => .error failure
  | .ok resolved =>
    match content resolved (tree.read resolved) with
    | .error failure => .error failure
    | .ok text => .ok (Document.convert config.options text)

theorem resolve_run (path : Path) :
    (Source.resolve (FileTree.fileSystemWith files) path).run tree =
      (resolution path (tree.kind path), tree) :=
  rfl

theorem read_run (path : Path) : (Source.read (FileTree.fileSystemWith files) path).run tree =
    (content path (tree.read path), tree) :=
  rfl

/-- What comes first decides whether something follows. -/
theorem bind_run {σ α β : Type} (first : ExceptT Failure (StateM σ) α)
    (next : α → ExceptT Failure (StateM σ) β) (state : σ) :
    (first >>= next).run state = match first.run state with
      | (.ok value, after) => (next value).run after
      | (.error failure, after) => (.error failure, after) := by
  have cont : (first >>= next).run state =
      ExceptT.bindCont next (first.run state).1 (first.run state).2 := rfl
  rw [cont]
  rcases first.run state with ⟨_ | _, after⟩ <;> rfl

/-- A conversion reads the tree. -/
theorem convert_run :
    (Source.convert (FileTree.fileSystemWith files) config source).run tree =
      (conversionIn tree config source, tree) := by
  rw [Source.convert, bind_run, resolve_run, conversionIn]
  cases resolution source (tree.kind source) with
  | error failure => rfl
  | ok resolved =>
    simp only [bind_run, read_run]
    cases content resolved (tree.read resolved) <;> rfl

theorem resolution_eq_ok {path resolved : Path} {answer : Except IoError EntryKind}
    (h : resolution path answer = .ok resolved) : resolved = path ∧ answer = .ok .file := by
  rw [resolution.eq_def] at h
  split at h <;> cases h
  exact ⟨rfl, rfl⟩

theorem content_eq_ok {path : Path} {answer : Except IoError ByteArray} {text : Text}
    (h : content path answer = .ok text) :
    ∃ bytes, answer = .ok bytes ∧ Text.decode? bytes = some text := by
  rw [content.eq_def] at h
  split at h
  · next bytes =>
    split at h <;> cases h
    next decoded => exact ⟨bytes, rfl, decoded⟩
  all_goals cases h

variable {files tree config source}

/-- Once it is known to be a regular file, a source has only to be read. -/
theorem conversionIn_of_regular (regular : tree.kind source = .ok .file) :
    conversionIn tree config source =
      (content source (tree.read source)).map (Document.convert config.options) := by
  have resolves : resolution source (.ok .file) = .ok source := rfl
  simp only [conversionIn, regular, resolves]
  cases content source (tree.read source) <;> rfl

/-- What is converted is the text of a regular file. -/
theorem exists_text_of_conversionIn {conversion : Conversion}
    (h : conversionIn tree config source = .ok conversion) : ∃ origin bytes text,
      tree.locate source = .ok origin ∧ tree.get? origin = some (.file bytes) ∧
        Text.decode? bytes = some text ∧ conversion = Document.convert config.options text := by
  rw [conversionIn] at h
  split at h
  · cases h
  · next resolved =>
    obtain ⟨rfl, regular⟩ := resolution_eq_ok resolved
    split at h
    · cases h
    · next text read =>
      obtain ⟨bytes, answer, decoded⟩ := content_eq_ok read
      obtain ⟨origin, held, located, found, holds⟩ := FileTree.exists_file_of_kind regular
      cases holds.symm.trans (grant_eq_ok_iff.1 answer).2
      exact ⟨origin, bytes, text, located, found, decoded, (Except.ok.inj h).symm⟩

/-- The failure to find out what a source holds is told as such. -/
theorem isOfReading_of_conversionIn {failure : Failure}
    (h : conversionIn tree config source = .error failure) : failure.isOfReading := by
  rw [conversionIn] at h
  split at h
  · next failed =>
    cases h
    rw [resolution.eq_def] at failed
    split at failed <;> cases failed <;> rfl
  · split at h
    · next failed =>
      cases h
      rw [content.eq_def] at failed
      split at failed
      · split at failed <;> cases failed
        rfl
      all_goals cases failed; rfl
    · cases h

variable (files tree config source)

/-- What comes of a conversion, by the answer to the request to write its result. -/
def told (conversion : Conversion) : Except IoError Unit → Except Failure DocumentReport
  | .ok () => .ok (.ofConversion config source conversion)
  | .error cause => .error (.unwritable (Destination.ofSource config source) cause)

theorem write_run (destination : Path) (result : Text) :
    (Destination.write (FileTree.fileSystemWith files) destination result).run tree =
      (Destination.outcome destination (tree.replaceAt files destination result.encode).1,
        (tree.replaceAt files destination result.encode).2) :=
  rfl

/-- A publication converts the source and then puts one request to the tree. -/
theorem publish_run :
    (Source.publish (FileTree.fileSystemWith files) config source).run tree =
    match conversionIn tree config source with
    | .error failure => (.error failure, tree)
    | .ok conversion =>
      let written :=
        tree.replaceAt files (Destination.ofSource config source) conversion.latex.encode
      (told config source conversion written.1, written.2) := by
  rw [Source.publish, bind_run, convert_run]
  cases conversionIn tree config source with
  | error failure => rfl
  | ok conversion =>
    simp only [bind_run, write_run]
    cases tree.replaceAt files (Destination.ofSource config source) conversion.latex.encode with
    | mk answer after => cases answer <;> rfl

/-- **As a whole or not at all.** Whatever is refused in the tree, a source that cannot be converted
leaves it as it is; a result that cannot be written leaves nothing but new directories on the way to
its destination, and no temporary file; and a result that is written replaces what stood under the
destination's last name. -/
theorem publish_whole_or_nothing (documented : files.AsDocumented) :
    match (Source.publish (FileTree.fileSystemWith files) config source).run tree with
    | (.error (.unwritable path _), after) =>
      path = Destination.ofSource config source ∧
        ∀ location, tree.Spared (Destination.ofSource config source) after location
    | (.error _, after) => after = tree
    | (.ok report, after) => ∃ origin bytes text place,
      tree.locate source = .ok origin ∧ tree.get? origin = some (.file bytes) ∧
      Text.decode? bytes = some text ∧
      report = .ofConversion config source (Document.convert config.options text) ∧
      (tree.prepared (Destination.ofSource config source)).locateLast
        (Destination.ofSource config source) .busy = .ok place ∧
      after.get? place = some (.file (Document.convert config.options text).latex.encode) ∧
      report.bytesWritten = (Document.convert config.options text).latex.encode.size ∧
      (∀ location, location ≠ place →
        tree.Spared (Destination.ofSource config source) after location) ∧
      (origin ≠ place → after.get? origin = some (.file bytes)) := by
  rw [publish_run]
  cases converted : conversionIn tree config source with
  | error failure =>
    cases failure with
    | unwritable path cause => cases isOfReading_of_conversionIn converted
    | _ => rfl
  | ok conversion =>
    obtain ⟨origin, bytes, text, located, found, decoded, rfl⟩ :=
      exists_text_of_conversionIn converted
    have written := FileTree.replaceAt_spares documented (Destination.ofSource_eq config source)
      tree (Document.convert config.options text).latex.encode
    dsimp only
    revert written
    cases tree.replaceAt files (Destination.ofSource config source)
      (Document.convert config.options text).latex.encode with
    | mk answer after =>
      cases answer with
      | error cause => exact fun spared => ⟨rfl, spared⟩
      | ok =>
        rintro ⟨place, denoted, stands, spared⟩
        refine ⟨origin, bytes, text, place, located, found, decoded, rfl, denoted, stands,
          (Text.size_encode _).symm, spared, fun differs => ?_⟩
        -- the source stood before, so no new directory stands there
        rcases spared origin differs with kept | ⟨nothing, -⟩
        · rw [kept, found]
        · rw [found] at nothing
          cases nothing

end Source

/-! ### A document on a full disk -/

/-- A configuration for an output directory. -/
def Configuration.into (output : Path) : Configuration where
  toSettings := { outputDirectory := output }
  sourceExtension_bare := show IsBareExtension "md".toList by decide
  targetExtension_bare := show IsBareExtension "tex".toList by decide
  concurrency_pos := show 0 < 4 by decide

/-- A document in a directory. -/
def Source.note : Path := .ofString "content/a.md"

/-- A tree with the document, in which a temporary file is created but cannot be filled. -/
def FileTree.full : FileTree :=
  (workspace.putFile Source.note (Text.encode ['A'])).refusing { fill := fun _ => some .noSpace }

/-- Its result. -/
def Destination.note : Path := .ofString "tex/a.tex"

theorem Source.publish_whole_or_nothing_full :
    TemporaryFiles.plain.AsDocumented ∧ ∃ after,
      (Source.publish FileTree.fileSystem (.into (.ofString "tex")) note).run .full =
        (.error (.unwritable Destination.note
          (TemporaryFiles.plain.words Destination.note .noSpace)), after) ∧
      ∀ location, FileTree.full.Spared Destination.note after location := by
  have documented := TemporaryFiles.asDocumented_plain
  have outcome := publish_whole_or_nothing .plain .full (.into (.ofString "tex")) note documented
  have failed : ((Source.publish FileTree.fileSystem (.into (.ofString "tex")) note).run .full).1 =
      .error (.unwritable Destination.note
        (TemporaryFiles.plain.words Destination.note .noSpace)) := by
    decide +kernel
  have ran := Prod.ext_iff.2 ⟨failed, rfl⟩
  rw [← FileTree.fileSystem.eq_1, ran] at outcome
  exact ⟨documented, _, ran, outcome.1 ▸ outcome.2⟩

end Manuscript
