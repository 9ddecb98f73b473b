import Manuscript.Proofs.Path.Names
import Manuscript.Proofs.Publication
import Mathlib.Data.List.Nodup

/-!
# The sources of a batch

What is discovered in a directory are regular files, each once, in the order of their paths. They
all have the same extension, so they differ by their stems, and their results by their names.

* `Source.discover_run`: discovery reads the tree.
* `Source.Listed`: what is known of sources that were discovered in any file system which lists the
  names in a directory (`Source.listed_of_run`).
* `Source.Discovered`: what is known of the sources that were discovered in a tree
  (`Source.discovered_of_run`).
* `Source.Listed.nameOf_inj`: different sources have results of different names.
* `Source.Listed.map_mergeSort_eq`: in whatever order something is listed that belongs to the
  sources, it can be sorted into their order.
-/

namespace Manuscript

/-! ### Reading a directory -/

/-- Whether the path leads to a regular file. -/
def FileTree.isFileAt (tree : FileTree) (path : Path) : Bool :=
  match tree.kind path with
  | .ok .file => true
  | _ => false

theorem FileTree.isFileAt_iff {tree : FileTree} {path : Path} :
    tree.isFileAt path ↔ tree.kind path = .ok .file := by
  rw [isFileAt]
  split
  · next regular => simp [regular]
  · next other => simpa using fun regular => other regular

/-- The directories that can be listed, and what they list. -/
theorem FileTree.list_eq_ok_iff {tree : FileTree} {path : Path} {names : List Text} :
    tree.list path = .ok names ↔ tree.refusals.list path = none ∧
      ∃ location, tree.locate path = .ok location ∧ tree.isDirectoryAt location ∧
        names = (tree.namesIn location).map Name.text := by
  rw [list, grant_eq_ok_iff, listAt]
  refine and_congr_right fun _ => ?_
  cases located : tree.locate path with
  | error cause => simp [bind, Except.bind]
  | ok place =>
    simp only [bind, Except.bind, isDirectoryAt_iff]
    cases found : tree.get? place with
    | none => simp [found]
    | some entry => cases entry <;> simp [found, eq_comm]

namespace Source

theorem filesAmong_run {fs : FileSystem (StateM FileTree)}
    (kind : fs.kind = fun path tree => (tree.kind path, tree)) (tree : FileTree)
    (paths : List Path) : filesAmong fs paths tree = (paths.filter tree.isFileAt, tree) := by
  induction paths with
  | nil => rfl
  | cons path rest ih =>
    have step : filesAmong fs (path :: rest) tree =
        (match (fs.kind path tree).1 with
          | .ok .file => (pure (path :: (filesAmong fs rest (fs.kind path tree).2).1) :
              StateM FileTree (List Path))
          | _ => pure (filesAmong fs rest (fs.kind path tree).2).1)
          (filesAmong fs rest (fs.kind path tree).2).2 := rfl
    have answer : fs.kind path tree = (tree.kind path, tree) := by rw [kind]
    have pure_run : ∀ paths : List Path,
        (pure paths : StateM FileTree (List Path)) tree = (paths, tree) := fun _ => rfl
    rw [step, answer, ih, List.filter_cons, FileTree.isFileAt]
    split <;> simp_all

/-- What is discovered is read off the names that the directory lists and off what they lead to. -/
theorem discover_run_of_list {fs : FileSystem (StateM FileTree)} {tree : FileTree}
    {directory : Path} {answer : Except IoError (List Text)}
    (kind : fs.kind = fun path tree => (tree.kind path, tree))
    (lists : fs.list directory tree = (answer, tree)) (extension : Text) :
    (discover fs directory extension).run tree =
      (match listing directory answer with
        | .error failure => .error failure
        | .ok names => .ok (((withExtension directory extension names).filter
            tree.isFileAt).mergeSort Path.le), tree) := by
  have listed : (ExceptT.mk (listing directory <$> fs.list directory) :
      ExceptT Failure (StateM FileTree) (List Text)).run tree =
        (listing directory (fs.list directory tree).1, (fs.list directory tree).2) := rfl
  rw [lists] at listed
  rw [discover, bind_run, listed]
  cases listing directory answer with
  | error failure => rfl
  | ok names =>
    have files : ∀ paths : List Path, (ExceptT.lift (filesAmong fs paths) :
        ExceptT Failure (StateM FileTree) (List Path)).run tree =
          (.ok (filesAmong fs paths tree).1, (filesAmong fs paths tree).2) := fun _ => rfl
    simp only [bind_run, files, filesAmong_run kind]
    rfl

/-- Discovery reads the tree. -/
theorem discover_run (files : TemporaryFiles) (tree : FileTree) (directory : Path)
    (extension : Text) :
    (discover (FileTree.fileSystemWith files) directory extension).run tree =
      (match listing directory (tree.list directory) with
        | .error failure => .error failure
        | .ok names => .ok (((withExtension directory extension names).filter
            tree.isFileAt).mergeSort Path.le), tree) :=
  discover_run_of_list rfl rfl extension

/-- Discovery leaves the tree as it is, and it does not matter which library there is for temporary
files. -/
theorem discover_run_of_fst {files : TemporaryFiles} {tree : FileTree} {directory : Path}
    {extension : Text} {answer : Except Failure (List Path)} (files' : TemporaryFiles)
    (h : ((discover (FileTree.fileSystemWith files) directory extension).run tree).1 = answer) :
    (discover (FileTree.fileSystemWith files') directory extension).run tree = (answer, tree) := by
  rw [discover_run] at h ⊢
  exact Prod.ext h rfl

/-- Sources of a directory, as they are listed. -/
structure Listed (directory : Path) (extension : Text) (sources : List Path) : Prop where
  nodup : sources.Nodup
  /-- They are in the order of their paths. -/
  ordered : sources.Pairwise fun first second => first.le second
  /-- Each is the path of an entry with the extension. -/
  named : ∀ source ∈ sources, ∃ name : Name, source = directory.join name.text ∧
    name.extension? = some extension

/-- The sources that are discovered in a directory. -/
structure Discovered (tree : FileTree) (directory : Path) (extension : Text)
    (sources : List Path) : Prop extends Listed directory extension sources where
  regular : ∀ source ∈ sources, tree.kind source = .ok .file

end Source

namespace Path

theorem join_inj {directory : Path} {first second : Name}
    (h : directory.join first.text = directory.join second.text) : first = second := by
  simpa [fileName?_join] using congrArg fileName? h

theorem le_total (first second : Path) : (first.le second || second.le first) = true := by
  simp only [le, Bool.or_eq_true, decide_eq_true_eq]
  exact List.le_total first.sortKey second.sortKey

theorem le_trans (first second third : Path) (h : first.le second) (h' : second.le third) :
    first.le third := by
  simp only [le, decide_eq_true_eq, List.not_lt] at *
  exact List.le_trans h h'

end Path

/-- A file system lists the names in a directory, each once. -/
def FileSystem.ListsNames {σ : Type} (fs : FileSystem (StateM σ)) : Prop :=
  ∀ directory state names, (fs.list directory state).1 = .ok names →
    ∃ listed : List Name, listed.Nodup ∧ names = listed.map Name.text

/-- So does a file tree. -/
theorem FileTree.listsNames (files : TemporaryFiles) :
    (FileTree.fileSystemWith files).ListsNames := by
  intro directory tree names listed
  obtain ⟨-, location, -, -, rfl⟩ := FileTree.list_eq_ok_iff.1 listed
  exact ⟨tree.namesIn location, tree.nodup_namesIn location, rfl⟩

namespace Source

variable {tree : FileTree} {directory : Path} {extension : Text} {sources : List Path}

section

variable {σ : Type} {fs : FileSystem (StateM σ)} {state : σ}

/-- The files among some paths are some of them, in their order. -/
theorem filesAmong_sublist (fs : FileSystem (StateM σ)) (paths : List Path) (state : σ) :
    (filesAmong fs paths state).1.Sublist paths := by
  induction paths generalizing state with
  | nil => exact List.Sublist.refl []
  | cons path rest ih =>
    have others := ih (fs.kind path state).2
    have step : filesAmong fs (path :: rest) state =
        (match (fs.kind path state).1 with
          | .ok .file => (pure (path :: (filesAmong fs rest (fs.kind path state).2).1) :
              StateM σ (List Path))
          | _ => pure (filesAmong fs rest (fs.kind path state).2).1)
          (filesAmong fs rest (fs.kind path state).2).2 := rfl
    rw [step]
    cases (fs.kind path state).1 with
    | error => exact others.cons path
    | ok kind =>
      cases kind with
      | file => exact others.cons_cons path
      | _ => exact others.cons path

/-- What is discovered is known of the sources, whatever the file system says of each of them. -/
theorem listed_of_run (lists : fs.ListsNames)
    (h : ((discover fs directory extension).run state).1 = .ok sources) :
    Listed directory extension sources := by
  have listed : (ExceptT.mk (listing directory <$> fs.list directory) :
      ExceptT Failure (StateM σ) (List Text)).run state =
        (listing directory (fs.list directory state).1, (fs.list directory state).2) := rfl
  rw [discover, bind_run, listed] at h
  cases answer : (fs.list directory state).1 with
  | error cause =>
    rw [answer] at h
    cases cause <;> cases h
  | ok names =>
    obtain ⟨names, distinct, rfl⟩ := lists directory state names answer
    rw [answer] at h
    -- those are the sources, sorted, that the file system says are files
    obtain rfl := (Except.ok.inj h).symm
    let candidates := withExtension directory extension (names.map Name.text)
    have files := filesAmong_sublist fs candidates (fs.list directory state).2
    have perm := List.mergeSort_perm
      (filesAmong fs candidates (fs.list directory state).2).1 Path.le
    refine ⟨?_, List.pairwise_mergeSort Path.le_trans Path.le_total _, fun source mem => ?_⟩
    · rw [perm.nodup_iff]
      apply files.nodup
      show (withExtension directory extension (names.map Name.text)).Nodup
      rw [withExtension, List.map_map]
      exact (List.Nodup.map (fun _ _ same => Path.join_inj same) distinct).filter _
    · have candidate : source ∈ withExtension directory extension (names.map Name.text) :=
        files.subset (perm.mem_iff.1 mem)
      rw [withExtension, List.mem_filter, List.map_map] at candidate
      obtain ⟨name, -, rfl⟩ := List.mem_map.1 candidate.1
      refine ⟨name, rfl, ?_⟩
      simpa [Path.extension?, Path.fileName?_join] using candidate.2

end

/-- What is discovered in a tree is known of the sources. -/
theorem discovered_of_run {files : TemporaryFiles}
    (h : ((discover (FileTree.fileSystemWith files) directory extension).run tree).1 =
      .ok sources) : Discovered tree directory extension sources := by
  refine ⟨listed_of_run (FileTree.listsNames files) h, fun source mem => ?_⟩
  rw [discover_run] at h
  cases named : listing directory (tree.list directory) with
  | error failure =>
    rw [named] at h
    cases h
  | ok names =>
    rw [named] at h
    obtain rfl := (Except.ok.inj h).symm
    rw [(List.mergeSort_perm _ _).mem_iff] at mem
    exact FileTree.isFileAt_iff.1 (List.mem_filter.1 mem).2

namespace Listed

variable (h : Listed directory extension sources)

include h

/-- Different sources have results of different names. -/
theorem nameOf_inj (config : Configuration) {source other : Path} (mem : source ∈ sources)
    (mem' : other ∈ sources)
    (same : Destination.nameOf config source = Destination.nameOf config other) :
    source = other := by
  obtain ⟨name, rfl, extension⟩ := h.named source mem
  obtain ⟨name', rfl, extension'⟩ := h.named other mem'
  have stems : name.stem = name'.stem := by
    have texts := congrArg Name.text same
    simpa [Destination.nameOf, Path.stem?, Path.fileName?_join] using texts
  have texts : name.text = name'.text := by
    rw [Name.text_eq_of_extension? extension, Name.text_eq_of_extension? extension', stems]
  rw [texts]

/-- No two sources are at the same place of the order. -/
theorem increasing : sources.Pairwise fun first second => first.sortKey < second.sortKey := by
  refine List.Pairwise.imp_of_mem ?_ (h.ordered.and h.nodup)
  intro source other mem mem' before
  obtain ⟨name, rfl, -⟩ := h.named source mem
  obtain ⟨name', rfl, -⟩ := h.named other mem'
  have le := before.1
  simp only [Path.le, decide_eq_true_eq, List.not_lt] at le
  by_contra notBefore
  apply before.2
  rw [directory.sortKey_join_inj (List.le_antisymm le (List.not_lt.1 notBefore))]

/-- Paths that come in the same order as the sources are the sources. -/
theorem eq_of_perm {paths : List Path} (perm : paths.Perm sources)
    (ordered : paths.Pairwise fun first second => first.le second) : paths = sources := by
  refine perm.eq_of_pairwise (fun source other mem mem' le le' => ?_) ordered h.ordered
  obtain ⟨name, rfl, -⟩ := h.named source (perm.mem_iff.1 mem)
  obtain ⟨name', rfl, -⟩ := h.named other mem'
  simp only [Path.le, decide_eq_true_eq, List.not_lt] at le le'
  rw [directory.sortKey_join_inj (List.le_antisymm le le')]

/-- In whatever order something is listed that belongs to the sources, it can be sorted into their
order. -/
theorem map_mergeSort_eq {α : Type} (source : α → Path) {items : List α}
    (perm : (items.map source).Perm sources) :
    (items.mergeSort fun first second => (source first).le (source second)).map source =
      sources := by
  refine h.eq_of_perm (((List.mergeSort_perm _ _).map source).trans perm) ?_
  rw [List.pairwise_map]
  exact @List.pairwise_mergeSort α (fun first second => (source first).le (source second))
    (fun first second third => Path.le_trans (source first) (source second) (source third))
    (fun first second => Path.le_total (source first) (source second)) items

end Listed

/-- Some of the sources, in their order, are what would be known of if there were no others. -/
theorem Discovered.filter (h : Discovered tree directory extension sources) (keep : Path → Bool) :
    Discovered tree directory extension (sources.filter keep) where
  nodup := h.nodup.filter keep
  ordered := h.ordered.filter keep
  named source mem := h.named source (List.mem_of_mem_filter mem)
  regular source mem := h.regular source (List.mem_of_mem_filter mem)

end Source
end Manuscript
