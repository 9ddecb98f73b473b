import Manuscript.FileTree.Edit
import Manuscript.Proofs.Discovery

/-!
# Discovery, whatever the order of enumeration

A directory is enumerated in any order. The sources that are discovered in it are the same for all
of them: the paths of those entries that have the extension and lead to a regular file, each once,
in the order of paths (`Source.discover_exact`). Being sorted, they cannot tell in which order they
were enumerated (`Source.discover_fileSystemListing_run`). An entry about which nothing is told is
passed over.

Their results do not get in each other's way. Sources of one extension differ by their stems, so the
results have different names; and the name that a path ends with is the name of the entry that is
written there (`FileTree.getLast?_of_landing`), so they are different entries in every tree.
-/

namespace Manuscript

/-! ### Enumeration -/

namespace FileTree

variable {tree : FileTree} {path : Path} {place location : Location} {name : Name}

/-- A file tree that lists the names in each directory in an order of its own. -/
def fileSystemListing (arrange : Path → List Text → List Text) : FileSystem (StateM FileTree) :=
  { fileSystem with list := fun path tree => ((tree.list path).map (arrange path), tree) }

/-- A path leads to a regular file, through whatever links, and it is not refused to tell so. -/
def LeadsToFile (tree : FileTree) (path : Path) : Prop :=
  tree.refusals.kind path = none ∧
    ∃ place bytes, tree.locate path = .ok place ∧ tree.get? place = some (.file bytes)

theorem isFileAt_iff_leadsToFile : tree.isFileAt path ↔ tree.LeadsToFile path := by
  rw [isFileAt_iff]
  constructor
  · intro kind
    obtain ⟨place, bytes, located, found, -⟩ := exists_file_of_kind kind
    exact ⟨(grant_eq_ok_iff.1 kind).1, place, bytes, located, found⟩
  · rintro ⟨granted, place, bytes, located, found⟩
    simp [kind, granted, kindAt, located, found, bind, Except.bind]

/-- What is put at a path is put under the name that the path ends with. -/
theorem getLast?_of_landing (ends : path.directions.getLast? = some (.into name))
    (lands : tree.landing path = .ok place) : place.getLast? = some name := by
  obtain ⟨-, -, links, leads, -⟩ := locateLast_eq_ok_iff.1 (locateLast_of_landing lands).1
  obtain ⟨front, split⟩ := List.getLast?_eq_some_iff.1 ends
  rw [split] at leads
  obtain ⟨mid, before, after, -, -, last, -⟩ :=
    exists_leads_of_append (List.cons_ne_nil _ _) leads
  cases last with
  | last here fits _ => exact List.getLast?_concat
  | into _ _ more => exact absurd rfl more
  | link _ _ followed => simp at followed

end FileTree

/-! ### What is discovered -/

namespace Source

variable {tree : FileTree} {directory source : Path} {location : Location} {extension : Text}
  {names : List Text} {sources : List Path} {arrange : Path → List Text → List Text}

theorem mem_withExtension_iff : source ∈ withExtension directory extension names ↔
    ∃ name ∈ names, source = directory.join name ∧ source.extension? = some extension := by
  rw [withExtension, List.mem_filter, List.mem_map]
  simp only [decide_eq_true_eq]
  constructor
  · rintro ⟨⟨name, mem, rfl⟩, has⟩
    exact ⟨name, mem, rfl, has⟩
  · rintro ⟨name, mem, rfl, has⟩
    exact ⟨⟨name, mem, rfl⟩, has⟩

/-- **The order of enumeration** does not show in what is discovered. -/
theorem discover_fileSystemListing_run (perm : ∀ path names, (arrange path names).Perm names)
    (found : (discover FileTree.fileSystem directory extension).run tree = (.ok sources, tree)) :
    (discover (FileTree.fileSystemListing arrange) directory extension).run tree =
      (.ok sources, tree) := by
  have ordered := (discovered_of_run (congrArg Prod.fst found)).toListed
  have run := @discover_run_of_list (FileTree.fileSystemListing arrange) tree directory
    ((tree.list directory).map (arrange directory)) rfl rfl extension
  rw [FileTree.fileSystem, discover_run] at found
  rw [run]
  cases listed : tree.list directory with
  | error cause =>
    rw [listed] at found
    cases cause <;> cases found
  | ok names =>
    rw [listed] at found
    obtain rfl := Except.ok.inj (congrArg Prod.fst found)
    refine Prod.ext (congrArg Except.ok ?_) rfl
    -- both are sorted, and they are permutations of each other
    refine ordered.eq_of_perm ?_ (List.pairwise_mergeSort Path.le_trans Path.le_total _)
    have candidates : (withExtension directory extension (arrange directory names)).Perm
        (withExtension directory extension names) :=
      ((perm directory names).map directory.join).filter _
    exact ((List.mergeSort_perm _ _).trans (candidates.filter _)).trans
      (List.mergeSort_perm _ _).symm

/-- What is discovered in a directory that stands at a location, told without reading it. -/
structure Exact (tree : FileTree) (directory : Path) (location : Location) (extension : Text)
    (sources : List Path) : Prop where
  /-- Each path comes before the next. -/
  increasing : sources.Pairwise fun first second => first.sortKey < second.sortKey
  /-- They are the paths of the entries of the directory that have the extension behind the last
  period of their names, with something in front of it, and that lead to a regular file. -/
  mem_iff : ∀ source, source ∈ sources ↔ ∃ name : Name, source = directory.join name.text ∧
    (tree.get? (location ++ [name])).isSome ∧
    (∃ stem : Text, stem ≠ [] ∧ name.text = stem ++ '.' :: extension ∧ '.' ∉ extension) ∧
    tree.LeadsToFile source
  /-- Under every configuration, different sources have different destinations. -/
  destination_ne : ∀ config, ∀ source ∈ sources, ∀ other ∈ sources, source ≠ other →
    Destination.ofSource config source ≠ Destination.ofSource config other
  /-- The entries that are written there are different as well, in whatever tree. -/
  landing_ne : ∀ config, ∀ source ∈ sources, ∀ other ∈ sources, source ≠ other →
    ∀ (after : FileTree) (place place' : Location),
      after.landing (Destination.ofSource config source) = .ok place →
      after.landing (Destination.ofSource config other) = .ok place' → place ≠ place'

theorem exact_of_run {names : List Text} (listed : tree.list directory = .ok names)
    (found : (discover FileTree.fileSystem directory extension).run tree = (.ok sources, tree)) :
    ∃ location, tree.locate directory = .ok location ∧ tree.isDirectoryAt location ∧
      Exact tree directory location extension sources := by
  have discovered := discovered_of_run (congrArg Prod.fst found)
  obtain ⟨-, location, located, stands, rfl⟩ := FileTree.list_eq_ok_iff.1 listed
  have mem_iff : ∀ source, source ∈ sources ↔ source ∈ withExtension directory extension
      ((tree.namesIn location).map Name.text) ∧ tree.LeadsToFile source := by
    intro source
    rw [FileTree.fileSystem, discover_run, listed] at found
    obtain rfl := Except.ok.inj (congrArg Prod.fst found)
    rw [(List.mergeSort_perm _ _).mem_iff, List.mem_filter, FileTree.isFileAt_iff_leadsToFile]
  -- different sources have results of different names
  have names_ne : ∀ config, ∀ source ∈ sources, ∀ other ∈ sources, source ≠ other →
      Destination.nameOf config source ≠ Destination.nameOf config other :=
    fun config source mem other mem' differ same =>
      differ (discovered.nameOf_inj config mem mem' same)
  have ends : ∀ config source, (Destination.ofSource config source).directions.getLast? =
      some (.into (Destination.nameOf config source)) := by
    intro config source
    rw [Destination.ofSource_eq, Path.directions_join, List.getLast?_concat]
  refine ⟨location, located, stands, discovered.increasing, fun source => ?_, ?_, ?_⟩
  · rw [mem_iff, mem_withExtension_iff]
    constructor
    · rintro ⟨⟨_, mem, rfl, has⟩, leads⟩
      obtain ⟨name, within, rfl⟩ := List.mem_map.1 mem
      rw [Path.extension?, Path.fileName?_join] at has
      exact ⟨name, rfl, tree.mem_namesIn.1 within, Name.extension?_eq_some_iff.1 has, leads⟩
    · rintro ⟨name, rfl, stands, spelled, leads⟩
      refine ⟨⟨name.text, List.mem_map_of_mem (tree.mem_namesIn.2 stands), rfl, ?_⟩, leads⟩
      rw [Path.extension?, Path.fileName?_join]
      exact Name.extension?_eq_some_iff.2 spelled
  · intro config source mem other mem' differ same
    have lasts := ends config source
    rw [same, ends, Option.some_inj] at lasts
    exact names_ne config source mem other mem' differ (Path.Direction.into.inj lasts).symm
  · rintro config source mem other mem' differ after place _ lands lands' rfl
    have named := FileTree.getLast?_of_landing (ends config source) lands
    rw [FileTree.getLast?_of_landing (ends config other) lands', Option.some_inj] at named
    exact names_ne config source mem other mem' differ named.symm

/-- **Discovery is exact.** A directory that can be listed has the same sources in whatever order it
is enumerated: exactly those entries of it that have the extension and lead to a regular file, in
increasing order. No two of them share a destination. -/
theorem discover_exact (tree : FileTree) (directory : Path) (extension : Text) {names : List Text}
    (listed : tree.list directory = .ok names) :
    ∃ location sources, tree.locate directory = .ok location ∧ tree.isDirectoryAt location ∧
      Exact tree directory location extension sources ∧
      ∀ arrange : Path → List Text → List Text, (∀ path names, (arrange path names).Perm names) →
        (discover (FileTree.fileSystemListing arrange) directory extension).run tree =
          (.ok sources, tree) := by
  have found := discover_run .plain tree directory extension
  rw [listed] at found
  obtain ⟨location, located, stands, exact_sources⟩ := exact_of_run listed found
  exact ⟨location, _, located, stands, exact_sources, fun arrange perm =>
    discover_fileSystemListing_run perm found⟩

end Source

/-- A tree with a directory that holds two documents and a link to a file, next to a hidden file, a
text, a directory and a link to nothing. -/
def FileTree.assorted : FileTree :=
  let document := Text.encode ['A']
  workspace.putFile (.ofString "content/.md") document
    |>.putFile (.ofString "content/c.txt") document
    |>.putDirectory (.ofString "content/d.md")
    |>.putLink (.ofString "content/gone.md") (.ofString "nowhere.md")
    |>.putLink (.ofString "content/link.md") (.ofString "c.txt")
    |>.putFile (.ofString "content/b.tar.md") document
    |>.putFile (.ofString "content/a.md") document

/-- The names in the directory, as they are listed. -/
def FileTree.assortedNames : List Text :=
  ["a.md", "b.tar.md", "link.md", "gone.md", "d.md", "c.txt", ".md"].map String.toList

/-- The documents in the directory, in order. -/
def Source.assorted : List Path :=
  ["content/a.md", "content/b.tar.md", "content/link.md"].map Path.ofString

theorem Source.discover_exact_assorted :
    FileTree.assorted.list (.ofString "content") = .ok FileTree.assortedNames ∧
    (∃ location,
      Exact FileTree.assorted (.ofString "content") location "md".toList assorted) ∧
    (discover (FileTree.fileSystemListing fun _ names => names.reverse) (.ofString "content")
      "md".toList).run FileTree.assorted = (.ok assorted, FileTree.assorted) := by
  have listed : FileTree.assorted.list (.ofString "content") = .ok FileTree.assortedNames := by
    decide +kernel
  have files : (withExtension (.ofString "content") "md".toList FileTree.assortedNames).filter
      FileTree.assorted.isFileAt = assorted := by decide +kernel
  have ordered : assorted.Pairwise fun first second => first.le second := by decide +kernel
  have found : (discover FileTree.fileSystem (.ofString "content") "md".toList).run
      FileTree.assorted = (.ok assorted, FileTree.assorted) := by
    rw [FileTree.fileSystem, discover_run, listed]
    simp only [listing, files, List.mergeSort_of_pairwise ordered]
  have perm : ∀ (path : Path) (names : List Text), names.reverse.Perm names :=
    fun _ names => names.reverse_perm
  have run := discover_fileSystemListing_run perm found
  obtain ⟨location, _, -, -, exact_sources, same⟩ :=
    discover_exact FileTree.assorted (.ofString "content") "md".toList listed
  -- the run tells which sources these are
  obtain rfl := Except.ok.inj (Prod.mk.inj ((same _ perm).symm.trans run)).1
  exact ⟨listed, ⟨location, exact_sources⟩, run⟩

end Manuscript
