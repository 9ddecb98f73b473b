import Manuscript.Batch.Directory
import Manuscript.Proofs.Discovery

/-!
# What the documents of a batch leave behind

The documents of a batch share the output directory and little else. While a batch is under way, the
tree is determined by what it was at the start and by which results were tried to be written, in
whatever order (`Batch.Written`, `Batch.Written.same`): nothing is different before the first of
them; then the directories are made, as far as they can be; and then the results stand where their
paths land.

As long as no result takes the place of another source, or of a link on the way to one or to the
output directory (`Batch.Apart`), a document is not concerned by the others:

* `Batch.Written.reads`: it is read as it was at the start;
* `Batch.Written.writes`: its result is written as it would have been at the start, or refused for
  the reason that would have been given then. Only the words of the reason may be others
  (`FileTree.wordsVary`): where the directories are made half-way and no further, the first request
  tells why it came to a halt, the later ones why they do; and where the temporary file is refused,
  the reason names it, and its name is another one each time.
-/

namespace Manuscript

/-! ### Many files -/

namespace FileTree

variable {tree other after : FileTree} {location place : Location} {path : Path}
  {files : List (Location × ByteArray)} {content : ByteArray}

/-- The tree with some files, each in place of what stood there. -/
def insertAll (tree : FileTree) (files : List (Location × ByteArray)) : FileTree :=
  files.foldl (fun tree file => tree.insert file.1 (.file file.2)) tree

theorem insertAll_append (tree : FileTree) (files : List (Location × ByteArray))
    (file : Location × ByteArray) :
    tree.insertAll (files ++ [file]) = (tree.insertAll files).insert file.1 (.file file.2) := by
  simp [insertAll]

theorem workingDirectory_insertAll (tree : FileTree) (files : List (Location × ByteArray)) :
    (tree.insertAll files).workingDirectory = tree.workingDirectory := by
  induction files using List.reverseRecOn with
  | nil => rfl
  | append_singleton files file ih => rw [insertAll_append, ← ih]; rfl

theorem refusals_insertAll (tree : FileTree) (files : List (Location × ByteArray)) :
    (tree.insertAll files).refusals = tree.refusals := by
  induction files using List.reverseRecOn with
  | nil => rfl
  | append_singleton files file ih => rw [insertAll_append, ← ih]; rfl

theorem get?_insertAll_of_not_mem (h : location ∉ files.map Prod.fst) :
    (tree.insertAll files).get? location = tree.get? location := by
  induction files using List.reverseRecOn with
  | nil => rfl
  | append_singleton files file ih =>
    simp only [List.map_append, List.map_cons, List.map_nil, List.mem_append, List.mem_singleton,
      not_or] at h
    rw [insertAll_append, get?_insert_of_ne _ h.2, ih h.1]

theorem get?_insertAll_of_mem (distinct : (files.map Prod.fst).Nodup)
    (mem : (place, content) ∈ files) (nonroot : place ≠ []) :
    (tree.insertAll files).get? place = some (.file content) := by
  induction files using List.reverseRecOn with
  | nil => simp at mem
  | append_singleton files file ih =>
    rw [List.map_append, List.nodup_append] at distinct
    rw [insertAll_append]
    rcases List.mem_append.1 mem with mem | mem
    · have differs : place ≠ file.1 :=
        distinct.2.2 place (List.mem_map_of_mem (f := Prod.fst) mem) file.1 (by simp)
      rw [get?_insert_of_ne _ differs, ih distinct.1 mem]
    · obtain rfl := List.mem_singleton.1 mem
      exact get?_insert_self _ nonroot _

/-- Files where no directories stand do not change where directories are. -/
theorem keeps_insertAll (distinct : (files.map Prod.fst).Nodup)
    (plain : ∀ file ∈ files, tree.isDirectoryAt file.1 = false) :
    tree.Keeps (tree.insertAll files) := by
  induction files using List.reverseRecOn with
  | nil => exact .refl tree
  | append_singleton files file ih =>
    have absent : file.1 ∉ files.map Prod.fst := fun mem => by
      rw [List.map_append, List.nodup_append] at distinct
      exact distinct.2.2 _ mem file.1 (by simp) rfl
    have front := ih (by rw [List.map_append, List.nodup_append] at distinct; exact distinct.1)
      fun other mem => plain other (List.mem_append_left _ mem)
    rw [insertAll_append]
    refine front.trans (keeps_insert_file ?_ file.2)
    rw [isDirectoryAt, get?_insertAll_of_not_mem absent]
    exact plain file (by simp)

/-- It does not matter in which order files are put to different locations. -/
theorem same_insertAll_of_perm {others : List (Location × ByteArray)} (perm : files.Perm others)
    (distinct : (files.map Prod.fst).Nodup) :
    (tree.insertAll files).Same (tree.insertAll others) := by
  refine ⟨by rw [workingDirectory_insertAll, workingDirectory_insertAll],
    by rw [refusals_insertAll, refusals_insertAll], fun location => ?_⟩
  by_cases root : location = []
  · rw [root, get?_nil, get?_nil]
  · by_cases mem : location ∈ files.map Prod.fst
    · obtain ⟨⟨location, content⟩, file, rfl⟩ := List.mem_map.1 mem
      rw [get?_insertAll_of_mem distinct file root,
        get?_insertAll_of_mem ((perm.map _).nodup_iff.1 distinct) (perm.mem_iff.1 file) root]
    · rw [get?_insertAll_of_not_mem mem,
        get?_insertAll_of_not_mem fun mem' => mem ((perm.map _).mem_iff.2 mem')]

/-- The trail to what a path leads to is that of the links on the way and the place itself. -/
theorem exists_trail_eq (h : tree.locate path = .ok place) : ∃ links,
    tree.Leads true (tree.startOf path) path.route links place ∧ links.length ≤ linkLimit ∧
      tree.trail path = links ++ [place] := by
  obtain ⟨-, links, leads, within⟩ := locate_eq_ok_iff.1 h
  exact ⟨links, leads, within, (leads.walkLinks_eq within).2⟩

theorem mem_trail_of_locate (h : tree.locate path = .ok place) : place ∈ tree.trail path := by
  obtain ⟨links, -, -, trail⟩ := exists_trail_eq h
  rw [trail]
  exact List.mem_append_right _ List.mem_cons_self

/-- A path leads to the same place in another tree that has the same there and at the links on the
way. -/
theorem locate_of_keeps (h : tree.locate path = .ok place) (keeps : tree.Keeps other)
    (same : ∀ location ∈ tree.trail path, other.get? location = tree.get? location) :
    other.locate path = .ok place ∧ other.get? place = tree.get? place := by
  obtain ⟨links, leads, within, trail⟩ := exists_trail_eq h
  rw [trail] at same
  have start : other.startOf path = tree.startOf path := by
    rw [startOf, startOf, keeps.workingDirectory]
  have leads := leads.mono keeps fun link mem => same link (List.mem_append_left _ mem)
  have check := (locate_eq_ok_iff.1 h).1
  exact ⟨locate_eq_ok_iff.2 ⟨check, links, start ▸ leads, within⟩, same place (by simp)⟩

/-- Something stands at each link on the way to what a path leads to. -/
theorem isSome_of_mem_trail (h : tree.locate path = .ok place) (stands : (tree.get? place).isSome)
    (mem : location ∈ tree.trail path) : (tree.get? location).isSome := by
  obtain ⟨links, leads, -, trail⟩ := exists_trail_eq h
  rw [trail, List.mem_append, List.mem_singleton] at mem
  rcases mem with mem | rfl
  · obtain ⟨target, found⟩ := leads.exists_link _ mem
    rw [found]
    rfl
  · exact stands

end FileTree

/-! ### Destinations apart -/

/-- Where the entry stands that a destination denotes, once the directories are made that lead to
it. -/
def FileTree.entryOf (tree : FileTree) (destination : Path) : Option Location :=
  ((tree.prepared destination).locateLast destination .busy).toOption

/-- Whether the directories that lead to a destination can be made half-way and no further. -/
def FileTree.stopsHalfway (tree : FileTree) (destination : Path) : Bool :=
  match tree.makeDirectories destination.directory.ancestors with
  | (.ok (), _) => false
  | (.error _, made) => made.entries ≠ tree.entries

/-- Whether the words in which a refusal to write to a destination is told may vary: the directories
that lead to it can be made half-way and no further, or it is the temporary file that is refused. -/
def FileTree.wordsVary (tree : FileTree) (destination : Path) : Bool :=
  tree.stopsHalfway destination || tree.refusals.wordsVary destination

namespace Batch

/-- No result takes the place of another source, or of a link on the way to one. -/
structure SourcesApart (config : Configuration) (tree : FileTree) (sources : List Path) : Prop where
  source : ∀ source ∈ sources, ∀ other ∈ sources, source ≠ other →
    ∀ place ∈ tree.entryOf (Destination.ofSource config other), place ∉ tree.trail source

/-- Nor of a link on the way to the directory that holds another result. -/
structure Apart (config : Configuration) (tree : FileTree) (sources : List Path) : Prop extends
    SourcesApart config tree sources where
  directory : ∀ source ∈ sources, ∀ other ∈ sources, source ≠ other →
    ∀ place ∈ tree.entryOf (Destination.ofSource config other),
      place ∉ (tree.prepared (Destination.ofSource config source)).trail
        (Destination.ofSource config source).directory

/-- Of apart destinations, some are apart. -/
theorem Apart.filter {config : Configuration} {tree : FileTree} {sources : List Path}
    (h : Apart config tree sources) (keep : Path → Bool) :
    Apart config tree (sources.filter keep) where
  source source mem other mem' :=
    h.source source (List.mem_of_mem_filter mem) other (List.mem_of_mem_filter mem')
  directory source mem other mem' :=
    h.directory source (List.mem_of_mem_filter mem) other (List.mem_of_mem_filter mem')

/-! ### The tree while a batch is under way -/

section

variable (config : Configuration) (start : FileTree)

/-- The file that comes of a source in a tree with all the directories: its result, where it is
put. -/
def fileOf (made : FileTree) (source : Path) : Option (Location × ByteArray) :=
  match Source.conversionIn start config source,
    made.placeFor (Destination.ofSource config source) with
  | .ok conversion, .ok place => some (place, conversion.latex.encode)
  | _, _ => none

/-- Whether a tree is what comes of the tree at the start when some documents are done, in whatever
order. Their results need the directories; if those can be made, the files stand in them. -/
def Written (done : List Path) (tree : FileTree) : Prop :=
  if done.any fun source => (Source.conversionIn start config source).isOk then
    match start.makeDirectories config.outputDirectory.holding.ancestors with
    | (.error _, made) => tree = made
    | (.ok (), made) => tree.Same (made.insertAll (done.filterMap (fileOf config start made)))
  else tree = start

end

variable {config : Configuration} {start tree made after : FileTree} {directory : Path}
  {extension : Text} {sources done : List Path} {source : Path} {location place : Location}
  {links : List Location} {content : ByteArray} {conversion : Conversion}
  {files files' : TemporaryFiles}

theorem fileOf_eq_some (h : fileOf config start made source = some (place, content)) :
    ∃ conversion, Source.conversionIn start config source = .ok conversion ∧
      content = conversion.latex.encode ∧
      made.landing (Destination.ofSource config source) = .ok place := by
  rw [fileOf] at h
  split at h
  · next converted placed =>
    cases h
    exact ⟨_, converted, rfl, FileTree.landing_of_placeFor placed⟩
  · cases h

/-- A result lands in the directory under its own name. -/
theorem eq_of_landing (reaches : made.Reaches config.outputDirectory.holding links location)
    (lands : made.landing (Destination.ofSource config source) = .ok place) :
    place = location ++ [Destination.nameOf config source] := by
  obtain ⟨stays, goes⟩ :=
    config.outputDirectory.goesOn_directory_join (Destination.nameOf config source)
  rw [Path.directory_join] at goes
  exact reaches.eq_of_landing goes lands

/-- What is placed somewhere stands under the last name of a destination. -/
theorem exists_entryOf
    (making : start.makeDirectories config.outputDirectory.holding.ancestors = (.ok (), made))
    (mem : place ∈ (done.filterMap (fileOf config start made)).map Prod.fst) :
    ∃ source ∈ done, place ∈ start.entryOf (Destination.ofSource config source) ∧
      made.landing (Destination.ofSource config source) = .ok place := by
  obtain ⟨⟨place, content⟩, placed, rfl⟩ := List.mem_map.1 mem
  obtain ⟨source, done, file⟩ := List.mem_filterMap.1 placed
  obtain ⟨_, -, -, lands⟩ := fileOf_eq_some file
  refine ⟨source, done, ?_, lands⟩
  rw [FileTree.entryOf, FileTree.prepared, Destination.directory_ofSource, making,
    (FileTree.locateLast_of_landing lands).1]
  rfl

section

variable (discovered : Source.Discovered start directory extension sources)
  (within : ∀ source ∈ done, source ∈ sources) (distinct : done.Nodup)

include discovered within

/-- The result of another source lands elsewhere. -/
theorem landing_ne (reaches : made.Reaches config.outputDirectory.holding links location)
    (mem : source ∈ sources) (new : source ∉ done) {other : Path} (done : other ∈ done)
    (lands : made.landing (Destination.ofSource config other) = .ok place) :
    location ++ [Destination.nameOf config source] ≠ place := by
  rw [eq_of_landing reaches lands]
  intro same
  have names := (List.cons.inj (List.append_cancel_left same)).1
  exact new (discovered.nameOf_inj config mem (within other done) names ▸ done)

include distinct

/-- No two results land at one place. -/
theorem nodup_fileOf (reaches : made.Reaches config.outputDirectory.holding links location) :
    ((done.filterMap (fileOf config start made)).map Prod.fst).Nodup := by
  rw [List.Nodup, List.pairwise_map, List.pairwise_filterMap]
  refine List.Pairwise.imp_of_mem (fun {source other} mem mem' differ => ?_) distinct
  rintro ⟨place, _⟩ file ⟨place', _⟩ file' same
  obtain ⟨_, -, -, lands⟩ := fileOf_eq_some file
  obtain ⟨_, -, -, lands'⟩ := fileOf_eq_some file'
  have names := (eq_of_landing reaches lands).symm.trans (same.trans (eq_of_landing reaches lands'))
  exact differ (discovered.nameOf_inj config (within _ mem) (within _ mem')
    (List.cons.inj (List.append_cancel_left names)).1)

/-- The results do not change where directories are. -/
theorem keeps_fileOf (reaches : made.Reaches config.outputDirectory.holding links location) :
    made.Keeps (made.insertAll (done.filterMap (fileOf config start made))) := by
  refine FileTree.keeps_insertAll (nodup_fileOf discovered within distinct reaches) ?_
  rintro ⟨place, content⟩ placed
  obtain ⟨source, -, file⟩ := List.mem_filterMap.1 placed
  obtain ⟨_, -, -, lands⟩ := fileOf_eq_some file
  exact (FileTree.locateLast_of_landing lands).2

/-- A tree that was written to is one with more directories, in which something else is different
only where a result has taken its place. -/
theorem Written.exists_base (h : Written config start done tree) :
    ∃ base, start.GrowsTo base ∧ base.Keeps tree ∧ ∀ place, tree.get? place ≠ base.get? place →
      ∃ source ∈ done, place ∈ start.entryOf (Destination.ofSource config source) := by
  have grows := start.growsTo_makeDirectories config.outputDirectory.holding.ancestors
  rw [Written] at h
  split at h
  · split at h
    · next making =>
      rw [making] at grows
      exact ⟨tree, h ▸ grows, .refl tree, fun place differs => absurd rfl differs⟩
    · next made making =>
      rw [making] at grows
      obtain ⟨links, location, reaches⟩ := FileTree.exists_reaches_of_makeDirectories making
      refine ⟨made, grows, (keeps_fileOf discovered within distinct reaches).trans h.keeps,
        fun place differs => ?_⟩
      by_contra absent
      rw [h.get? place] at differs
      refine differs (FileTree.get?_insertAll_of_not_mem fun mem => absent ?_)
      obtain ⟨source, done, entry, -⟩ := exists_entryOf making mem
      exact ⟨source, done, entry⟩
  · exact ⟨start, .refl start, h ▸ .refl start, fun place differs => absurd (h ▸ rfl) differs⟩

/-- Directories stay where they are, and no links are new. -/
theorem Written.keeps (h : Written config start done tree) : start.Keeps tree := by
  obtain ⟨base, grows, keeps, -⟩ := h.exists_base discovered within distinct
  exact grows.keeps.trans keeps

variable (apart : Apart config start sources) (mem : source ∈ sources) (new : source ∉ done)

include apart mem new

/-- The links on the way to a source are as they were at the start, and so is the source. -/
theorem Written.get?_trail (h : Written config start done tree) :
    ∀ location ∈ start.trail source, tree.get? location = start.get? location := by
  obtain ⟨base, grows, -, changed⟩ := h.exists_base discovered within distinct
  obtain ⟨origin, bytes, located, found, -⟩ :=
    FileTree.exists_file_of_kind (discovered.regular source mem)
  intro location trail
  -- something stands there, so it is not for the new directories to change it
  have stands := FileTree.isSome_of_mem_trail located (by rw [found]; rfl) trail
  by_contra differs
  rw [← grows.get?_of_isSome stands] at differs
  obtain ⟨other, done, entry⟩ := changed location differs
  have different : source ≠ other := fun same => new (same ▸ done)
  exact apart.source source mem other (within other done) different location entry trail

/-- **Reading.** A source is read as it was at the start. -/
theorem Written.reads (h : Written config start done tree) :
    tree.kind source = start.kind source ∧ tree.read source = start.read source := by
  obtain ⟨origin, bytes, located, -, -⟩ :=
    FileTree.exists_file_of_kind (discovered.regular source mem)
  obtain ⟨located', found'⟩ := FileTree.locate_of_keeps located
    (h.keeps discovered within distinct)
    (h.get?_trail discovered within distinct apart mem new)
  have refusals := (h.keeps discovered within distinct).refusals
  constructor
  · rw [FileTree.kind, FileTree.kind, FileTree.kindAt, FileTree.kindAt, located, located', refusals]
    simp only [bind, Except.bind, found']
  · rw [FileTree.read, FileTree.read, FileTree.readAt, FileTree.readAt, located, located', refusals]
    simp only [bind, Except.bind, found']

section Granted

variable
  (making : start.makeDirectories config.outputDirectory.holding.ancestors = (.ok (), made))
  (reaches : made.Reaches config.outputDirectory.holding links location)
  (h : tree.Same (made.insertAll (done.filterMap (fileOf config start made))))

include making reaches h

/-- The directory of the results stays where it is. -/
theorem reaches_of_same : tree.Reaches config.outputDirectory.holding links location := by
  refine reaches.mono ((keeps_fileOf discovered within distinct reaches).trans h.keeps)
    fun link trail => (h.get? link).trans (FileTree.get?_insertAll_of_not_mem fun placed => ?_)
  obtain ⟨other, done, entry, -⟩ := exists_entryOf making placed
  have different : source ≠ other := fun same => new (same ▸ done)
  have absent := apart.directory source mem other (within other done) different link entry
  rw [FileTree.prepared, Destination.directory_ofSource, making, reaches.trail_eq] at absent
  exact absent (List.mem_append_left _ trail)

/-- A result is put where it would be put if no other had been written. -/
theorem placeFor_of_same : tree.placeFor (Destination.ofSource config source) =
    made.placeFor (Destination.ofSource config source) := by
  obtain ⟨stays, goes⟩ :=
    config.outputDirectory.goesOn_directory_join (Destination.nameOf config source)
  rw [Path.directory_join] at goes
  have still := reaches_of_same discovered within distinct apart mem new making reaches h
  refine FileTree.placeFor_congr (h.refusals.trans (FileTree.refusals_insertAll made _))
    (reaches.landing_congr goes still ?_)
  rw [FileTree.isDirectoryAt, FileTree.isDirectoryAt, h.get?,
    FileTree.get?_insertAll_of_not_mem fun placed => ?_]
  obtain ⟨other, done, -, lands⟩ := exists_entryOf making placed
  exact landing_ne discovered within reaches mem new done lands rfl

end Granted

/-- Where the directories can be made, they can still be made or are there, and then all results
that were written are in place. -/
theorem Written.exists_ready (h : Written config start done tree)
    (making : start.makeDirectories config.outputDirectory.holding.ancestors = (.ok (), made)) :
    ∃ ready, tree.makeDirectories config.outputDirectory.holding.ancestors = (.ok (), ready) ∧
      ready.Same (made.insertAll (done.filterMap (fileOf config start made))) := by
  obtain ⟨links, location, reaches⟩ := FileTree.exists_reaches_of_makeDirectories making
  rw [Written, making] at h
  split at h
  · have leads := FileTree.leadsToDirectory_iff_reaches.2
      ⟨_, _, reaches_of_same discovered within distinct apart mem new making reaches h⟩
    exact ⟨tree, FileTree.makeDirectories_of_leadsToDirectory leads _, h⟩
  · next untried =>
    -- no result was tried to be written, so none is in place
    have none : done.filterMap (fileOf config start made) = [] := by
      refine List.filterMap_eq_nil_iff.2 fun source done => ?_
      cases file : fileOf config start made source with
      | none => rfl
      | some file =>
        obtain ⟨_, converted, -⟩ := fileOf_eq_some file
        refine absurd (List.any_eq_true.2 ⟨source, done, ?_⟩) untried
        rw [converted]
        rfl
    exact ⟨made, h ▸ making, by rw [none]; exact .refl made⟩

/-- Where the directories can be made, a result is written or refused as it would have been at the
start, and then it is in place like the others. -/
theorem Written.writes_of_granted (documented : files.AsDocumented)
    (documented' : files'.AsDocumented) (h : Written config start done tree)
    (making : start.makeDirectories config.outputDirectory.holding.ancestors = (.ok (), made))
    (converted : Source.conversionIn start config source = .ok conversion) :
    let destination := Destination.ofSource config source
    start.refusals.ToldAlike files files' destination
        (tree.replaceAt files destination conversion.latex.encode).1
        (start.replaceAt files' destination conversion.latex.encode).1 ∧
      (tree.replaceAt files destination conversion.latex.encode).2.Same
        (made.insertAll ((done ++ [source]).filterMap (fileOf config start made))) := by
  -- both requests come to the point where the directories are there, and put the result alike
  obtain ⟨ready, makingNow, same⟩ := h.exists_ready discovered within distinct apart mem new making
  obtain ⟨links, location, reaches⟩ := FileTree.exists_reaches_of_makeDirectories making
  have puts := placeFor_of_same discovered within distinct apart mem new making reaches same
  have refusals : made.refusals = start.refusals := by
    have grows := start.growsTo_makeDirectories config.outputDirectory.holding.ancestors
    rw [making] at grows
    exact grows.refusals
  have refusalsNow : ready.refusals = start.refusals :=
    (same.refusals.trans (FileTree.refusals_insertAll made _)).trans refusals
  rw [← Destination.directory_ofSource config source] at making makingNow
  obtain ⟨alone, outcome⟩ := FileTree.replaceAt_of_made documented' config.outputDirectory
    (Destination.nameOf config source) making conversion.latex.encode
  obtain ⟨now, outcomeNow⟩ := FileTree.replaceAt_of_made documented config.outputDirectory
    (Destination.nameOf config source) makingNow conversion.latex.encode
  rw [← Destination.ofSource_eq] at outcome outcomeNow
  rw [puts, refusalsNow] at outcomeNow
  rw [refusals] at outcome
  rw [List.filterMap_append]
  cases placed : made.placeFor (Destination.ofSource config source) with
  | ok place =>
    rw [placed] at outcome outcomeNow
    have file : fileOf config start made source = some (place, conversion.latex.encode) := by
      rw [fileOf, converted, placed]
    simp only [outcome.1, outcomeNow.1, List.filterMap_cons_some file, List.filterMap_nil,
      FileTree.insertAll_append]
    exact ⟨.inl rfl, outcomeNow.2.trans (same.insert place _)⟩
  | error cause =>
    rw [placed] at outcome outcomeNow
    have file : fileOf config start made source = none := by rw [fileOf, converted, placed]
    simp only [outcome.1, outcomeNow.1, List.filterMap_cons_none file, List.filterMap_nil,
      List.append_nil]
    exact ⟨.inr ⟨cause, rfl, rfl⟩, outcomeNow.2.trans same⟩

end

/-- The directories of a result are made as at the start, or they are there already, and the output
directory is reached at the place where it is then. -/
theorem Written.prepared_cases (discovered : Source.Discovered start directory extension sources)
    (within : ∀ source ∈ done, source ∈ sources) (distinct : done.Nodup)
    (apart : Apart config start sources) (mem : source ∈ sources) (new : source ∉ done)
    (h : Written config start done tree) :
    let paths := config.outputDirectory.holding.ancestors
    (tree.makeDirectories paths).2 = (start.makeDirectories paths).2 ∨
      ∃ links location, tree.Reaches config.outputDirectory.holding links location ∧
        (start.makeDirectories paths).2.Reaches config.outputDirectory.holding links location := by
  intro paths
  cases making : start.makeDirectories paths with
  | mk answer made =>
    have written := h
    rw [Written, making] at written
    split at written
    · cases answer with
      | error cause =>
        obtain ⟨cause', again⟩ := FileTree.makeDirectories_again
          (Path.isChain_ancestors config.outputDirectory.holding) making
        exact .inl (by rw [written, again])
      | ok =>
        obtain ⟨links, location, reaches⟩ := FileTree.exists_reaches_of_makeDirectories making
        exact .inr ⟨links, location,
          reaches_of_same discovered within distinct apart mem new making reaches written, reaches⟩
    · exact .inl (by rw [written, making])

/-- Where the directories are refused, every result is refused. The reason is the same as at the
start, unless some of them were made. -/
theorem Written.writes_of_refused {cause : IoError} (h : Written config start done tree)
    (making : start.makeDirectories config.outputDirectory.holding.ancestors = (.error cause, made))
    (files : TemporaryFiles) (source : Path) (content : ByteArray) : ∃ cause',
      tree.replaceAt files (Destination.ofSource config source) content = (.error cause', made) ∧
        (cause' = cause ∨ made.entries ≠ start.entries) := by
  have held := Destination.directory_ofSource config source
  rw [Written, making] at h
  split at h
  · subst h
    obtain ⟨cause', again⟩ :=
      FileTree.makeDirectories_again (Path.isChain_ancestors config.outputDirectory.holding) making
    refine ⟨cause', FileTree.replaceAt_of_refused (held ▸ again) files content, ?_⟩
    by_cases unmade : tree.entries = start.entries
    · -- the tree is the one at the start, so it is the same request
      have grows := start.growsTo_makeDirectories config.outputDirectory.holding.ancestors
      rw [making] at grows
      obtain rfl := FileTree.ext unmade grows.workingDirectory grows.refusals
      cases making.symm.trans again
      exact .inl rfl
    · exact .inr unmade
  · subst h
    exact ⟨cause, FileTree.replaceAt_of_refused (held ▸ making) files content, .inl rfl⟩

/-- **Writing.** A result is written or refused as it would have been at the start, but the words in
which a refusal is told may vary. -/
theorem Written.writes (documented : files.AsDocumented) (documented' : files'.AsDocumented)
    (discovered : Source.Discovered start directory extension sources)
    (within : ∀ source ∈ done, source ∈ sources) (distinct : done.Nodup)
    (apart : Apart config start sources) (mem : source ∈ sources) (new : source ∉ done)
    (converted : Source.conversionIn start config source = .ok conversion)
    (h : Written config start done tree) :
    let destination := Destination.ofSource config source
    let now := tree.replaceAt files destination conversion.latex.encode
    let alone := start.replaceAt files' destination conversion.latex.encode
    Written config start (done ++ [source]) now.2 ∧
      (now.1 = alone.1 ∨ start.wordsVary destination ∧
        ∃ cause cause', now.1 = .error cause ∧ alone.1 = .error cause') := by
  intro destination now alone
  have tried : (done ++ [source]).any
      fun source => (Source.conversionIn start config source).isOk := by
    simp [converted, Except.isOk, Except.toBool]
  have held := Destination.directory_ofSource config source
  rw [Written, if_pos tried]
  cases making : start.makeDirectories config.outputDirectory.holding.ancestors with
  | mk answer made =>
    cases answer with
    | ok =>
      obtain ⟨answer, same⟩ := h.writes_of_granted discovered within distinct apart mem new
        documented documented' making converted
      refine ⟨same, answer.eq_or_wordsVary.imp_right fun ⟨vary, refused⟩ => ⟨?_, refused⟩⟩
      rw [FileTree.wordsVary, vary, Bool.or_true]
    | error cause =>
      obtain ⟨cause', written, reason⟩ :=
        h.writes_of_refused making files source conversion.latex.encode
      have refused := FileTree.replaceAt_of_refused (held ▸ making) files' conversion.latex.encode
      simp only [now, alone, destination, written, refused]
      refine ⟨trivial, reason.imp (by rintro rfl; rfl) fun halfway => ⟨?_, _, _, rfl, rfl⟩⟩
      rw [FileTree.wordsVary, FileTree.stopsHalfway, held, making]
      simp only [decide_eq_true halfway, Bool.true_or]

/-- What is left of a batch does not depend on the order in which its documents are done. -/
theorem Written.same {others : List Path} {other : FileTree}
    (discovered : Source.Discovered start directory extension sources)
    (within : ∀ source ∈ done, source ∈ sources) (distinct : done.Nodup) (perm : done.Perm others)
    (h : Written config start done tree) (h' : Written config start others other) :
    tree.Same other := by
  have tried : (done.any fun source => (Source.conversionIn start config source).isOk) =
      others.any fun source => (Source.conversionIn start config source).isOk := by
    rw [Bool.eq_iff_iff, List.any_eq_true, List.any_eq_true]
    simp only [perm.mem_iff]
  rw [Written] at h h'
  rw [← tried] at h'
  split at h
  · next any =>
    rw [if_pos any] at h'
    cases making : start.makeDirectories config.outputDirectory.holding.ancestors with
    | mk answer made =>
      rw [making] at h h'
      cases answer with
      | error cause =>
        obtain rfl : tree = other := h.trans h'.symm
        exact .refl tree
      | ok =>
        obtain ⟨links, location, reaches⟩ := FileTree.exists_reaches_of_makeDirectories making
        refine (h.trans (FileTree.same_insertAll_of_perm (perm.filterMap _) ?_)).trans h'.symm
        exact nodup_fileOf discovered within distinct reaches
  · next none =>
    rw [if_neg none] at h'
    obtain rfl : tree = other := h.trans h'.symm
    exact .refl tree

end Batch
end Manuscript
