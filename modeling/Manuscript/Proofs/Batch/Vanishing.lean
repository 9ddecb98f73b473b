import Manuscript.Proofs.Batch.Results
import Manuscript.Proofs.Batch.Streaming
import Manuscript.Proofs.FileTree.Way

/-!
# Documents that vanish while a batch is under way

Whoever listens to the progress of a batch deletes some of its sources, each when he is told that it
is started (`Batch.vanishing`). The batch is compared with one that never had those sources, in a
tree in which their files still stand, the shadow of the tree (`FileTree.Lacks`).

Not every source can be deleted without the others noticing. A link to it leads nowhere then, its
own result may have taken its place, and a name that was a file can be made a directory.
`Batch.Expendable` leaves these out. Then the two trees answer alike whatever a document asks that
stays (`Batch.Expendable.advance`), and a source that was deleted is not found, so that its first
step is its last (`Batch.Expendable.advance_missing`).

The invariant of a run is `Batch.Vanishes`: what stays follows the batch without those sources in
the shadow (`Batch.Follows`), and the tree lacks the files of those that were started. One move
preserves it (`Batch.Vanishes.moves`), and so do any moves (`Batch.Vanishes.moveAll`).
-/

namespace Manuscript

namespace FileTree

variable {tree other : FileTree} {path : Path} {place : Location} {content : ByteArray}
  {refusal : IoError}

/-- The links on the way to a file are those on the way to the entry that the last name denotes, if
that is the file and no link to it. -/
theorem exists_leads_of_file (located : tree.locate path = .ok place)
    (denoted : tree.locateLast path refusal = .ok place)
    (file : tree.get? place = some (.file content)) : ∃ links,
      tree.Leads false (tree.startOf path) path.directions links place ∧
        links.length ≤ linkLimit ∧ tree.trail path = links ++ [place] := by
  obtain ⟨-, -, links, leads, within⟩ := locateLast_eq_ok_iff.1 denoted
  refine ⟨links, leads, within, ?_⟩
  have following := leads.following fun target => by
    rw [file]
    exact nofun
  have route : path.route = path.directions := by
    unfold Path.route
    split
    · next slash =>
      -- a slash at the end asks for a directory
      exfalso
      obtain ⟨-, links', leads', -⟩ := locate_eq_ok_iff.1 located
      rw [Path.route, if_pos slash] at leads'
      obtain ⟨mid, _, _, _, directory, back, _⟩ :=
        exists_leads_of_append (List.cons_ne_nil _ _) leads'
      cases back with
      | stay _ arrived =>
        cases arrived
        rw [isDirectoryAt_iff, file] at directory
        cases directory
    · rfl
  unfold trail
  rw [route]
  exact (following.walkLinks_eq within).2

/-- Such a path denotes the same entry in a tree in which the links on the way are the same, also if
the file is gone. -/
theorem locate_of_keeps_links (located : tree.locate path = .ok place)
    (denoted : tree.locateLast path refusal = .ok place)
    (file : tree.get? place = some (.file content)) (keeps : tree.Keeps other)
    (same : ∀ location ∈ tree.trail path, location ≠ place →
      other.get? location = tree.get? location) :
    other.locate path = .ok place ∧ other.locateLast path refusal = .ok place := by
  obtain ⟨links, leads, within, trail⟩ := exists_leads_of_file located denoted file
  obtain ⟨links', leads', within', trail'⟩ := exists_trail_eq located
  obtain rfl : links' = links := List.append_cancel_right (trail'.symm.trans trail)
  have start : other.startOf path = tree.startOf path := by
    rw [startOf, startOf, keeps.workingDirectory]
  have same : ∀ link ∈ links', other.get? link = tree.get? link := by
    intro link mem
    refine same link (trail ▸ List.mem_append_left _ mem) fun there => ?_
    obtain ⟨target, found⟩ := leads.exists_link link mem
    rw [there, file] at found
    cases found
  obtain ⟨check, named, -⟩ := locateLast_eq_ok_iff.1 denoted
  constructor
  · exact locate_eq_ok_iff.2 ⟨check, links', start ▸ leads'.mono keeps same, within'⟩
  · exact locateLast_eq_ok_iff.2 ⟨check, named, links', start ▸ leads.mono keeps same, within⟩

end FileTree

namespace Batch

/-! ### Sources that may be deleted -/

/-- Some sources can be deleted while a batch is under way, and the others will not notice. -/
structure Expendable (config : Configuration) (start : FileTree) (sources gone : List Path) :
    Prop extends Apart config start sources where
  within : ∀ source ∈ gone, source ∈ sources
  /-- No source is a link: the entry that its name denotes is the file that it leads to. -/
  entry : ∀ source ∈ sources, start.locateLast source .busy = start.locate source
  /-- No result of a source that is deleted takes its own place. -/
  own : ∀ source ∈ gone, ∀ place ∈ start.entryOf (Destination.ofSource config source),
    start.locate source ≠ .ok place
  /-- No source that is deleted is looked at on the way to the output directory. -/
  offWay : ∀ source ∈ gone, ∀ place ∈ (start.locate source).toOption,
    ∀ above ∈ config.outputDirectory.holding.ancestors,
      place ∉ (start.makeDirectories config.outputDirectory.holding.ancestors).2.way above

/-- Where a file is lacking when only some sources are still waiting to be deleted. -/
def Missing (start : FileTree) (gone waiting : List Path) (place : Location) : Prop :=
  ∃ source ∈ gone, source ∉ waiting ∧ start.locate source = .ok place

variable {config : Configuration} {start tree after shadow : FileTree} {directory : Path}
  {extension : Text} {sources gone waiting done : List Path} {source other : Path}
  {location place : Location} {conversion : Conversion} {files files' : TemporaryFiles}

section

variable (discovered : Source.Discovered start directory extension sources)
  (expendable : Expendable config start sources gone)

include discovered expendable

/-- The entry of a source is a file. -/
theorem Expendable.exists_file (mem : source ∈ sources) : ∃ place content,
    start.locate source = .ok place ∧ start.locateLast source .busy = .ok place ∧
      start.get? place = some (.file content) := by
  obtain ⟨place, content, located, found, -⟩ :=
    FileTree.exists_file_of_kind (discovered.regular source mem)
  exact ⟨place, content, located, (expendable.entry source mem).trans located, found⟩

/-- No two sources are at one place. -/
theorem Expendable.place_inj (mem : source ∈ sources) (mem' : other ∈ sources)
    (located : start.locate source = .ok place) (located' : start.locate other = .ok place) :
    source = other := by
  have denoted := (expendable.entry source mem).trans located
  have denoted' := (expendable.entry other mem').trans located'
  obtain ⟨name, rfl, -⟩ := discovered.named source mem
  obtain ⟨name', rfl, -⟩ := discovered.named other mem'
  obtain ⟨stays, goes⟩ := directory.goesOn_directory_join name
  obtain ⟨stays', goes'⟩ := directory.goesOn_directory_join name'
  rw [Path.directory_join] at goes goes'
  obtain ⟨check, -, links, leads, within⟩ := FileTree.locateLast_eq_ok_iff.1 denoted
  obtain ⟨check', -⟩ := FileTree.locateLast_eq_ok_iff.1 denoted'
  -- both are entries of the directory, each under its own name
  obtain ⟨links, location, reaches⟩ := FileTree.leadsToDirectory_iff_reaches.1
    (FileTree.leadsToDirectory_of_goesOn goes (by simp) check leads within)
  rw [reaches.locateLast_eq goes check] at denoted
  rw [reaches.locateLast_eq goes' check'] at denoted'
  split at denoted
  · cases denoted
  · split at denoted'
    · cases denoted'
    · rw [← Except.ok.inj denoted] at denoted'
      have names := (List.cons.inj (List.append_cancel_left (Except.ok.inj denoted'))).1
      rw [names]

/-- A file that is lacking is no other source, nor a link on the way to one. -/
theorem Expendable.eq_of_missing (mem : source ∈ sources) (trail : location ∈ start.trail source)
    (missing : Missing start gone waiting location) : source ∈ gone ∧ source ∉ waiting ∧
      start.locate source = .ok location := by
  obtain ⟨other, lost, started, located⟩ := missing
  have known := expendable.within other lost
  obtain ⟨_, content, located', denoted, file⟩ := expendable.exists_file discovered mem
  obtain ⟨_, content', locatedOther, -, fileOther⟩ := expendable.exists_file discovered known
  cases located.symm.trans locatedOther
  obtain ⟨links, leads, -, split⟩ := FileTree.exists_leads_of_file located' denoted file
  rw [split, List.mem_append, List.mem_singleton] at trail
  rcases trail with link | rfl
  · -- a link is no file
    obtain ⟨target, found⟩ := leads.exists_link location link
    rw [fileOther] at found
    cases found
  · obtain rfl := expendable.place_inj discovered known mem located located'
    exact ⟨lost, started, located⟩

omit discovered in
/-- A file that is lacking is no entry that a destination denotes. -/
theorem Expendable.not_missing (mem : source ∈ sources)
    (entry : place ∈ start.entryOf (Destination.ofSource config source)) :
    ¬ Missing start gone waiting place := by
  rintro ⟨other, lost, -, located⟩
  by_cases same : other = source
  · subst same
    exact expendable.own other lost place entry located
  · have known := expendable.within other lost
    exact expendable.source other known source mem same place entry
      (FileTree.mem_trail_of_locate located)

/-! ### A tree with some of the files deleted -/

section

variable (within : ∀ source ∈ done, source ∈ sources) (distinct : done.Nodup)
  (written : Written config start done shadow)
  (lacks : tree.Lacks (Missing start gone waiting) shadow)
  (mem : source ∈ sources) (new : source ∉ done)

include within distinct written lacks mem new

/-- The path of a source denotes the place that it did at the start. -/
theorem Expendable.locate_eq : ∃ place content,
    start.locate source = .ok place ∧ tree.locate source = .ok place ∧
      tree.locateLast source .busy = .ok place ∧ shadow.get? place = some (.file content) := by
  obtain ⟨place, content, located, denoted, file⟩ := expendable.exists_file discovered mem
  have same := written.get?_trail discovered within distinct expendable.toApart mem new
  have keeps := (written.keeps discovered within distinct).trans lacks.keeps
  -- of what is on the way to the source, only its own file can be lacking
  obtain ⟨found, found'⟩ := FileTree.locate_of_keeps_links located denoted file keeps
    fun location mem' differs => by
      rw [← same location mem']
      refine lacks.get? location fun missing => differs ?_
      have there := (expendable.eq_of_missing discovered mem mem' missing).2.2
      rw [located] at there
      exact (Except.ok.inj there).symm
  refine ⟨place, content, located, found, found', ?_⟩
  rw [same place (FileTree.mem_trail_of_locate located), file]

/-- A source that was deleted is not found. -/
theorem Expendable.kind_of_missing (lost : source ∈ gone) (started : source ∉ waiting) :
    tree.kind source = .error .notFound := by
  obtain ⟨place, content, located, found, -, -⟩ :=
    expendable.locate_eq discovered within distinct written lacks mem new
  have nothing := lacks.nothing place ⟨source, lost, started, located⟩
  unfold FileTree.kind FileTree.kindAt
  rw [found]
  simp only [bind, Except.bind, nothing, grant_error]

/-- Another source is read as if nothing was deleted. -/
theorem Expendable.reads (kept : source ∉ gone) :
    tree.kind source = shadow.kind source ∧ tree.read source = shadow.read source := by
  obtain ⟨place, content, located, found, -, file⟩ :=
    expendable.locate_eq discovered within distinct written lacks mem new
  have located' := (FileTree.locate_of_keeps located (written.keeps discovered within distinct)
    (written.get?_trail discovered within distinct expendable.toApart mem new)).1
  have there : tree.get? place = shadow.get? place :=
    lacks.get? place fun missing => kept
      (expendable.eq_of_missing discovered mem (FileTree.mem_trail_of_locate located) missing).1
  constructor
  · unfold FileTree.kind FileTree.kindAt
    rw [found, located', lacks.refusals]
    simp only [bind, Except.bind, there]
  · unfold FileTree.read FileTree.readAt
    rw [found, located', lacks.refusals]
    simp only [bind, Except.bind, there]

omit lacks in
/-- The entry that a destination denotes is the one that it denotes at the start. -/
theorem Expendable.mem_entryOf
    (denoted : (shadow.prepared (Destination.ofSource config source)).locateLast
      (Destination.ofSource config source) .busy = .ok place) :
    place ∈ start.entryOf (Destination.ofSource config source) := by
  have held := Destination.directory_ofSource config source
  suffices same : (start.prepared (Destination.ofSource config source)).locateLast
      (Destination.ofSource config source) .busy = .ok place by
    unfold FileTree.entryOf
    rw [same]
    rfl
  rw [← denoted]
  unfold FileTree.prepared at *
  rw [held] at *
  rcases written.prepared_cases discovered within distinct expendable.toApart mem new with
    same | ⟨links, location, reaches, reaches'⟩
  · rw [same]
  · -- both stand in the output directory under the same name
    obtain ⟨stays, goes⟩ :=
      config.outputDirectory.goesOn_directory_join (Destination.nameOf config source)
    rw [Path.directory_join] at goes
    have leads := FileTree.leadsToDirectory_iff_reaches.2 ⟨_, _, reaches⟩
    have ready : (shadow.makeDirectories config.outputDirectory.holding.ancestors).2 = shadow :=
      congrArg Prod.snd (FileTree.makeDirectories_of_leadsToDirectory leads _)
    have check := (FileTree.locateLast_eq_ok_iff.1 denoted).1
    rw [ready, Destination.ofSource_eq, reaches.locateLast_eq goes check,
      reaches'.locateLast_eq goes check]

/-- A result is written, or refused, as if nothing was deleted. -/
theorem Expendable.replaceAt (documented : files.AsDocumented) (content : ByteArray) :
    let destination := Destination.ofSource config source
    (tree.replaceAt files destination content).1 = (shadow.replaceAt files destination content).1 ∧
      (tree.replaceAt files destination content).2.Lacks (Missing start gone waiting)
        (shadow.replaceAt files destination content).2 := by
  have held := Destination.directory_ofSource config source
  refine (FileTree.replaceAt_of_lacks documented documented (Destination.ofSource_eq config source)
    ?_ ?_ content).imp_left Refusals.ToldAlike.eq
  · rw [held]
    rcases written.prepared_cases discovered within distinct expendable.toApart mem new with
      same | ⟨links, location, reaches, -⟩
    · -- the directories are made now, and no file that is lacking is looked at
      apply lacks.makeDirectories
      rintro above mem' place looked ⟨other, lost, -, located⟩
      rw [same] at looked
      exact expendable.offWay other lost place (by rw [located]; rfl) above mem' looked
    · -- the directory is there already, also in the tree that lacks files
      have leads := FileTree.leadsToDirectory_iff_reaches.2 ⟨_, _, reaches⟩
      have leads' := FileTree.leadsToDirectory_iff_reaches.2 ⟨_, _, lacks.reaches reaches⟩
      unfold Path.ancestors
      rw [FileTree.makeDirectories_of_leadsToDirectory leads,
        FileTree.makeDirectories_of_leadsToDirectory leads']
      exact ⟨rfl, lacks⟩
  · intro place denoted
    exact expendable.not_missing mem
      (expendable.mem_entryOf discovered within distinct written mem new denoted)

/-- A step is taken as if nothing was deleted. -/
theorem Expendable.advance (documented : files.AsDocumented) (kept : source ∉ gone) {phase : Phase}
    {progress : Job.Progress}
    (stepped : Job.advance (FileTree.fileSystemWith files) config ⟨source, phase⟩ tree =
      (progress, after)) :
    ∃ shadow', Job.advance (FileTree.fileSystemWith files) config ⟨source, phase⟩ shadow =
        (progress, shadow') ∧
      after.Lacks (Missing start gone waiting) shadow' := by
  obtain ⟨kind, read⟩ :=
    expendable.reads discovered within distinct written lacks mem new kept
  cases phase with
  | resolving =>
    rw [Job.advance_resolving, kind] at stepped
    obtain ⟨rfl, rfl⟩ := Prod.mk.inj stepped
    exact ⟨shadow, Job.advance_resolving files config source shadow, lacks⟩
  | reading =>
    rw [Job.advance_reading, read] at stepped
    obtain ⟨rfl, rfl⟩ := Prod.mk.inj stepped
    exact ⟨shadow, Job.advance_reading files config source shadow, lacks⟩
  | writing conversion =>
    obtain ⟨answer, lacks'⟩ := expendable.replaceAt discovered within distinct written lacks mem
      new documented conversion.latex.encode
    rw [Job.advance_writing, answer] at stepped
    obtain ⟨rfl, rfl⟩ := Prod.mk.inj stepped
    exact ⟨_, Job.advance_writing files config source shadow conversion, lacks'⟩

/-- The first step of a source that was deleted is its last. -/
theorem Expendable.advance_missing (lost : source ∈ gone) (started : source ∉ waiting) :
    Job.advance (FileTree.fileSystemWith files) config ⟨source, .resolving⟩ tree =
      (.ends (.error (.noSuchFile source)), tree) := by
  rw [Job.advance_resolving, expendable.kind_of_missing discovered within distinct written lacks
    mem new lost started]
  rfl

end

end

/-! ### The batch without the sources that vanish -/

/-- The part of a batch that some sources have nothing to do with. -/
def without (gone : List Path) (batch : Batch) : Batch where
  waiting := batch.waiting.filter (· ∉ gone)
  running := batch.running.filter (·.source ∉ gone)
  finished := batch.finished.filter (·.source ∉ gone)
  events := batch.events

theorem exists_eraseIdx_filter {α : Type} (keep : α → Bool) {items : List α} {position : Nat}
    {item : α} (found : items[position]? = some item) (kept : keep item) : ∃ position',
      (items.filter keep)[position']? = some item ∧
        (items.filter keep).eraseIdx position' = (items.eraseIdx position).filter keep := by
  induction items generalizing position with
  | nil => simp at found
  | cons first items ih =>
    cases position with
    | zero =>
      obtain rfl : first = item := by simpa using found
      exact ⟨0, by simp [kept], by simp [kept]⟩
    | succ position =>
      obtain ⟨position', found', erased⟩ := @ih position (by simpa using found)
      cases kept : keep first with
      | true => exact ⟨position' + 1, by simpa [kept] using found', by simp [kept, erased]⟩
      | false => exact ⟨position', by simpa [kept] using found', by simp [kept, erased]⟩

theorem filter_eraseIdx_of_not {α : Type} {keep : α → Bool} {items : List α} {position : Nat}
    {item : α} (found : items[position]? = some item) (dropped : keep item = false) :
    (items.eraseIdx position).filter keep = items.filter keep := by
  induction items generalizing position with
  | nil => simp at found
  | cons first items ih =>
    cases position with
    | zero =>
      obtain rfl : first = item := by simpa using found
      simp [dropped]
    | succ position =>
      have rest := @ih position (by simpa using found)
      simp [List.filter_cons, rest]

/-- **The invariant.** What is known of a batch under way some of whose sources vanish when they are
started, and of the tree then. -/
structure Vanishes (files : TemporaryFiles) (config : Configuration) (start : FileTree)
    (sources gone : List Path) (batch : Batch) (tree : FileTree) : Prop where
  /-- Every source is waiting, in flight or finished. -/
  accounted : (batch.waiting ++ (batch.running.map Job.source ++
    batch.finished.map DocumentReport.source)).Perm sources
  /-- The job of a source that vanished takes no step but the first. -/
  resolving : ∀ job ∈ batch.running, job.source ∈ gone → job.phase = .resolving
  /-- A source that vanished is not found. -/
  missed : ∀ report ∈ batch.finished, report.source ∈ gone →
    report = .ofFailure config report.source (.noSuchFile report.source)
  /-- The other documents are those of a batch without those sources, in a tree in which the files
  are not lacking. -/
  others : ∃ shadow,
    Follows files config start (sources.filter (· ∉ gone)) (batch.without gone) shadow ∧
      tree.Lacks (Missing start gone batch.waiting) shadow

/-- A batch that begins. -/
theorem vanishes_start (files : TemporaryFiles) (config : Configuration) (start : FileTree)
    (sources gone : List Path) (within : ∀ source ∈ gone, source ∈ sources) :
    Vanishes files config start sources gone { waiting := sources } start where
  accounted := by simp
  resolving := nofun
  missed := nofun
  others := by
    refine ⟨start, follows_start files (List.Perm.refl _) [], (FileTree.lacks_refl start).congr ?_⟩
    intro location
    refine ⟨False.elim, ?_⟩
    rintro ⟨source, lost, started, -⟩
    exact started (within source lost)

/-! ### A move, and any moves -/

section

variable {batch batch' : Batch} {job job' : Job} {position : Nat} {rest : List Path}
  {outcome : Except Failure DocumentReport}
  (discovered : Source.Discovered start directory extension sources)
  (expendable : Expendable config start sources gone)
  (h : Vanishes files' config start sources gone batch tree)
  (documented : files.AsDocumented) (documented' : files'.AsDocumented)

include discovered h

/-- A source that is waiting, once it is started, is not waiting and not finished. -/
theorem Vanishes.of_waiting (first : batch.waiting = source :: rest) :
    source ∈ sources ∧ source ∉ rest ∧ source ∉ batch.finished.map DocumentReport.source := by
  have mem : source ∈ batch.waiting := first ▸ List.mem_cons_self
  obtain ⟨known, -, new⟩ := apart_of_waiting h.accounted discovered.nodup mem
  have distinct := (List.nodup_append.1 (h.accounted.nodup_iff.2 discovered.nodup)).1
  rw [first, List.nodup_cons] at distinct
  exact ⟨known, distinct.1, new⟩

omit discovered h in
/-- What is finished without some sources is finished. -/
theorem finished_without_subset (gone : List Path) (batch : Batch) :
    (batch.without gone).finished.map DocumentReport.source ⊆
      batch.finished.map DocumentReport.source :=
  List.map_subset _ fun _ mem => List.mem_of_mem_filter mem

include expendable documented'

/-- **A start.** A source may vanish when it is started. -/
theorem Vanishes.starts (first : batch.waiting = source :: rest)
    (room : batch.running.length < config.concurrency)
    (accounted : (rest ++ ((batch.running ++ [Job.start source]).map Job.source ++
      batch.finished.map DocumentReport.source)).Perm sources) :
    Vanishes files' config start sources gone
      { batch with
        waiting := rest
        running := batch.running ++ [Job.start source]
        events := batch.events ++ [.started source] }
      (vanishing gone (.started source) tree).2 := by
  obtain ⟨shadow, follows, lacks⟩ := h.others
  obtain ⟨known, later, new⟩ := h.of_waiting discovered first
  have resolving : ∀ job ∈ batch.running ++ [Job.start source], job.source ∈ gone →
      job.phase = .resolving := by
    intro job mem lost
    rcases List.mem_append.1 mem with mem | mem
    · exact h.resolving job mem lost
    · obtain rfl := List.mem_singleton.1 mem
      rfl
  refine ⟨accounted, resolving, h.missed, shadow, ?_, ?_⟩
  · by_cases lost : source ∈ gone
    · refine follows.congr ?_ ?_ rfl
      · simp [without, first, lost]
      · simp [without, Job.start, lost]
    · -- the others see the same source start
      have first' : (batch.without gone).waiting = source :: rest.filter (· ∉ gone) := by
        simp [without, first, lost]
      have room' : (batch.without gone).running.length < config.concurrency :=
        Nat.lt_of_le_of_lt (List.length_filter_le _ _) room
      have moved := follows.moves (discovered.filter (· ∉ gone))
        (expendable.toApart.filter (· ∉ gone)) documented' documented' (.start first' room')
      refine moved.congr rfl ?_ rfl
      simp [without, Job.start, lost]
  · by_cases lost : source ∈ gone
    · have within := fun other mem => List.mem_of_mem_filter (follows.finished_within other mem)
      obtain ⟨place, content, located, -, denoted, file⟩ := expendable.locate_eq discovered within
        (follows.finished_nodup (discovered.filter (· ∉ gone))) follows.written lacks known
        fun mem => new (finished_without_subset gone batch mem)
      have deleted : (vanishing gone (.started source) tree).2 = tree.unlink source := by
        simp only [vanishing, if_pos lost]
        rfl
      rw [deleted]
      refine (lacks.unlink denoted ⟨content, file⟩).congr fun location => ?_
      rw [first]
      constructor
      · rintro (⟨other, lost', started, there⟩ | rfl)
        · exact ⟨other, lost', fun mem => started (List.mem_cons_of_mem _ mem), there⟩
        · exact ⟨source, lost, later, located⟩
      · rintro ⟨other, lost', started, there⟩
        by_cases same : other = source
        · right
          rw [same, located] at there
          exact (Except.ok.inj there).symm
        · exact .inl ⟨other, lost', by simp [same, started], there⟩
    · have kept : (vanishing gone (.started source) tree).2 = tree := by
        simp only [vanishing, if_neg lost]
        rfl
      rw [kept]
      refine lacks.congr fun location => exists_congr fun other => and_congr_right fun lost' => ?_
      have differs : other ≠ source := fun same => lost (same ▸ lost')
      rw [first, List.mem_cons, or_iff_right differs]

include documented

omit documented' in
/-- **A step.** The job of a source that vanished ends, since there is no such file; that of another
takes the step that it takes in the shadow. -/
theorem Vanishes.advance (mem : job ∈ batch.running) {progress : Job.Progress}
    (stepped : job.advance (FileTree.fileSystemWith files) config tree = (progress, after)) :
    (job.source ∈ gone ∧ progress = .ends (.error (.noSuchFile job.source)) ∧ after = tree) ∨
      (job.source ∉ gone ∧ ∃ shadow shadow',
        Follows files' config start (sources.filter (· ∉ gone)) (batch.without gone) shadow ∧
        job.advance (FileTree.fileSystemWith files) config shadow = (progress, shadow') ∧
        after.Lacks (Missing start gone batch.waiting) shadow') := by
  obtain ⟨shadow, follows, lacks⟩ := h.others
  obtain ⟨known, started, new⟩ := apart_of_running h.accounted discovered.nodup mem
  have within := fun other mem => List.mem_of_mem_filter (follows.finished_within other mem)
  have distinct := follows.finished_nodup (discovered.filter (· ∉ gone))
  have new' := fun mem => new (finished_without_subset gone batch mem)
  by_cases lost : job.source ∈ gone
  · -- it has taken no step yet, and this one will be its last
    left
    have phase := h.resolving job mem lost
    obtain ⟨source, phase'⟩ := job
    obtain rfl : phase' = .resolving := phase
    rw [expendable.advance_missing discovered within distinct follows.written lacks known new'
      lost started] at stepped
    obtain ⟨rfl, rfl⟩ := Prod.mk.inj stepped
    exact ⟨lost, rfl, rfl⟩
  · right
    obtain ⟨shadow', stepped', lacks'⟩ := expendable.advance discovered within distinct
      follows.written lacks known new' documented lost stepped
    exact ⟨lost, shadow, shadow', follows, stepped', lacks'⟩

/-- A job that goes on is that of a source that has not vanished. -/
theorem Vanishes.continues (found : batch.running[position]? = some job)
    (stepped : job.advance (FileTree.fileSystemWith files) config tree = (.continues job', after))
    (accounted : (batch.waiting ++ ((batch.running.eraseIdx position ++ [job']).map Job.source ++
      batch.finished.map DocumentReport.source)).Perm sources) :
    Vanishes files' config start sources gone
      { batch with running := batch.running.eraseIdx position ++ [job'] } after := by
  have others := perm_eraseIdx found
  have same := (advance_continues stepped).1
  obtain ⟨-, ended, -⟩ | ⟨kept, shadow, shadow', follows, stepped', lacks⟩ :=
    h.advance discovered expendable documented (others.mem_iff.2 List.mem_cons_self) stepped
  · cases ended
  · obtain ⟨position', found', erased⟩ := exists_eraseIdx_filter
      (fun job => job.source ∉ gone) found (by simpa using kept)
    have moved := follows.moves (discovered.filter (· ∉ gone))
      (expendable.toApart.filter (· ∉ gone)) documented documented' (.continues found' stepped')
    refine ⟨accounted, ?_, h.missed, shadow', moved.congr rfl ?_ rfl, lacks⟩
    · intro other mem lost
      rcases List.mem_append.1 mem with mem | mem
      · exact h.resolving other (others.mem_iff.2 (List.mem_cons_of_mem _ mem)) lost
      · obtain rfl := List.mem_singleton.1 mem
        exact absurd (same ▸ lost) kept
    · have kept' : job'.source ∉ gone := same ▸ kept
      simp only [without, List.filter_append, erased]
      simp [kept']

/-- When a job ends, its report is that of a document that is gone, or counts among the others. -/
theorem Vanishes.ends (found : batch.running[position]? = some job)
    (stepped : job.advance (FileTree.fileSystemWith files) config tree = (.ends outcome, after))
    (accounted : (batch.waiting ++ ((batch.running.eraseIdx position).map Job.source ++
      (batch.finished ++ [reportOf config job.source outcome]).map
        DocumentReport.source)).Perm sources) :
    Vanishes files' config start sources gone
      { batch with
        running := batch.running.eraseIdx position
        finished := batch.finished ++ [reportOf config job.source outcome]
        events := batch.events ++ [eventOf job.source outcome] } after := by
  have others := perm_eraseIdx found
  have same := source_reportOf_advance stepped
  have resolving : ∀ other ∈ batch.running.eraseIdx position, other.source ∈ gone →
      other.phase = .resolving := fun other mem =>
    h.resolving other (others.mem_iff.2 (List.mem_cons_of_mem _ mem))
  obtain ⟨lost, ended, rfl⟩ | ⟨kept, shadow, shadow', follows, stepped', lacks⟩ :=
    h.advance discovered expendable documented (others.mem_iff.2 List.mem_cons_self) stepped
  · cases ended
    obtain ⟨shadow, follows, lacks⟩ := h.others
    refine ⟨accounted, resolving, ?_, shadow, follows.congr rfl ?_ ?_, lacks⟩
    · intro report finished lost'
      rcases List.mem_append.1 finished with finished | finished
      · exact h.missed report finished lost'
      · obtain rfl := List.mem_singleton.1 finished
        rfl
    · exact filter_eraseIdx_of_not found (by simpa using lost)
    · rw [← same] at lost
      simp only [without, List.filter_append]
      simp [lost]
  · obtain ⟨position', found', erased⟩ := exists_eraseIdx_filter
      (fun job => job.source ∉ gone) found (by simpa using kept)
    have moved := follows.moves (discovered.filter (· ∉ gone))
      (expendable.toApart.filter (· ∉ gone)) documented documented' (.ends found' stepped')
    rw [← same] at kept
    refine ⟨accounted, resolving, ?_, shadow', moved.congr rfl erased.symm ?_, lacks⟩
    · intro report finished lost
      rcases List.mem_append.1 finished with finished | finished
      · exact h.missed report finished lost
      · obtain rfl := List.mem_singleton.1 finished
        exact absurd lost kept
    · simp only [without, List.filter_append]
      simp [kept]

/-- **A move.** The invariant is preserved by every move that is made. -/
theorem Vanishes.moves (moves : Moves (FileTree.fileSystemWith files) config (vanishing gone)
    batch tree batch' after) : Vanishes files' config start sources gone batch' after := by
  have accounted := moves.perm.trans h.accounted
  cases moves with
  | start first room => exact h.starts discovered expendable documented' first room accounted
  | continues found stepped =>
    exact h.continues discovered expendable documented documented' found stepped accounted
  | @ends _ job outcome state' found stepped =>
    -- nothing is deleted when a document ends
    have ended : (vanishing gone (eventOf job.source outcome) state').2 = state' := by
      cases outcome <;> rfl
    rw [ended]
    exact h.ends discovered expendable documented documented' found stepped accounted

/-- **A run.** And so by any moves. -/
theorem Vanishes.moveAll (made : List Move) :
    let moved := batch.moveAll (FileTree.fileSystemWith files) config (vanishing gone) made tree
    Vanishes files' config start sources gone moved.1 moved.2 :=
  moveAll_induction
    (fun h moves => h.moves discovered expendable documented documented' moves) h made

end

end Batch
end Manuscript
