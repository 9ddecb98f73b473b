import Manuscript.Proofs.FileTree.Directories

/-!
# Replacing a file

`FileTree.replaceAt` makes directories, creates and fills a temporary file and moves it. What comes
of it is told here without the temporary file, for the path of an entry of a directory
(`FileTree.replaceAt_of_made`): once the directories are made, either the content stands where the
path lands and nothing else is different, or the request is refused at one of the steps and nothing
is different at all. `FileTree.replaceAt_spares` tells the same of the whole request, directories
included. Of the library for temporary files it is assumed that the names it chooses are free and
that it removes the files it is told to remove (`TemporaryFiles.AsDocumented`).

Where a path lands depends on little of the tree (`FileTree.Reaches.eq_of_landing`,
`FileTree.Reaches.landing_congr`): on the place that its directory reaches, and on whether a
directory stands there under the last name.
-/

namespace Manuscript

variable {tree other after made : FileTree} {follow : Bool} {location mid last place : Location}
  {directions first second : List Path.Direction} {links : List Location} {path directory : Path}
  {name : Name} {refusal cause : IoError} {content : ByteArray} {stays : Nat}
  {files files' : TemporaryFiles}

namespace FileTree

/-! ### Trees that look the same -/

/-- Trees in which the same stands everywhere. The order in which a tree lists its entries does not
matter. -/
structure Same (tree other : FileTree) : Prop where
  workingDirectory : tree.workingDirectory = other.workingDirectory
  refusals : tree.refusals = other.refusals
  get? : ∀ location, tree.get? location = other.get? location

namespace Same

theorem refl (tree : FileTree) : tree.Same tree := ⟨rfl, rfl, fun _ => rfl⟩

theorem symm (h : tree.Same other) : other.Same tree :=
  ⟨h.workingDirectory.symm, h.refusals.symm, fun location => (h.get? location).symm⟩

theorem trans (h : tree.Same other) (h' : other.Same after) : tree.Same after :=
  ⟨h.workingDirectory.trans h'.workingDirectory, h.refusals.trans h'.refusals,
    fun location => (h.get? location).trans (h'.get? location)⟩

theorem keeps (h : tree.Same other) : other.Keeps tree where
  workingDirectory := h.workingDirectory
  refusals := h.refusals
  isDirectoryAt _ directory := by rwa [isDirectoryAt, h.get?]
  link _ _ found := by rwa [← h.get?]

end Same

/-! ### The directory that a path reaches -/

/-- The path leads to a directory, which stands at the place, through the links. -/
structure Reaches (tree : FileTree) (path : Path) (links : List Location) (place : Location) :
    Prop where
  check : checkPath path = .ok ()
  leads : tree.Leads true (tree.startOf path) path.route links place
  within : links.length ≤ linkLimit
  isDirectory : tree.isDirectoryAt place

theorem leadsToDirectory_iff_reaches :
    tree.leadsToDirectory path ↔ ∃ links place, tree.Reaches path links place := by
  have route : path.route = path.route ++ List.replicate 0 .stay := by simp
  rw [leadsToDirectory_iff route]
  constructor
  · rintro ⟨check, place, links, leads, within, directory⟩
    exact ⟨links, place, check, leads, within, directory⟩
  · rintro ⟨links, place, check, leads, within, directory⟩
    exact ⟨check, place, links, leads, within, directory⟩

/-- After a success the directory is there. -/
theorem exists_reaches_of_makeDirectories {paths : List Path}
    (h : tree.makeDirectories (path :: paths) = (.ok (), made)) :
    ∃ links place, made.Reaches path links place :=
  leadsToDirectory_iff_reaches.1 (leadsToDirectory_of_makeDirectories h)

theorem Reaches.locate_eq (h : tree.Reaches path links place) : tree.locate path = .ok place :=
  locate_eq_ok_iff.2 ⟨h.check, links, h.leads, h.within⟩

theorem Reaches.trail_eq (h : tree.Reaches path links place) :
    tree.trail path = links ++ [place] :=
  (h.leads.walkLinks_eq h.within).2

theorem Reaches.mono (h : tree.Reaches path links place) (keeps : tree.Keeps other)
    (same : ∀ link ∈ links, other.get? link = tree.get? link) :
    other.Reaches path links place where
  check := h.check
  leads := by
    have start : other.startOf path = tree.startOf path := by
      rw [startOf, startOf, keeps.workingDirectory]
    exact start ▸ h.leads.mono keeps same
  within := h.within
  isDirectory := keeps.isDirectoryAt _ h.isDirectory

/-- A file where no directory stands does not change where directories are. -/
theorem keeps_insert_file (plain : tree.isDirectoryAt place = false) (content : ByteArray) :
    tree.Keeps (tree.insert place (.file content)) where
  workingDirectory := rfl
  refusals := rfl
  isDirectoryAt location directory := by
    have : location ≠ place := by
      rintro rfl
      simp [directory] at plain
    rw [isDirectoryAt_iff] at *
    rw [get?_insert_of_ne tree this, directory]
  link location target found := by
    by_cases same : location = place
    · subst same
      rw [get?_insert_self tree (ne_nil_of_isDirectoryAt plain)] at found
      cases found
    · rwa [get?_insert_of_ne tree same] at found

/-! ### What stands under the last name -/

/-- Directions that lead through a directory can be followed from there. -/
theorem Leads.walkLinks_append {limit : Nat}
    (h : tree.Leads true location first links mid) (directory : tree.isDirectoryAt mid)
    (nonempty : second ≠ []) (within : links.length ≤ limit) :
    tree.walkLinks follow limit location (first ++ second) =
      tree.walkLinks follow (limit - links.length) mid second := by
  -- each direction that is followed is one less on both sides; a link takes one off the limit too
  induction h generalizing limit with
  | arrived => rfl
  | stay here _ ih => exact (walkLinks_congr (walk_stay here) limit).trans (ih directory within)
  | up here _ ih => exact (walkLinks_congr (walk_up here) limit).trans (ih directory within)
  | last here fits _ => exact walkLinks_congr (walk_into here fits directory) limit
  | into here fits _ onward _ ih =>
    exact (walkLinks_congr (walk_into here fits onward) limit).trans (ih directory within)
  | @link location name target rest links last here fits _ found _ ih =>
    obtain ⟨limit, rfl⟩ : ∃ fewer, limit = fewer + 1 :=
      ⟨limit - 1, by simp only [List.length_cons] at within; omega⟩
    have walked : tree.walk follow location (.into name :: rest ++ second) =
        .ok (.link (location ++ [name]) target (rest ++ second)) :=
      walk_link here fits (.inl (List.append_ne_nil_of_right_ne_nil rest nonempty)) found
    have onward := ih directory (Nat.le_of_succ_le_succ within)
    rw [List.append_assoc] at onward
    rw [walkLinks, walked, List.length_cons, Nat.add_sub_add_right]
    exact onward

theorem walkLinks_stays (directory : tree.isDirectoryAt location) (stays limit : Nat)
    (nonempty : second ≠ []) :
    tree.walkLinks follow limit location (List.replicate stays .stay ++ second) =
      tree.walkLinks follow limit location second := by
  have remains : tree.Leads true location ([] ++ List.replicate stays .stay) [] location :=
    (leads_append_stays_iff directory stays).2 (.arrived location)
  exact remains.walkLinks_append directory nonempty (Nat.zero_le limit)

theorem walkLinks_last (directory : tree.isDirectoryAt location) (limit : Nat) :
    tree.walkLinks false limit location [.into name] =
      if nameLimit < name.text.byteLength then .error .nameTooLong
      else .ok (location ++ [name]) := by
  split
  · next long => rw [walkLinks.eq_def, walk_into_of_nameLimit_lt directory long]
  · next fits =>
    have last : tree.Leads false location [.into name] [] (location ++ [name]) :=
      .last directory (Nat.not_lt.1 fits) fun _ _ => rfl
    exact (last.walkLinks_eq (Nat.zero_le limit)).1

/-- The entry that the last name denotes stands in the directory, if the name fits. -/
theorem Reaches.locateLast_eq (h : tree.Reaches directory links place)
    (goes : directory.GoesOn (List.replicate stays .stay ++ [.into name]) path)
    (check : checkPath path = .ok ()) (refusal : IoError) :
    tree.locateLast path refusal =
      if nameLimit < name.text.byteLength then .error .nameTooLong
      else .ok (place ++ [name]) := by
  obtain ⟨front, ends, directions, route⟩ := goes.directions
  have start : tree.startOf directory = tree.startOf path := by
    rw [startOf, startOf, goes.isAbsolute]
  have leads : tree.Leads true (tree.startOf path) front links place := by
    rw [← start, ← leads_append_stays_iff h.isDirectory ends, ← route]
    exact h.leads
  have walked : tree.walkLinks false linkLimit (tree.startOf path) path.directions =
      if nameLimit < name.text.byteLength then .error .nameTooLong
      else .ok (place ++ [name]) := by
    rw [directions, leads.walkLinks_append h.isDirectory (by simp) h.within,
      walkLinks_stays h.isDirectory _ _ (by simp), walkLinks_last h.isDirectory]
  rw [locateLast, check, walked, directions]
  split <;> simp [bind, Except.bind, pure, Except.pure]

/-! ### Where a path lands -/

/-- Where a path lands the entry stands that its last name denotes, and it is no directory. -/
theorem locateLast_of_landing (lands : tree.landing path = .ok location) :
    tree.locateLast path .busy = .ok location ∧ tree.isDirectoryAt location = false := by
  rw [landing] at lands
  split at lands
  · cases lands
  · cases located : tree.locateLast path .busy with
    | error cause =>
      rw [located] at lands
      cases lands
    | ok there =>
      simp only [located, bind, Except.bind] at lands
      cases slash : path.endsWithSlash with
      | true => simp [slash, throw, throwThe, MonadExceptOf.throw] at lands
      | false =>
        cases directory : tree.isDirectoryAt there with
        | true => simp [slash, directory, throw, throwThe, MonadExceptOf.throw] at lands
        | false =>
          obtain rfl : there = location := by
            simpa [slash, directory, pure, Except.pure] using lands
          exact ⟨rfl, directory⟩

section Landing

variable (h : tree.Reaches directory links place)
  (goes : directory.GoesOn (List.replicate stays .stay ++ [.into name]) path)

include h goes

theorem Reaches.eq_of_landing (lands : tree.landing path = .ok location) :
    location = place ++ [name] := by
  obtain ⟨located, -⟩ := locateLast_of_landing lands
  rw [h.locateLast_eq goes (locateLast_eq_ok_iff.1 located).1] at located
  split at located
  · cases located
  · exact (Except.ok.inj located).symm

/-- Two trees in which the directory is reached at one place, and in which alike a directory stands
there under the last name or not, let the path land alike. -/
theorem Reaches.landing_congr {links' : List Location} (h' : other.Reaches directory links' place)
    (same : other.isDirectoryAt (place ++ [name]) = tree.isDirectoryAt (place ++ [name])) :
    other.landing path = tree.landing path := by
  rw [landing, landing]
  split
  · rfl
  · cases check : checkPath path with
    | error cause => simp [locateLast, check, bind, Except.bind]
    | ok =>
      rw [h.locateLast_eq goes check, h'.locateLast_eq goes check]
      split
      · rfl
      · simp only [bind, Except.bind, same]

end Landing

/-! ### The temporary file -/

namespace Same

theorem insert (h : tree.Same other) (place : Location) (entry : Entry) :
    (tree.insert place entry).Same (other.insert place entry) := by
  refine ⟨h.workingDirectory, h.refusals, fun location => ?_⟩
  by_cases there : location = place
  · subst there
    by_cases root : location = []
    · simp [root]
    · rw [get?_insert_self _ root, get?_insert_self _ root]
  · rw [get?_insert_of_ne _ there, get?_insert_of_ne _ there, h.get?]

theorem erase (h : tree.Same other) (place : Location) :
    (tree.erase place).Same (other.erase place) := by
  refine ⟨h.workingDirectory, h.refusals, fun location => ?_⟩
  by_cases there : location = place
  · subst there
    by_cases root : location = []
    · simp [root]
    · rw [get?_erase_self _ root, get?_erase_self _ root]
  · rw [get?_erase_of_ne _ there, get?_erase_of_ne _ there, h.get?]

end Same

/-- What was put somewhere first does not matter. -/
theorem same_insert_insert (nonroot : place ≠ []) (entry entry' : Entry) :
    ((tree.insert place entry).insert place entry').Same (tree.insert place entry') := by
  refine ⟨rfl, rfl, fun location => ?_⟩
  by_cases there : location = place
  · rw [there, get?_insert_self _ nonroot, get?_insert_self _ nonroot]
  · rw [get?_insert_of_ne _ there, get?_insert_of_ne _ there, get?_insert_of_ne _ there]

end FileTree

/-- What is known of a library for temporary files. -/
structure TemporaryFiles.AsDocumented (files : TemporaryFiles) : Prop where
  /-- The name that is chosen is free. -/
  fresh : ∀ path taken, files.name path taken ∉ taken
  /-- What is removed is the file, and nothing else is different. -/
  drop : ∀ tree location, (files.drop tree location).Same (tree.erase location)

theorem TemporaryFiles.asDocumented_called (name : Name) : (called name).AsDocumented where
  fresh path taken := by
    show (if name ∈ taken then freshName taken else name) ∉ taken
    split
    · exact freshName_notMem taken
    · assumption
  drop tree location := .refl (tree.erase location)

theorem TemporaryFiles.asDocumented_plain : plain.AsDocumented := asDocumented_called _

/-- Why the temporary file for a path is refused, if it is. -/
def Refusals.temporary (refusals : Refusals) (path : Path) : Option IoError :=
  (refusals.create path).or (refusals.fill path)

/-- Whether the words in which it is told that a file is not replaced may vary, because they are
those of a library. -/
def Refusals.wordsVary (refusals : Refusals) (path : Path) : Bool :=
  (refusals.temporary path).isSome

/-- The reason why a file is not replaced, as it is told: in the words of the library, if it is
about the temporary file. -/
def Refusals.told (refusals : Refusals) (files : TemporaryFiles) (path : Path) (cause : IoError) :
    IoError :=
  if refusals.wordsVary path then files.words path cause else cause

/-- Answers to the request to replace a file that are the same but for the words of the library. -/
def Refusals.ToldAlike (refusals : Refusals) (files files' : TemporaryFiles) (path : Path)
    (answer answer' : Except IoError Unit) : Prop :=
  answer = answer' ∨ ∃ cause, answer = .error (refusals.told files path cause) ∧
    answer' = .error (refusals.told files' path cause)

namespace Refusals.ToldAlike

variable {refusals : Refusals} {answer answer' : Except IoError Unit}

theorem eq (h : refusals.ToldAlike files files path answer answer') : answer = answer' := by
  rcases h with same | ⟨cause, told, told'⟩
  · exact same
  · rw [told, told']

/-- Only a refusal of the temporary file is told in words that can differ. -/
theorem eq_or_wordsVary (h : refusals.ToldAlike files files' path answer answer') :
    answer = answer' ∨ refusals.wordsVary path ∧
      ∃ cause cause', answer = .error cause ∧ answer' = .error cause' := by
  rcases h with same | ⟨cause, told, told'⟩
  · exact .inl same
  · by_cases vary : refusals.wordsVary path
    · exact .inr ⟨vary, _, _, told, told'⟩
    · refine .inl ?_
      rw [told, told', Refusals.told, Refusals.told, if_neg vary, if_neg vary]

end Refusals.ToldAlike

namespace FileTree

/-- In a directory there is room for a temporary file, unless it is refused. -/
theorem Reaches.exists_temporary (documented : files.AsDocumented)
    (h : tree.Reaches path.directory links place) : ∃ temporary, tree.get? temporary = none ∧
      tree.createTemporary files path = match tree.refusals.create path with
        | none => .ok (temporary, tree.insert temporary (.file ByteArray.empty))
        | some cause => .error (files.words path cause) := by
  refine ⟨place ++ [files.name path (tree.namesIn place)], ?_, ?_⟩
  · rw [← Option.not_isSome_iff_eq_none, ← mem_namesIn]
    exact documented.fresh path _
  · simp only [createTemporary, h.locate_eq, h.isDirectory, bind, Except.bind]
    cases tree.refusals.create path <;> rfl

section Temporary

variable {temporary : Location} (fresh : tree.get? temporary = none)

include fresh

/-- Nothing is left of what stood where nothing had stood before. -/
theorem same_erase_insert (entry : Entry) :
    ((tree.insert temporary entry).erase temporary).Same tree := by
  refine ⟨rfl, rfl, fun location => ?_⟩
  by_cases there : location = temporary
  · subst there
    rw [get?_erase_self _ (ne_nil_of_get? fresh), fresh]
  · rw [get?_erase_of_ne _ there, get?_insert_of_ne _ there]

variable (same : other.Same (tree.insert temporary (.file content)))

include same

/-- Nothing is left of a temporary file that is removed. -/
theorem same_drop (documented : files.AsDocumented) : (files.drop other temporary).Same tree :=
  ((documented.drop other temporary).trans (same.erase temporary)).trans (same_erase_insert fresh _)

/-- A path lands alike with the temporary file there and without it. -/
theorem Reaches.landing_of_temporary (h : tree.Reaches directory links place)
    (goes : directory.GoesOn (List.replicate stays .stay ++ [.into name]) path) :
    other.landing path = tree.landing path := by
  have nothing := isDirectoryAt_eq_false_of_get? fresh
  have keeps := (keeps_insert_file nothing content).trans same.keeps
  refine h.landing_congr goes (h.mono keeps fun link mem => ?_) ?_
  · rw [same.get?]
    refine get?_insert_of_ne tree ?_ _
    rintro rfl
    obtain ⟨target, found⟩ := h.leads.exists_link _ mem
    rw [fresh] at found
    cases found
  · rw [isDirectoryAt, same.get?]
    by_cases there : place ++ [name] = temporary
    · rw [there, nothing, get?_insert_self tree (ne_nil_of_get? fresh)]
      rfl
    · rw [isDirectoryAt, get?_insert_of_ne tree there]

/-- The temporary file is moved to where the path lands, unless that is refused. -/
theorem Reaches.moveFile_of_temporary (h : tree.Reaches directory links place)
    (goes : directory.GoesOn (List.replicate stays .stay ++ [.into name]) path) :
    match grant (tree.refusals.move path) (tree.landing path) with
    | .ok place => ∃ moved, other.moveFile temporary path = .ok moved ∧
        moved.Same (tree.insert place (.file content))
    | .error cause => other.moveFile temporary path = .error cause := by
  have lands := h.landing_of_temporary fresh same goes
  have there : other.get? temporary = some (.file content) := by
    rw [same.get?, get?_insert_self tree (ne_nil_of_get? fresh)]
  have refusals : other.refusals = tree.refusals := same.refusals
  unfold moveFile
  rw [lands]
  cases landing : tree.landing path with
  | error cause => simp [bind, Except.bind]
  | ok place =>
    simp only [bind, Except.bind, there, refusals]
    cases tree.refusals.move path with
    | some cause => rfl
    | none =>
      have erased := (same.erase temporary).trans (same_erase_insert fresh _)
      exact ⟨_, rfl, erased.insert place _⟩

end Temporary

/-! ### The whole request -/

/-- Where the content is put that is to replace a file, once the directories are made, or why it is
not. -/
def placeFor (tree : FileTree) (path : Path) : Except IoError Location :=
  match tree.refusals.temporary path with
  | some cause => .error cause
  | none => grant (tree.refusals.move path) (tree.landing path)

theorem landing_of_placeFor (h : tree.placeFor path = .ok place) :
    tree.landing path = .ok place := by
  unfold placeFor at h
  split at h
  · cases h
  · exact (grant_eq_ok_iff.1 h).2

theorem placeFor_congr (refusals : other.refusals = tree.refusals)
    (lands : other.landing path = tree.landing path) :
    other.placeFor path = tree.placeFor path := by
  unfold placeFor
  rw [refusals, lands]

/-- Where the directories are refused, so is the request. -/
theorem replaceAt_of_refused
    (h : tree.makeDirectories path.directory.ancestors = (.error cause, after))
    (files : TemporaryFiles) (content : ByteArray) :
    tree.replaceAt files path content = (.error cause, after) := by
  rw [replaceAt, h]

/-- **The whole or nothing.** Once the directories are made, the content stands where it is put, and
that is the only difference; if it is not put anywhere, there is none. -/
theorem replaceAt_of_made (documented : files.AsDocumented) (directory : Path) (name : Name)
    (h : tree.makeDirectories (directory.join name.text).directory.ancestors = (.ok (), made))
    (content : ByteArray) : ∃ after,
      match made.placeFor (directory.join name.text) with
      | .ok place => tree.replaceAt files (directory.join name.text) content = (.ok (), after) ∧
          after.Same (made.insert place (.file content))
      | .error cause => tree.replaceAt files (directory.join name.text) content =
            (.error (made.refusals.told files (directory.join name.text) cause), after) ∧
          after.Same made := by
  obtain ⟨stays, goes⟩ := directory.goesOn_directory_join name
  obtain ⟨links, place, reaches⟩ := exists_reaches_of_makeDirectories h
  obtain ⟨temporary, fresh, created⟩ := reaches.exists_temporary documented
  have nonroot := ne_nil_of_get? fresh
  unfold placeFor Refusals.told Refusals.wordsVary Refusals.temporary
  -- the file is created, filled and moved; where one of these is refused it is not there afterwards
  cases create : made.refusals.create (directory.join name.text) with
  | some cause =>
    rw [create] at created
    exact ⟨made, by simp [replaceAt, h, created], .refl made⟩
  | none =>
    rw [create] at created
    have same : ∀ content, ((made.insert temporary (.file ByteArray.empty)).insert temporary
        (.file content)).Same (made.insert temporary (.file content)) := fun content =>
      same_insert_insert nonroot _ _
    have refusals : (made.insert temporary (.file ByteArray.empty)).refusals = made.refusals := rfl
    cases fill : made.refusals.fill (directory.join name.text) with
    | some cause =>
      have left := same (files.part (directory.join name.text) content)
      refine ⟨_, ?_, same_drop fresh left documented⟩
      simp [replaceAt, h, created, fillTemporary, refusals, fill]
    | none =>
      have moves := reaches.moveFile_of_temporary fresh (same content) goes
      simp only [Option.or_none]
      cases placed : grant (made.refusals.move (directory.join name.text))
          (made.landing (directory.join name.text)) with
      | ok place =>
        rw [placed] at moves
        obtain ⟨moved, moves, stands⟩ := moves
        exact ⟨moved, by simp [replaceAt, h, created, fillTemporary, refusals, fill, moves], stands⟩
      | error cause =>
        rw [placed] at moves
        refine ⟨_, ?_, same_drop fresh (same content) documented⟩
        simp [replaceAt, h, created, fillTemporary, refusals, fill, moves]

/-- What is refused in a tree is refused in it afterwards. -/
theorem refusals_replaceAt (documented : files.AsDocumented) {destination : Path}
    (named : destination = directory.join name.text) (tree : FileTree) (content : ByteArray) :
    (tree.replaceAt files destination content).2.refusals = tree.refusals := by
  have grows := tree.growsTo_makeDirectories destination.directory.ancestors
  cases making : tree.makeDirectories destination.directory.ancestors with
  | mk answer made =>
    rw [making] at grows
    cases answer with
    | error cause =>
      rw [replaceAt_of_refused making]
      exact grows.refusals
    | ok =>
      obtain ⟨after, outcome⟩ :=
        replaceAt_of_made documented directory name (named ▸ making) content
      rw [← named] at outcome
      split at outcome
      · rw [outcome.1]
        exact outcome.2.refusals.trans grows.refusals
      · rw [outcome.1]
        exact outcome.2.refusals.trans grows.refusals

/-! ### What is spared -/

/-- The tree once the directories are made that lead to a destination, as far as they can be. -/
def prepared (tree : FileTree) (destination : Path) : FileTree :=
  (tree.makeDirectories destination.directory.ancestors).2

/-- Whether a location is on the way to a destination: the path of a directory above leads there. -/
def OnTheWay (tree : FileTree) (destination : Path) (location : Location) : Prop :=
  ∃ above ∈ destination.directory.ancestors,
    (tree.prepared destination).locateLast above .busy = .ok location

/-- Whether the tree afterwards has the same at a location as before, or a new directory on the way
to the destination. -/
def Spared (tree : FileTree) (destination : Path) (after : FileTree) (location : Location) : Prop :=
  after.get? location = tree.get? location ∨
    tree.get? location = none ∧ after.get? location = some .directory ∧
      tree.OnTheWay destination location

theorem spared_of_get?_eq {destination : Path}
    (same : after.get? location = (tree.prepared destination).get? location) :
    tree.Spared destination after location := by
  rcases (tree.growsTo_makeDirectories destination.directory.ancestors).get? location with
    kept | ⟨nothing, new⟩
  · exact .inl (same.trans kept)
  · refine .inr ⟨nothing, same.trans new, exists_mem_of_makeDirectories ?_⟩
    rw [nothing, new]
    exact nofun

/-- **Frame.** A request to replace a file spares everything if it is refused, and else everything
but the entry that the last name of the path denotes. There the content stands afterwards. -/
theorem replaceAt_spares (documented : files.AsDocumented) {destination : Path}
    (named : destination = directory.join name.text) (tree : FileTree) (content : ByteArray) :
    match tree.replaceAt files destination content with
    | (.error _, after) => ∀ location, tree.Spared destination after location
    | (.ok (), after) => ∃ place,
      (tree.prepared destination).locateLast destination .busy = .ok place ∧
      after.get? place = some (.file content) ∧
      ∀ location, location ≠ place → tree.Spared destination after location := by
  cases making : tree.makeDirectories destination.directory.ancestors with
  | mk answer made =>
    have prepared : tree.prepared destination = made := by rw [FileTree.prepared, making]
    cases answer with
    | error cause =>
      rw [replaceAt_of_refused making]
      exact fun location => spared_of_get?_eq (by rw [prepared])
    | ok =>
      obtain ⟨after, outcome⟩ :=
        replaceAt_of_made documented directory name (named ▸ making) content
      rw [← named] at outcome
      cases placed : made.placeFor destination with
      | error cause =>
        rw [placed] at outcome
        rw [outcome.1]
        exact fun location => spared_of_get?_eq (by rw [prepared, outcome.2.get?])
      | ok place =>
        rw [placed] at outcome
        obtain ⟨denoted, plain⟩ := locateLast_of_landing (landing_of_placeFor placed)
        rw [outcome.1]
        refine ⟨place, prepared ▸ denoted, ?_, fun location differs => spared_of_get?_eq ?_⟩
        · rw [outcome.2.get?, get?_insert_self made (ne_nil_of_isDirectoryAt plain)]
        · rw [prepared, outcome.2.get?, get?_insert_of_ne made differs]

end FileTree
end Manuscript
