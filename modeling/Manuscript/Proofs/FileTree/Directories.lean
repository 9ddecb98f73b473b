import Manuscript.FileTree.Replace
import Manuscript.Proofs.FileTree.Leads
import Manuscript.Proofs.Path.Pieces

/-!
# Making directories

`FileTree.makeDirectories` makes a directory together with those above it. It may be refused on the
way, and what was made by then stays.

* `FileTree.growsTo_makeDirectories`: nothing but new directories comes of it, each where one of the
  paths leads (`FileTree.exists_mem_of_makeDirectories`).
* `FileTree.leadsToDirectory_of_makeDirectories`, `FileTree.makeDirectories_of_leadsToDirectory`:
  after a success the path leads to a directory, and as long as it does, the request changes
  nothing.
* `FileTree.makeDirectories_again`: after a refusal the request is refused again, and changes
  nothing any more.
-/

namespace Manuscript
namespace FileTree

variable {tree other after made : FileTree} {follow : Bool} {location mid last place : Location}
  {directions front more : List Path.Direction} {links : List Location} {path above : Path}
  {paths : List Path} {refusal cause : IoError}

/-! ### Where paths lead -/

theorem locate_eq_ok_iff : tree.locate path = .ok last ↔ checkPath path = .ok () ∧
    ∃ links, tree.Leads true (tree.startOf path) path.route links last ∧
      links.length ≤ linkLimit := by
  rw [← walkLinks_eq_ok_iff, locate]
  cases checkPath path with
  | error cause => simp [bind, Except.bind]
  | ok => simp [bind, Except.bind]

theorem locateLast_eq_ok_iff : tree.locateLast path refusal = .ok last ↔ checkPath path = .ok () ∧
    (∃ name, path.directions.getLast? = some (.into name)) ∧
    ∃ links, tree.Leads false (tree.startOf path) path.directions links last ∧
      links.length ≤ linkLimit := by
  rw [← walkLinks_eq_ok_iff, locateLast]
  cases checkPath path with
  | error cause => simp [bind, Except.bind]
  | ok =>
    cases tree.walkLinks false linkLimit (tree.startOf path) path.directions with
    | error cause => simp [bind, Except.bind]
    | ok location =>
      cases ends : path.directions.getLast? with
      | none => simp [bind, Except.bind]
      | some direction => cases direction <;> simp [bind, Except.bind, pure, Except.pure]

/-- The links on the way are links. -/
theorem Leads.exists_link (h : tree.Leads follow location directions links last) :
    ∀ link ∈ links, ∃ target, tree.get? link = some (.link target) := by
  induction h with
  | arrived => simp
  | stay _ _ ih | up _ _ ih | into _ _ _ _ _ ih => exact ih
  | last => simp
  | link _ _ _ found _ ih =>
    intro link mem
    rcases List.mem_cons.1 mem with rfl | mem
    · exact ⟨_, found⟩
    · exact ih link mem

/-- To stay in a directory changes nothing. -/
theorem leads_append_stays_iff (directory : tree.isDirectoryAt last) (stays : Nat) :
    tree.Leads true location (directions ++ List.replicate stays .stay) links last ↔
      tree.Leads true location directions links last := by
  have remains : ∀ stays, tree.Leads true last (List.replicate stays .stay) [] last := by
    intro stays
    induction stays with
    | zero => exact .arrived last
    | succ stays ih => exact .stay directory ih
  have rests : ∀ stays {location links},
      tree.Leads true location (List.replicate stays .stay) links last →
        links = [] ∧ location = last := by
    intro stays location links h
    induction stays with
    | zero =>
      cases h
      exact ⟨rfl, rfl⟩
    | succ stays ih =>
      cases h with
      | stay _ h => exact ih h
  cases stays with
  | zero => simp
  | succ stays =>
    constructor
    · intro h
      obtain ⟨mid, before, rest, front, -, back, rfl⟩ :=
        exists_leads_of_append (by simp [List.replicate_succ]) h
      obtain ⟨rfl, rfl⟩ := rests _ back
      simpa using front
    · intro h
      simpa using h.append directory (by simp [List.replicate_succ]) (remains _)

/-- Whether a path leads to a directory does not depend on how often it says to stay. -/
theorem leadsToDirectory_iff {stays : Nat}
    (route : path.route = front ++ List.replicate stays .stay) :
    tree.leadsToDirectory path ↔ checkPath path = .ok () ∧
      ∃ place links, tree.Leads true (tree.startOf path) front links place ∧
        links.length ≤ linkLimit ∧ tree.isDirectoryAt place := by
  have kind : tree.leadsToDirectory path ↔
      ∃ place, tree.locate path = .ok place ∧ tree.isDirectoryAt place := by
    rw [leadsToDirectory, kindAt]
    cases tree.locate path with
    | error cause => simp [bind, Except.bind]
    | ok place =>
      simp only [bind, Except.bind, Except.ok.injEq, exists_eq_left', isDirectoryAt_iff]
      cases tree.get? place with
      | none => simp
      | some entry => cases entry <;> simp
  simp only [kind, locate_eq_ok_iff, route]
  constructor
  · rintro ⟨place, ⟨ok, links, leads, within⟩, directory⟩
    exact ⟨ok, place, links, (leads_append_stays_iff directory _).1 leads, within, directory⟩
  · rintro ⟨ok, place, links, leads, within, directory⟩
    exact ⟨place, ⟨ok, links, (leads_append_stays_iff directory _).2 leads, within⟩, directory⟩

/-- What something follows leads to a directory. -/
theorem leadsToDirectory_of_goesOn (h : above.GoesOn more path) (nonempty : more ≠ [])
    (ok : checkPath path = .ok ())
    (leads : tree.Leads follow (tree.startOf path) path.directions links last)
    (within : links.length ≤ linkLimit) : tree.leadsToDirectory above := by
  obtain ⟨front, stays, directions, route⟩ := h.directions
  rw [directions] at leads
  obtain ⟨mid, before, rest, front, directory, -, rfl⟩ := exists_leads_of_append nonempty leads
  have start : tree.startOf above = tree.startOf path := by rw [startOf, startOf, h.isAbsolute]
  refine (leadsToDirectory_iff route).2 ⟨h.checkPath ok, mid, before, start ▸ front, ?_, directory⟩
  rw [List.length_append] at within
  exact Nat.le_trans (Nat.le_add_right _ _) within

/-- What something follows leads to a directory, if that does. -/
theorem leadsToDirectory_above (h : above.GoesOn more path) (nonempty : more ≠ [])
    (leads : tree.leadsToDirectory path) : tree.leadsToDirectory above := by
  obtain ⟨stays, route⟩ := path.exists_route_eq
  obtain ⟨check, place, links, leads, within, -⟩ := (leadsToDirectory_iff route).1 leads
  exact leadsToDirectory_of_goesOn h nonempty check leads within

/-! ### To follow the last name or not -/

/-- Where the entry is no link, it does not matter whether it is to be followed. -/
theorem Leads.following (h : tree.Leads false location directions links last)
    (plain : ∀ target, tree.get? last ≠ some (.link target)) :
    tree.Leads true location directions links last := by
  induction h with
  | arrived location => exact .arrived location
  | stay here _ ih => exact .stay here (ih plain)
  | up here _ ih => exact .up here (ih plain)
  | last here fits _ => exact .last here fits fun target found => absurd found (plain target)
  | into here fits more onward _ ih => exact .into here fits more onward (ih plain)
  | link here fits followed found _ ih => exact .link here fits (.inr rfl) found (ih plain)

/-- A path that leads to something ends with a name under which something stands. -/
theorem Leads.unfollow (h : tree.Leads true location directions links last)
    (stands : (tree.get? last).isSome) : ∃ links' last', links'.length ≤ links.length ∧
      tree.Leads false location directions links' last' ∧ (tree.get? last').isSome := by
  induction h with
  | arrived location => exact ⟨[], location, Nat.le_refl _, .arrived location, stands⟩
  | stay here _ ih =>
    obtain ⟨links', last', fewer, leads, stands⟩ := ih stands
    exact ⟨links', last', fewer, .stay here leads, stands⟩
  | up here _ ih =>
    obtain ⟨links', last', fewer, leads, stands⟩ := ih stands
    exact ⟨links', last', fewer, .up here leads, stands⟩
  | @last location name here fits _ =>
    exact ⟨[], _, Nat.le_refl _, .last here fits fun _ _ => rfl, stands⟩
  | into here fits more onward _ ih =>
    obtain ⟨links', last', fewer, leads, stands⟩ := ih stands
    exact ⟨links', last', fewer, .into here fits more onward leads, stands⟩
  | @link location name target rest links last here fits _ found _ ih =>
    by_cases ends : rest = []
    · -- the link itself stands under the last name
      subst ends
      exact ⟨[], _, Nat.zero_le _, .last here fits fun _ _ => rfl, by rw [found]; rfl⟩
    · obtain ⟨links', last', fewer, leads, stands⟩ := ih stands
      exact ⟨_ :: links', last', Nat.succ_le_succ fewer,
        .link here fits (.inl ends) found leads, stands⟩

/-! ### More directories -/

/-- A tree in which directories stand where nothing stood, and nothing else is different. -/
structure GrowsTo (tree other : FileTree) : Prop where
  workingDirectory : other.workingDirectory = tree.workingDirectory
  refusals : other.refusals = tree.refusals
  get? : ∀ location, other.get? location = tree.get? location ∨
    tree.get? location = none ∧ other.get? location = some .directory

namespace GrowsTo

theorem refl (tree : FileTree) : tree.GrowsTo tree := ⟨rfl, rfl, fun _ => .inl rfl⟩

theorem get?_of_isSome (h : tree.GrowsTo other) (stands : (tree.get? location).isSome) :
    other.get? location = tree.get? location := by
  rcases h.get? location with same | ⟨none, -⟩
  · exact same
  · simp [none] at stands

theorem trans (h : tree.GrowsTo other) (h' : other.GrowsTo after) : tree.GrowsTo after where
  workingDirectory := h'.workingDirectory.trans h.workingDirectory
  refusals := h'.refusals.trans h.refusals
  get? location := by
    rcases h.get? location with same | ⟨none, directory⟩
    · rw [← same]
      exact h'.get? location
    · rw [h'.get?_of_isSome (by rw [directory]; rfl)]
      exact .inr ⟨none, directory⟩

theorem keeps (h : tree.GrowsTo other) : tree.Keeps other where
  workingDirectory := h.workingDirectory
  refusals := h.refusals
  isDirectoryAt location directory := by
    rw [isDirectoryAt_iff] at *
    rw [h.get?_of_isSome (by rw [directory]; rfl), directory]
  link location target found := by
    rcases h.get? location with same | ⟨-, directory⟩
    · rw [← same, found]
    · rw [directory] at found
      cases found

theorem leads (h : tree.GrowsTo other) (leads : tree.Leads follow location directions links last) :
    other.Leads follow location directions links last :=
  leads.mono h.keeps fun link mem => h.get?_of_isSome (by
    obtain ⟨target, found⟩ := leads.exists_link link mem
    rw [found]
    rfl)

theorem startOf (h : tree.GrowsTo other) (path : Path) :
    other.startOf path = tree.startOf path := by
  rw [FileTree.startOf, FileTree.startOf, h.workingDirectory]

theorem locateLast (h : tree.GrowsTo other) (ok : tree.locateLast path refusal = .ok last) :
    other.locateLast path refusal = .ok last := by
  obtain ⟨check, named, links, leads, within⟩ := locateLast_eq_ok_iff.1 ok
  exact locateLast_eq_ok_iff.2 ⟨check, named, links, h.startOf path ▸ h.leads leads, within⟩

end GrowsTo

/-! ### One directory -/

theorem makeDirectory_eq_ok_iff : tree.makeDirectory path = .ok made ↔
    tree.refusals.make path = none ∧ ∃ place,
      tree.locateLast path .alreadyExists = .ok place ∧ tree.get? place = none ∧
        made = tree.insert place .directory := by
  rw [makeDirectory]
  cases tree.locateLast path .alreadyExists with
  | error cause => simp [bind, Except.bind]
  | ok place =>
    cases found : tree.get? place with
    | none => simp [bind, Except.bind, found, grant_eq_ok_iff, @eq_comm _ made]
    | some entry => simp [bind, Except.bind, found]

theorem growsTo_insert_directory (none : tree.get? place = none) :
    tree.GrowsTo (tree.insert place .directory) where
  workingDirectory := rfl
  refusals := rfl
  get? location := by
    by_cases same : location = place
    · subst same
      exact .inr ⟨none, get?_insert_self tree (ne_nil_of_get? none) _⟩
    · exact .inl (get?_insert_of_ne tree same _)

theorem growsTo_makeDirectory (h : tree.makeDirectory path = .ok made) : tree.GrowsTo made := by
  obtain ⟨-, place, -, none, rfl⟩ := makeDirectory_eq_ok_iff.1 h
  exact growsTo_insert_directory none

/-- A directory is made where the path then leads. -/
theorem leadsToDirectory_of_makeDirectory (h : tree.makeDirectory path = .ok made) :
    made.leadsToDirectory path := by
  obtain ⟨-, place, located, none, rfl⟩ := makeDirectory_eq_ok_iff.1 h
  obtain ⟨check, -, links, leads, within⟩ := locateLast_eq_ok_iff.1 located
  obtain ⟨stays, route⟩ := path.exists_route_eq
  have grows := growsTo_insert_directory none
  have leads := leads.following fun target => by rw [none]; exact nofun
  refine (leadsToDirectory_iff route).2 ⟨check, place, links, ?_, within, ?_⟩
  · exact grows.startOf path ▸ grows.leads leads
  · rw [isDirectoryAt_iff, get?_insert_self tree (ne_nil_of_get? none)]

/-- No directory is made where there is one. -/
theorem makeDirectory_of_leadsToDirectory (h : tree.leadsToDirectory path) :
    tree.makeDirectory path = .error .alreadyExists := by
  obtain ⟨stays, route⟩ := path.exists_route_eq
  obtain ⟨check, place, links, leads, within, directory⟩ := (leadsToDirectory_iff route).1 h
  obtain ⟨links', last, fewer, leads, stands⟩ :=
    leads.unfollow (by rw [isDirectoryAt_iff.1 directory]; rfl)
  have walked : tree.walkLinks false linkLimit (tree.startOf path) path.directions = .ok last :=
    walkLinks_eq_ok_iff.2 ⟨links', leads, Nat.le_trans fewer within⟩
  simp only [makeDirectory, locateLast, check, walked, bind, Except.bind]
  -- either the path ends with a name, and something stands there, or it is refused as it stands
  split
  · next ends =>
    split at ends <;> cases ends
    rfl
  · next ends =>
    split at ends <;> cases ends
    exact if_pos stands

/-- No directory is made without one to hold it. -/
theorem leadsToDirectory_of_makeDirectory_goesOn (h : above.GoesOn more path) (nonempty : more ≠ [])
    (made : tree.makeDirectory path = .ok made) : tree.leadsToDirectory above := by
  obtain ⟨-, place, located, -, rfl⟩ := makeDirectory_eq_ok_iff.1 made
  obtain ⟨check, -, links, leads, within⟩ := locateLast_eq_ok_iff.1 located
  exact leadsToDirectory_of_goesOn h nonempty check leads within

/-! ### Directories in a row -/

/-- A directory is made, or is there already, or is refused. -/
theorem acceptDirectory_cases (tree : FileTree) (path : Path) :
    (∃ made, tree.makeDirectory path = .ok made ∧
      tree.acceptDirectory path (tree.makeDirectory path) = (.ok (), made)) ∨
    (tree.leadsToDirectory path ∧
      tree.acceptDirectory path (tree.makeDirectory path) = (.ok (), tree)) ∨
    (∃ cause, tree.leadsToDirectory path = false ∧ tree.makeDirectory path = .error cause ∧
      tree.acceptDirectory path (tree.makeDirectory path) = (.error cause, tree)) := by
  cases answer : tree.makeDirectory path with
  | ok made => exact .inl ⟨made, rfl, rfl⟩
  | error cause =>
    cases leads : tree.leadsToDirectory path with
    | true => exact .inr (.inl ⟨rfl, by rw [acceptDirectory, if_pos leads]⟩)
    | false => exact .inr (.inr ⟨cause, rfl, rfl, by rw [acceptDirectory, leads]; rfl⟩)

/-- The last directory is asked for at once, and again after those above it if one is missing. -/
theorem makeDirectories_cons_cases (tree : FileTree) (path : Path) (paths : List Path) :
    (tree.makeDirectory path ≠ .error .notFound ∧ tree.makeDirectories (path :: paths) =
      tree.acceptDirectory path (tree.makeDirectory path)) ∨
    (∃ cause after, tree.makeDirectory path = .error .notFound ∧
      tree.makeDirectories paths = (.error cause, after) ∧
      tree.makeDirectories (path :: paths) = (.error cause, after)) ∨
    (∃ after, tree.makeDirectory path = .error .notFound ∧
      tree.makeDirectories paths = (.ok (), after) ∧ tree.makeDirectories (path :: paths) =
        after.acceptDirectory path (after.makeDirectory path)) := by
  rw [makeDirectories]
  split
  · next missing =>
    cases answer : tree.makeDirectories paths with
    | mk result after =>
      cases result with
      | ok => exact .inr (.inr ⟨after, missing, rfl, rfl⟩)
      | error cause => exact .inr (.inl ⟨cause, after, missing, rfl, rfl⟩)
  · next present => exact .inl ⟨present, rfl⟩

theorem growsTo_acceptDirectory (tree : FileTree) (path : Path) :
    tree.GrowsTo (tree.acceptDirectory path (tree.makeDirectory path)).2 := by
  rcases tree.acceptDirectory_cases path with
    ⟨made, h, answer⟩ | ⟨-, answer⟩ | ⟨cause, -, -, answer⟩
  · rw [answer]
    exact growsTo_makeDirectory h
  · rw [answer]
    exact .refl tree
  · rw [answer]
    exact .refl tree

/-- **Frame.** Nothing but new directories comes of a request for directories. -/
theorem growsTo_makeDirectories (tree : FileTree) (paths : List Path) :
    tree.GrowsTo (tree.makeDirectories paths).2 := by
  induction paths with
  | nil => exact .refl tree
  | cons path paths ih =>
    rcases tree.makeDirectories_cons_cases path paths with
      ⟨-, answer⟩ | ⟨cause, after, -, refused, answer⟩ | ⟨after, -, made, answer⟩
    · rw [answer]
      exact growsTo_acceptDirectory tree path
    · rw [answer]
      rwa [refused] at ih
    · rw [answer]
      rw [made] at ih
      exact ih.trans (growsTo_acceptDirectory after path)

/-- Where a new directory stands the path leads. -/
theorem locateLast_of_acceptDirectory
    (new : (tree.acceptDirectory path (tree.makeDirectory path)).2.get? place ≠ tree.get? place) :
    (tree.acceptDirectory path (tree.makeDirectory path)).2.locateLast path .busy = .ok place := by
  rcases tree.acceptDirectory_cases path with
    ⟨made, h, answer⟩ | ⟨-, answer⟩ | ⟨cause, -, -, answer⟩
  · rw [answer] at new ⊢
    have grows := growsTo_makeDirectory h
    obtain ⟨-, there, located, none, rfl⟩ := makeDirectory_eq_ok_iff.1 h
    have same : place = there := by
      by_contra differ
      exact new (get?_insert_of_ne tree differ _)
    refine grows.locateLast (locateLast_eq_ok_iff.2 ?_)
    exact same ▸ locateLast_eq_ok_iff.1 located
  · exact absurd (by rw [answer]) new
  · exact absurd (by rw [answer]) new

/-- Where a new directory stands one of the paths leads. -/
theorem exists_mem_of_makeDirectories
    (new : (tree.makeDirectories paths).2.get? place ≠ tree.get? place) :
    ∃ path ∈ paths, (tree.makeDirectories paths).2.locateLast path .busy = .ok place := by
  induction paths with
  | nil => exact absurd rfl new
  | cons path paths ih =>
    rcases tree.makeDirectories_cons_cases path paths with
      ⟨-, answer⟩ | ⟨cause, after, -, refused, answer⟩ | ⟨after, -, made, answer⟩
    · rw [answer] at new ⊢
      exact ⟨path, List.mem_cons_self, locateLast_of_acceptDirectory new⟩
    · rw [answer] at new ⊢
      rw [refused] at ih
      obtain ⟨above, mem, located⟩ := ih new
      exact ⟨above, List.mem_cons_of_mem _ mem, located⟩
    · rw [answer] at new ⊢
      rw [made] at ih
      by_cases early : after.get? place = tree.get? place
      · exact ⟨path, List.mem_cons_self, locateLast_of_acceptDirectory (early ▸ new)⟩
      · obtain ⟨above, mem, located⟩ := ih early
        exact ⟨above, List.mem_cons_of_mem _ mem,
          (growsTo_acceptDirectory after path).locateLast located⟩

/-- After a success the path leads to a directory. -/
theorem leadsToDirectory_of_makeDirectories
    (h : tree.makeDirectories (path :: paths) = (.ok (), after)) : after.leadsToDirectory path := by
  have accepted : ∀ tree : FileTree,
      tree.acceptDirectory path (tree.makeDirectory path) = (.ok (), after) →
        after.leadsToDirectory path := by
    intro tree h
    rcases tree.acceptDirectory_cases path with
      ⟨made, new, answer⟩ | ⟨leads, answer⟩ | ⟨cause, -, -, answer⟩
    · cases answer.symm.trans h
      exact leadsToDirectory_of_makeDirectory new
    · cases answer.symm.trans h
      exact leads
    · cases answer.symm.trans h
  rcases tree.makeDirectories_cons_cases path paths with
    ⟨-, answer⟩ | ⟨cause, after, -, -, answer⟩ | ⟨after, -, -, answer⟩
  · exact accepted _ (answer.symm.trans h)
  · cases answer.symm.trans h
  · exact accepted _ (answer.symm.trans h)

/-- Nothing is made where the path leads to a directory already. -/
theorem makeDirectories_of_leadsToDirectory (h : tree.leadsToDirectory path) (paths : List Path) :
    tree.makeDirectories (path :: paths) = (.ok (), tree) := by
  simp [makeDirectories, makeDirectory_of_leadsToDirectory h, acceptDirectory, h]

/-- **Granted again.** What was granted once is granted again, and nothing more is made. -/
theorem makeDirectories_again_of_ok (h : tree.makeDirectories paths = (.ok (), after)) :
    after.makeDirectories paths = (.ok (), after) := by
  cases paths with
  | nil => rfl
  | cons path paths =>
    exact makeDirectories_of_leadsToDirectory (leadsToDirectory_of_makeDirectories h) paths

/-- What refuses a directory makes nothing. -/
theorem eq_of_acceptDirectory_error
    (h : tree.acceptDirectory path (tree.makeDirectory path) = (.error cause, after)) :
    after = tree := by
  rcases tree.acceptDirectory_cases path with
    ⟨_, -, accepted⟩ | ⟨-, accepted⟩ | ⟨_, -, -, accepted⟩
  · cases accepted.symm.trans h
  · cases accepted.symm.trans h
  · exact (congrArg Prod.snd (accepted.symm.trans h)).symm

/-- Where the directory above is refused, so is this one: it can neither be there nor be made. -/
theorem makeDirectories_of_refused_above (goes : above.GoesOn more path) (nonempty : more ≠ [])
    (refused : tree.makeDirectories (above :: paths) = (.error cause, tree)) :
    ∃ cause, tree.makeDirectories (path :: above :: paths) = (.error cause, tree) := by
  have missing : ¬ tree.leadsToDirectory above := fun leads => by
    cases (makeDirectories_of_leadsToDirectory leads paths).symm.trans refused
  rcases tree.makeDirectories_cons_cases path (above :: paths) with
    ⟨-, answer⟩ | ⟨_, _, -, refused', answer⟩ | ⟨_, -, made, -⟩
  · rcases tree.acceptDirectory_cases path with
      ⟨_, made, -⟩ | ⟨leads, -⟩ | ⟨cause, -, -, accepted⟩
    · exact absurd (leadsToDirectory_of_makeDirectory_goesOn goes nonempty made) missing
    · exact absurd (leadsToDirectory_above goes nonempty leads) missing
    · exact ⟨cause, answer.trans accepted⟩
  · cases refused'.symm.trans refused
    exact ⟨_, answer⟩
  · cases made.symm.trans refused

/-- Where those above are there, the directory is refused as it is on its own. -/
theorem makeDirectories_of_made_above (made : tree.makeDirectories paths = (.ok (), tree))
    (refused : tree.acceptDirectory path (tree.makeDirectory path) = (.error cause, tree)) :
    tree.makeDirectories (path :: paths) = (.error cause, tree) := by
  rcases tree.makeDirectories_cons_cases path paths with
    ⟨-, answer⟩ | ⟨_, _, -, refused', -⟩ | ⟨_, -, again, answer⟩
  · exact answer.trans refused
  · cases refused'.symm.trans made
  · cases again.symm.trans made
    exact answer.trans refused

/-- **Refused again.** What was refused once is refused again, and nothing more is made. -/
theorem makeDirectories_again
    (chain : List.IsChain (fun path above => ∃ more, more ≠ [] ∧ Path.GoesOn above more path) paths)
    (h : tree.makeDirectories paths = (.error cause, after)) :
    ∃ cause, after.makeDirectories paths = (.error cause, after) := by
  induction paths generalizing cause after with
  | nil => cases h
  | cons path paths ih =>
    rcases tree.makeDirectories_cons_cases path paths with
      ⟨-, answer⟩ | ⟨_, _, -, refused, answer⟩ | ⟨between, -, made, answer⟩
    · -- this one was asked for alone, and nothing was made
      obtain rfl := eq_of_acceptDirectory_error (answer.symm.trans h)
      exact ⟨cause, h⟩
    · -- one above was refused
      cases answer.symm.trans h
      cases chain with
      | singleton => cases refused
      | cons_cons goesOn chain =>
        obtain ⟨more, nonempty, goes⟩ := goesOn
        obtain ⟨cause, refused⟩ := ih chain refused
        exact makeDirectories_of_refused_above goes nonempty refused
    · -- those above were made, so it is the last that is refused
      have refused := answer.symm.trans h
      obtain rfl := eq_of_acceptDirectory_error refused
      exact ⟨cause, makeDirectories_of_made_above (makeDirectories_again_of_ok made) refused⟩

end FileTree
end Manuscript
