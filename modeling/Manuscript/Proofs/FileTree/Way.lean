import Manuscript.FileTree.Edit
import Manuscript.Proofs.FileTree.Replacement

/-!
# What is looked at on the way

To follow a path, a tree is asked what stands at certain locations and nowhere else
(`FileTree.way`). Two trees that have the same there give the same answer, be it a location or an
error (`FileTree.walkLinks_congr_way`). A tree with more directories is asked for no fewer
(`FileTree.GrowsTo.way`).

A tree may lack the files that another tree has at some locations (`FileTree.Lacks`). As long as
none of them is on the way, directories are made in the one as in the other
(`FileTree.Lacks.makeDirectories`), and so are files replaced (`FileTree.replaceAt_of_lacks`).
-/

namespace Manuscript
namespace FileTree

/-! ### Ways -/

/-- The locations at which a walk looks, up to the first link. -/
def walkWay (tree : FileTree) (location : Location) : List Path.Direction → List Location
  | [] => [location]
  | direction :: rest =>
    location ::
      if !tree.isDirectoryAt location then []
      else match direction with
        | .stay => tree.walkWay location rest
        | .up => tree.walkWay location.dropLast rest
        | .into name =>
          match tree.get? (location ++ [name]) with
          | none | some (.link _) => [location ++ [name]]
          | some _ => tree.walkWay (location ++ [name]) rest

/-- The locations at which directions make look, with at most so many links. -/
def wayFrom (tree : FileTree) (follow : Bool) (links : Nat) (location : Location)
    (directions : List Path.Direction) : List Location :=
  match tree.walk follow location directions with
  | .error _ => tree.walkWay location directions
  | .ok (.arrived _) => tree.walkWay location directions
  | .ok (.link place target rest) =>
    match links with
    | 0 => tree.walkWay location directions
    | links + 1 => tree.walkWay location directions ++
        tree.wayFrom follow links (baseOf target place) (target.route ++ rest)

/-- The locations that are looked at on the way to what a path leads to, or to the entry that its
last name denotes. -/
def way (tree : FileTree) (path : Path) : List Location :=
  tree.wayFrom true linkLimit (tree.startOf path) path.route ++
    tree.wayFrom false linkLimit (tree.startOf path) path.directions

variable {tree other made after shadow : FileTree} {follow : Bool} {location place : Location}
  {directions rest : List Path.Direction} {limit : Nat} {path directory : Path} {paths : List Path}
  {name : Name} {refusal cause : IoError} {files files' : TemporaryFiles}

theorem mem_walkWay_self (tree : FileTree) (location : Location)
    (directions : List Path.Direction) : location ∈ tree.walkWay location directions := by
  cases directions <;> exact List.mem_cons_self

section Walk

variable (here : tree.isDirectoryAt location)

include here

theorem walkWay_stay : tree.walkWay location (.stay :: rest) =
    location :: tree.walkWay location rest := by
  simp [walkWay, here]

theorem walkWay_up : tree.walkWay location (.up :: rest) =
    location :: tree.walkWay location.dropLast rest := by
  simp [walkWay, here]

theorem walkWay_into : tree.walkWay location (.into name :: rest) =
    location :: match tree.get? (location ++ [name]) with
      | none | some (.link _) => [location ++ [name]]
      | some _ => tree.walkWay (location ++ [name]) rest := by
  simp [walkWay, here]

/-- A name that is walked into is looked at. -/
theorem mem_walkWay_into : location ++ [name] ∈ tree.walkWay location (.into name :: rest) := by
  rw [walkWay_into here]
  refine List.mem_cons_of_mem _ ?_
  split
  · exact List.mem_cons_self
  · exact List.mem_cons_self
  · exact mem_walkWay_self tree _ rest

end Walk

/-! ### Trees that have the same on the way -/

/-- **A walk.** Trees with the same on the way let it come to the same halt. -/
theorem walk_congr_way
    (same : ∀ place ∈ tree.walkWay location directions, other.get? place = tree.get? place) :
    other.walk follow location directions = tree.walk follow location directions := by
  induction directions generalizing location with
  | nil => rfl
  | cons direction rest ih =>
    have alike : other.isDirectoryAt location = tree.isDirectoryAt location := by
      unfold isDirectoryAt
      rw [same location List.mem_cons_self]
    cases here : tree.isDirectoryAt location with
    | false =>
      rw [walk_of_not_directory here (List.cons_ne_nil _ _),
        walk_of_not_directory (alike.trans here) (List.cons_ne_nil _ _)]
    | true =>
      have here' := alike.trans here
      cases direction with
      | stay =>
        rw [walk_stay here, walk_stay here']
        rw [walkWay_stay here] at same
        exact ih fun place mem => same place (List.mem_cons_of_mem _ mem)
      | up =>
        rw [walk_up here, walk_up here']
        rw [walkWay_up here] at same
        exact ih fun place mem => same place (List.mem_cons_of_mem _ mem)
      | into name =>
        have there := same _ (mem_walkWay_into here)
        rw [walkWay_into here] at same
        unfold walk
        simp only [here, here', there]
        -- where the walk goes on, it goes on alike
        cases found : tree.get? (location ++ [name]) with
        | none => rfl
        | some entry =>
          cases entry with
          | link target => rfl
          | _ =>
            simp only [found] at same
            rw [ih fun place mem => same place (List.mem_cons_of_mem _ mem)]

theorem walkWay_subset_wayFrom (tree : FileTree) (follow : Bool) (limit : Nat)
    (location : Location) (directions : List Path.Direction) :
    tree.walkWay location directions ⊆ tree.wayFrom follow limit location directions := by
  unfold wayFrom
  split
  · exact fun _ mem => mem
  · exact fun _ mem => mem
  · split
    · exact fun _ mem => mem
    · exact fun _ mem => List.mem_append_left _ mem

theorem wayFrom_link {target : Path}
    (halted : tree.walk follow location directions = .ok (.link place target rest)) (limit : Nat) :
    tree.wayFrom follow (limit + 1) location directions = tree.walkWay location directions ++
      tree.wayFrom follow limit (baseOf target place) (target.route ++ rest) := by
  rw [wayFrom, halted]

/-- **Any number of links.** -/
theorem walkLinks_congr_way
    (same : ∀ place ∈ tree.wayFrom follow limit location directions,
      other.get? place = tree.get? place) :
    other.walkLinks follow limit location directions =
      tree.walkLinks follow limit location directions := by
  induction limit generalizing location directions with
  | zero =>
    have walked : other.walk follow location directions = tree.walk follow location directions :=
      walk_congr_way fun place mem =>
        same place (walkWay_subset_wayFrom tree follow 0 location directions mem)
    rw [walkLinks, walkLinks, walked]
  | succ limit ih =>
    have walked : other.walk follow location directions = tree.walk follow location directions :=
      walk_congr_way fun place mem =>
        same place (walkWay_subset_wayFrom tree follow _ location directions mem)
    rw [walkLinks, walkLinks, walked]
    cases halted : tree.walk follow location directions with
    | error cause => rfl
    | ok halt =>
      cases halt with
      | arrived last => rfl
      | link place target rest =>
        rw [wayFrom_link halted] at same
        exact ih fun place mem => same place (List.mem_append_right _ mem)

/-- Where a walk arrives is on its way. -/
theorem mem_walkWay_of_walk {last : Location}
    (h : tree.walk follow location directions = .ok (.arrived last)) :
    last ∈ tree.walkWay location directions := by
  induction directions generalizing location with
  | nil =>
    cases h
    exact List.mem_cons_self
  | cons direction rest ih =>
    have here : tree.isDirectoryAt location := by
      by_contra here
      rw [walk_of_not_directory (eq_false_of_ne_true here) (List.cons_ne_nil _ _)] at h
      cases h
    cases direction with
    | stay =>
      rw [walkWay_stay here]
      exact List.mem_cons_of_mem _ (ih (walk_stay here ▸ h))
    | up =>
      rw [walkWay_up here]
      exact List.mem_cons_of_mem _ (ih (walk_up here ▸ h))
    | into name =>
      obtain ⟨-, ⟨_, -, -, halts⟩ | ⟨-, halts, -⟩ | ⟨-, directory, onward⟩⟩ :=
        walk_into_cases here h
      · cases halts
      · cases halts
        exact mem_walkWay_into here
      · rw [walkWay_into here, isDirectoryAt_iff.1 directory]
        exact List.mem_cons_of_mem _ (ih onward)

/-- Where directions lead is on their way. -/
theorem mem_wayFrom_of_walkLinks {last : Location}
    (h : tree.walkLinks follow limit location directions = .ok last) :
    last ∈ tree.wayFrom follow limit location directions := by
  induction limit generalizing location directions with
  | zero =>
    rw [walkLinks] at h
    split at h <;> cases h
    next halted => exact walkWay_subset_wayFrom tree follow 0 _ _ (mem_walkWay_of_walk halted)
  | succ limit ih =>
    rw [walkLinks] at h
    split at h
    · cases h
    · next halted =>
      cases h
      exact walkWay_subset_wayFrom tree follow _ _ _ (mem_walkWay_of_walk halted)
    · next halted =>
      rw [wayFrom_link halted]
      exact List.mem_append_right _ (ih h)

/-! ### Trees with more directories -/

namespace GrowsTo

variable (grows : tree.GrowsTo other)

include grows

theorem walkWay (location : Location) (directions : List Path.Direction) :
    tree.walkWay location directions ⊆ other.walkWay location directions := by
  induction directions generalizing location with
  | nil => exact fun _ mem => mem
  | cons direction rest ih =>
    cases here : tree.isDirectoryAt location with
    | false =>
      -- the walk ends where it is
      intro place mem
      have only : tree.walkWay location (direction :: rest) = [location] := by
        simp [FileTree.walkWay, here]
      rw [only, List.mem_singleton] at mem
      exact mem ▸ mem_walkWay_self other location _
    | true =>
      have here' := grows.keeps.isDirectoryAt location here
      cases direction with
      | stay =>
        rw [walkWay_stay here, walkWay_stay here']
        exact List.cons_subset_cons _ (ih location)
      | up =>
        rw [walkWay_up here, walkWay_up here']
        exact List.cons_subset_cons _ (ih location.dropLast)
      | into name =>
        have there : location ++ [name] ∈ other.walkWay location (.into name :: rest) :=
          mem_walkWay_into here'
        cases found : tree.get? (location ++ [name]) with
        | none =>
          -- there may be a directory now, and it is looked at then as now
          rw [walkWay_into here, found]
          intro place mem
          rcases List.mem_cons.1 mem with rfl | mem
          · exact mem_walkWay_self other _ _
          · exact List.mem_singleton.1 mem ▸ there
        | some entry =>
          have stands : (tree.get? (location ++ [name])).isSome := by
            rw [found]
            rfl
          have found' := grows.get?_of_isSome stands
          rw [walkWay_into here, walkWay_into here', found', found]
          cases entry with
          | link target => exact fun _ mem => mem
          | _ => exact List.cons_subset_cons _ (ih (location ++ [name]))

/-- A walk comes to the same link. -/
theorem walk_link {target : Path}
    (h : tree.walk follow location directions = .ok (.link place target rest)) :
    other.walk follow location directions = .ok (.link place target rest) := by
  induction directions generalizing location with
  | nil => cases h
  | cons direction others ih =>
    have here : tree.isDirectoryAt location := by
      by_contra here
      rw [walk_of_not_directory (eq_false_of_ne_true here) (List.cons_ne_nil _ _)] at h
      cases h
    have here' := grows.keeps.isDirectoryAt location here
    cases direction with
    | stay => exact (walk_stay here').trans (ih (walk_stay here ▸ h))
    | up => exact (walk_up here').trans (ih (walk_up here ▸ h))
    | into name =>
      obtain ⟨fits, ⟨_, followed, found, halts⟩ | ⟨-, halts, -⟩ | ⟨-, directory, onward⟩⟩ :=
        walk_into_cases here h
      · cases halts
        have stands : (tree.get? (location ++ [name])).isSome := by
          rw [found]
          rfl
        have found' := grows.get?_of_isSome stands
        exact FileTree.walk_link here' fits followed (found'.trans found)
      · cases halts
      · exact (walk_into here' fits (grows.keeps.isDirectoryAt _ directory)).trans (ih onward)

theorem wayFrom (follow : Bool) (limit : Nat) (location : Location)
    (directions : List Path.Direction) :
    tree.wayFrom follow limit location directions ⊆
      other.wayFrom follow limit location directions := by
  have front : ∀ limit location directions, tree.walkWay location directions ⊆
      other.wayFrom follow limit location directions := fun limit location directions _ mem =>
    walkWay_subset_wayFrom other follow limit _ _ (grows.walkWay location directions mem)
  induction limit generalizing location directions with
  | zero =>
    rw [FileTree.wayFrom]
    split <;> exact front 0 location directions
  | succ limit ih =>
    cases halted : tree.walk follow location directions with
    | error cause =>
      rw [FileTree.wayFrom, halted]
      exact front _ location directions
    | ok halt =>
      cases halt with
      | arrived last =>
        rw [FileTree.wayFrom, halted]
        exact front _ location directions
      | link place target rest =>
        rw [wayFrom_link halted]
        refine List.append_subset.2 ⟨front _ location directions, ?_⟩
        rw [wayFrom_link (grows.walk_link halted)]
        exact List.subset_append_of_subset_right _ (ih _ _)

/-- **More directories.** A tree with more directories is looked at in no fewer places. -/
theorem way (path : Path) : tree.way path ⊆ other.way path := by
  unfold FileTree.way
  rw [grows.startOf path]
  refine List.append_subset.2 ⟨?_, ?_⟩
  · exact List.subset_append_of_subset_left _ (grows.wayFrom true _ _ _)
  · exact List.subset_append_of_subset_right _ (grows.wayFrom false _ _ _)

end GrowsTo

/-! ### Trees that lack files -/

/-- A tree has nothing at some places where another has files, and elsewhere it has the same. -/
structure Lacks (tree : FileTree) (places : Location → Prop) (shadow : FileTree) : Prop where
  workingDirectory : tree.workingDirectory = shadow.workingDirectory
  refusals : tree.refusals = shadow.refusals
  get? : ∀ location, ¬ places location → tree.get? location = shadow.get? location
  nothing : ∀ location, places location → tree.get? location = none
  file : ∀ location, places location → ∃ content, shadow.get? location = some (.file content)

namespace Lacks

variable {places : Location → Prop} (h : tree.Lacks places shadow)

include h

theorem startOf (path : Path) : tree.startOf path = shadow.startOf path := by
  rw [FileTree.startOf, FileTree.startOf, h.workingDirectory]

/-- Directories and links are where they are in the other tree. -/
theorem keeps : shadow.Keeps tree where
  workingDirectory := h.workingDirectory
  refusals := h.refusals
  isDirectoryAt location directory := by
    rw [isDirectoryAt_iff] at *
    -- what is lacking is a file, so no directory is
    have present : ¬ places location := fun lacking => by
      obtain ⟨content, found⟩ := h.file location lacking
      rw [directory] at found
      cases found
    rw [h.get? location present, directory]
  link location target found := by
    -- nothing stands where a file is lacking
    have present : ¬ places location := fun lacking => by
      rw [h.nothing location lacking] at found
      cases found
    rw [← h.get? location present, found]

theorem of_same {tree' shadow' : FileTree} (same : tree'.Same tree) (same' : shadow'.Same shadow) :
    tree'.Lacks places shadow' where
  workingDirectory := by
    rw [same.workingDirectory, same'.workingDirectory, h.workingDirectory]
  refusals := by rw [same.refusals, same'.refusals, h.refusals]
  get? location present := by
    rw [same.get?, same'.get?, h.get? location present]
  nothing location lacking := by
    rw [same.get?, h.nothing location lacking]
  file location lacking := by
    rw [same'.get?]
    exact h.file location lacking

/-- What is put where nothing is lacking is put into both. -/
theorem insert (present : ¬ places place) (entry : Entry) :
    (tree.insert place entry).Lacks places (shadow.insert place entry) where
  workingDirectory := h.workingDirectory
  refusals := h.refusals
  get? location here := by
    by_cases same : location = place
    · subst same
      by_cases root : location = []
      · simp [root]
      · rw [get?_insert_self tree root, get?_insert_self shadow root]
    · rw [get?_insert_of_ne tree same, get?_insert_of_ne shadow same, h.get? location here]
  nothing location lacking := by
    have differs : location ≠ place := fun same => present (same ▸ lacking)
    rw [get?_insert_of_ne tree differs, h.nothing location lacking]
  file location lacking := by
    have differs : location ≠ place := fun same => present (same ▸ lacking)
    rw [get?_insert_of_ne shadow differs]
    exact h.file location lacking

section

variable (clear : ∀ place ∈ shadow.way path, ¬ places place)

include clear

theorem locate : tree.locate path = shadow.locate path := by
  unfold FileTree.locate
  rw [h.startOf path]
  cases checkPath path with
  | error cause => rfl
  | ok =>
    exact walkLinks_congr_way fun place mem =>
      h.get? place (clear place (List.mem_append_left _ mem))

theorem locateLast (refusal : IoError) :
    tree.locateLast path refusal = shadow.locateLast path refusal := by
  have walked : tree.walkLinks false linkLimit (shadow.startOf path) path.directions =
      shadow.walkLinks false linkLimit (shadow.startOf path) path.directions :=
    walkLinks_congr_way fun place mem =>
      h.get? place (clear place (List.mem_append_right _ mem))
  unfold FileTree.locateLast
  rw [h.startOf path, walked]

theorem leadsToDirectory : tree.leadsToDirectory path = shadow.leadsToDirectory path := by
  unfold FileTree.leadsToDirectory kindAt
  rw [h.locate clear]
  cases located : shadow.locate path with
  | error cause => rfl
  | ok place =>
    -- the place where the path leads is looked at too
    have mem : place ∈ shadow.way path := by
      obtain ⟨-, links, leads, within⟩ := locate_eq_ok_iff.1 located
      exact List.mem_append_left _ (mem_wayFrom_of_walkLinks (leads.walkLinks_eq within).1)
    simp only [bind, Except.bind, h.get? place (clear place mem)]

/-- **A directory.** It is made in both trees, or refused for the same reason. -/
theorem makeDirectory :
    (∃ cause, tree.makeDirectory path = .error cause ∧ shadow.makeDirectory path = .error cause) ∨
    ∃ made shadow', tree.makeDirectory path = .ok made ∧
      shadow.makeDirectory path = .ok shadow' ∧ made.Lacks places shadow' := by
  unfold FileTree.makeDirectory
  rw [h.locateLast clear]
  cases located : shadow.locateLast path .alreadyExists with
  | error cause => exact .inl ⟨cause, rfl, rfl⟩
  | ok place =>
    -- both trees have something at the place, or neither has
    have mem : place ∈ shadow.way path := by
      obtain ⟨-, -, links, leads, within⟩ := locateLast_eq_ok_iff.1 located
      exact List.mem_append_right _ (mem_wayFrom_of_walkLinks (leads.walkLinks_eq within).1)
    simp only [bind, Except.bind, h.get? place (clear place mem), h.refusals]
    split
    · exact .inl ⟨_, rfl, rfl⟩
    · cases shadow.refusals.make path with
      | some cause => exact .inl ⟨cause, rfl, rfl⟩
      | none => exact .inr ⟨_, _, rfl, rfl, h.insert (clear place mem) .directory⟩

theorem acceptDirectory :
    (tree.acceptDirectory path (tree.makeDirectory path)).1 =
        (shadow.acceptDirectory path (shadow.makeDirectory path)).1 ∧
      (tree.acceptDirectory path (tree.makeDirectory path)).2.Lacks places
        (shadow.acceptDirectory path (shadow.makeDirectory path)).2 := by
  obtain ⟨cause, refused, refused'⟩ | ⟨made, made', answer, answer', lacks⟩ :=
    h.makeDirectory clear
  · rw [refused, refused']
    unfold FileTree.acceptDirectory
    simp only [h.leadsToDirectory clear]
    split <;> exact ⟨rfl, h⟩
  · rw [answer, answer']
    exact ⟨rfl, lacks⟩

end

/-- **Directories in a row.** They are made in both trees, as far as they can be. -/
theorem makeDirectories
    (clear : ∀ path ∈ paths, ∀ place ∈ (shadow.makeDirectories paths).2.way path,
      ¬ places place) :
    (tree.makeDirectories paths).1 = (shadow.makeDirectories paths).1 ∧
      (tree.makeDirectories paths).2.Lacks places (shadow.makeDirectories paths).2 := by
  induction paths with
  | nil => exact ⟨rfl, h⟩
  | cons path paths ih =>
    -- what is looked at now is looked at when all directories are made, so nothing is lacking there
    have grows := shadow.growsTo_makeDirectories (path :: paths)
    have clearNow : ∀ place ∈ shadow.way path, ¬ places place := fun place mem =>
      clear path List.mem_cons_self place (grows.way path mem)
    -- the answer to the first request is the same
    have alike : tree.makeDirectory path = .error .notFound ↔
        shadow.makeDirectory path = .error .notFound := by
      obtain ⟨cause, refused, refused'⟩ | ⟨_, _, answer, answer', -⟩ := h.makeDirectory clearNow
      · rw [refused, refused']
      · rw [answer, answer']
        exact ⟨nofun, nofun⟩
    rcases shadow.makeDirectories_cons_cases path paths with
      ⟨present, answer⟩ | ⟨cause, shadow', missing, refused, answer⟩ |
        ⟨shadow', missing, made, answer⟩
    · rcases tree.makeDirectories_cons_cases path paths with
        ⟨-, answer'⟩ | ⟨_, _, missing, -⟩ | ⟨_, missing, -⟩
      · -- the directory is made, or refused, without those above it
        rw [answer, answer']
        exact h.acceptDirectory clearNow
      · exact absurd (alike.1 missing) present
      · exact absurd (alike.1 missing) present
    · -- those above it are refused
      rw [answer] at clear ⊢
      obtain ⟨same, lacks⟩ := ih fun above mem => by
        rw [refused]
        exact clear above (List.mem_cons_of_mem _ mem)
      rw [refused] at same lacks
      rcases tree.makeDirectories_cons_cases path paths with
        ⟨present, -⟩ | ⟨_, _, -, refused', answer'⟩ | ⟨_, -, made, -⟩
      · exact absurd (alike.2 missing) present
      · rw [refused'] at same lacks
        rw [answer']
        exact ⟨same, lacks⟩
      · rw [made] at same
        cases same
    · -- those above it are made, and then it is made or refused
      rw [answer] at clear grows ⊢
      have more := shadow'.growsTo_acceptDirectory path
      obtain ⟨same, lacks⟩ := ih fun above mem place mem' => by
        rw [made] at mem'
        exact clear above (List.mem_cons_of_mem _ mem) place (more.way above mem')
      rw [made] at same lacks
      rcases tree.makeDirectories_cons_cases path paths with
        ⟨present, -⟩ | ⟨_, _, -, refused, -⟩ | ⟨after, -, made', answer'⟩
      · exact absurd (alike.2 missing) present
      · rw [refused] at same
        cases same
      · rw [made'] at lacks
        rw [answer']
        exact lacks.acceptDirectory fun place mem =>
          clear path List.mem_cons_self place (more.way path mem)

/-- The path of a directory reaches the same place. -/
theorem reaches {links : List Location} (reached : shadow.Reaches path links place) :
    tree.Reaches path links place := by
  -- a link on the way is no file, so it is not lacking
  refine reached.mono h.keeps fun link mem => h.get? link fun lacking => ?_
  obtain ⟨content, file⟩ := h.file link lacking
  obtain ⟨target, found⟩ := reached.leads.exists_link link mem
  rw [file] at found
  cases found

theorem congr {places' : Location → Prop} (same : ∀ location, places location ↔ places' location) :
    tree.Lacks places' shadow := by
  obtain rfl : places = places' := funext fun location => propext (same location)
  exact h

/-- A file that is removed is lacking from then on. -/
theorem unlink (located : tree.locateLast path .busy = .ok place)
    (file : ∃ content, shadow.get? place = some (.file content)) :
    (tree.unlink path).Lacks (fun location => places location ∨ location = place) shadow := by
  obtain ⟨content, found⟩ := file
  -- it is a file, or it is lacking already; in either case it is no directory
  have plain : tree.isDirectoryAt place = false := by
    by_cases lacking : places place
    · exact isDirectoryAt_eq_false_of_get? (h.nothing place lacking)
    · simp [isDirectoryAt, h.get? place lacking, found]
  have removed : tree.unlink path = tree.erase place := by
    unfold FileTree.unlink
    simp only [located, plain]
    rfl
  rw [removed]
  refine ⟨h.workingDirectory, h.refusals, ?_, ?_, ?_⟩
  · intro location present
    rw [get?_erase_of_ne tree fun same => present (.inr same)]
    exact h.get? location fun lacking => present (.inl lacking)
  · intro location lacking
    by_cases same : location = place
    · rw [same, get?_erase_self tree (ne_nil_of_isDirectoryAt plain)]
    · rw [get?_erase_of_ne tree same]
      exact h.nothing location (lacking.resolve_right same)
  · intro location lacking
    rcases lacking with lacking | same
    · exact h.file location lacking
    · exact ⟨content, same ▸ found⟩

end Lacks

/-- A tree lacks nothing of itself. -/
theorem lacks_refl (tree : FileTree) : tree.Lacks (fun _ => False) tree :=
  ⟨rfl, rfl, fun _ _ => rfl, fun _ lacking => lacking.elim, fun _ lacking => lacking.elim⟩

/-- **A file.** It is replaced in both trees, or refused for the same reason, if the directories are
made alike and it does not take a place that lacks a file. Each tree may have a library of its own
for temporary files. -/
theorem replaceAt_of_lacks (documented : files.AsDocumented) (documented' : files'.AsDocumented)
    {places : Location → Prop} {destination : Path}
    (named : destination = directory.join name.text)
    (making : (tree.makeDirectories destination.directory.ancestors).1 =
        (shadow.makeDirectories destination.directory.ancestors).1 ∧
      (tree.makeDirectories destination.directory.ancestors).2.Lacks places
        (shadow.makeDirectories destination.directory.ancestors).2)
    (present : ∀ place, (shadow.prepared destination).locateLast destination .busy = .ok place →
      ¬ places place)
    (content : ByteArray) :
    shadow.refusals.ToldAlike files files' destination
        (tree.replaceAt files destination content).1
        (shadow.replaceAt files' destination content).1 ∧
      (tree.replaceAt files destination content).2.Lacks places
        (shadow.replaceAt files' destination content).2 := by
  obtain ⟨answer, lacks⟩ := making
  unfold prepared at present
  cases making : shadow.makeDirectories destination.directory.ancestors with
  | mk result shadow' =>
    cases making' : tree.makeDirectories destination.directory.ancestors with
    | mk result' tree' =>
      rw [making, making'] at answer lacks
      rw [making] at present
      obtain rfl : result' = result := answer
      cases result' with
      | error cause =>
        rw [replaceAt_of_refused making, replaceAt_of_refused making']
        exact ⟨.inl rfl, lacks⟩
      | ok =>
        subst named
        obtain ⟨stays, goes⟩ := directory.goesOn_directory_join name
        obtain ⟨links, place, reached⟩ := exists_reaches_of_makeDirectories making
        -- no directory is lacking, so the path lands alike
        have lands : tree'.landing (directory.join name.text) =
            shadow'.landing (directory.join name.text) := by
          refine reached.landing_congr goes (lacks.reaches reached) ?_
          by_cases lacking : places (place ++ [name])
          · obtain ⟨content, file⟩ := lacks.file _ lacking
            simp [isDirectoryAt, lacks.nothing _ lacking, file]
          · simp [isDirectoryAt, lacks.get? _ lacking]
        have placed : tree'.placeFor (directory.join name.text) =
            shadow'.placeFor (directory.join name.text) := placeFor_congr lacks.refusals lands
        have refusals : shadow'.refusals = shadow.refusals := by
          have grows := shadow.growsTo_makeDirectories
            (directory.join name.text).directory.ancestors
          rw [making] at grows
          exact grows.refusals
        obtain ⟨after, outcome⟩ := replaceAt_of_made documented' directory name making content
        obtain ⟨after', outcome'⟩ := replaceAt_of_made documented directory name making' content
        rw [placed, lacks.refusals] at outcome'
        cases place : shadow'.placeFor (directory.join name.text) with
        | error cause =>
          rw [place, refusals] at outcome outcome'
          rw [outcome.1, outcome'.1]
          exact ⟨.inr ⟨cause, rfl, rfl⟩, lacks.of_same outcome'.2 outcome.2⟩
        | ok place =>
          rw [place] at outcome outcome'
          rw [outcome.1, outcome'.1]
          have free := present _ (locateLast_of_landing (landing_of_placeFor ‹_›)).1
          exact ⟨.inl rfl, (lacks.insert free _).of_same outcome'.2 outcome.2⟩

/-! ### Trees that look the same -/

namespace Same

variable (h : tree.Same other)

include h

theorem lacks : tree.Lacks (fun _ => False) other :=
  other.lacks_refl.of_same h (.refl other)

theorem locate (path : Path) : tree.locate path = other.locate path :=
  h.lacks.locate fun _ _ => not_false

theorem kind (path : Path) : tree.kind path = other.kind path := by
  simp only [FileTree.kind, kindAt, h.locate, h.get?, h.refusals]

theorem read (path : Path) : tree.read path = other.read path := by
  simp only [FileTree.read, readAt, h.locate, h.get?, h.refusals]

/-- A file is replaced alike, but for the words of the libraries for temporary files. -/
theorem replaceAt (documented : files.AsDocumented) (documented' : files'.AsDocumented)
    {destination : Path} (named : destination = directory.join name.text) (content : ByteArray) :
    other.refusals.ToldAlike files files' destination
        (tree.replaceAt files destination content).1
        (other.replaceAt files' destination content).1 ∧
      (tree.replaceAt files destination content).2.Same
        (other.replaceAt files' destination content).2 := by
  obtain ⟨answer, lacks⟩ := replaceAt_of_lacks documented documented' named
    (h.lacks.makeDirectories fun _ _ _ _ => not_false) (fun _ _ => not_false) content
  exact ⟨answer, lacks.workingDirectory, lacks.refusals, fun place => lacks.get? place not_false⟩

end Same

end FileTree
end Manuscript
