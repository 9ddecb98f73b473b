import Manuscript.FileTree.Refusals

/-!
# File trees

A file tree says what stands at each location: a location is the list of names that lead to it from
the root, and at most one entry stands at it. The root itself is always a directory. A tree also has
a working directory, where relative paths start, and some requests that are refused in it.

Names and paths are Unicode text here (`Name`, `Path`): no entry is called by bytes that are not
UTF-8.

The operations are told apart by what they do to `FileTree.get?`:

* `get?_insert_self`, `get?_insert_of_ne`: an insertion changes one location;
* `get?_erase_self`, `get?_erase_of_ne`: so does an erasure;
* `mem_namesIn`, `nodup_namesIn`: a directory lists each name that leads on from it once.
-/

namespace Manuscript

/-- The names that lead from the root to a place in a file tree. -/
abbrev Location := List Name

-- Contents are compared by this instance, whichever others are in scope.
local instance decidableEqContent : DecidableEq ByteArray := ByteArray.instDecidableEq

/-- What stands at a location. -/
inductive Entry
  | directory
  /-- A regular file. -/
  | file (content : ByteArray)
  /-- A symbolic link. -/
  | link (target : Path)
  /-- A device: neither a regular file nor a directory, and empty when read. -/
  | device
deriving DecidableEq

/-- A file tree. -/
@[ext]
structure FileTree where
  /-- The locations at which something stands, each with what stands there. -/
  entries : List (Location × Entry)
  /-- Where relative paths start. -/
  workingDirectory : Location
  /-- What is refused, whatever stands where. -/
  refusals : Refusals := {}
  /-- No location is listed twice. -/
  nodup_locations : (entries.map Prod.fst).Nodup

namespace FileTree

/-- What stands at a location. -/
def get? (tree : FileTree) (location : Location) : Option Entry :=
  if location = [] then some .directory else tree.entries.lookup location

/-- Whether a directory stands at a location. -/
def isDirectoryAt (tree : FileTree) (location : Location) : Bool :=
  tree.get? location = some .directory

/-- A filtered list of entries lists no location twice either. -/
theorem nodup_filter {entries : List (Location × Entry)} (h : (entries.map Prod.fst).Nodup)
    (keep : Location × Entry → Bool) : ((entries.filter keep).map Prod.fst).Nodup :=
  h.sublist (List.filter_sublist.map Prod.fst)

/-- The tree with only those entries whose locations satisfy `keep`. -/
def filter (tree : FileTree) (keep : Location → Bool) : FileTree where
  entries := tree.entries.filter fun entry => keep entry.1
  workingDirectory := tree.workingDirectory
  refusals := tree.refusals
  nodup_locations := nodup_filter tree.nodup_locations _

/-- The tree with nothing at a location. -/
def erase (tree : FileTree) (location : Location) : FileTree := tree.filter (· ≠ location)

/-- The tree with nothing at a location or below it. -/
def eraseFrom (tree : FileTree) (location : Location) : FileTree :=
  tree.filter fun other => !location.isPrefixOf other

theorem not_mem_erase (tree : FileTree) (location : Location) :
    location ∉ (tree.erase location).entries.map Prod.fst := by
  simp [erase, filter]

/-- The tree with the given entry at a location, in place of what stood there. -/
def insert (tree : FileTree) (location : Location) (entry : Entry) : FileTree where
  entries := (location, entry) :: (tree.erase location).entries
  workingDirectory := tree.workingDirectory
  refusals := tree.refusals
  nodup_locations := by
    rw [List.map_cons]
    exact List.nodup_cons.2
      ⟨not_mem_erase tree location, (tree.erase location).nodup_locations⟩

/-- The names that lead on from a location. -/
def namesIn (tree : FileTree) (location : Location) : List Name :=
  tree.entries.filterMap fun entry =>
    match entry.1.getLast? with
    | some name => if entry.1.dropLast = location then some name else none
    | none => none

/-- The tree in which the given requests are refused. -/
def refusing (tree : FileTree) (refusals : Refusals) : FileTree := { tree with refusals }

/-- Only a working directory. -/
def empty (workingDirectory : Location) : FileTree where
  entries := []
  workingDirectory
  nodup_locations := List.nodup_nil

/-! ### What stands where -/

theorem lookup_filter_of_keep {entries : List (Location × Entry)} (keep : Location → Bool)
    {location : Location} (h : keep location) :
    (entries.filter fun entry => keep entry.1).lookup location = entries.lookup location := by
  induction entries with
  | nil => rfl
  | cons entry rest ih =>
    obtain ⟨other, entry⟩ := entry
    by_cases same : location = other
    · subst same
      simp [h]
    · have differs : (location == other) = false := by simpa using same
      cases kept : keep other <;> simp [kept, List.lookup_cons, differs, ih]

theorem lookup_filter_of_not_keep {entries : List (Location × Entry)} (keep : Location → Bool)
    {location : Location} (h : keep location = false) :
    (entries.filter fun entry => keep entry.1).lookup location = none := by
  rw [List.lookup_eq_none_iff]
  rintro ⟨other, entry⟩ member
  have kept : keep other = true := by simpa using (List.mem_filter.1 member).2
  have : location ≠ other := by
    rintro rfl
    simp [h] at kept
  simpa using this

@[simp] theorem get?_nil (tree : FileTree) : tree.get? [] = some .directory := by
  simp [get?]

theorem get?_insert_self (tree : FileTree) {location : Location} (h : location ≠ [])
    (entry : Entry) : (tree.insert location entry).get? location = some entry := by
  simp [get?, insert, h]

theorem get?_insert_of_ne (tree : FileTree) {location other : Location} (h : other ≠ location)
    (entry : Entry) : (tree.insert location entry).get? other = tree.get? other := by
  have differs : (other == location) = false := by simpa using h
  by_cases root : other = []
  · simp [root]
  · simp only [get?, root, insert, List.lookup_cons, differs, if_false]
    exact lookup_filter_of_keep (· ≠ location) (decide_eq_true h)

theorem get?_erase_self (tree : FileTree) {location : Location} (h : location ≠ []) :
    (tree.erase location).get? location = none := by
  simp only [get?, h, if_false]
  exact lookup_filter_of_not_keep (· ≠ location) (decide_eq_false (not_not_intro rfl))

theorem get?_erase_of_ne (tree : FileTree) {location other : Location} (h : other ≠ location) :
    (tree.erase location).get? other = tree.get? other := by
  by_cases root : other = []
  · simp [root]
  · simp only [get?, root, if_false]
    exact lookup_filter_of_keep (· ≠ location) (decide_eq_true h)

/-- A location is in the list exactly if something stands there. -/
theorem mem_locations (tree : FileTree) {location : Location} (h : location ≠ []) :
    location ∈ tree.entries.map Prod.fst ↔ (tree.get? location).isSome := by
  simp only [get?, h, if_false]
  cases found : tree.entries.lookup location with
  | none =>
    rw [List.lookup_eq_none_iff] at found
    simp only [Option.isSome_none, Bool.false_eq_true, iff_false, List.mem_map]
    rintro ⟨entry, member, rfl⟩
    simpa using found entry member
  | some entry =>
    obtain ⟨before, after, split, -⟩ := List.lookup_eq_some_iff.1 found
    simp [split]

theorem mem_namesIn (tree : FileTree) {location : Location} {name : Name} :
    name ∈ tree.namesIn location ↔ (tree.get? (location ++ [name])).isSome := by
  rw [← mem_locations tree (by simp), namesIn, List.mem_filterMap, List.mem_map]
  refine exists_congr fun entry => and_congr_right fun _ => ?_
  cases nonempty : entry.1.getLast? with
  | none => simp [List.getLast?_eq_none_iff.1 nonempty]
  | some last =>
    obtain ⟨above, spelled⟩ := List.getLast?_eq_some_iff.1 nonempty
    simp only [spelled, List.dropLast_concat]
    split
    · next same => simp [same]
    · next differs =>
      simp only [reduceCtorEq, false_iff]
      intro same
      exact differs (List.append_inj_left' same rfl)

theorem nodup_namesIn (tree : FileTree) (location : Location) :
    (tree.namesIn location).Nodup := by
  have distinct := tree.nodup_locations
  rw [List.Nodup, List.pairwise_map] at distinct
  rw [namesIn, List.Nodup, List.pairwise_filterMap]
  refine distinct.imp ?_
  rintro ⟨first, _⟩ ⟨second, _⟩ differ name hname name' hname' rfl
  -- Two entries that yield one name in one directory stand at one location.
  have spelled : ∀ {place : Location} {last : Name},
      (match place.getLast? with
        | some name => if place.dropLast = location then some name else none
        | none => none) = some last → place = location ++ [last] := by
    intro place last h
    cases nonempty : place.getLast? with
    | none => simp [nonempty] at h
    | some found =>
      obtain ⟨above, split⟩ := List.getLast?_eq_some_iff.1 nonempty
      subst split
      by_cases same : above = location
      · simp [same] at h
        rw [same, h]
      · simp [same] at h
  exact differ ((spelled hname).trans (spelled hname').symm)

end FileTree
end Manuscript
