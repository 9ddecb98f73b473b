import Manuscript.FileTree.Locate
import Manuscript.Proofs.Lines
import Mathlib.Data.List.Basic
import Mathlib.Data.List.Induction

/-!
# The pieces of a path

What a path means lies between its slashes, so what is known about paths is read off their pieces:
of the path that is made of some pieces (`Path.ofPieces`), of the path of an entry of a directory
(`Path.join`), and of the paths of the directories above (`Path.directory`, `Path.ancestors`).

* `Path.GoesOn`: one path starts with the directions of another and then goes on.
* `Path.goesOn_directory_join`: the path of an entry goes on from that of its directory, by the name
  of the entry; `Path.directory_join`: the directory is the same for all its entries.
* `Path.isChain_ancestors`: a path goes on from each directory that leads to it.
* `Path.sortKey_join_inj`, `Path.fileName?_join`: the entries of a directory differ by their names.
-/

namespace Manuscript

theorem Name.slash_not_mem (name : Name) : '/' ∉ name.text := name.isName.2.1

namespace Path

/-! ### Pieces -/

theorem slash_not_mem_of_mem_pieces (path : Path) {piece : Text} (h : piece ∈ path.pieces) :
    '/' ∉ piece :=
  Text.not_mem_of_mem_splitOn h

theorem text_eq_joinWith_pieces (path : Path) : path.text = Text.joinWith '/' path.pieces :=
  (Text.joinWith_splitOn _ _).symm

/-- A path is absolute if it has an empty first piece and others behind it. -/
theorem isAbsolute_iff {path : Path} {first : Text} {rest : List Text}
    (h : path.pieces = first :: rest) : path.isAbsolute ↔ first = [] ∧ rest ≠ [] := by
  have text := text_eq_joinWith_pieces path
  rw [h] at text
  have slash : '/' ∉ first := path.slash_not_mem_of_mem_pieces (h ▸ List.mem_cons_self)
  rw [isAbsolute, text, decide_eq_true_iff]
  cases first with
  | nil => cases rest with
    | nil => simp [Text.joinWith]
    | cons => simp [Text.joinWith]
  | cons c first =>
    have : c ≠ '/' := fun same => slash (same ▸ List.mem_cons_self)
    cases rest with
    | nil => simpa [Text.joinWith] using this
    | cons => simpa [Text.joinWith] using this

/-- An idle piece gives no direction or that to stay. -/
theorem directions_of_isIdle {pieces : List Text} (h : ∀ piece ∈ pieces, isIdle piece) :
    ∃ n, pieces.filterMap Direction.ofText? = List.replicate n .stay := by
  induction pieces with
  | nil => exact ⟨0, rfl⟩
  | cons piece rest ih =>
    obtain ⟨n, stays⟩ := ih fun other mem => h other (List.mem_cons_of_mem _ mem)
    have idle : piece = [] ∨ piece = ['.'] := by simpa [isIdle] using h piece List.mem_cons_self
    rcases idle with rfl | rfl
    · exact ⟨n, by rw [List.filterMap_cons_none (by decide), stays]⟩
    · exact ⟨n + 1, by rw [List.filterMap_cons_some (b := .stay) (by decide), stays]; rfl⟩

/-- The direction that is given by a name. -/
theorem ofText?_name (name : Name) : Direction.ofText? name.text = some (.into name) := by
  obtain ⟨text, valid⟩ := name
  simp [Direction.ofText?, valid.2.2.1, valid.2.2.2, valid]

/-- A piece that is not idle gives a direction. -/
theorem exists_ofText?_of_not_isIdle {piece : Text} (slash : '/' ∉ piece)
    (h : isIdle piece = false) : ∃ direction, Direction.ofText? piece = some direction := by
  simp only [isIdle, Bool.or_eq_false_iff, decide_eq_false_iff_not] at h
  by_cases up : piece = ['.', '.']
  · exact ⟨.up, by rw [up]; decide⟩
  · exact ⟨_, ofText?_name ⟨piece, h.1, slash, h.2, up⟩⟩

theorem isIdle_name (name : Name) : isIdle name.text = false := by
  simp [isIdle, name.isName.1, name.isName.2.2.1]

/-! ### Idle pieces at the end -/

/-- What is taken from the end of some pieces is idle. -/
theorem exists_trimIdle_append (pieces : List Text) :
    ∃ idle, pieces = trimIdle pieces ++ idle ∧ ∀ piece ∈ idle, isIdle piece := by
  cases pieces with
  | nil => exact ⟨[], rfl, by simp⟩
  | cons first rest =>
    refine ⟨(rest.reverse.takeWhile isIdle).reverse, ?_, fun piece mem => ?_⟩
    · rw [trimIdle, List.cons_append, ← List.reverse_append, List.takeWhile_append_dropWhile,
        List.reverse_reverse]
    · exact List.all_eq_true.1 List.all_takeWhile piece (List.mem_reverse.1 mem)

theorem slash_not_mem_of_mem_trimIdle {path : Path} {first rest : List Text}
    (h : path.pieces = first ++ rest) : ∀ piece ∈ trimIdle first, '/' ∉ piece := by
  intro piece mem
  obtain ⟨idle, split, -⟩ := exists_trimIdle_append first
  refine path.slash_not_mem_of_mem_pieces ?_
  rw [h, split]
  exact List.mem_append_left _ (List.mem_append_left _ mem)

theorem trimIdle_ne_nil {pieces : List Text} (h : pieces ≠ []) : trimIdle pieces ≠ [] := by
  cases pieces with
  | nil => exact absurd rfl h
  | cons => simp [trimIdle]

theorem trimIdle_append_of_isIdle {front : List Text} {last : Text} (more : front ≠ [])
    (h : isIdle last) : trimIdle (front ++ [last]) = trimIdle front := by
  cases front with
  | nil => exact absurd rfl more
  | cons first rest => simp [trimIdle, h]

theorem trimIdle_append_of_not_isIdle (front : List Text) {last : Text} (h : isIdle last = false) :
    trimIdle (front ++ [last]) = front ++ [last] := by
  cases front with
  | nil => rfl
  | cons first rest => simp [trimIdle, h]

/-- The last of the pieces that are left is not idle, unless it is the first. -/
theorem not_isIdle_of_trimIdle {pieces front : List Text} {last : Text}
    (h : trimIdle pieces = front ++ [last]) (more : front ≠ []) : isIdle last = false := by
  induction pieces using List.reverseRecOn with
  | nil => simp [trimIdle] at h
  | append_singleton before piece ih =>
    cases idle : isIdle piece with
    | false =>
      rw [trimIdle_append_of_not_isIdle _ idle] at h
      rw [← (List.append_inj' h rfl).2 |> List.singleton_inj.1, idle]
    | true =>
      by_cases alone : before = []
      · subst alone
        cases front with
        | nil => exact absurd rfl more
        | cons => simp [trimIdle] at h
      · exact ih (trimIdle_append_of_isIdle alone idle ▸ h)

theorem trimIdle_trimIdle (pieces : List Text) : trimIdle (trimIdle pieces) = trimIdle pieces := by
  rcases List.eq_nil_or_concat (trimIdle pieces) with none | ⟨front, last, trimmed⟩
  · rw [none]
    rfl
  · rw [List.concat_eq_append] at trimmed
    by_cases alone : front = []
    · rw [trimmed, alone]
      rfl
    · rw [trimmed, trimIdle_append_of_not_isIdle _ (not_isIdle_of_trimIdle trimmed alone)]

/-! ### The path that has given pieces -/

section OfPieces

variable {pieces rest : List Text} (plain : ∀ piece ∈ pieces, '/' ∉ piece) (nonempty : pieces ≠ [])

include plain nonempty

/-- A path has the pieces it is made of; that of the root has two empty ones. -/
theorem pieces_ofPieces :
    (ofPieces pieces).pieces = if pieces = [[]] then [[], []] else pieces := by
  by_cases root : pieces = [[]]
  · rw [root]
    decide
  · rw [if_neg root, ofPieces]
    · exact Text.splitOn_joinWith nonempty plain
    · exact root

theorem directions_ofPieces :
    (ofPieces pieces).directions = pieces.filterMap Direction.ofText? := by
  rw [directions, pieces_ofPieces plain nonempty]
  split
  · next root => rw [root]; decide
  · rfl

omit plain in
/-- The text of a path that is made of the first pieces is the start of the text. -/
theorem ofPieces_text_isPrefix (more : rest ≠ []) :
    (ofPieces pieces).text <+: Text.joinWith '/' (pieces ++ rest) := by
  rw [Text.joinWith_append _ nonempty more]
  by_cases root : pieces = [[]]
  · exact ⟨Text.joinWith '/' rest, by rw [root]; rfl⟩
  · exact ⟨'/' :: Text.joinWith '/' rest, by rw [ofPieces]; exact root⟩

omit plain in
theorem ofPieces_text_ne_nil : (ofPieces pieces).text ≠ [] := by
  match pieces, nonempty with
  | [[]], _ => simp [ofPieces]
  | [c :: text], _ => simp [ofPieces, Text.joinWith]
  | first :: next :: others, _ => simp [ofPieces, Text.joinWith]

theorem isAbsolute_ofPieces {path : Path} (h : path.pieces = pieces ++ rest) (more : rest ≠ []) :
    (ofPieces pieces).isAbsolute = path.isAbsolute := by
  obtain ⟨first, others, rfl⟩ := List.exists_cons_of_ne_nil nonempty
  rw [Bool.eq_iff_iff, isAbsolute_iff h]
  have made := pieces_ofPieces plain nonempty
  by_cases root : first :: others = [[]]
  · obtain ⟨rfl, rfl⟩ := List.cons.inj root
    rw [if_pos root] at made
    simp [isAbsolute_iff made, more]
  · rw [if_neg root] at made
    rw [isAbsolute_iff made]
    simp only [List.cons.injEq, not_and] at root
    constructor
    · rintro ⟨rfl, -⟩
      exact ⟨rfl, by simp [more]⟩
    · rintro ⟨rfl, -⟩
      exact ⟨rfl, root rfl⟩

end OfPieces

/-! ### Going on -/

/-- A path that starts where another does, follows the same directions, and then some more; staying
where one is does not count. If it can be followed at all, so can the other. -/
structure GoesOn (start : Path) (more : List Direction) (path : Path) : Prop where
  isAbsolute : start.isAbsolute = path.isAbsolute
  checkPath : FileTree.checkPath path = .ok () → FileTree.checkPath start = .ok ()
  directions : ∃ front stays,
    path.directions = front ++ more ∧ start.route = front ++ List.replicate stays .stay

theorem exists_route_eq (path : Path) :
    ∃ stays, path.route = path.directions ++ List.replicate stays .stay := by
  rw [route]
  split
  · exact ⟨1, rfl⟩
  · exact ⟨0, by simp⟩

theorem byteLength_le_of_isPrefix {text other : Text} (h : text <+: other) :
    text.byteLength ≤ other.byteLength := by
  obtain ⟨rest, rfl⟩ := h
  rw [Text.byteLength_append]
  exact Nat.le_add_right _ _

theorem checkPath_eq_ok_iff {path : Path} : FileTree.checkPath path = .ok () ↔
    '\x00' ∉ path.text ∧ path.text ≠ [] ∧ Text.byteLength path.text ≤ FileTree.pathLimit := by
  rw [FileTree.checkPath]
  split
  · next null => simpa using fun absent => absurd (by simpa using null) absent
  · next null =>
    split
    · next empty => simp [empty]
    · next empty =>
      split
      · next long => simp [empty, long]
      · next short =>
        simp only [true_iff]
        exact ⟨by simpa using null, empty, Nat.not_lt.1 short⟩

theorem checkPath_of_isPrefix {path other : Path} (h : path.text <+: other.text)
    (nonempty : path.text ≠ []) (ok : FileTree.checkPath other = .ok ()) :
    FileTree.checkPath path = .ok () := by
  obtain ⟨null, -, short⟩ := checkPath_eq_ok_iff.1 ok
  exact checkPath_eq_ok_iff.2
    ⟨fun mem => null (h.mem mem), nonempty, Nat.le_trans (byteLength_le_of_isPrefix h) short⟩

/-- A path goes on from the path that is made of its first pieces, those that are idle dropped. -/
theorem goesOn_ofPieces {path : Path} {first rest : List Text} (h : path.pieces = first ++ rest)
    (nonempty : first ≠ []) (more : rest ≠ []) :
    ∃ stays, (ofPieces (trimIdle first)).GoesOn
      (List.replicate stays .stay ++ rest.filterMap Direction.ofText?) path := by
  obtain ⟨idle, split, isIdle⟩ := exists_trimIdle_append first
  obtain ⟨stays, gives⟩ := directions_of_isIdle isIdle
  have nonempty := trimIdle_ne_nil nonempty
  have plain := slash_not_mem_of_mem_trimIdle h
  have h : path.pieces = trimIdle first ++ (idle ++ rest) := by
    rw [h, ← List.append_assoc, ← split]
  have more : idle ++ rest ≠ [] := List.append_ne_nil_of_right_ne_nil _ more
  obtain ⟨ends, route⟩ := exists_route_eq (ofPieces (trimIdle first))
  refine ⟨stays, isAbsolute_ofPieces plain nonempty h more, ?_, _, ends, ?_, route⟩
  · refine checkPath_of_isPrefix ?_ (ofPieces_text_ne_nil nonempty)
    rw [text_eq_joinWith_pieces path, h]
    exact ofPieces_text_isPrefix nonempty more
  · rw [directions, h, List.filterMap_append, List.filterMap_append, gives,
      directions_ofPieces plain nonempty]

/-! ### The directories above -/

/-- Each directory above is named by the pieces up to one that is not idle. -/
theorem above_reverse {pieces : List Text} (nonempty : pieces ≠ []) :
    ancestors.above pieces.reverse =
      ofPieces (trimIdle pieces) :: ancestors.above (trimIdle pieces).dropLast.reverse := by
  induction pieces using List.reverseRecOn with
  | nil => exact absurd rfl nonempty
  | append_singleton front last ih =>
    by_cases alone : front = []
    · subst alone
      rfl
    · obtain ⟨next, others, reversed⟩ :=
        List.exists_cons_of_ne_nil (List.reverse_ne_nil_iff.2 alone)
      rw [List.reverse_append, List.reverse_singleton, List.singleton_append, reversed,
        ancestors.above, ← reversed]
      · split
        · next idle => rw [ih alone, trimIdle_append_of_isIdle alone idle]
        · next busy =>
          rw [trimIdle_append_of_not_isIdle _ (by simpa using busy), List.dropLast_concat]
          simp
      · simp

theorem length_trimIdle_le (pieces : List Text) : (trimIdle pieces).length ≤ pieces.length := by
  obtain ⟨idle, split, -⟩ := exists_trimIdle_append pieces
  calc (trimIdle pieces).length ≤ (trimIdle pieces ++ idle).length := by simp
    _ = pieces.length := by rw [← split]

/-- The pieces that are left, without the last of them, stand in front of one that gives a
direction, if they are any. -/
theorem exists_direction_of_trimIdle {pieces : List Text} (plain : ∀ piece ∈ pieces, '/' ∉ piece)
    (more : (trimIdle pieces).dropLast ≠ []) : ∃ rest,
      pieces = (trimIdle pieces).dropLast ++ rest ∧ rest.filterMap Direction.ofText? ≠ [] := by
  obtain ⟨idle, split, -⟩ := exists_trimIdle_append pieces
  rcases List.eq_nil_or_concat (trimIdle pieces) with none | ⟨front, last, trimmed⟩
  · exact absurd (by rw [none]; rfl) more
  · rw [List.concat_eq_append] at trimmed
    rw [trimmed, List.dropLast_concat] at more ⊢
    have split : pieces = front ++ last :: idle := by
      rw [split, trimmed, List.append_assoc, List.singleton_append]
    obtain ⟨direction, gives⟩ := exists_ofText?_of_not_isIdle
      (plain last (split ▸ List.mem_append_right _ List.mem_cons_self))
      (not_isIdle_of_trimIdle trimmed more)
    exact ⟨last :: idle, split, by simp [gives]⟩

/-- A path goes on from the directories that the first of its pieces name, and each of them from the
next. -/
theorem isChain_above {path : Path} {first rest : List Text} (h : path.pieces = first ++ rest)
    (more : rest.filterMap Direction.ofText? ≠ []) :
    List.IsChain (fun path above => ∃ more, more ≠ [] ∧ GoesOn above more path)
      (path :: ancestors.above first.reverse) := by
  -- the induction is on the number of the pieces, of which at least the last is taken away
  induction count : first.length using Nat.strongRecOn generalizing path first rest with
  | ind count ih =>
    subst count
    by_cases nonempty : first = []
    · subst nonempty
      exact List.IsChain.singleton _
    · rw [above_reverse nonempty]
      obtain ⟨stays, goes⟩ := goesOn_ofPieces h nonempty fun none => more (by rw [none]; rfl)
      refine List.isChain_cons_cons.2
        ⟨⟨_, List.append_ne_nil_of_right_ne_nil _ more, goes⟩, ?_⟩
      by_cases last : (trimIdle first).dropLast = []
      · rw [last]
        exact List.IsChain.singleton _
      · have plain := slash_not_mem_of_mem_trimIdle h
        have several : trimIdle first ≠ [[]] := fun root => last (by rw [root]; rfl)
        have made := pieces_ofPieces plain (trimIdle_ne_nil nonempty)
        rw [if_neg several] at made
        obtain ⟨rest, split, more⟩ :=
          exists_direction_of_trimIdle plain (by rwa [trimIdle_trimIdle])
        rw [trimIdle_trimIdle] at split
        refine ih _ ?_ (made.trans split) more rfl
        have := length_trimIdle_le first
        have := List.length_pos_iff.2 (trimIdle_ne_nil nonempty)
        rw [List.length_dropLast]
        omega

/-- **The way to a path.** A path goes on from each directory that leads to it. -/
theorem isChain_ancestors (path : Path) :
    List.IsChain (fun path above => ∃ more, more ≠ [] ∧ GoesOn above more path) path.ancestors := by
  by_cases more : (trimIdle path.pieces).dropLast = []
  · rw [ancestors, more]
    exact List.IsChain.singleton _
  · obtain ⟨rest, split, more⟩ :=
      exists_direction_of_trimIdle (fun _ => path.slash_not_mem_of_mem_pieces) more
    exact isChain_above split more

/-! ### Entries of a directory -/

/-- The pieces that stand in front of the name of an entry of a directory. -/
def front (directory : Path) : List Text :=
  if directory.text = [] then []
  else if directory.endsWithSlash then directory.pieces.dropLast
  else directory.pieces

theorem pieces_join (directory : Path) {name : Text} (plain : '/' ∉ name) :
    (directory.join name).pieces = directory.front ++ [name] := by
  have last : name.splitOn '/' = [name] := Text.splitOn_eq_singleton plain
  by_cases empty : directory.text = []
  · simp [front, join, pieces, empty, last]
  · by_cases slash : directory.endsWithSlash
    · obtain ⟨text, split⟩ := List.getLast?_eq_some_iff.1 (by simpa [endsWithSlash] using slash)
      rw [front, if_neg empty, if_pos slash, join, if_pos (by simp [slash]), pieces, pieces, split,
        List.append_assoc, List.singleton_append, Text.splitOn_append_cons, last,
        Text.splitOn_append_cons]
      simp [Text.splitOn]
    · rw [front, if_neg empty, if_neg slash, join, if_neg (by simp [empty, slash]), pieces,
        Text.splitOn_append_cons, last, pieces]

variable (directory : Path) (name : Name)

theorem directions_join :
    (directory.join name.text).directions =
      directory.front.filterMap Direction.ofText? ++ [.into name] := by
  simp [directions, pieces_join directory name.slash_not_mem, ofText?_name]

/-- The directory that the entries of a directory are in, as their paths tell it. -/
def holding (directory : Path) : Path :=
  if directory.front = [] then ofString "." else ofPieces (trimIdle directory.front)

/-- What is above an entry does not depend on the entry's name. -/
theorem parent?_join : (directory.join name.text).parent? =
    some (if directory.front = [] then ⟨[]⟩ else ofPieces (trimIdle directory.front)) := by
  have trimmed : trimIdle (directory.join name.text).pieces = directory.front ++ [name.text] := by
    rw [pieces_join directory name.slash_not_mem,
      trimIdle_append_of_not_isIdle _ (isIdle_name name)]
  rw [parent?, trimmed]
  cases front : directory.front with
  | nil =>
    obtain ⟨c, rest, named⟩ := List.exists_cons_of_ne_nil name.isName.1
    rw [named]
    rfl
  | cons first rest =>
    cases rest with
    | nil => simp
    | cons second rest =>
      have before : (first :: second :: (rest ++ [name.text])).dropLast =
          first :: second :: rest := by
        rw [← List.cons_append, ← List.cons_append, List.dropLast_concat]
      simp [before]

/-- The directory of an entry does not depend on the entry's name. -/
theorem directory_join : (directory.join name.text).directory = directory.holding := by
  rw [Path.directory, parent?_join, holding]
  cases directory.front with
  | nil => rfl
  | cons first rest => simp [ofPieces_text_ne_nil (trimIdle_ne_nil (List.cons_ne_nil first rest))]

theorem goesOn_directory_join : ∃ stays, (directory.join name.text).directory.GoesOn
    (List.replicate stays .stay ++ [.into name]) (directory.join name.text) := by
  have pieces := pieces_join directory name.slash_not_mem
  rw [directory_join, holding]
  split
  · next empty =>
    rw [empty] at pieces
    refine ⟨0, ?_, fun _ => by decide, [], 1, ?_, by decide⟩
    · have relative : (directory.join name.text).isAbsolute = false := by
        rw [Bool.eq_false_iff, Ne, isAbsolute_iff pieces]
        simp
      rw [relative]
      decide
    · rw [directions_join, empty]
      rfl
  · next nonempty =>
    obtain ⟨stays, goes⟩ := goesOn_ofPieces pieces nonempty (by simp)
    exact ⟨stays, by simpa [ofText?_name] using goes⟩

/-! ### Telling entries apart -/

theorem isAbsolute_join :
    (directory.join name.text).isAbsolute = decide (directory.front.head? = some []) := by
  have pieces := pieces_join directory name.slash_not_mem
  rw [Bool.eq_iff_iff, decide_eq_true_iff]
  cases front : directory.front with
  | nil =>
    rw [front] at pieces
    simp [isAbsolute_iff pieces]
  | cons first rest =>
    rw [front] at pieces
    simp [isAbsolute_iff pieces]

/-- The components of the entries of a directory: those in front of the name are the same for all of
them. -/
theorem exists_components_join : ∃ before, ∀ name : Name,
    (directory.join name.text).components = before ++ [.normal name] := by
  generalize given : directory.front.filterMap Direction.ofText? = directions
  refine ⟨if directory.front.head? = some [] then
      .root :: directions.filterMap Component.ofDirection?
    else if directions.head? = some .stay then
      .current :: directions.filterMap Component.ofDirection?
    else directions.filterMap Component.ofDirection?, fun name => ?_⟩
  have head : (directions ++ [Direction.into name]).head? = some .stay ↔
      directions.head? = some .stay := by
    cases directions <;> simp
  simp only [components, isAbsolute_join, directions_join, given, head, decide_eq_true_iff,
    List.filterMap_append]
  split
  · rfl
  · split <;> rfl

theorem fileName?_join : (directory.join name.text).fileName? = some name := by
  obtain ⟨before, components⟩ := directory.exists_components_join
  simp [fileName?, components]

theorem sortKey_join_inj {first second : Name}
    (h : (directory.join first.text).sortKey = (directory.join second.text).sortKey) :
    first = second := by
  obtain ⟨before, components⟩ := directory.exists_components_join
  have keys : Component.sortKey (.normal first) = Component.sortKey (.normal second) := by
    simpa [sortKey, components] using h
  have same : first.text = second.text :=
    List.map_injective_iff.2 (fun _ _ => Char.toNat_inj.1) (List.cons.inj keys).2
  cases first
  cases second
  cases same
  rfl

end Path
end Manuscript
