import Manuscript.FileTree.Locate
import Mathlib.Tactic.ByContra

/-!
# Where directions lead

`FileTree.walkLinks` follows directions with a number that limits the links. `FileTree.Leads` says
the same without a number: directions lead from one location to another, through certain links. It
is a relation, and so its derivations can be cut, put together, and taken from one tree to another.

* `FileTree.walkLinks_eq_ok_iff`: what is found is where the directions lead, through no more links
  than are allowed. The links are told by `FileTree.trail`.
* `FileTree.Leads.append`, `FileTree.exists_leads_of_append`: directions lead through a directory to
  where the second part of them leads from there.
* `FileTree.Leads.mono`: they lead to the same place in every tree that keeps the directories, has
  no new links, and keeps the links on the way.
-/

namespace Manuscript
namespace FileTree

/-- Directions lead from a location through some links, all at the locations listed, to a last
location, where something may stand or not. The link that the last name may denote is followed on
request. -/
inductive Leads (tree : FileTree) (follow : Bool) :
    Location → List Path.Direction → List Location → Location → Prop
  | arrived (location : Location) : Leads tree follow location [] [] location
  | stay {location rest links last} : tree.isDirectoryAt location →
      Leads tree follow location rest links last →
      Leads tree follow location (.stay :: rest) links last
  | up {location rest links last} : tree.isDirectoryAt location →
      Leads tree follow location.dropLast rest links last →
      Leads tree follow location (.up :: rest) links last
  /-- The last name leads to the entry that it denotes, unless that is a link to be followed. -/
  | last {location name} : tree.isDirectoryAt location → name.text.byteLength ≤ nameLimit →
      (∀ target, tree.get? (location ++ [name]) = some (.link target) → follow = false) →
      Leads tree follow location [.into name] [] (location ++ [name])
  | into {location name rest links last} : tree.isDirectoryAt location →
      name.text.byteLength ≤ nameLimit → rest ≠ [] → tree.isDirectoryAt (location ++ [name]) →
      Leads tree follow (location ++ [name]) rest links last →
      Leads tree follow location (.into name :: rest) links last
  | link {location name target rest links last} : tree.isDirectoryAt location →
      name.text.byteLength ≤ nameLimit → (rest ≠ [] ∨ follow) →
      tree.get? (location ++ [name]) = some (.link target) →
      Leads tree follow (baseOf target (location ++ [name])) (target.route ++ rest) links last →
      Leads tree follow location (.into name :: rest) ((location ++ [name]) :: links) last

/-- The locations that the following of directions depends on beyond the directories on its way:
those of the links that are followed, and then the one where it ends. -/
def trailFrom (tree : FileTree) (follow : Bool) (links : Nat) (location : Location)
    (directions : List Path.Direction) : List Location :=
  match tree.walk follow location directions with
  | .error _ => []
  | .ok (.arrived location) => [location]
  | .ok (.link place target rest) =>
    match links with
    | 0 => [place]
    | links + 1 => place :: tree.trailFrom follow links (baseOf target place) (target.route ++ rest)

/-- The links on the way to what a path leads to, and then the entry it leads to. -/
def trail (tree : FileTree) (path : Path) : List Location :=
  tree.trailFrom true linkLimit (tree.startOf path) path.route

variable {tree other : FileTree} {follow : Bool} {location mid last : Location}
  {directions first second rest : List Path.Direction} {links : List Location} {name : Name}

theorem isDirectoryAt_iff : tree.isDirectoryAt location ↔ tree.get? location = some .directory := by
  rw [isDirectoryAt, decide_eq_true_iff]

theorem isDirectoryAt_eq_false_of_get? (h : tree.get? location = none) :
    tree.isDirectoryAt location = false := by
  simp [isDirectoryAt, h]

/-- Where no directory stands is not the root. -/
theorem ne_nil_of_isDirectoryAt (h : tree.isDirectoryAt location = false) : location ≠ [] := by
  rintro rfl
  simp [isDirectoryAt] at h

theorem ne_nil_of_get? (h : tree.get? location = none) : location ≠ [] :=
  ne_nil_of_isDirectoryAt (isDirectoryAt_eq_false_of_get? h)

/-! ### One direction -/

section Walk

variable (here : tree.isDirectoryAt location)

include here

theorem walk_stay : tree.walk follow location (.stay :: rest) = tree.walk follow location rest := by
  simp [walk, here]

theorem walk_up :
    tree.walk follow location (.up :: rest) = tree.walk follow location.dropLast rest := by
  simp [walk, here]

theorem walk_into_of_nameLimit_lt (long : nameLimit < name.text.byteLength) :
    tree.walk follow location (.into name :: rest) = .error .nameTooLong := by
  simp [walk, here, long]

variable (fits : name.text.byteLength ≤ nameLimit)

include fits

theorem walk_last
    (plain : ∀ target, tree.get? (location ++ [name]) = some (.link target) → follow = false) :
    tree.walk follow location [.into name] = .ok (.arrived (location ++ [name])) := by
  cases found : tree.get? (location ++ [name]) with
  | none => simp [walk, here, Nat.not_lt.2 fits, found]
  | some entry =>
    cases entry with
    | link target => simp [walk, here, Nat.not_lt.2 fits, found, plain target found]
    | _ => simp [walk, here, Nat.not_lt.2 fits, found]

theorem walk_into (directory : tree.isDirectoryAt (location ++ [name])) :
    tree.walk follow location (.into name :: rest) =
      tree.walk follow (location ++ [name]) rest := by
  rw [isDirectoryAt_iff] at directory
  simp [walk, here, Nat.not_lt.2 fits, directory]

theorem walk_link {target : Path} (followed : rest ≠ [] ∨ follow)
    (found : tree.get? (location ++ [name]) = some (.link target)) :
    tree.walk follow location (.into name :: rest) =
      .ok (.link (location ++ [name]) target rest) := by
  rcases followed with more | followed
  · simp [walk, here, Nat.not_lt.2 fits, found, more]
  · simp [walk, here, Nat.not_lt.2 fits, found, followed]

end Walk

/-- A walk on from what is no directory goes nowhere. -/
theorem walk_of_not_directory (here : tree.isDirectoryAt location = false)
    (more : directions ≠ []) :
    tree.walk follow location directions = .error .notADirectory := by
  cases directions with
  | nil => exact absurd rfl more
  | cons direction rest => simp [walk, here]

/-- A name that is walked into denotes a link that is followed, or is the last, or denotes a
directory to go on from. -/
theorem walk_into_cases {halt : Halt} (here : tree.isDirectoryAt location)
    (h : tree.walk follow location (.into name :: rest) = .ok halt) :
    name.text.byteLength ≤ nameLimit ∧
      ((∃ target, (rest ≠ [] ∨ follow) ∧ tree.get? (location ++ [name]) = some (.link target) ∧
          halt = .link (location ++ [name]) target rest) ∨
        (rest = [] ∧ halt = .arrived (location ++ [name]) ∧ ∀ target,
          tree.get? (location ++ [name]) = some (.link target) → follow = false) ∨
        (rest ≠ [] ∧ tree.isDirectoryAt (location ++ [name]) ∧
          tree.walk follow (location ++ [name]) rest = .ok halt)) := by
  have fits : name.text.byteLength ≤ nameLimit := by
    by_contra long
    rw [walk_into_of_nameLimit_lt here (Nat.lt_of_not_le long)] at h
    cases h
  refine ⟨fits, ?_⟩
  by_cases followed : ∃ target, tree.get? (location ++ [name]) = some (.link target) ∧
      (rest ≠ [] ∨ follow)
  · obtain ⟨target, found, followed⟩ := followed
    rw [walk_link here fits followed found] at h
    exact .inl ⟨target, followed, found, (Except.ok.inj h).symm⟩
  by_cases more : rest = []
  · subst more
    have plain : ∀ target, tree.get? (location ++ [name]) = some (.link target) →
        follow = false := fun target found =>
      eq_false_of_ne_true fun h => followed ⟨target, found, .inr h⟩
    rw [walk_last here fits plain] at h
    exact .inr (.inl ⟨rfl, (Except.ok.inj h).symm, plain⟩)
  · cases directory : tree.isDirectoryAt (location ++ [name]) with
    | true =>
      rw [walk_into here fits directory] at h
      exact .inr (.inr ⟨more, rfl, h⟩)
    | false =>
      -- nothing is there, or what the rest of the directions cannot be followed from
      have beyond : tree.walk follow (location ++ [name]) rest = .error .notADirectory :=
        walk_of_not_directory directory more
      cases found : tree.get? (location ++ [name]) with
      | none => simp [walk, here, Nat.not_lt.2 fits, found, more] at h
      | some entry =>
        cases entry with
        | link target => exact absurd ⟨target, found, .inl more⟩ followed
        | _ => simp [walk, here, Nat.not_lt.2 fits, found, beyond] at h

/-- What the halt of a walk says of where the directions lead: to the location arrived at, or
through the link to wherever they lead on from it. -/
def Halt.LeadsOn (tree : FileTree) (follow : Bool) (location : Location)
    (directions : List Path.Direction) : Halt → Prop
  | .arrived last => tree.Leads follow location directions [] last
  | .link place target rest => ∀ links last,
      tree.Leads follow (baseOf target place) (target.route ++ rest) links last →
        tree.Leads follow location directions (place :: links) last

theorem Halt.LeadsOn.imp {otherLocation : Location} {otherDirections : List Path.Direction}
    {halt : Halt} (h : halt.LeadsOn tree follow location directions)
    (onward : ∀ links last, tree.Leads follow location directions links last →
      tree.Leads follow otherLocation otherDirections links last) :
    halt.LeadsOn tree follow otherLocation otherDirections := by
  cases halt with
  | arrived last => exact onward _ _ h
  | link place target rest => exact fun links last leads => onward _ _ (h links last leads)

theorem leadsOn_of_walk {halt : Halt} (h : tree.walk follow location directions = .ok halt) :
    halt.LeadsOn tree follow location directions := by
  induction directions generalizing location with
  | nil =>
    cases h
    exact .arrived _
  | cons direction rest ih =>
    have here : tree.isDirectoryAt location := by
      by_contra here
      rw [walk_of_not_directory (eq_false_of_ne_true here) (List.cons_ne_nil _ _)] at h
      cases h
    cases direction with
    | stay => exact (ih (walk_stay here ▸ h)).imp fun _ _ => .stay here
    | up => exact (ih (walk_up here ▸ h)).imp fun _ _ => .up here
    | into name =>
      obtain ⟨fits, halts⟩ := walk_into_cases here h
      rcases halts with
        ⟨target, followed, found, rfl⟩ | ⟨rfl, rfl, plain⟩ | ⟨more, directory, onward⟩
      · exact fun links last leads => .link here fits followed found leads
      · exact .last here fits plain
      · exact (ih onward).imp fun _ _ => .into here fits more directory

/-! ### Any number of directions -/

theorem walkLinks_congr {otherLocation : Location} {otherDirections : List Path.Direction}
    (same : tree.walk follow location directions =
      tree.walk follow otherLocation otherDirections) (limit : Nat) :
    tree.walkLinks follow limit location directions =
      tree.walkLinks follow limit otherLocation otherDirections := by
  rw [walkLinks.eq_def, same, ← walkLinks.eq_def]

theorem trailFrom_congr {otherLocation : Location} {otherDirections : List Path.Direction}
    (same : tree.walk follow location directions =
      tree.walk follow otherLocation otherDirections) (limit : Nat) :
    tree.trailFrom follow limit location directions =
      tree.trailFrom follow limit otherLocation otherDirections := by
  rw [trailFrom.eq_def, same, ← trailFrom.eq_def]

theorem exists_leads_of_walkLinks {limit : Nat}
    (h : tree.walkLinks follow limit location directions = .ok last) :
    ∃ links, tree.Leads follow location directions links last ∧ links.length ≤ limit := by
  induction limit generalizing location directions with
  | zero =>
    rw [walkLinks] at h
    split at h
    · cases h
    · next arrived =>
      cases h
      exact ⟨[], leadsOn_of_walk arrived, Nat.le_refl 0⟩
    · cases h
  | succ limit ih =>
    rw [walkLinks] at h
    split at h
    · cases h
    · next arrived =>
      cases h
      exact ⟨[], leadsOn_of_walk arrived, Nat.zero_le _⟩
    · next place target rest halted =>
      obtain ⟨links, leads, within⟩ := ih h
      exact ⟨place :: links, leadsOn_of_walk halted _ _ leads, Nat.succ_le_succ within⟩

/-- Where directions lead, through no more links than allowed, they are followed to, and the trail
is that of the links and the last location. -/
theorem Leads.walkLinks_eq {limit : Nat} (h : tree.Leads follow location directions links last)
    (within : links.length ≤ limit) :
    tree.walkLinks follow limit location directions = .ok last ∧
      tree.trailFrom follow limit location directions = links ++ [last] := by
  induction h generalizing limit with
  | arrived location =>
    cases limit <;> exact ⟨rfl, rfl⟩
  | stay here _ ih =>
    rw [walkLinks_congr (walk_stay here), trailFrom_congr (walk_stay here)]
    exact ih within
  | up here _ ih =>
    rw [walkLinks_congr (walk_up here), trailFrom_congr (walk_up here)]
    exact ih within
  | last here fits plain =>
    have arrived := walk_last here fits plain
    cases limit <;> simp [walkLinks, trailFrom, arrived]
  | @into location name rest _ _ here fits _ directory _ ih =>
    have onward : tree.walk follow location (.into name :: rest) =
        tree.walk follow (location ++ [name]) rest := walk_into here fits directory
    rw [walkLinks_congr onward, trailFrom_congr onward]
    exact ih within
  | link here fits followed found _ ih =>
    have halted := walk_link here fits followed found
    cases limit with
    | zero => simp at within
    | succ limit =>
      obtain ⟨arrives, passes⟩ := ih (Nat.le_of_succ_le_succ within)
      rw [walkLinks, trailFrom, halted]
      exact ⟨arrives, congrArg _ passes⟩

theorem walkLinks_eq_ok_iff {limit : Nat} :
    tree.walkLinks follow limit location directions = .ok last ↔
      ∃ links, tree.Leads follow location directions links last ∧ links.length ≤ limit :=
  ⟨exists_leads_of_walkLinks, fun ⟨_, leads, within⟩ => (leads.walkLinks_eq within).1⟩

/-! ### Directions in two parts -/

/-- **Putting together.** Directions that lead to a directory, and then others from there. -/
theorem Leads.append {more : List Location}
    (h : tree.Leads true location first links mid) (directory : tree.isDirectoryAt mid)
    (nonempty : second ≠ []) (h' : tree.Leads follow mid second more last) :
    tree.Leads follow location (first ++ second) (links ++ more) last := by
  induction h with
  | arrived => exact h'
  | stay here _ ih => exact .stay here (ih directory h')
  | up here _ ih => exact .up here (ih directory h')
  | last here fits _ => exact .into here fits nonempty directory h'
  | into here fits _ onward _ ih =>
    exact .into here fits (List.append_ne_nil_of_right_ne_nil _ nonempty) onward (ih directory h')
  | link here fits _ found _ ih =>
    refine .link here fits (.inl (List.append_ne_nil_of_right_ne_nil _ nonempty)) found ?_
    rw [List.append_eq, ← List.append_assoc]
    exact ih directory h'

/-- **Cutting.** The first of two parts of directions leads to a directory, and the second leads on
from there. -/
theorem exists_leads_of_append (nonempty : second ≠ [])
    (h : tree.Leads follow location (first ++ second) links last) :
    ∃ mid before after, tree.Leads true location first before mid ∧ tree.isDirectoryAt mid ∧
      tree.Leads follow mid second after last ∧ links = before ++ after := by
  -- the induction is on how the directions lead: a link puts others in front of the first part
  generalize together : first ++ second = directions at h
  induction h generalizing first with
  | arrived location => exact absurd (List.append_eq_nil_iff.1 together).2 nonempty
  | @stay location rest links last here leads ih =>
    cases first with
    | nil =>
      obtain rfl : second = .stay :: rest := together
      exact ⟨location, [], links, .arrived _, here, .stay here leads, rfl⟩
    | cons direction first =>
      obtain ⟨rfl, tail⟩ : direction = _ ∧ first ++ second = rest := List.cons.inj together
      obtain ⟨mid, before, after, front, directory, back, rfl⟩ := ih tail
      exact ⟨mid, before, after, .stay here front, directory, back, rfl⟩
  | @up location rest links last here leads ih =>
    cases first with
    | nil =>
      obtain rfl : second = .up :: rest := together
      exact ⟨location, [], links, .arrived _, here, .up here leads, rfl⟩
    | cons direction first =>
      obtain ⟨rfl, tail⟩ : direction = _ ∧ first ++ second = rest := List.cons.inj together
      obtain ⟨mid, before, after, front, directory, back, rfl⟩ := ih tail
      exact ⟨mid, before, after, .up here front, directory, back, rfl⟩
  | @last location name here fits plain =>
    cases first with
    | nil =>
      obtain rfl : second = [.into name] := together
      exact ⟨location, [], [], .arrived _, here, .last here fits plain, rfl⟩
    | cons direction first =>
      exact absurd (List.append_eq_nil_iff.1 (List.cons.inj together).2).2 nonempty
  | @into location name rest links last here fits more onward leads ih =>
    cases first with
    | nil =>
      obtain rfl : second = .into name :: rest := together
      exact ⟨location, [], links, .arrived _, here, .into here fits more onward leads, rfl⟩
    | cons direction first =>
      obtain ⟨rfl, tail⟩ : direction = _ ∧ first ++ second = rest := List.cons.inj together
      obtain ⟨mid, before, after, front, directory, back, rfl⟩ := ih tail
      refine ⟨mid, before, after, ?_, directory, back, rfl⟩
      cases first with
      | nil =>
        -- the first part ends with this name, and leads to the directory that it denotes
        cases front
        refine .last here fits fun target found => ?_
        rw [isDirectoryAt_iff.1 directory] at found
        cases found
      | cons => exact .into here fits (List.cons_ne_nil _ _) onward front
  | @link location name target rest links last here fits followed found leads ih =>
    cases first with
    | nil =>
      obtain rfl : second = .into name :: rest := together
      exact ⟨location, [], _, .arrived _, here, .link here fits followed found leads, rfl⟩
    | cons direction first =>
      obtain ⟨rfl, tail⟩ : direction = _ ∧ first ++ second = rest := List.cons.inj together
      have inside : (target.route ++ first) ++ second = target.route ++ rest := by
        rw [List.append_assoc, tail]
      obtain ⟨mid, before, after, front, directory, back, rfl⟩ := ih inside
      exact ⟨mid, (location ++ [name]) :: before, after, .link here fits (.inr rfl) found front,
        directory, back, rfl⟩

/-! ### Directions in another tree -/

/-- A tree in which what was a directory still is one, and what is a link was one. -/
structure Keeps (tree other : FileTree) : Prop where
  workingDirectory : other.workingDirectory = tree.workingDirectory
  refusals : other.refusals = tree.refusals
  isDirectoryAt : ∀ location, tree.isDirectoryAt location → other.isDirectoryAt location
  link : ∀ location target,
    other.get? location = some (.link target) → tree.get? location = some (.link target)

theorem Keeps.refl (tree : FileTree) : tree.Keeps tree := ⟨rfl, rfl, fun _ h => h, fun _ _ h => h⟩

theorem Keeps.trans {after : FileTree} (h : tree.Keeps other) (h' : other.Keeps after) :
    tree.Keeps after where
  workingDirectory := h'.workingDirectory.trans h.workingDirectory
  refusals := h'.refusals.trans h.refusals
  isDirectoryAt _ directory := h'.isDirectoryAt _ (h.isDirectoryAt _ directory)
  link _ _ found := h.link _ _ (h'.link _ _ found)

/-- **Another tree.** Directions lead to the same place if the links on the way are the same. -/
theorem Leads.mono (h : tree.Leads follow location directions links last)
    (keeps : tree.Keeps other) (same : ∀ link ∈ links, other.get? link = tree.get? link) :
    other.Leads follow location directions links last := by
  induction h with
  | arrived location => exact .arrived location
  | stay here _ ih => exact .stay (keeps.isDirectoryAt _ here) (ih same)
  | up here _ ih => exact .up (keeps.isDirectoryAt _ here) (ih same)
  | last here fits plain =>
    exact .last (keeps.isDirectoryAt _ here) fits fun target found =>
      plain target (keeps.link _ _ found)
  | into here fits more onward _ ih =>
    exact .into (keeps.isDirectoryAt _ here) fits more (keeps.isDirectoryAt _ onward) (ih same)
  | link here fits followed found _ ih =>
    refine .link (keeps.isDirectoryAt _ here) fits followed ?_ (ih fun link mem => ?_)
    · rw [same _ List.mem_cons_self, found]
    · exact same link (List.mem_cons_of_mem _ mem)

end FileTree
end Manuscript
