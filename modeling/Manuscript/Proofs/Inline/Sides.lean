import Manuscript.Proofs.Inline.DoubleRuns

/-!
# The sides of runs

Pairing runs in one pass is easy to do and hard to see through: what becomes of a run depends on
whether one is waiting. It comes to this, however: of the runs that can be paired, those between two
separating runs are opening and closing in turn, and the last of an odd number is neither
(`Inline.alternating`). So the text that a pairing makes is the one where each of these runs is
written by its side (`Inline.writeRuns`), and the sides can be told by counting.

* `Pairing.render_none_eq`: without a separating run, a pairing writes runs by alternating sides.
* `Pairing.render_append_separator`: a separating run cuts the work in two.
* `Inline.blocks_flatMap_writeRuns`: runs that were not written are runs of the new text, and there
  are no others.
-/

namespace Manuscript
namespace Inline

variable {d : Char} {name text : Text} {length : Nat} {pairing : Pairing}
  {sides more : List (Option Side)} {front behind : List Block}

/-! ### Alternating sides -/

/-- The sides of so many runs that are paired from left to right. The last of an odd number has
none. -/
def alternating : Nat → List (Option Side)
  | 0 => []
  | 1 => [none]
  | n + 2 => some .opening :: some .closing :: alternating n

theorem length_alternating (n : Nat) : (alternating n).length = n := by
  fun_induction alternating n with
  | case1 => rfl
  | case2 => rfl
  | case3 n ih => rw [List.length_cons, List.length_cons, ih]

theorem none_not_mem_alternating {n : Nat} (even : n % 2 = 0) : none ∉ alternating n := by
  fun_induction alternating n with
  | case1 => simp
  | case2 => simp at even
  | case3 n ih => simpa using ih (by omega)

theorem alternating_succ {n : Nat} (even : n % 2 = 0) :
    alternating (n + 1) = alternating n ++ [none] := by
  fun_induction alternating n with
  | case1 => rfl
  | case2 => simp at even
  | case3 n ih => rw [alternating, ih (by omega)]; rfl

theorem exists_alternating_cons (n : Nat) :
    ∃ side sides, alternating (n + 1) = side :: sides := by
  cases n with
  | zero => exact ⟨_, _, rfl⟩
  | succ n => exact ⟨_, _, rfl⟩

/-! ### Writing runs -/

/-- What is written in place of a run: half a command if it has a side, else the run itself. -/
def writeRun (length : Nat) (name : Text) : Option Side → List Block
  | none => [.run length]
  | some side => (side.half name).map .char

/-- Some blocks with the runs of one length written by their sides, one after another. -/
def writeRuns (length : Nat) (name : Text) : List (Option Side) → List Block → List Block
  | _, [] => []
  | sides, .char c :: rest => .char c :: writeRuns length name sides rest
  | [], .run n :: rest => .run n :: writeRuns length name [] rest
  | side :: sides, .run n :: rest =>
    if n = length then writeRun length name side ++ writeRuns length name sides rest
    else .run n :: writeRuns length name (side :: sides) rest

theorem writeRuns_nil (blocks : List Block) : writeRuns length name [] blocks = blocks := by
  induction blocks with
  | nil => rfl
  | cons block blocks ih => cases block <;> rw [writeRuns, ih]

theorem writeRuns_char (sides : List (Option Side)) (c : Char) (rest : List Block) :
    writeRuns length name sides (.char c :: rest) =
      .char c :: writeRuns length name sides rest := by
  rw [writeRuns]

theorem writeRuns_run (side : Option Side) (sides : List (Option Side)) (rest : List Block) :
    writeRuns length name (side :: sides) (.run length :: rest) =
      writeRun length name side ++ writeRuns length name sides rest := by
  rw [writeRuns, if_pos rfl]

theorem writeRuns_run_of_ne {n : Nat} (h : n ≠ length) (sides : List (Option Side))
    (rest : List Block) :
    writeRuns length name sides (.run n :: rest) = .run n :: writeRuns length name sides rest := by
  cases sides with
  | nil => rw [writeRuns]
  | cons side sides => rw [writeRuns, if_neg h]

/-- The first run is written or stays. -/
theorem exists_writeRuns_run (length : Nat) (name : Text) (sides : List (Option Side)) (n : Nat)
    (rest : List Block) :
    ∃ written remaining, writeRuns length name sides (.run n :: rest) =
        written ++ writeRuns length name remaining rest ∧
      (written = [.run n] ∨ ∃ side : Side, written = (side.half name).map .char) := by
  by_cases same : n = length
  · subst same
    cases sides with
    | nil => exact ⟨[.run n], [], by rw [writeRuns]; rfl, .inl rfl⟩
    | cons side sides =>
      refine ⟨writeRun n name side, sides, writeRuns_run side sides rest, ?_⟩
      cases side with
      | none => exact .inl rfl
      | some side => exact .inr ⟨side, rfl⟩
  · exact ⟨[.run n], sides, writeRuns_run_of_ne same sides rest, .inl rfl⟩

/-- Sides are used up by the runs in front. -/
theorem writeRuns_append (h : sides.length = (lengths front).count length) :
    writeRuns length name (sides ++ more) (front ++ behind) =
      writeRuns length name sides front ++ writeRuns length name more behind := by
  induction front generalizing sides with
  | nil =>
    obtain rfl := List.length_eq_zero_iff.1 h
    rfl
  | cons block front ih =>
    cases block with
    | char c => rw [List.cons_append, writeRuns_char, writeRuns_char, ih h, List.cons_append]
    | run n =>
      by_cases same : n = length
      · subst same
        rw [lengths, List.count_cons_self] at h
        obtain ⟨side, sides, rfl⟩ := List.exists_cons_of_length_eq_add_one h
        rw [List.cons_append, List.cons_append, writeRuns_run, writeRuns_run,
          ih (Nat.succ.inj h), List.append_assoc]
      · rw [lengths, List.count_cons_of_ne same] at h
        rw [List.cons_append, writeRuns_run_of_ne same, writeRuns_run_of_ne same, ih h,
          List.cons_append]

/-- If each run has a side, the runs of the length are gone, and the others are left. -/
theorem lengths_writeRuns (all : none ∉ sides) (h : sides.length = (lengths front).count length) :
    lengths (writeRuns length name sides front) = (lengths front).filter (· ≠ length) := by
  induction front generalizing sides with
  | nil => rw [writeRuns]; rfl
  | cons block front ih =>
    cases block with
    | char c =>
      rw [writeRuns_char]
      exact ih all h
    | run n =>
      by_cases same : n = length
      · subst same
        rw [lengths, List.count_cons_self] at h
        obtain ⟨side, sides, rfl⟩ := List.exists_cons_of_length_eq_add_one h
        cases side with
        | none => exact absurd List.mem_cons_self all
        | some side =>
          rw [writeRuns_run, writeRun, lengths_append, lengths_map_char, List.nil_append,
            ih (fun mem => all (List.mem_cons_of_mem _ mem)) (Nat.succ.inj h), lengths,
            List.filter_cons_of_neg (by simp)]
      · rw [lengths, List.count_cons_of_ne same] at h
        rw [writeRuns_run_of_ne same, lengths, lengths, ih all h,
          List.filter_cons_of_pos (by simpa using same)]

/-! ### The runs of the new text -/

theorem head?_flatMap_writeRuns (h : text.head? ≠ some d) (sides : List (Option Side)) :
    ((writeRuns length name sides (blocks d text)).flatMap (Block.source d)).head? ≠ some d := by
  cases text with
  | nil => simp [blocks, writeRuns]
  | cons c text =>
    rw [blocks_cons_of_ne (fun same => h (congrArg some same)), writeRuns_char]
    exact h

/-- **The runs of the new text** are those that were not written, if the command is written without
the delimiter. -/
theorem blocks_flatMap_writeRuns (plain : ∀ side : Side, d ∉ side.half name) (text : Text)
    (sides : List (Option Side)) :
    blocks d ((writeRuns length name sides (blocks d text)).flatMap (Block.source d)) =
      writeRuns length name sides (blocks d text) := by
  induction text using run_induction d generalizing sides with
  | nil => rfl
  | char c rest differs ih =>
    rw [blocks_cons_of_ne differs, writeRuns_char]
    show blocks d (c :: (writeRuns length name sides (blocks d rest)).flatMap (Block.source d)) = _
    rw [blocks_cons_of_ne differs, ih]
  | run n rest ends ih =>
    rw [blocks_run ends]
    obtain ⟨written, remaining, cut, rfl | ⟨side, rfl⟩⟩ :=
      exists_writeRuns_run length name sides (n + 1) (blocks d rest)
    · -- the run stays, and what follows it does not make it longer
      rw [cut, List.flatMap_append, List.flatMap_singleton]
      show blocks d (List.replicate (n + 1) d ++ _) = _
      rw [blocks_run (head?_flatMap_writeRuns ends remaining), ih]
      rfl
    · -- half a command stands in its place
      rw [cut, List.flatMap_append, flatMap_source_map_char,
        blocks_append_of_not_mem (plain side), ih]

/-! ### Pairings -/

namespace Pairing

/-- **A pairing writes runs by alternating sides**, if none comes between. If one is waiting, it has
the first side, and the text behind it follows. -/
theorem render_eq (wrap : pairing.wrap = Latex.command name) (blocks : List Block)
    (joined : ∀ n ∈ lengths blocks, ¬ pairing.separates n) :
    pairing.render d none blocks =
        (writeRuns pairing.length name (alternating ((lengths blocks).count pairing.length))
          blocks).flatMap (Block.source d) ∧
      ∀ held side sides,
        alternating ((lengths blocks).count pairing.length + 1) = side :: sides →
        pairing.render d (some held) blocks =
          (writeRun pairing.length name side).flatMap (Block.source d) ++ (held ++
            (writeRuns pairing.length name sides blocks).flatMap (Block.source d)) := by
  -- on the blocks, for both states at once: each run that can be paired changes the state
  induction blocks with
  | nil =>
    -- at the end, one that is still waiting has no side
    refine ⟨rfl, ?_⟩
    intro held side sides alone
    obtain ⟨rfl, rfl⟩ := List.cons.inj alone
    simp [render, writeRun, writeRuns, Block.source]
  | cons block blocks ih =>
    cases block with
    | char c =>
      obtain ⟨idle, waiting⟩ := ih joined
      refine ⟨?_, fun held side sides first => ?_⟩
      · rw [render, idle, writeRuns_char]
        rfl
      · rw [render, waiting _ side sides first, writeRuns_char, List.append_assoc]
        rfl
    | run n =>
      obtain ⟨here, further⟩ := List.forall_mem_cons.1 joined
      obtain ⟨idle, waiting⟩ := ih further
      by_cases same : n = pairing.length
      · subst same
        rw [lengths, List.count_cons_self]
        refine ⟨?_, fun held side sides first => ?_⟩
        · -- it waits from here on, with nothing behind it so far
          obtain ⟨side, sides, first⟩ :=
            exists_alternating_cons ((lengths blocks).count pairing.length)
          rw [render, if_pos rfl, waiting [] side sides first, first, writeRuns_run,
            List.flatMap_append]
          rfl
        · -- the partner of the one that is waiting
          obtain ⟨rfl, rfl⟩ := List.cons.inj first
          rw [render, if_pos rfl, idle, wrap, writeRuns_run, List.flatMap_append, writeRun,
            writeRun, flatMap_source_map_char, flatMap_source_map_char]
          simp [Side.half, Latex.command]
      · rw [lengths, List.count_cons_of_ne same]
        refine ⟨?_, fun held side sides first => ?_⟩
        · rw [render, if_neg same, idle, writeRuns_run_of_ne same]
          rfl
        · rw [render, if_neg same, if_neg here, waiting _ side sides first,
            writeRuns_run_of_ne same, List.append_assoc]
          rfl

theorem render_none_eq (wrap : pairing.wrap = Latex.command name) {blocks : List Block}
    (joined : ∀ n ∈ lengths blocks, ¬ pairing.separates n) :
    pairing.render d none blocks =
      (writeRuns pairing.length name (alternating ((lengths blocks).count pairing.length))
        blocks).flatMap (Block.source d) :=
  (render_eq wrap blocks joined).1

/-- **A separating run cuts the work in two.** -/
theorem render_append_separator {n : Nat} (separates : pairing.separates n)
    (differs : n ≠ pairing.length) (state : Option Text) (front behind : List Block) :
    pairing.render d state (front ++ .run n :: behind) =
      pairing.render d state front ++ (List.replicate n d ++ pairing.render d none behind) := by
  induction front generalizing state with
  | nil =>
    cases state with
    | none =>
      rw [List.nil_append, render, render, if_neg differs, List.nil_append]
    | some held => rw [List.nil_append, render, render, if_neg differs, if_pos separates]
  | cons block front ih =>
    cases block with
    | char c =>
      cases state with
      | none => rw [List.cons_append, render, render, ih, List.cons_append]
      | some held => rw [List.cons_append, render, render, ih]
    | run m =>
      cases state with
      | none =>
        rw [List.cons_append, render, render]
        split
        · exact ih _
        · rw [ih, List.append_assoc]
      | some held =>
        rw [List.cons_append, render, render]
        split
        · rw [ih, List.append_assoc]
        · split
          · rw [ih, List.append_assoc, List.append_assoc, List.append_assoc, List.append_assoc]
          · exact ih _

end Pairing

end Inline
end Manuscript
