import Manuscript.Proofs.Inline.Tokens
import Mathlib.Data.List.Chain

/-!
# Runs of a delimiter

The delimiters of a text stand in runs. Emphasis looks at the runs only: those of one delimiter are
paired from left to right, and a longer run comes between. A text is cut here into its maximal runs
and the characters between them (`Inline.blocks`), and the runs are paired in one pass, with at most
one run waiting for its partner (`Inline.Pairing.render`).

The search for emphasis goes another way. It takes two delimiters with something between them,
refuses them if one of them has a neighbour, and tries again one character further on. What it finds
is the same: two lone delimiters with no delimiter between them are two runs that follow one
another, so the search refuses a lone run exactly if the run behind it is longer, and goes on with
that one.

Main statement: `Inline.renderEmphasis_eq_pairing`.
-/

namespace Manuscript
namespace Inline

variable {d : Char} {text rest : Text}

/-! ### Blocks -/

/-- A part of a text, with regard to one delimiter. -/
inductive Block
  /-- A character that is no delimiter. -/
  | char (c : Char)
  /-- A run of delimiters that is as long as can be. -/
  | run (length : Nat)
deriving DecidableEq, Repr

/-- The maximal runs of a delimiter in a text and the characters between them, in order. -/
def blocks (delimiter : Char) : Text → List Block
  | [] => []
  | c :: rest =>
    if c = delimiter then
      match blocks delimiter rest with
      | .run n :: others => .run (n + 1) :: others
      | others => .run 1 :: others
    else .char c :: blocks delimiter rest

/-- The text of a block. -/
def Block.source (delimiter : Char) : Block → Text
  | char c => [c]
  | run n => List.replicate n delimiter

/-- The lengths of the runs among some blocks, in order. -/
def lengths : List Block → List Nat
  | [] => []
  | .char _ :: rest => lengths rest
  | .run n :: rest => n :: lengths rest

@[simp] theorem lengths_append (front behind : List Block) :
    lengths (front ++ behind) = lengths front ++ lengths behind := by
  induction front with
  | nil => rfl
  | cons block front ih =>
    cases block with
    | char c => exact ih
    | run n => exact congrArg (n :: ·) ih

@[simp] theorem lengths_map_char (text : Text) : lengths (text.map .char) = [] := by
  induction text with
  | nil => rfl
  | cons c text ih => exact ih

@[simp] theorem flatMap_source_map_char (d : Char) (text : Text) :
    (text.map .char).flatMap (Block.source d) = text := by
  rw [List.flatMap_map]
  exact List.flatMap_singleton' text

theorem blocks_cons_of_ne {c : Char} (h : c ≠ d) (rest : Text) :
    blocks d (c :: rest) = .char c :: blocks d rest :=
  if_neg h

theorem blocks_append_of_not_mem (h : d ∉ text) (rest : Text) :
    blocks d (text ++ rest) = text.map .char ++ blocks d rest := by
  induction text with
  | nil => rfl
  | cons c text ih =>
    obtain ⟨first, others⟩ := not_or.1 (mt List.mem_cons.2 h)
    rw [List.cons_append, blocks_cons_of_ne (Ne.symm first), ih others]
    rfl

/-- A run is a block if no delimiter follows it. -/
theorem blocks_run (h : rest.head? ≠ some d) (n : Nat) :
    blocks d (List.replicate (n + 1) d ++ rest) = .run (n + 1) :: blocks d rest := by
  -- on the length of the run: the last of its delimiters starts the block, the others join it
  induction n with
  | zero =>
    show blocks d (d :: rest) = .run 1 :: blocks d rest
    cases rest with
    | nil => simp [blocks]
    | cons c rest =>
      have differs : c ≠ d := fun same => h (congrArg some same)
      rw [blocks, if_pos rfl, blocks_cons_of_ne differs]
  | succ n ih =>
    rw [List.replicate_succ, List.cons_append, blocks, if_pos rfl, ih]

/-- A text is empty, or starts with another character, or with a run that no delimiter follows. -/
theorem exists_run (d : Char) (text : Text) :
    text.head? ≠ some d ∨
      ∃ n rest, rest.head? ≠ some d ∧ text = List.replicate (n + 1) d ++ rest := by
  induction text with
  | nil => exact .inl (by simp)
  | cons c text ih =>
    by_cases same : c = d
    · subst same
      rcases ih with other | ⟨n, rest, ends, rfl⟩
      · exact .inr ⟨0, text, other, rfl⟩
      · exact .inr ⟨n + 1, rest, ends, rfl⟩
    · exact .inl fun first => same (Option.some.inj first)

/-- **Induction on the blocks of a text.** -/
theorem run_induction {motive : Text → Prop} (d : Char) (nil : motive [])
    (char : ∀ c rest, c ≠ d → motive rest → motive (c :: rest))
    (run : ∀ n rest, rest.head? ≠ some d → motive rest →
      motive (List.replicate (n + 1) d ++ rest)) (text : Text) : motive text := by
  induction length : text.length using Nat.strongRecOn generalizing text with
  | ind _ ih =>
    subst length
    rcases exists_run d text with other | ⟨n, rest, ends, rfl⟩
    · cases text with
      | nil => exact nil
      | cons c rest =>
        exact char c rest (fun same => other (congrArg some same)) (ih _ (by simp) rest rfl)
    · refine run n rest ends (ih _ ?_ rest rfl)
      rw [List.length_append, List.length_replicate]
      omega

/-- The blocks spell the text. -/
theorem flatMap_source_blocks (d : Char) (text : Text) :
    (blocks d text).flatMap (Block.source d) = text := by
  induction text using run_induction d with
  | nil => rfl
  | char c rest differs ih =>
    rw [blocks_cons_of_ne differs, List.flatMap_cons, ih]
    rfl
  | run n rest ends ih =>
    rw [blocks_run ends, List.flatMap_cons, ih]
    rfl

/-- **The blocks are as large as can be.** A character is no delimiter, a run is not empty, and no
run stands beside another one. -/
theorem blocks_maximal (d : Char) (text : Text) :
    (∀ c, .char c ∈ blocks d text → c ≠ d) ∧ (∀ n, .run n ∈ blocks d text → 0 < n) ∧
      (blocks d text).IsChain fun left right => ∀ n m, ¬ (left = .run n ∧ right = .run m) := by
  induction text using run_induction d with
  | nil => simp [blocks]
  | char c rest differs ih =>
    obtain ⟨characters, runs, apart⟩ := ih
    rw [blocks_cons_of_ne differs, List.isChain_cons]
    refine ⟨?_, by simpa using runs, fun _ _ _ _ same => ?_, apart⟩
    · rintro e (_ | ⟨_, inside⟩)
      · exact differs
      · exact characters e inside
    · cases same.1
  | run n rest ends ih =>
    obtain ⟨characters, runs, apart⟩ := ih
    rw [blocks_run ends, List.isChain_cons]
    refine ⟨by simpa using characters, ?_, fun right next _ m same => ?_, apart⟩
    · rintro m (_ | ⟨_, inside⟩)
      · exact Nat.succ_pos n
      · exact runs m inside
    · -- what follows starts with another character
      cases rest with
      | nil => cases next
      | cons c rest =>
        rw [blocks_cons_of_ne fun first => ends (congrArg some first)] at next
        cases (Option.some.inj next).trans same.2

/-- What stands before the next run. -/
theorem exists_next_run (d : Char) (text : Text) :
    ∃ before, d ∉ before ∧ (text = before ∨
      ∃ n rest, rest.head? ≠ some d ∧
        text = before ++ (List.replicate (n + 1) d ++ rest)) := by
  induction text using run_induction d with
  | nil => exact ⟨[], by simp, .inl rfl⟩
  | char c rest differs ih =>
    obtain ⟨before, plain, cut⟩ := ih
    refine ⟨c :: before, by simp [plain, Ne.symm differs], cut.imp (congrArg _) ?_⟩
    rintro ⟨n, behind, ends, rfl⟩
    exact ⟨n, behind, ends, rfl⟩
  | run n rest ends _ => exact ⟨[], by simp, .inr ⟨n, rest, ends, rfl⟩⟩

/-! ### Pairing -/

/-- Which runs of a delimiter are paired, and what becomes of two that are. -/
structure Pairing where
  /-- The length of the runs that are paired. -/
  length : Nat
  /-- Whether a run of this other length comes between two runs, so that they are not paired. -/
  separates : Nat → Bool
  /-- What becomes of two runs and the text between them. -/
  wrap : Text → Text

namespace Pairing

variable {pairing : Pairing} {held : Text}

/-- The text with its runs paired from left to right. A run that can be paired waits for its
partner, together with the text behind it. The first argument after the delimiter is that text, if a
run is waiting. -/
def render (pairing : Pairing) (delimiter : Char) : Option Text → List Block → Text
  | none, [] => []
  | some held, [] => List.replicate pairing.length delimiter ++ held
  | none, .char c :: rest => c :: pairing.render delimiter none rest
  | some held, .char c :: rest => pairing.render delimiter (some (held ++ [c])) rest
  | none, .run n :: rest =>
    if n = pairing.length then pairing.render delimiter (some []) rest
    else List.replicate n delimiter ++ pairing.render delimiter none rest
  | some held, .run n :: rest =>
    if n = pairing.length then pairing.wrap held ++ pairing.render delimiter none rest
    else if pairing.separates n then
      List.replicate pairing.length delimiter ++ held ++
        (List.replicate n delimiter ++ pairing.render delimiter none rest)
    else pairing.render delimiter (some (held ++ List.replicate n delimiter)) rest

/-- Nothing happens to blocks without a run that can be paired, if no run is waiting. -/
theorem render_none_append {front : List Block} (h : pairing.length ∉ lengths front)
    (behind : List Block) :
    pairing.render d none (front ++ behind) =
      front.flatMap (Block.source d) ++ pairing.render d none behind := by
  induction front with
  | nil => rfl
  | cons block front ih =>
    cases block with
    | char c =>
      rw [List.cons_append, render, ih h]
      rfl
    | run n =>
      obtain ⟨differs, further⟩ := not_or.1 (mt List.mem_cons.2 h)
      rw [List.cons_append, render, if_neg (Ne.symm differs), ih further, List.flatMap_cons,
        List.append_assoc]
      rfl

theorem render_none_of_not_mem {front : List Block} (h : pairing.length ∉ lengths front) :
    pairing.render d none front = front.flatMap (Block.source d) := by
  have whole := render_none_append (d := d) h []
  rwa [List.append_nil, render, List.append_nil] at whole

/-- A run goes on waiting over blocks without a run that is paired with it or comes between. -/
theorem render_some_append {front : List Block} (h : pairing.length ∉ lengths front)
    (joined : ∀ n ∈ lengths front, ¬ pairing.separates n) (behind : List Block) :
    pairing.render d (some held) (front ++ behind) =
      pairing.render d (some (held ++ front.flatMap (Block.source d))) behind := by
  induction front generalizing held with
  | nil => rw [List.flatMap_nil, List.append_nil, List.nil_append]
  | cons block front ih =>
    cases block with
    | char c =>
      rw [List.cons_append, render, ih h joined, List.append_assoc]
      rfl
    | run n =>
      obtain ⟨differs, further⟩ := not_or.1 (mt List.mem_cons.2 h)
      obtain ⟨here, later⟩ := List.forall_mem_cons.1 joined
      rw [List.cons_append, render, if_neg (Ne.symm differs), if_neg here, ih further later,
        List.append_assoc]
      rfl

theorem render_some_of_not_mem {front : List Block} (h : pairing.length ∉ lengths front)
    (joined : ∀ n ∈ lengths front, ¬ pairing.separates n) :
    pairing.render d (some held) front =
      List.replicate pairing.length d ++ (held ++ front.flatMap (Block.source d)) := by
  have whole : pairing.render d (some held) (front ++ []) = _ := render_some_append h joined []
  rwa [List.append_nil, render] at whole

end Pairing

/-- Emphasis pairs the lone delimiters. A longer run comes between. -/
def lonePairing : Pairing where
  length := 1
  separates n := 2 ≤ n
  wrap := Latex.emphasis

/-- A lone run waits, and with it the text up to the next run. -/
theorem render_lone (ends : (text ++ rest).head? ≠ some d) (plain : d ∉ text) :
    lonePairing.render d none (blocks d (List.replicate (0 + 1) d ++ (text ++ rest))) =
      lonePairing.render d (some text) (blocks d rest) := by
  rw [blocks_run ends, blocks_append_of_not_mem plain]
  show lonePairing.render d (some []) (text.map .char ++ blocks d rest) = _
  rw [Pairing.render_some_append (by simp) (by simp), flatMap_source_map_char, List.nil_append]

/-! ### The search for emphasis -/

section Emphasis

variable {before : Option Char}

theorem not_opening_prefix {c : Char} (h : c ≠ d) (rest : Text) :
    ¬ (emphasisMarks d).opening <+: c :: rest :=
  fun start => h (List.cons_prefix_cons.1 start).1.symm

/-- A character that is no delimiter stands outside the spans. -/
theorem piecesAfter_emphasis_of_not_mem (h : d ∉ text) (rest : Text) :
    (emphasisMarks d).piecesAfter before (text ++ rest) =
      text.map .char ++ (emphasisMarks d).piecesAfter (text.getLast?.or before) rest :=
  Delimiters.piecesAfter_append (Delimiters.startsNowhere_of_forall
    (fun _ mem => not_opening_prefix (ne_of_mem_of_not_mem mem h)) rest)

/-- Behind a delimiter, delimiters neither open nor close. -/
theorem piecesAfter_emphasis_replicate (n : Nat) (rest : Text) :
    (emphasisMarks d).piecesAfter (some d) (List.replicate n d ++ rest) =
      (List.replicate n d).map .char ++ (emphasisMarks d).piecesAfter (some d) rest := by
  induction n with
  | zero => rfl
  | succ n ih =>
    rw [List.replicate_succ, List.cons_append, Delimiters.piecesAfter_cons_of_refused, ih]
    · rfl
    · intro body _
      simp [emphasisMarks]

/-- No delimiter of a longer run opens or closes. -/
theorem piecesAfter_emphasis_run (n : Nat) (rest : Text) :
    (emphasisMarks d).piecesAfter before (List.replicate (n + 2) d ++ rest) =
      (List.replicate (n + 2) d).map .char ++ (emphasisMarks d).piecesAfter (some d) rest := by
  have noBody : (emphasisMarks d).bodyAtStart (List.replicate (n + 2) d ++ rest) = none := by
    show (emphasisMarks d).bodyAtStart (d :: d :: (List.replicate n d ++ rest)) = none
    simp [Delimiters.bodyAtStart, Delimiters.bodyBeforeClosing, emphasisMarks]
  rw [List.replicate_succ, List.cons_append] at noBody ⊢
  rw [Delimiters.piecesAfter_cons_of_refused, piecesAfter_emphasis_replicate]
  · rfl
  · intro body found
    rw [noBody] at found
    cases found

/-- A lone delimiter has what stands before the next run as its body. -/
theorem bodyAtStart_emphasis (nonempty : text ≠ []) (plain : d ∉ text) (rest : Text) :
    (emphasisMarks d).bodyAtStart ((emphasisMarks d).enclose text ++ rest) = some text := by
  have found : (emphasisMarks d).bodyBeforeClosing (text ++ ([d] ++ rest)) = some text :=
    Delimiters.bodyBeforeClosing_append rest rfl (fun c => bne_iff_ne) nonempty plain
  exact Delimiters.bodyAtStart_enclose found

/-- Behind the last delimiter there is no body. -/
theorem bodyAtStart_emphasis_last (plain : d ∉ text) :
    (emphasisMarks d).bodyAtStart (d :: text) = none := by
  -- the closing mark would be a delimiter in the text
  have noBody : (emphasisMarks d).bodyBeforeClosing text = none :=
    Delimiters.bodyBeforeClosing_eq_none fun inside =>
      plain (inside.subset (List.mem_singleton_self d))
  simpa [Delimiters.bodyAtStart, emphasisMarks] using noBody

/-- A lone delimiter behind which there is no other one is left as it is. -/
theorem piecesAfter_emphasis_last (plain : d ∉ text) :
    (emphasisMarks d).piecesAfter before (d :: text) = (d :: text).map .char := by
  have behind : (emphasisMarks d).piecesAfter (some d) (text ++ []) = _ :=
    piecesAfter_emphasis_of_not_mem plain []
  rw [List.append_nil, Delimiters.piecesAfter, List.append_nil] at behind
  rw [Delimiters.piecesAfter_cons_of_refused fun body found => by
    rw [bodyAtStart_emphasis_last plain] at found; cases found]
  exact congrArg (.char d :: ·) behind

/-- Two lone delimiters without another one between them are the marks of a span. -/
theorem piecesAfter_emphasis_pair (outside : before ≠ some d) (nonempty : text ≠ [])
    (plain : d ∉ text) (ends : rest.head? ≠ some d) :
    (emphasisMarks d).piecesAfter before ((emphasisMarks d).enclose text ++ rest) =
      .span text :: (emphasisMarks d).piecesAfter (some d) rest := by
  have permitted : (emphasisMarks d).permits before rest.head? := by
    simp [emphasisMarks, outside, ends]
  rw [Delimiters.piecesAfter_of_span (bodyAtStart_emphasis nonempty plain rest) permitted,
    Delimiters.getLast?_enclose (by simp [emphasisMarks])]
  rfl

/-- A lone delimiter in front of a longer run is left as it is: the search tries it with the first
delimiter of that run, which has the second for a neighbour. -/
theorem piecesAfter_emphasis_separated (nonempty : text ≠ []) (plain : d ∉ text) (n : Nat) :
    (emphasisMarks d).piecesAfter before (d :: (text ++ (List.replicate (n + 2) d ++ rest))) =
      .char d :: (text.map .char ++ ((List.replicate (n + 2) d).map .char ++
        (emphasisMarks d).piecesAfter (some d) rest)) := by
  have split : d :: (text ++ (List.replicate (n + 2) d ++ rest)) =
      (emphasisMarks d).enclose text ++ (d :: (List.replicate n d ++ rest)) := by
    simp [Delimiters.enclose, emphasisMarks, List.replicate_succ]
  rw [Delimiters.piecesAfter_cons_of_refused, piecesAfter_emphasis_of_not_mem plain,
    piecesAfter_emphasis_run]
  intro body found
  -- the span that is found ends with the first delimiter of the run, and the second is behind it
  rw [split, bodyAtStart_emphasis nonempty plain] at found
  obtain rfl := Option.some.inj found
  rw [split, List.drop_left]
  simp [emphasisMarks]

/-- From a lone delimiter on, if the search finds the pairs behind the next run. -/
theorem flatMap_render_piecesAfter_emphasis_lone (outside : before ≠ some d)
    (ends : text.head? ≠ some d)
    (ih : ∀ later, later.length < text.length → later.head? ≠ some d →
      ((emphasisMarks d).piecesAfter (some d) later).flatMap (Piece.render Latex.emphasis) =
        lonePairing.render d none (blocks d later)) :
    ((emphasisMarks d).piecesAfter before (List.replicate (0 + 1) d ++ text)).flatMap
        (Piece.render Latex.emphasis) =
      lonePairing.render d none (blocks d (List.replicate (0 + 1) d ++ text)) := by
  obtain ⟨inner, plain, last | ⟨m, later, endsLater, rfl⟩⟩ := exists_next_run d text
  · -- the last run of all has no partner
    subst last
    have waits : lonePairing.render d none
        (blocks d (List.replicate (0 + 1) d ++ (text ++ []))) = _ :=
      render_lone (by rwa [List.append_nil]) plain
    rw [List.append_nil] at waits
    rw [waits]
    show ((emphasisMarks d).piecesAfter before (d :: text)).flatMap _ = d :: text
    rw [piecesAfter_emphasis_last plain, flatMap_render_map_char]
  · -- two delimiters that touch would be one run
    have nonempty : inner ≠ [] := by
      rintro rfl
      exact ends rfl
    have behind := ih later (by simp; omega) endsLater
    rw [render_lone ends plain, blocks_run endsLater]
    cases m with
    | zero =>
      -- the next run is the partner
      have enclosed :
          List.replicate (0 + 1) d ++ (inner ++ (List.replicate (0 + 1) d ++ later)) =
            (emphasisMarks d).enclose inner ++ later := by
        simp [Delimiters.enclose, emphasisMarks]
      rw [enclosed, piecesAfter_emphasis_pair outside nonempty plain endsLater]
      exact congrArg (Latex.emphasis inner ++ ·) behind
    | succ m =>
      -- the next run comes between
      show ((emphasisMarks d).piecesAfter before
        (d :: (inner ++ (List.replicate (m + 2) d ++ later)))).flatMap _ = _
      rw [piecesAfter_emphasis_separated nonempty plain, List.flatMap_cons,
        flatMap_render_chars, flatMap_render_chars, behind, Pairing.render,
        if_neg (by simp [lonePairing]), if_pos (by simp [lonePairing]), List.append_assoc]
      rfl

/-- **The search finds the pairs.** A text that does not go on with a run that has begun before it
has the same emphasis by the search as by pairing its runs. -/
theorem flatMap_render_piecesAfter_emphasis (apart : before = some d → text.head? ≠ some d) :
    ((emphasisMarks d).piecesAfter before text).flatMap (Piece.render Latex.emphasis) =
      lonePairing.render d none (blocks d text) := by
  -- on the length of the text: the search goes on behind a character, a span or a run
  induction length : text.length using Nat.strongRecOn generalizing before text with
  | ind _ ih =>
    subst length
    rcases exists_run d text with other | ⟨n, rest, ends, rfl⟩
    · cases text with
      | nil => rw [Delimiters.piecesAfter]; rfl
      | cons c rest =>
        have differs : c ≠ d := fun same => other (congrArg some same)
        have plain : d ∉ [c] := by simpa using Ne.symm differs
        have behind : ((emphasisMarks d).piecesAfter (some c) rest).flatMap
            (Piece.render Latex.emphasis) = lonePairing.render d none (blocks d rest) :=
          ih rest.length (by simp) (fun same => absurd (Option.some.inj same) differs) rfl
        rw [blocks_cons_of_ne differs, Pairing.render, ← behind]
        show ((emphasisMarks d).piecesAfter before ([c] ++ rest)).flatMap _ = _
        rw [piecesAfter_emphasis_of_not_mem plain]
        rfl
    · cases n with
      | zero =>
        apply flatMap_render_piecesAfter_emphasis_lone (fun same => apart same rfl) ends
        intro later shorter endsLater
        exact ih later.length (by simp; omega) (fun _ => endsLater) rfl
      | succ n =>
        -- a longer run is left as it is
        have behind : ((emphasisMarks d).piecesAfter (some d) rest).flatMap
            (Piece.render Latex.emphasis) = lonePairing.render d none (blocks d rest) :=
          ih rest.length (by simp) (fun _ => ends) rfl
        rw [piecesAfter_emphasis_run, blocks_run ends, flatMap_render_chars, behind,
          Pairing.render, if_neg (by simp [lonePairing])]

end Emphasis

/-- **Emphasis pairs lone delimiters.** Rendering emphasis is one pass over the runs of the
delimiter: a lone one waits for the next lone one, and the two become a command, unless a longer run
comes between; all else is copied. -/
theorem renderEmphasis_eq_pairing (delimiter : Char) (text : Text) :
    renderEmphasis delimiter text = lonePairing.render delimiter none (blocks delimiter text) := by
  apply flatMap_render_piecesAfter_emphasis
  -- at the start of the text no run has begun
  intro same
  cases same

end Inline
end Manuscript
