import Manuscript.Proofs.Inline.Runs

/-!
# Double runs

Strong emphasis stands between doubled delimiters. Where no run of the delimiter is longer than two,
the doubled delimiters are runs of their own, and strong emphasis is one more way to pair runs
(`Inline.doublePairing`): those of length two are paired from left to right, and lone delimiters
between two of them belong to the body.

With longer runs it would not be so: of three delimiters the search takes the first two, or leaves
the first to the body in front of the other two.

Main statement: `Inline.renderStrong_eq_pairing`.
-/

namespace Manuscript
namespace Inline

variable {d : Char} {text front rest : Text}

/-- The lengths of the runs of a delimiter in a text, in order. -/
def runLengths (delimiter : Char) (text : Text) : List Nat := lengths (blocks delimiter text)

theorem runLengths_cons_of_ne {c : Char} (h : c ≠ d) (rest : Text) :
    runLengths d (c :: rest) = runLengths d rest := by
  rw [runLengths, blocks_cons_of_ne h]
  rfl

theorem runLengths_append_of_not_mem (h : d ∉ front) (rest : Text) :
    runLengths d (front ++ rest) = runLengths d rest := by
  rw [runLengths, blocks_append_of_not_mem h, lengths_append, lengths_map_char]
  rfl

theorem runLengths_run (h : rest.head? ≠ some d) (n : Nat) :
    runLengths d (List.replicate (n + 1) d ++ rest) = (n + 1) :: runLengths d rest := by
  rw [runLengths, blocks_run h]
  rfl

/-- Strong emphasis pairs the double delimiters. Nothing comes between. -/
def doublePairing : Pairing where
  length := 2
  separates _ := false
  wrap := Latex.strong

/-! ### Where the next double run stands -/

/-- A text without a double delimiter, also where a delimiter follows. -/
def NoDouble (d : Char) (text : Text) : Prop := ¬ [d, d] <:+: text ++ [d]

theorem double_infix_cons_iff {c : Char} :
    [d, d] <:+: c :: text ↔ c = d ∧ text.head? = some d ∨ [d, d] <:+: text := by
  rw [List.infix_cons_iff, List.cons_prefix_cons]
  refine or_congr_left (and_congr eq_comm ?_)
  cases text with
  | nil => simp
  | cons next text => simp [List.cons_prefix_cons, eq_comm]

theorem not_double_of_single (single : ∀ n ∈ runLengths d text, n ≤ 1) : ¬ [d, d] <:+: text := by
  induction text using run_induction d with
  | nil => simp
  | char c rest differs ih =>
    rw [runLengths_cons_of_ne differs] at single
    rw [double_infix_cons_iff]
    exact not_or.2 ⟨fun start => differs start.1, ih single⟩
  | run n rest ends ih =>
    rw [runLengths_run ends] at single
    obtain ⟨lone, further⟩ := List.forall_mem_cons.1 single
    obtain rfl : n = 0 := by omega
    show ¬ [d, d] <:+: d :: rest
    rw [double_infix_cons_iff]
    exact not_or.2 ⟨fun start => ends start.2, ih further⟩

/-- The first double run of a text stands between `front` and `rest`. -/
structure FirstDouble (d : Char) (text front rest : Text) : Prop where
  spelled : text = front ++ ([d, d] ++ rest)
  cut : blocks d text = blocks d front ++ .run 2 :: blocks d rest
  /-- The search does not take a delimiter in front of the run for a half of a double one. -/
  noDouble : NoDouble d front
  single : ∀ n ∈ runLengths d front, n ≤ 1
  ends : rest.head? ≠ some d

namespace FirstDouble

variable {c : Char}

theorem runLengths_eq (h : FirstDouble d text front rest) :
    runLengths d text = runLengths d front ++ 2 :: runLengths d rest := by
  rw [runLengths, h.cut, lengths_append]
  rfl

theorem cons (h : FirstDouble d text front rest) (differs : c ≠ d) :
    FirstDouble d (c :: text) (c :: front) rest where
  spelled := congrArg (c :: ·) h.spelled
  cut := by
    rw [blocks_cons_of_ne differs, blocks_cons_of_ne differs, h.cut]
    rfl
  noDouble := by
    show ¬ [d, d] <:+: c :: (front ++ [d])
    rw [double_infix_cons_iff]
    exact not_or.2 ⟨fun start => differs start.1, h.noDouble⟩
  single := by
    rw [runLengths_cons_of_ne differs]
    exact h.single
  ends := h.ends

/-- A lone delimiter that stands in front does not touch the double one. -/
theorem cons_lone (h : FirstDouble d text front rest) (lone : text.head? ≠ some d) :
    FirstDouble d (d :: text) (d :: front) rest := by
  have whole : blocks d (d :: text) = .run 1 :: blocks d text := blocks_run lone 0
  have nonempty : front ≠ [] := by
    rintro rfl
    exact lone (congrArg List.head? h.spelled)
  obtain ⟨next, others, rfl⟩ := List.exists_cons_of_ne_nil nonempty
  have apart : (next :: others).head? ≠ some d := fun same =>
    lone ((congrArg List.head? h.spelled).trans same)
  have inFront : blocks d (d :: next :: others) = .run 1 :: blocks d (next :: others) :=
    blocks_run apart 0
  refine ⟨congrArg (d :: ·) h.spelled, ?_, ?_, ?_, h.ends⟩
  · rw [whole, inFront, h.cut]
    rfl
  · show ¬ [d, d] <:+: d :: (next :: others ++ [d])
    rw [double_infix_cons_iff]
    exact not_or.2 ⟨fun start => apart start.2, h.noDouble⟩
  · rw [runLengths, inFront]
    exact List.forall_mem_cons.2 ⟨Nat.le_refl 1, h.single⟩

end FirstDouble

/-- A text without longer runs than double ones has a first double one or has lone ones only. -/
theorem single_or_exists_firstDouble (short : ∀ n ∈ runLengths d text, n ≤ 2) :
    (∀ n ∈ runLengths d text, n ≤ 1) ∨ ∃ front rest, FirstDouble d text front rest := by
  induction text using run_induction d with
  | nil => exact .inl (by simp [runLengths, blocks, lengths])
  | char c rest differs ih =>
    rw [runLengths_cons_of_ne differs] at short ⊢
    refine (ih short).imp id ?_
    rintro ⟨front, behind, first⟩
    exact ⟨c :: front, behind, first.cons differs⟩
  | run n rest ends ih =>
    rw [runLengths_run ends] at short ⊢
    obtain ⟨here, further⟩ := List.forall_mem_cons.1 short
    obtain rfl | rfl : n = 0 ∨ n = 1 := by omega
    · refine (ih further).imp (fun single => List.forall_mem_cons.2 ⟨Nat.le_refl 1, single⟩) ?_
      rintro ⟨front, behind, first⟩
      exact ⟨d :: front, behind, first.cons_lone ends⟩
    · have nothing : ∀ n ∈ runLengths d [], n ≤ 1 := by simp [runLengths, blocks, lengths]
      refine .inr ⟨[], rest, rfl, blocks_run ends 1, ?_, nothing, ends⟩
      show ¬ [d, d] <:+: [d]
      simp [double_infix_cons_iff]

/-! ### The search for strong emphasis -/

section Strong

variable {before : Option Char}

/-- In front of a double delimiter, no double one starts earlier. -/
theorem startsNowhere_of_noDouble (none : NoDouble d front) (rest : Text) :
    Delimiters.StartsNowhere [d, d] front ([d, d] ++ rest) := by
  intro suffix ends nonempty start
  have short : [d, d].length ≤ (suffix ++ [d]).length := by
    have := List.length_pos_iff.2 nonempty
    simp only [List.length_append, List.length_cons, List.length_nil]
    omega
  -- two delimiters reach at most one character beyond the text in front
  have within : suffix ++ [d] <+: suffix ++ ([d, d] ++ rest) :=
    ⟨d :: rest, by simp⟩
  have inside : [d, d] <+: suffix ++ [d] := List.prefix_of_prefix_length_le start within short
  obtain ⟨others, rfl⟩ := ends
  exact none (inside.isInfix.trans ⟨others, [], by simp⟩)

/-- The characters in front of a double delimiter stand outside the spans. -/
theorem piecesAfter_strong_append (none : NoDouble d front) (rest : Text) :
    (strongMarks d).piecesAfter before (front ++ ([d, d] ++ rest)) =
      front.map .char ++
        (strongMarks d).piecesAfter (front.getLast?.or before) ([d, d] ++ rest) :=
  Delimiters.piecesAfter_append (startsNowhere_of_noDouble none rest)

/-- Without double delimiters there are no spans. -/
theorem piecesAfter_strong_of_not_double (none : ¬ [d, d] <:+: text) :
    (strongMarks d).piecesAfter before text = text.map .char := by
  have starts : Delimiters.StartsNowhere (strongMarks d).opening text [] := by
    intro suffix ends _ start
    rw [List.append_nil] at start
    exact none (start.isInfix.trans ends.isInfix)
  have pieces : (strongMarks d).piecesAfter before (text ++ []) = _ :=
    Delimiters.piecesAfter_append starts
  rwa [List.append_nil, Delimiters.piecesAfter, List.append_nil] at pieces

/-- A double delimiter has what stands before the next double one as its body. -/
theorem piecesAfter_strong_pair (nonempty : front ≠ []) (plain : '\n' ∉ front)
    (none : NoDouble d front) (rest : Text) :
    (strongMarks d).piecesAfter before ((strongMarks d).enclose front ++ rest) =
      .span front :: (strongMarks d).piecesAfter (some d) rest := by
  have found : (strongMarks d).bodyBeforeClosing (front ++ ([d, d] ++ rest)) = some front := by
    rw [Delimiters.bodyBeforeClosing_append_of_allowed nonempty
      (fun c mem => bne_iff_ne.2 (ne_of_mem_of_not_mem mem plain))
      (startsNowhere_of_noDouble none rest)]
    exact if_pos (List.isPrefixOf_iff_prefix.2 (List.prefix_append _ _))
  rw [Delimiters.piecesAfter_of_span (Delimiters.bodyAtStart_enclose found) rfl,
    Delimiters.getLast?_enclose (by simp [strongMarks])]
  rfl

/-- A double delimiter behind which there is no other one is left as it is. -/
theorem piecesAfter_strong_last (ends : text.head? ≠ some d) (none : ¬ [d, d] <:+: text) :
    (strongMarks d).piecesAfter before ([d, d] ++ text) = ([d, d] ++ text).map .char := by
  have noBody : (strongMarks d).bodyAtStart ([d, d] ++ text) = Option.none := by
    have noClosing : (strongMarks d).bodyBeforeClosing text = Option.none :=
      Delimiters.bodyBeforeClosing_eq_none none
    simpa [Delimiters.bodyAtStart, strongMarks] using noClosing
  -- the second delimiter opens nothing either: none follows it
  have further : ¬ [d, d] <:+: d :: text := by
    rw [double_infix_cons_iff]
    exact not_or.2 ⟨fun start => ends start.2, none⟩
  show (strongMarks d).piecesAfter before (d :: d :: text) = _
  rw [Delimiters.piecesAfter_cons_of_refused, piecesAfter_strong_of_not_double further]
  · rfl
  · intro body found
    cases noBody.symm.trans found

/-- **The search finds the pairs.** In a text with no longer runs than double ones, strong emphasis
is the same by the search as by pairing the runs. -/
theorem flatMap_render_piecesAfter_strong (plain : '\n' ∉ text)
    (short : ∀ n ∈ runLengths d text, n ≤ 2) :
    ((strongMarks d).piecesAfter before text).flatMap (Piece.render Latex.strong) =
      doublePairing.render d none (blocks d text) := by
  -- on the length of the text: two double runs are taken at a time
  induction length : text.length using Nat.strongRecOn generalizing before text with
  | ind _ ih =>
    subst length
    have unpaired {front : Text} (single : ∀ n ∈ runLengths d front, n ≤ 1) :
        doublePairing.length ∉ lengths (blocks d front) :=
      fun mem => absurd (single 2 mem) (by decide)
    rcases single_or_exists_firstDouble short with single | ⟨front, later, first⟩
    · -- no double run
      rw [piecesAfter_strong_of_not_double (not_double_of_single single), flatMap_render_map_char,
        Pairing.render_none_of_not_mem (unpaired single), flatMap_source_blocks]
    · -- the text in front of the first double run is kept, on both sides of the equation
      obtain rfl := first.spelled
      rw [first.runLengths_eq] at short
      rw [first.cut, piecesAfter_strong_append first.noDouble, flatMap_render_chars,
        Pairing.render_none_append (unpaired first.single), flatMap_source_blocks]
      congr 1
      show _ = doublePairing.render d (some []) (blocks d later)
      have shortLater : ∀ n ∈ runLengths d later, n ≤ 2 := fun n mem => short n (by simp [mem])
      rcases single_or_exists_firstDouble shortLater with last | ⟨body, behind, second⟩
      · -- the last double run of all has no partner
        rw [piecesAfter_strong_last first.ends (not_double_of_single last), flatMap_render_map_char,
          Pairing.render_some_of_not_mem (unpaired last) (by simp [doublePairing]),
          flatMap_source_blocks]
        rfl
      · -- the next double run is the partner
        obtain rfl := second.spelled
        rw [second.runLengths_eq] at shortLater
        have nonempty : body ≠ [] := by
          rintro rfl
          exact first.ends rfl
        have enclosed : [d, d] ++ (body ++ ([d, d] ++ behind)) =
            (strongMarks d).enclose body ++ behind := by
          simp [Delimiters.enclose, strongMarks]
        have rest : ((strongMarks d).piecesAfter (some d) behind).flatMap
            (Piece.render Latex.strong) = doublePairing.render d none (blocks d behind) :=
          ih behind.length (by simp; omega) (fun mem => plain (by simp [mem]))
            (fun n mem => shortLater n (by simp [mem])) rfl
        rw [enclosed, piecesAfter_strong_pair nonempty (fun mem => plain (by simp [mem]))
          second.noDouble, second.cut, Pairing.render_some_append (unpaired second.single)
          (by simp [doublePairing]), flatMap_source_blocks]
        exact congrArg (Latex.strong body ++ ·) rest

end Strong

/-- **Strong emphasis pairs double delimiters**, where no run is longer than two. -/
theorem renderStrong_eq_pairing (plain : '\n' ∉ text) (short : ∀ n ∈ runLengths d text, n ≤ 2) :
    renderStrong d text = doublePairing.render d none (blocks d text) :=
  flatMap_render_piecesAfter_strong plain short

end Inline
end Manuscript
