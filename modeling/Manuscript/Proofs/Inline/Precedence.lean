import Manuscript.Proofs.Inline.Independence
import Manuscript.Proofs.Inline.Sides
import Mathlib.Data.List.DropRight

/-!
# Strong emphasis before emphasis

What becomes of a line with emphasis can be told without making the passes, if no run of a delimiter
in it is longer than two. The double runs are opening and closing in turn. An odd last one stays,
and emphasis does not reach across it. The single runs, those before it and those behind it, are
opening and closing in turn as well. Nothing else matters: not how spans nest or cross, and not what
the other delimiter does.

* `Inline.renderEmphasis_renderStrong`: the two passes for one delimiter write its runs so.
* `Inline.runLengths_replaceRuns`: the runs of the other delimiter stay as they are.

Main statement: `Inline.format_eq_replaceRuns`.
-/

namespace Manuscript
namespace Inline

variable {d e : Char} {text : Text} {runs : List Nat} {bs front behind : List Block}

/-! ### The reference -/

/-- The sides of the double runs among runs of these lengths. -/
def doubleSides (runs : List Nat) : List (Option Side) := alternating (runs.count 2)

/-- The sides of the single runs among runs of these lengths. If the last double run has no side, it
separates those before it from those behind it. -/
def singleSides (runs : List Nat) : List (Option Side) :=
  if runs.count 2 % 2 = 0 then alternating (runs.count 1)
  else
    alternating ((runs.rdropWhile (· ≠ 2)).count 1) ++
      alternating ((runs.rtakeWhile (· ≠ 2)).count 1)

/-- Some blocks with their double runs written by the sides that runs of these lengths have. -/
def writeDoubles (runs : List Nat) (blocks : List Block) : List Block :=
  writeRuns 2 "textbf".toList (doubleSides runs) blocks

/-- Some blocks with their single runs written by the sides that runs of these lengths have. -/
def writeSingles (runs : List Nat) (blocks : List Block) : List Block :=
  writeRuns 1 "textit".toList (singleSides runs) blocks

/-- A text with its runs of a delimiter written by the sides that runs of these lengths have. -/
def replaceRuns (delimiter : Char) (runs : List Nat) (text : Text) : Text :=
  (writeSingles runs (writeDoubles runs (blocks delimiter text))).flatMap (Block.source delimiter)

/-! ### One delimiter -/

/-- With an even number of double runs, all of them are written. -/
theorem lengths_writeDoubles_of_even (even : (lengths bs).count 2 % 2 = 0) :
    lengths (writeDoubles (lengths bs) bs) = (lengths bs).filter (· ≠ 2) :=
  lengths_writeRuns (none_not_mem_alternating even) (length_alternating _)

/-- Then no run separates the single ones. -/
theorem render_lone_of_even (short : ∀ n ∈ lengths bs, n ≤ 2)
    (even : (lengths bs).count 2 % 2 = 0) :
    lonePairing.render d none (writeDoubles (lengths bs) bs) =
      (writeRuns 1 "textit".toList (alternating ((lengths bs).count 1))
        (writeDoubles (lengths bs) bs)).flatMap (Block.source d) := by
  have left := lengths_writeDoubles_of_even even
  -- what is left is no longer than two, and not two
  have joined : ∀ n ∈ lengths (writeDoubles (lengths bs) bs), ¬ lonePairing.separates n := by
    intro n mem
    rw [left, List.mem_filter] at mem
    have atMost := short n mem.1
    have differs : n ≠ 2 := of_decide_eq_true mem.2
    simp only [lonePairing, decide_eq_true_eq]
    omega
  have count : (lengths (writeDoubles (lengths bs) bs)).count 1 = (lengths bs).count 1 := by
    rw [left, List.count_filter (by decide)]
  rw [Pairing.render_none_eq rfl joined]
  show (writeRuns 1 _ (alternating ((lengths _).count 1)) _).flatMap _ = _
  rw [count]

/-- What follows the last of the runs of one length. -/
theorem exists_last_run {n : Nat} (h : n ∈ lengths bs) :
    ∃ front behind, bs = front ++ .run n :: behind ∧ n ∉ lengths behind := by
  induction bs with
  | nil => cases h
  | cons block bs ih =>
    by_cases further : n ∈ lengths bs
    · obtain ⟨front, behind, rfl, last⟩ := ih further
      exact ⟨block :: front, behind, rfl, last⟩
    · cases block with
      | char c => exact absurd h further
      | run m =>
        obtain rfl | inside := List.mem_cons.1 h
        · exact ⟨[], bs, rfl, further⟩
        · exact absurd inside further

/-- The last of an odd number of double runs stays, and those in front of it are written. -/
theorem writeDoubles_of_odd (even : (lengths front).count 2 % 2 = 0) (last : 2 ∉ lengths behind) :
    writeDoubles (lengths (front ++ .run 2 :: behind)) (front ++ .run 2 :: behind) =
      writeDoubles (lengths front) front ++ .run 2 :: behind := by
  have count : (lengths (front ++ .run 2 :: behind)).count 2 = (lengths front).count 2 + 1 := by
    rw [lengths_append, List.count_append, lengths, List.count_cons_self,
      List.count_eq_zero.2 last]
  rw [writeDoubles, doubleSides, count, alternating_succ even,
    writeRuns_append (length_alternating _), writeRuns_run, writeRuns_nil]
  rfl

theorem singleSides_of_odd (even : (lengths front).count 2 % 2 = 0) (last : 2 ∉ lengths behind) :
    singleSides (lengths (front ++ .run 2 :: behind)) =
      alternating ((lengths front).count 1) ++ alternating ((lengths behind).count 1) := by
  have odd : ¬ (lengths front ++ 2 :: lengths behind).count 2 % 2 = 0 := by
    rw [List.count_append, List.count_cons_self, List.count_eq_zero.2 last]
    omega
  -- read backwards, the lengths behind the last double run come first
  have others : ∀ n ∈ (lengths behind).reverse, decide (n ≠ 2) = true := fun n mem =>
    decide_eq_true (ne_of_mem_of_not_mem (List.mem_reverse.1 mem) last)
  rw [lengths_append, lengths, singleSides, if_neg odd, List.rdropWhile, List.rtakeWhile,
    List.reverse_append, List.reverse_cons, List.append_assoc,
    List.dropWhile_append_of_pos others, List.takeWhile_append_of_pos others]
  simp

/-- **Emphasis after strong emphasis.** The single runs are written by their sides. -/
theorem render_lone_writeDoubles (short : ∀ n ∈ lengths bs, n ≤ 2) :
    lonePairing.render d none (writeDoubles (lengths bs) bs) =
      (writeSingles (lengths bs) (writeDoubles (lengths bs) bs)).flatMap (Block.source d) := by
  by_cases even : (lengths bs).count 2 % 2 = 0
  · rw [render_lone_of_even short even, writeSingles, singleSides, if_pos even]
  · -- the last double run is still there: it separates what is in front of it from what is behind
    have present : 2 ∈ lengths bs := by
      rw [← List.count_pos_iff]
      omega
    obtain ⟨front, behind, rfl, last⟩ := exists_last_run present
    have none : (lengths behind).count 2 = 0 := List.count_eq_zero.2 last
    have evenFront : (lengths front).count 2 % 2 = 0 := by
      rw [lengths_append, lengths, List.count_append, List.count_cons_self, none] at even
      omega
    have shortFront : ∀ n ∈ lengths front, n ≤ 2 := fun n mem => short n (by simp [mem])
    have shortBehind : ∀ n ∈ lengths behind, n ≤ 2 := fun n mem =>
      short n (by simp [lengths, mem])
    have left : (lengths (writeDoubles (lengths front) front)).count 1 =
        (lengths front).count 1 := by
      rw [lengths_writeDoubles_of_even evenFront, List.count_filter (by decide)]
    have unwritten : writeDoubles (lengths behind) behind = behind := by
      rw [writeDoubles, doubleSides, none, alternating, writeRuns_nil]
    have rest := render_lone_of_even (d := d) shortBehind (by rw [none])
    rw [unwritten] at rest
    rw [writeDoubles_of_odd evenFront last, writeSingles, singleSides_of_odd evenFront last,
      writeRuns_append ((length_alternating _).trans left.symm),
      writeRuns_run_of_ne (by decide), List.flatMap_append, List.flatMap_cons,
      Pairing.render_append_separator (by decide) (by decide),
      render_lone_of_even shortFront evenFront, rest]
    rfl

/-- **The two passes for one delimiter** write its runs by their sides. -/
theorem renderEmphasis_renderStrong (outside : ∀ side : Side, d ∉ side.half "textbf".toList)
    (plain : '\n' ∉ text) (short : ∀ n ∈ runLengths d text, n ≤ 2) :
    renderEmphasis d (renderStrong d text) = replaceRuns d (runLengths d text) text := by
  have strong : renderStrong d text =
      (writeDoubles (runLengths d text) (blocks d text)).flatMap (Block.source d) := by
    rw [renderStrong_eq_pairing plain short]
    exact Pairing.render_none_eq rfl (by simp [doublePairing])
  have emphasis : renderEmphasis d (renderStrong d text) =
      lonePairing.render d none (blocks d (renderStrong d text)) :=
    flatMap_render_piecesAfter_emphasis (fun same => by cases same)
  -- emphasis finds the runs that strong emphasis has left
  rw [emphasis, strong, writeDoubles, blocks_flatMap_writeRuns outside]
  exact render_lone_writeDoubles short

/-! ### The other delimiter -/

/-- Two texts with the same runs of a delimiter, also if something is put in front of both. -/
structure SameRuns (e : Char) (left right : Text) : Prop where
  lengths : runLengths e left = runLengths e right
  starts : left.head? = some e ↔ right.head? = some e

namespace SameRuns

variable {left right : Text}

theorem cons (h : SameRuns e left right) (c : Char) : SameRuns e (c :: left) (c :: right) := by
  refine ⟨?_, Iff.rfl⟩
  by_cases same : c = e
  · subst same
    rcases exists_run c left with other | ⟨n, restLeft, endsLeft, rfl⟩
    · have otherRight : right.head? ≠ some c := mt h.starts.2 other
      show runLengths c (List.replicate (0 + 1) c ++ left) =
        runLengths c (List.replicate (0 + 1) c ++ right)
      rw [runLengths_run other, runLengths_run otherRight, h.lengths]
    · -- the character joins a run, which is as long on both sides
      rcases exists_run c right with other | ⟨m, restRight, endsRight, rfl⟩
      · exact absurd (h.starts.1 rfl) other
      · have lengths := h.lengths
        rw [runLengths_run endsLeft, runLengths_run endsRight] at lengths
        obtain ⟨here, further⟩ := List.cons.inj lengths
        show runLengths c (List.replicate (n + 1 + 1) c ++ restLeft) =
          runLengths c (List.replicate (m + 1 + 1) c ++ restRight)
        rw [runLengths_run endsLeft, runLengths_run endsRight, here, further]
  · rw [runLengths_cons_of_ne same, runLengths_cons_of_ne same, h.lengths]

/-- What is put in front may differ, if it is something on both sides and holds no delimiter. -/
theorem append {front front' : Text} (h : SameRuns e left right) (nonempty : front ≠ [])
    (nonempty' : front' ≠ []) (outside : e ∉ front) (outside' : e ∉ front') :
    SameRuns e (front ++ left) (front' ++ right) := by
  have first {front rest : Text} (nonempty : front ≠ []) (outside : e ∉ front) :
      (front ++ rest).head? ≠ some e := by
    obtain ⟨c, others, rfl⟩ := List.exists_cons_of_ne_nil nonempty
    exact fun same => outside (Option.some.inj same ▸ List.mem_cons_self)
  refine ⟨?_, fun same => absurd same (first nonempty outside),
    fun same => absurd same (first nonempty' outside')⟩
  rw [runLengths_append_of_not_mem outside, runLengths_append_of_not_mem outside', h.lengths]

end SameRuns

theorem sameRuns_writeRuns {length : Nat} {name : Text} (differs : e ≠ d)
    (outside : ∀ side : Side, e ∉ side.half name) (text : Text) (sides : List (Option Side)) :
    SameRuns e ((writeRuns length name sides (blocks d text)).flatMap (Block.source d)) text := by
  induction text using run_induction d generalizing sides with
  | nil => exact ⟨rfl, Iff.rfl⟩
  | char c rest differs ih =>
    rw [blocks_cons_of_ne differs, writeRuns_char]
    exact (ih sides).cons c
  | run n rest ends ih =>
    have run : e ∉ List.replicate (n + 1) d := fun mem => differs (List.eq_of_mem_replicate mem)
    rw [blocks_run ends]
    obtain ⟨written, remaining, cut, rfl | ⟨side, rfl⟩⟩ :=
      exists_writeRuns_run length name sides (n + 1) (blocks d rest)
    · -- something without the other delimiter stands there, before and after
      rw [cut, List.flatMap_append, List.flatMap_singleton]
      exact (ih remaining).append (by simp [Block.source]) (by simp) run run
    · rw [cut, List.flatMap_append, flatMap_source_map_char]
      exact (ih remaining).append (by cases side <;> simp [Side.half]) (by simp) (outside side) run

/-- A delimiter that stands in no command of emphasis. -/
structure OutsideCommands (d : Char) : Prop where
  strong : ∀ side : Side, d ∉ side.half "textbf".toList
  emphasis : ∀ side : Side, d ∉ side.half "textit".toList

/-- **The runs of the other delimiter** stay as they are. -/
theorem runLengths_replaceRuns (differs : e ≠ d) (outside : OutsideCommands d)
    (outside' : OutsideCommands e) (runs : List Nat) (text : Text) :
    runLengths e (replaceRuns d runs text) = runLengths e text := by
  have doubles : blocks d ((writeDoubles runs (blocks d text)).flatMap (Block.source d)) =
      writeDoubles runs (blocks d text) := blocks_flatMap_writeRuns outside.strong text _
  rw [replaceRuns, ← doubles]
  exact (sameRuns_writeRuns differs outside'.emphasis _ _).lengths.trans
    (sameRuns_writeRuns differs outside'.strong _ _).lengths

/-- The passes for one delimiter, and then those for another one. -/
theorem renderEmphasis_renderStrong_both (differs : e ≠ d) (outside : OutsideCommands d)
    (outside' : OutsideCommands e) (plain : '\n' ∉ text)
    (plainBetween : '\n' ∉ renderEmphasis d (renderStrong d text))
    (short : ∀ n ∈ runLengths d text, n ≤ 2) (short' : ∀ n ∈ runLengths e text, n ≤ 2) :
    renderEmphasis e (renderStrong e (renderEmphasis d (renderStrong d text))) =
      replaceRuns e (runLengths e text) (replaceRuns d (runLengths d text) text) := by
  rw [renderEmphasis_renderStrong outside.strong plain short] at plainBetween ⊢
  have same := runLengths_replaceRuns differs outside outside' (runLengths d text) text
  rw [renderEmphasis_renderStrong outside'.strong plainBetween (by rwa [same]), same]

/-! ### The whole line -/

/-- A pass that finds nothing finds nothing when others for other delimiters have been made. -/
theorem not_finds_rewriteAll {pass : Pass} {order : List Pass}
    (differs : ∀ other ∈ order, pass.delimiter ≠ other.delimiter) (none : ¬ pass.Finds text) :
    ¬ pass.Finds (rewriteAll order text) := by
  rw [← Pass.render_eq_self_iff, ← Pass.rewrite_eq] at none ⊢
  rw [← rewriteAll_rewrite differs, none]

theorem lineFeed_not_mem_rewrite (pass : Pass) (plain : '\n' ∉ text) :
    '\n' ∉ pass.rewrite text := by
  have characters : ∀ c ∈ text, c ≠ '\n' := fun c hc => ne_of_mem_of_not_mem hc plain
  have written := pass.forall_mem_rendered pass.ne_lineFeed_of_mem_command
    (rendered_render _ _ text) characters
  rw [pass.rewrite_eq]
  exact fun mem => written _ mem rfl

/-- The passes that render emphasis, in the order in which they are made. -/
def emphasisPasses : List Pass :=
  [.strongStar, .strongUnderscore, .emphasisStar, .emphasisUnderscore]

/-- Without code and citations, formatting is rendering emphasis. -/
theorem format_eq_renderAllEmphasis (plain : '\n' ∉ text) (noBacktick : '`' ∉ text)
    (noCitation : ¬ "[ref:".toList <:+: text) : format text = renderAllEmphasis text := by
  have emphasised : renderAllEmphasis text = rewriteAll emphasisPasses text := rfl
  have noCode : ¬ Pass.code.Finds (renderAllEmphasis text) := by
    rw [emphasised]
    refine not_finds_rewriteAll (by decide) ?_
    rw [Pass.finds_iff _ plain]
    rintro ⟨before, body, after, rfl, -⟩
    exact noBacktick (by simp)
  have noKey : ¬ Pass.citation.Finds (renderAllEmphasis text) := by
    rw [emphasised]
    refine not_finds_rewriteAll (by decide) ?_
    rw [Pass.finds_iff _ plain]
    rintro ⟨before, key, after, rfl, -⟩
    exact noCitation ⟨before, key ++ [']'] ++ after, by simp⟩
  have code : renderCode (renderAllEmphasis text) = renderAllEmphasis text :=
    (Pass.render_eq_self_iff .code _).2 noCode
  have citations : renderCitations [] (renderAllEmphasis text) = renderAllEmphasis text := by
    rw [renderCitations_nil]
    exact (Pass.render_eq_self_iff .citation _).2 noKey
  rw [format, codeSpans_eq_nil noCode, code, citations]

/-- **Strong emphasis before emphasis.** A line without code and citations in which no run of a
delimiter is longer than two is formatted by writing the runs of each delimiter by their sides. The
sides are told by the lengths of these runs alone, so it does not matter which delimiter is the
first. -/
theorem format_eq_replaceRuns (plain : '\n' ∉ text) (noBacktick : '`' ∉ text)
    (noCitation : ¬ "[ref:".toList <:+: text) (stars : ∀ n ∈ runLengths '*' text, n ≤ 2)
    (underscores : ∀ n ∈ runLengths '_' text, n ≤ 2) :
    format text =
        replaceRuns '_' (runLengths '_' text) (replaceRuns '*' (runLengths '*' text) text) ∧
      format text =
        replaceRuns '*' (runLengths '*' text) (replaceRuns '_' (runLengths '_' text) text) := by
  have outsideStar : OutsideCommands '*' := by
    constructor <;> (intro side; cases side <;> decide)
  have outsideUnderscore : OutsideCommands '_' := by
    constructor <;> (intro side; cases side <;> decide)
  have plainStar : '\n' ∉ renderEmphasis '*' (renderStrong '*' text) :=
    lineFeed_not_mem_rewrite .emphasisStar (lineFeed_not_mem_rewrite .strongStar plain)
  have plainUnderscore : '\n' ∉ renderEmphasis '_' (renderStrong '_' text) :=
    lineFeed_not_mem_rewrite .emphasisUnderscore (lineFeed_not_mem_rewrite .strongUnderscore plain)
  rw [format_eq_renderAllEmphasis plain noBacktick noCitation]
  -- the four passes are sorted by their delimiter, once with asterisks first and once last
  constructor
  · rw [← renderEmphasis_renderStrong_both (by decide) outsideStar outsideUnderscore plain plainStar
      stars underscores]
    exact rewriteAll_eq_filter '*' emphasisPasses text
  · rw [← renderEmphasis_renderStrong_both (by decide) outsideUnderscore outsideStar plain
      plainUnderscore underscores stars]
    exact rewriteAll_eq_filter '_' emphasisPasses text

/-- Spans of both delimiters that cross, and a double run without a partner between single ones. -/
theorem format_eq_replaceRuns_crossing :
    let text := "*a **b* __c** *d **e* _f__ g_".toList
    '\n' ∉ text ∧ '`' ∉ text ∧ ¬ "[ref:".toList <:+: text ∧
      (∀ n ∈ runLengths '*' text, n ≤ 2) ∧ (∀ n ∈ runLengths '_' text, n ≤ 2) ∧
      format text = ("\\textit\x7ba \\textbf\x7bb\x7d \\textbf\x7bc\x7d *d **e* " ++
        "\\textit\x7bf\x7d g\x7d").toList := by
  intro text
  have plain : '\n' ∉ text := by decide
  have noBacktick : '`' ∉ text := by decide
  have noCitation : ¬ "[ref:".toList <:+: text := by decide +kernel
  have stars : ∀ n ∈ runLengths '*' text, n ≤ 2 := by decide
  have underscores : ∀ n ∈ runLengths '_' text, n ≤ 2 := by decide
  refine ⟨plain, noBacktick, noCitation, stars, underscores, ?_⟩
  rw [(format_eq_replaceRuns plain noBacktick noCitation stars underscores).1]
  decide +kernel

end Inline
end Manuscript
