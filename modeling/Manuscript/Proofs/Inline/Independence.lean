import Manuscript.Proofs.Inline.Alignment
import Manuscript.Proofs.Inline.Markup
import Mathlib.Data.List.Basic

/-!
# Passes for different delimiters

Two passes that look for different delimiters may change places. Each takes the same marks whether
the other has been made or not, since it sees neither the marks of the other nor its commands. So
there is one way to mark the text for both, and each of the two orders spells it.

* `Inline.exists_both`: the second of two passes marks the text that the first has marked.
* `Inline.eq_of_only_eq`: a marked text is known by what is left of it when only the marks of one
  pass are kept, for each pass in turn. Hence both orders lead to the same marks.
* `Inline.rewriteAll_eq_filter`: passes in any order may be sorted by their delimiter.

Main statement: `Inline.passes_independent`.
-/

namespace Manuscript
namespace Inline

variable {pass other : Pass} {text : Text} {tokens left right : List Token}

/-- What a pass makes of a text. The citation pass is taken as it is made where no code is known. -/
def Pass.rewrite : Pass → Text → Text
  | strongStar => renderStrong '*'
  | strongUnderscore => renderStrong '_'
  | emphasisStar => renderEmphasis '*'
  | emphasisUnderscore => renderEmphasis '_'
  | code => renderCode
  | citation => renderCitations []

theorem Pass.rewrite_eq (pass : Pass) (text : Text) :
    pass.rewrite text = pass.marks.render (Latex.command pass.name) text := by
  cases pass with
  | citation => exact renderCitations_nil text
  | _ => rfl

/-! ### Marked texts -/

/-- A piece with the marks of its span, if it is one. -/
def Pass.markedPiece (pass : Pass) : Piece → List Token
  | .char c => [.kept c]
  | .span body => (Cut.span (body.map .kept)).marked pass

/-- The text with the marks of the spans that a pass finds. -/
def Pass.marked (pass : Pass) (text : Text) : List Token :=
  (pass.marks.pieces text).flatMap pass.markedPiece

/-- A token if it is no mark of another pass than the given one, else the characters of the mark. -/
def Token.only (pass : Pass) : Token → List Token
  | kept c => [kept c]
  | mark other side => if other = pass then [mark other side] else (other.mark side).map kept

theorem Token.only_mark_self (pass : Pass) (side : Side) :
    (Token.mark pass side).only pass = [.mark pass side] :=
  if_pos rfl

theorem Token.only_mark_of_ne (h : pass ≠ other) (side : Side) :
    (Token.mark pass side).only other = (pass.mark side).map .kept :=
  if_neg h

theorem flatMap_source_marked_text (pass : Pass) (text : Text) :
    (pass.marked text).flatMap Token.source = text := by
  calc (pass.marked text).flatMap Token.source
    _ = (pass.marks.pieces text).flatMap (Piece.source pass.marks) := by
      rw [Pass.marked, List.flatMap_assoc]
      refine List.flatMap_congr fun piece _ => ?_
      cases piece with
      | char c => rfl
      | span body =>
        simp only [Pass.markedPiece, flatMap_source_marked, Cut.unmarked, List.flatMap_append,
          flatMap_source_map_kept]
        rfl
    _ = text := Delimiters.flatMap_source_pieces _ _

theorem flatMap_rendered_marked_text (pass : Pass) (text : Text) :
    (pass.marked text).flatMap Token.rendered = pass.rewrite text := by
  rw [Pass.rewrite_eq, Pass.marked, List.flatMap_assoc]
  refine List.flatMap_congr fun piece _ => ?_
  cases piece with
  | char c => rfl
  | span body =>
    simp only [Pass.markedPiece, flatMap_rendered_marked, flatMap_rendered_map_kept]
    rfl

/-- A pass marks a text with its own marks only. -/
theorem eq_of_mem_marked {side : Side} (h : .mark other side ∈ pass.marked text) :
    other = pass := by
  obtain ⟨piece, -, mem⟩ := List.mem_flatMap.1 h
  cases piece with
  | char c => simp [Pass.markedPiece] at mem
  | span body =>
    simp only [Pass.markedPiece, Cut.marked, List.cons_append, List.mem_cons, List.mem_append,
      List.mem_map, Token.mark.injEq, reduceCtorEq, and_false, exists_false, false_or,
      List.not_mem_nil, or_false] at mem
    exact mem.elim And.left And.left

theorem flatMap_only_map_kept (pass : Pass) (text : Text) :
    (text.map Token.kept).flatMap (Token.only pass) = text.map .kept := by
  rw [List.flatMap_map, List.map_eq_flatMap]
  rfl

/-- Without marks of the pass, its own marks are all that may be left. -/
theorem flatMap_only_of_not_mem (none : ∀ side, .mark pass side ∉ tokens) :
    tokens.flatMap (Token.only pass) = (tokens.flatMap Token.source).map .kept := by
  rw [List.map_flatMap]
  refine List.flatMap_congr fun token mem => ?_
  cases token with
  | kept c => rfl
  | mark other side =>
    have differs : other ≠ pass := by
      rintro rfl
      exact none side mem
    exact if_neg differs

theorem flatMap_only_marked_text (pass : Pass) (text : Text) :
    (pass.marked text).flatMap (Token.only pass) = pass.marked text := by
  calc (pass.marked text).flatMap (Token.only pass)
    _ = (pass.marked text).flatMap fun token => [token] := by
      refine List.flatMap_congr fun token mem => ?_
      cases token with
      | kept c => rfl
      | mark other side => exact if_pos (eq_of_mem_marked mem)
    _ = pass.marked text := List.flatMap_singleton' _

theorem flatMap_only_marked_text_of_ne (h : pass ≠ other) (text : Text) :
    (pass.marked text).flatMap (Token.only other) = text.map .kept := by
  rw [flatMap_only_of_not_mem fun side mem => h (eq_of_mem_marked mem).symm,
    flatMap_source_marked_text]

/-- The marks of a span are characters to every other pass. -/
theorem flatMap_only_marked_of_ne (h : pass ≠ other) (cut : Cut) :
    (cut.marked pass).flatMap (Token.only other) =
      (cut.unmarked pass).flatMap (Token.only other) := by
  cases cut with
  | token token => rfl
  | span body =>
    simp only [Cut.marked, Cut.unmarked, List.flatMap_append, List.flatMap_cons, List.flatMap_nil,
      List.append_nil, flatMap_only_map_kept, Token.only_mark_of_ne h]

/-- To the pass itself, a cut looks like the pieces of the text as it was. -/
theorem flatMap_only_marked_self {cut : Cut} (none : ∀ side, .mark pass side ∉ cut.unmarked pass) :
    (cut.marked pass).flatMap (Token.only pass) =
      (cut.pieces Token.source).flatMap pass.markedPiece := by
  cases cut with
  | token token =>
    calc [token].flatMap (Token.only pass)
      _ = ([token].flatMap Token.source).map .kept := flatMap_only_of_not_mem none
      _ = token.source.flatMap fun c => [.kept c] := by
        rw [List.flatMap_singleton, List.map_eq_flatMap]
      _ = (token.source.map .char).flatMap pass.markedPiece := by
        rw [List.flatMap_map]
        rfl
  | span body =>
    have noneInside : ∀ side, .mark pass side ∉ body :=
      fun side inside => none side (by simp [Cut.unmarked, inside])
    simp only [Cut.marked, Cut.pieces, List.flatMap_append, List.flatMap_cons, List.flatMap_nil,
      List.append_nil, Token.only_mark_self, flatMap_only_of_not_mem noneInside]
    rfl

/-- What a pass writes of a cut is spelled by the tokens with its marks. -/
theorem flatMap_rendered_marked_cut (pass : Pass) (cut : Cut) :
    (cut.marked pass).flatMap Token.rendered =
      (cut.pieces Token.rendered).flatMap (Piece.render (Latex.command pass.name)) := by
  cases cut with
  | token token =>
    calc [token].flatMap Token.rendered
      _ = token.rendered := List.flatMap_singleton _ _
      _ = (token.rendered.map .char).flatMap (Piece.render (Latex.command pass.name)) := by
        rw [List.flatMap_map]
        exact (List.flatMap_singleton' _).symm
  | span body =>
    rw [flatMap_rendered_marked, Cut.pieces, List.flatMap_singleton]
    rfl

/-- **A marked text is known by its marks.** -/
theorem eq_of_only_eq
    (h : ∀ pass, left.flatMap (Token.only pass) = right.flatMap (Token.only pass)) :
    left = right := by
  have only_ne_nil (pass : Pass) (token : Token) : token.only pass ≠ [] := by
    cases token with
    | kept c => exact List.cons_ne_nil _ _
    | mark other side =>
      by_cases same : other = pass
      · rw [same, Token.only_mark_self]
        exact List.cons_ne_nil _ _
      · rw [Token.only_mark_of_ne same]
        exact mt List.map_eq_nil_iff.1 (other.mark_ne_nil side)
  -- a mark is seen by its own pass, and no other token looks the same to that pass
  have eq_mark {pass : Pass} {side : Side} {token : Token} {rest rest' : List Token}
      (h : (Token.mark pass side).only pass ++ rest = token.only pass ++ rest') :
      token = .mark pass side := by
    rw [Token.only_mark_self] at h
    cases token with
    | kept c => cases (List.cons.inj h).1
    | mark other side' =>
      by_cases same : other = pass
      · rw [same, Token.only_mark_self] at h
        rw [same]
        exact (List.cons.inj h).1.symm
      · obtain ⟨c, others, spelled⟩ := List.exists_cons_of_ne_nil (other.mark_ne_nil side')
        rw [Token.only_mark_of_ne same, spelled] at h
        cases (List.cons.inj h).1
  induction left generalizing right with
  | nil =>
    cases right with
    | nil => rfl
    | cons token right =>
      have empty := (h .code).symm
      rw [List.flatMap_cons, List.flatMap_nil] at empty
      exact absurd (List.append_eq_nil_iff.1 empty).1 (only_ne_nil _ _)
  | cons first left ih =>
    cases right with
    | nil =>
      have empty := h .code
      rw [List.flatMap_cons, List.flatMap_nil] at empty
      exact absurd (List.append_eq_nil_iff.1 empty).1 (only_ne_nil _ _)
    | cons token right =>
      simp only [List.flatMap_cons] at h
      have same : first = token := by
        cases first with
        | mark pass side => exact (eq_mark (h pass)).symm
        | kept c =>
          cases token with
          | mark pass side => exact eq_mark (h pass).symm
          | kept d => exact (List.cons.inj (h .code)).1
      subst same
      rw [ih fun pass => List.append_cancel_left (h pass)]

/-! ### Two passes -/

/-- **The second pass marks what the first has marked.** It takes the same marks as if it had been
made alone, and what it writes is spelled by the marks of both. -/
theorem exists_both (h : pass.delimiter ≠ other.delimiter) (text : Text) :
    ∃ tokens : List Token,
      tokens.flatMap (Token.only pass) = pass.marked text ∧
      tokens.flatMap (Token.only other) = other.marked text ∧
      (∀ third, third ≠ pass → third ≠ other →
        tokens.flatMap (Token.only third) = text.map .kept) ∧
      pass.rewrite (other.rewrite text) = tokens.flatMap Token.rendered := by
  have differs : pass ≠ other := by
    rintro rfl
    exact h rfl
  obtain ⟨cuts, whole, found⟩ := exists_cuts pass (other.marked text)
  have unmarked_of_ne {third : Pass} (distinct : pass ≠ third) :
      (cuts.flatMap (Cut.marked pass)).flatMap (Token.only third) =
        (other.marked text).flatMap (Token.only third) := by
    rw [← whole, List.flatMap_assoc, List.flatMap_assoc]
    exact List.flatMap_congr fun cut _ => flatMap_only_marked_of_ne distinct cut
  refine ⟨cuts.flatMap (Cut.marked pass), ?_, ?_, fun third distinct distinct' => ?_, ?_⟩
  · -- the text as it was: the marks of the other pass are spelled as in the source
    have pieces := found Token.source
      (spells_source fun third side mem => (eq_of_mem_marked mem) ▸ h.symm)
    rw [flatMap_source_marked_text] at pieces
    rw [Pass.marked, pieces, List.flatMap_assoc, List.flatMap_assoc]
    refine List.flatMap_congr fun cut mem => flatMap_only_marked_self fun side mark => ?_
    have inText : .mark pass side ∈ other.marked text := by
      rw [← whole]
      exact List.mem_flatMap.2 ⟨cut, mem, mark⟩
    exact differs (eq_of_mem_marked inText)
  · rw [unmarked_of_ne differs, flatMap_only_marked_text]
  · rw [unmarked_of_ne distinct.symm, flatMap_only_marked_text_of_ne distinct'.symm]
  · -- the text as the other pass has left it: its marks are spelled as commands
    have pieces := found Token.rendered (spells_rendered pass _)
    rw [flatMap_rendered_marked_text] at pieces
    rw [Pass.rewrite_eq, Delimiters.render, pieces, List.flatMap_assoc, List.flatMap_assoc]
    exact List.flatMap_congr fun cut _ => (flatMap_rendered_marked_cut pass cut).symm

/-- **Passes for different delimiters commute.** -/
theorem rewrite_comm (h : pass.delimiter ≠ other.delimiter) (text : Text) :
    pass.rewrite (other.rewrite text) = other.rewrite (pass.rewrite text) := by
  obtain ⟨left, leftPass, leftOther, leftThird, leftWritten⟩ := exists_both h text
  obtain ⟨right, rightOther, rightPass, rightThird, rightWritten⟩ := exists_both h.symm text
  have same : left = right := by
    refine eq_of_only_eq fun third => ?_
    by_cases isPass : third = pass
    · rw [isPass, leftPass, rightPass]
    · by_cases isOther : third = other
      · rw [isOther, leftOther, rightOther]
      · rw [leftThird third isPass isOther, rightThird third isOther isPass]
  rw [leftWritten, rightWritten, same]

/-! ### Any order -/

/-- Some passes, one after another. -/
def rewriteAll (order : List Pass) (text : Text) : Text :=
  order.foldl (fun out pass => pass.rewrite out) text

theorem rewriteAll_rewrite {order : List Pass}
    (h : ∀ other ∈ order, pass.delimiter ≠ other.delimiter) (text : Text) :
    rewriteAll order (pass.rewrite text) = pass.rewrite (rewriteAll order text) := by
  induction order generalizing text with
  | nil => rfl
  | cons other order ih =>
    obtain ⟨here, behind⟩ := List.forall_mem_cons.1 h
    calc rewriteAll (other :: order) (pass.rewrite text)
      _ = rewriteAll order (other.rewrite (pass.rewrite text)) := rfl
      _ = rewriteAll order (pass.rewrite (other.rewrite text)) := by rw [rewrite_comm here]
      _ = pass.rewrite (rewriteAll order (other.rewrite text)) := ih behind _

/-- The passes for one delimiter may be made before the others. -/
theorem rewriteAll_eq_filter (delimiter : Char) (order : List Pass) (text : Text) :
    rewriteAll order text =
      rewriteAll (order.filter fun pass => pass.delimiter ≠ delimiter)
        (rewriteAll (order.filter fun pass => pass.delimiter = delimiter) text) := by
  induction order generalizing text with
  | nil => rfl
  | cons pass order ih =>
    have first : rewriteAll (pass :: order) text = rewriteAll order (pass.rewrite text) := rfl
    by_cases same : pass.delimiter = delimiter
    · rw [first, ih, List.filter_cons_of_neg (by simpa using same),
        List.filter_cons_of_pos (by simpa using same)]
      rfl
    · -- it changes places with those of the delimiter that come after it
      have apart : ∀ other ∈ order.filter fun pass => pass.delimiter = delimiter,
          pass.delimiter ≠ other.delimiter := by
        intro other mem
        rw [of_decide_eq_true (List.mem_filter.1 mem).2]
        exact same
      rw [first, ih, rewriteAll_rewrite apart, List.filter_cons_of_pos (by simpa using same),
        List.filter_cons_of_neg (by simpa using same)]
      rfl

/-- The passes that come before the citations, in the order in which they are made. -/
def earlyPasses : List Pass :=
  [.strongStar, .strongUnderscore, .emphasisStar, .emphasisUnderscore, .code]

/-- The early passes for a delimiter come in the order in which they are made, if nothing else is
asked of their order. -/
theorem filter_eq_of_sublist {order family : List Pass} {delimiter : Char}
    (perm : order.Perm earlyPasses) (sublist : family.Sublist order)
    (all : earlyPasses.filter (fun pass => pass.delimiter = delimiter) = family) :
    order.filter (fun pass => pass.delimiter = delimiter) = family := by
  have same : (order.filter fun pass => pass.delimiter = delimiter).length = family.length := by
    rw [(perm.filter _).length_eq, all]
  have within : family.Sublist (order.filter fun pass => pass.delimiter = delimiter) := by
    have inside := sublist.filter fun pass => pass.delimiter = delimiter
    have whole : family.filter (fun pass => pass.delimiter = delimiter) = family := by
      rw [← all, List.filter_filter]
      simp only [Bool.and_self]
    rwa [whole] at inside
  exact (within.eq_of_length same.symm).symm

/-- **The delimiters are independent of each other.** Any two passes for different delimiters may
change places, and the text that the citation pass finds is the same for every order of the others
in which strong emphasis comes before emphasis by the same delimiter. -/
theorem passes_independent (text : Text) :
    (∀ pass other : Pass, pass.delimiter ≠ other.delimiter →
      pass.rewrite (other.rewrite text) = other.rewrite (pass.rewrite text)) ∧
    ∀ order : List Pass, order.Perm earlyPasses →
      [.strongStar, .emphasisStar].Sublist order →
      [.strongUnderscore, .emphasisUnderscore].Sublist order →
      rewriteAll order text = renderCode (renderAllEmphasis text) := by
  refine ⟨fun pass other h => rewrite_comm h text, fun order perm stars underscores => ?_⟩
  have first : order.filter (fun pass => pass.delimiter = '*') = [.strongStar, .emphasisStar] :=
    filter_eq_of_sublist perm stars (by decide)
  have second : (order.filter fun pass => pass.delimiter ≠ '*').filter
      (fun pass => pass.delimiter = '_') = [.strongUnderscore, .emphasisUnderscore] := by
    have all : order.filter (fun pass => pass.delimiter = '_') =
        [.strongUnderscore, .emphasisUnderscore] :=
      filter_eq_of_sublist perm underscores (by decide)
    rw [List.filter_filter, ← all]
    refine List.filter_congr fun pass _ => ?_
    cases pass <;> rfl
  have third : (order.filter fun pass => pass.delimiter ≠ '*').filter
      (fun pass => pass.delimiter ≠ '_') = [.code] :=
    List.perm_singleton.1 ((perm.filter _).filter _)
  rw [rewriteAll_eq_filter '*', first, rewriteAll_eq_filter '_', second, third]
  -- what is left is to make the two kinds of strong emphasis one after the other
  have swap : renderStrong '_' (renderEmphasis '*' (renderStrong '*' text)) =
      renderEmphasis '*' (renderStrong '_' (renderStrong '*' text)) :=
    (rewrite_comm (by decide) _ : Pass.strongUnderscore.rewrite (Pass.emphasisStar.rewrite _) = _)
  show renderCode (renderEmphasis '_'
    (renderStrong '_' (renderEmphasis '*' (renderStrong '*' text)))) = _
  rw [swap]
  rfl

/-- Emphasis and a code span that cross, with the passes in an order of their own. -/
theorem passes_independent_crossing :
    let text := "**a _b** `c_ d`".toList
    let order : List Pass :=
      [.code, .strongUnderscore, .emphasisUnderscore, .strongStar, .emphasisStar]
    (Pass.strongStar.delimiter ≠ Pass.emphasisUnderscore.delimiter ∧
      Pass.strongStar.rewrite (Pass.emphasisUnderscore.rewrite text) =
        Pass.emphasisUnderscore.rewrite (Pass.strongStar.rewrite text)) ∧
    order.Perm earlyPasses ∧ [.strongStar, .emphasisStar].Sublist order ∧
      [.strongUnderscore, .emphasisUnderscore].Sublist order ∧
      rewriteAll order text = renderCode (renderAllEmphasis text) :=
  ⟨⟨by decide, (passes_independent _).1 _ _ (by decide)⟩, by decide, by decide, by decide,
    (passes_independent _).2 _ (by decide) (by decide) (by decide)⟩

end Inline
end Manuscript
