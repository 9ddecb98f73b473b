import Manuscript.Proofs.Inline.Tokens

/-!
# Formatting aligned with its source

Formatting loses nothing, doubles nothing and moves nothing. A text and its formatted form can be
cut side by side into the same tokens: characters that are kept, and marks, each of which stands for
the part of a command that it became. The marks of each of the six kinds open and close in turn.

The passes run one after another, and each reads what the one before it has written. An alignment of
the text with what it has become so far is refined by the next pass: the commands that stand in it
already are unseen, so what the pass takes for a mark are characters of the source, and they have
been kept so far (`Inline.exists_tokens_of_cuts`, `Inline.AlignedBy.step`).

Main statement: `Inline.exists_alignment`.
-/

namespace Manuscript
namespace Inline

/-- The ends of spans that the marks of one kind stand for, from left to right. -/
def sidesOf (pass : Pass) (tokens : List Token) : List Side :=
  tokens.filterMap fun
    | .kept _ => none
    | .mark other side => if other = pass then some side else none

/-- The marks of a kind open and close spans in turn, beginning with an opening and ending with a
closing. -/
def Alternates (pass : Pass) (tokens : List Token) : Prop :=
  ∃ n, sidesOf pass tokens = (List.replicate n [Side.opening, Side.closing]).flatten

/-- The tokens align a text with what it becomes. -/
structure Alignment (text out : Text) (tokens : List Token) : Prop where
  /-- What the tokens stand for is the text. -/
  source : tokens.flatMap Token.source = text
  /-- What the tokens become is the other text. -/
  rendered : tokens.flatMap Token.rendered = out
  /-- The marks of each kind open and close in turn. -/
  alternates : ∀ pass, Alternates pass tokens

variable {pass other : Pass} {tokens : List Token} {text out : Text}

/-! ### The marks among some tokens -/

theorem sidesOf_append (pass : Pass) (left right : List Token) :
    sidesOf pass (left ++ right) = sidesOf pass left ++ sidesOf pass right :=
  List.filterMap_append

theorem sidesOf_cons (pass : Pass) (token : Token) (tokens : List Token) :
    sidesOf pass (token :: tokens) = sidesOf pass [token] ++ sidesOf pass tokens :=
  sidesOf_append pass [token] tokens

theorem sidesOf_map_kept (pass : Pass) (text : Text) : sidesOf pass (text.map .kept) = [] := by
  unfold sidesOf
  rw [List.filterMap_map]
  exact List.filterMap_eq_nil_iff.2 fun c _ => rfl

theorem sidesOf_mark_self (side : Side) : sidesOf pass [.mark pass side] = [side] := by
  simp [sidesOf]

theorem sidesOf_mark_of_ne (h : pass ≠ other) (side : Side) :
    sidesOf other [.mark pass side] = [] := by
  simp [sidesOf, h]

theorem sidesOf_unmarked (pass : Pass) (body : List Token) :
    sidesOf other ((Cut.span body).unmarked pass) = sidesOf other body := by
  rw [Cut.unmarked, sidesOf_append, sidesOf_append, sidesOf_map_kept, sidesOf_map_kept,
    List.nil_append, List.append_nil]

theorem sidesOf_marked_of_ne (h : pass ≠ other) (body : List Token) :
    sidesOf other ((Cut.span body).marked pass) = sidesOf other body := by
  rw [Cut.marked, List.cons_append, sidesOf_cons, sidesOf_append, sidesOf_mark_of_ne h,
    sidesOf_mark_of_ne h, List.nil_append, List.append_nil]

theorem sidesOf_marked_self (body : List Token) :
    sidesOf pass ((Cut.span body).marked pass) =
      .opening :: (sidesOf pass body ++ [.closing]) := by
  rw [Cut.marked, List.cons_append, sidesOf_cons, sidesOf_append, sidesOf_mark_self,
    sidesOf_mark_self, List.singleton_append]

/-! ### What the tokens of a span spell -/

theorem flatMap_source_map_kept (text : Text) :
    (text.map Token.kept).flatMap Token.source = text := by
  rw [List.flatMap_map]
  exact List.flatMap_singleton' text

theorem flatMap_rendered_map_kept (text : Text) :
    (text.map Token.kept).flatMap Token.rendered = text := by
  rw [List.flatMap_map]
  exact List.flatMap_singleton' text

/-- Before any pass, a mark says what its characters say. -/
theorem flatMap_source_marked (pass : Pass) (body : List Token) :
    ((Cut.span body).marked pass).flatMap Token.source =
      ((Cut.span body).unmarked pass).flatMap Token.source := by
  simp only [Cut.marked, Cut.unmarked, List.flatMap_append, List.flatMap_cons, List.flatMap_nil,
    List.append_nil, flatMap_source_map_kept]
  rfl

theorem flatMap_rendered_unmarked (pass : Pass) (body : List Token) :
    ((Cut.span body).unmarked pass).flatMap Token.rendered =
      pass.marks.enclose (body.flatMap Token.rendered) := by
  simp only [Cut.unmarked, List.flatMap_append, flatMap_rendered_map_kept]
  rfl

theorem flatMap_rendered_marked (pass : Pass) (body : List Token) :
    ((Cut.span body).marked pass).flatMap Token.rendered =
      Latex.command pass.name (body.flatMap Token.rendered) := by
  simp only [Cut.marked, List.flatMap_append, List.flatMap_cons, List.flatMap_nil, List.append_nil,
    Token.rendered, Pass.command, Side.half, Latex.command, List.cons_append, List.append_assoc,
    List.nil_append]

/-! ### One pass -/

/-- Characters outside the spans are written as they are. -/
theorem Rendered.exists_append_of_chars {marks : Delimiters} {wrap : Text → Text} {chars : Text}
    {pieces : List Piece} (h : Rendered marks wrap (chars.map .char ++ pieces) out) :
    ∃ rest, out = chars ++ rest ∧ Rendered marks wrap pieces rest := by
  induction chars generalizing out with
  | nil => exact ⟨out, rfl, h⟩
  | cons c chars ih =>
    cases h with
    | char _ further =>
      obtain ⟨rest, rfl, behind⟩ := ih further
      exact ⟨rest, rfl, behind⟩

/-- **A pass refines an alignment.** Whichever of the spans it writes, what it writes is spelled by
the tokens that it has cut, with the marks of those spans taken as marks. -/
theorem exists_tokens_of_cuts (cuts : List Cut)
    (none : sidesOf pass (cuts.flatMap (Cut.unmarked pass)) = [])
    (h : Rendered pass.marks (Latex.command pass.name)
      (cuts.flatMap (Cut.pieces Token.rendered)) out) :
    ∃ tokens : List Token,
      tokens.flatMap Token.source = (cuts.flatMap (Cut.unmarked pass)).flatMap Token.source ∧
      tokens.flatMap Token.rendered = out ∧ Alternates pass tokens ∧
      ∀ other, pass ≠ other →
        sidesOf other tokens = sidesOf other (cuts.flatMap (Cut.unmarked pass)) := by
  induction cuts generalizing out with
  | nil =>
    cases h with
    | nil => exact ⟨[], rfl, rfl, ⟨0, rfl⟩, fun other _ => rfl⟩
  | cons cut cuts ih =>
    rw [List.flatMap_cons, sidesOf_append] at none
    obtain ⟨noneHere, noneBehind⟩ := List.append_eq_nil_iff.1 none
    -- the tokens of the cut, in front of those that spell what follows
    have withFirst {first : List Token} {written rest : Text}
        (source : first.flatMap Token.source = (cut.unmarked pass).flatMap Token.source)
        (spelled : first.flatMap Token.rendered = written)
        (inTurn : sidesOf pass first = [] ∨ sidesOf pass first = [.opening, .closing])
        (others : ∀ other, pass ≠ other →
          sidesOf other first = sidesOf other (cut.unmarked pass))
        (h : Rendered pass.marks (Latex.command pass.name)
          (cuts.flatMap (Cut.pieces Token.rendered)) rest) :
        ∃ tokens : List Token,
          tokens.flatMap Token.source =
            ((cut :: cuts).flatMap (Cut.unmarked pass)).flatMap Token.source ∧
          tokens.flatMap Token.rendered = written ++ rest ∧ Alternates pass tokens ∧
          ∀ other, pass ≠ other → sidesOf other tokens =
            sidesOf other ((cut :: cuts).flatMap (Cut.unmarked pass)) := by
      obtain ⟨tokens, source', rfl, ⟨n, alternates⟩, others'⟩ := ih noneBehind h
      refine ⟨first ++ tokens, ?_, ?_, ?_, fun other differs => ?_⟩
      · rw [List.flatMap_append, source, source', List.flatMap_cons, List.flatMap_append]
      · rw [List.flatMap_append, spelled]
      · rcases inTurn with inTurn | inTurn
        · exact ⟨n, by rw [sidesOf_append, inTurn, alternates, List.nil_append]⟩
        · exact ⟨n + 1, by
            rw [sidesOf_append, inTurn, alternates, List.replicate_succ, List.flatten_cons]⟩
      · rw [sidesOf_append, others other differs, others' other differs, List.flatMap_cons,
          sidesOf_append]
    rw [List.flatMap_cons] at h
    cases cut with
    | token token =>
      obtain ⟨rest, rfl, behind⟩ := h.exists_append_of_chars
      exact withFirst rfl (List.flatMap_singleton _ token) (.inl noneHere) (fun other _ => rfl)
        behind
    | span body =>
      have noneInside : sidesOf pass body = [] := by
        rw [sidesOf_unmarked] at noneHere
        exact noneHere
      cases h with
      | kept _ behind =>
        exact withFirst rfl (flatMap_rendered_unmarked pass body) (.inl noneHere)
          (fun other _ => rfl) behind
      | wrapped _ behind =>
        refine withFirst (flatMap_source_marked pass body) (flatMap_rendered_marked pass body)
          (.inr ?_) (fun other differs => ?_) behind
        · rw [sidesOf_marked_self, noneInside]
          rfl
        · rw [sidesOf_marked_of_ne differs, sidesOf_unmarked]

/-! ### All passes -/

/-- A text has become another one, and no passes but these have been made. -/
def AlignedBy (done : List Pass) (text out : Text) : Prop :=
  ∃ tokens, Alignment text out tokens ∧ ∀ pass, pass ∉ done → sidesOf pass tokens = []

/-- At the start every character is kept. -/
theorem alignedBy_nil (text : Text) : AlignedBy [] text text := by
  refine ⟨text.map .kept, ⟨?_, ?_, fun pass => ⟨0, ?_⟩⟩, fun pass _ => ?_⟩
  · exact flatMap_source_map_kept text
  · exact flatMap_rendered_map_kept text
  · exact sidesOf_map_kept pass text
  · exact sidesOf_map_kept pass text

/-- One more pass. -/
theorem AlignedBy.step {done : List Pass} {before : Text} (h : AlignedBy done text before)
    (new : pass ∉ done)
    (written : Rendered pass.marks (Latex.command pass.name) (pass.marks.pieces before) out) :
    AlignedBy (pass :: done) text out := by
  obtain ⟨tokens, ⟨rfl, rfl, alternates⟩, unmade⟩ := h
  obtain ⟨cuts, rfl, cut⟩ := exists_cuts pass tokens
  rw [cut _ (spells_rendered pass _)] at written
  obtain ⟨tokens, source, rfl, here, others⟩ := exists_tokens_of_cuts cuts (unmade pass new) written
  refine ⟨tokens, ⟨source, rfl, fun other => ?_⟩, fun other outside => ?_⟩
  · by_cases same : pass = other
    · exact same ▸ here
    · unfold Alternates
      rw [others other same]
      exact alternates other
  · obtain ⟨differs, before⟩ := not_or.1 (mt List.mem_cons.2 outside)
    rw [others other (Ne.symm differs)]
    exact unmade other before

/-- **Formatting loses, doubles and moves nothing.** A text and its formatted form are cut side by
side into characters that are kept and marks that are substituted, and the marks of each kind open
and close in turn. -/
theorem exists_alignment (text : Text) : ∃ tokens, Alignment text (format text) tokens := by
  have strongStar : AlignedBy [.strongStar] text (renderStrong '*' text) :=
    (alignedBy_nil text).step (by decide) (rendered_render _ _ _)
  have strong : AlignedBy [.strongUnderscore, .strongStar] text
      (renderStrong '_' (renderStrong '*' text)) :=
    strongStar.step (by decide) (rendered_render _ _ _)
  have emphasisStar : AlignedBy [.emphasisStar, .strongUnderscore, .strongStar] text
      (renderEmphasis '*' (renderStrong '_' (renderStrong '*' text))) :=
    strong.step (by decide) (rendered_render _ _ _)
  have emphasised : AlignedBy [.emphasisUnderscore, .emphasisStar, .strongUnderscore, .strongStar]
      text (renderAllEmphasis text) :=
    emphasisStar.step (by decide) (rendered_render _ _ _)
  have coded : AlignedBy [.code, .emphasisUnderscore, .emphasisStar, .strongUnderscore,
      .strongStar] text (renderCode (renderAllEmphasis text)) :=
    emphasised.step (by decide) (rendered_render _ _ _)
  -- of the citations some are left as they are: those inside a code span
  have cited : AlignedBy [.citation, .code, .emphasisUnderscore, .emphasisStar, .strongUnderscore,
      .strongStar] text (format text) :=
    coded.step (by decide) (rendered_renderCitations _ _)
  obtain ⟨tokens, alignment, -⟩ := cited
  exact ⟨tokens, alignment⟩

end Inline
end Manuscript
