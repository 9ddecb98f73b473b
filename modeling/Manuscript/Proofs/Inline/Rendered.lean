import Manuscript.Inline.Format

/-!
# What formatting keeps and what it brings

Every pass of the inline formatting cuts its text into pieces and spells them again, writing spans
as commands instead of between their marks. `Rendered` is that relation, without a say in which
spans are written: the citation pass leaves some of them as they are, the others write them all.

* `Inline.rendered_render`, `Inline.rendered_renderCitations`: the passes are of this form.
* `Inline.format_induction`: what every pass of this form preserves, formatting preserves.
* `Inline.forall_mem_format`: formatting brings no characters but those of its commands.
* `Inline.format_eq_self_or_mem`: a text that formatting changes holds an `x` or a `c` afterwards,
  since every command that it can write has one of them in its name, and no mark has either.
-/

namespace Manuscript
namespace Inline

/-- `out` spells the pieces, some of the spans between their marks and others by `wrap`. -/
inductive Rendered (marks : Delimiters) (wrap : Text → Text) : List Piece → Text → Prop
  | nil : Rendered marks wrap [] []
  | char (c : Char) {pieces : List Piece} {out : Text} :
      Rendered marks wrap pieces out → Rendered marks wrap (.char c :: pieces) (c :: out)
  | kept (body : Text) {pieces : List Piece} {out : Text} :
      Rendered marks wrap pieces out →
        Rendered marks wrap (.span body :: pieces) (marks.enclose body ++ out)
  | wrapped (body : Text) {pieces : List Piece} {out : Text} :
      Rendered marks wrap pieces out →
        Rendered marks wrap (.span body :: pieces) (wrap body ++ out)

theorem rendered_flatMap_render (marks : Delimiters) (wrap : Text → Text) (pieces : List Piece) :
    Rendered marks wrap pieces (pieces.flatMap (Piece.render wrap)) := by
  induction pieces with
  | nil => exact .nil
  | cons piece rest ih =>
    cases piece with
    | char c => exact .char c ih
    | span body => exact .wrapped body ih

theorem flatMap_render_map_char (wrap : Text → Text) (chars : Text) :
    (chars.map Piece.char).flatMap (Piece.render wrap) = chars := by
  rw [List.flatMap_map]
  exact List.flatMap_singleton' chars

theorem flatMap_render_chars (wrap : Text → Text) (chars : Text) (pieces : List Piece) :
    (chars.map Piece.char ++ pieces).flatMap (Piece.render wrap) =
      chars ++ pieces.flatMap (Piece.render wrap) := by
  rw [List.flatMap_append, flatMap_render_map_char]

theorem rendered_render (marks : Delimiters) (wrap : Text → Text) (text : Text) :
    Rendered marks wrap (marks.pieces text) (marks.render wrap text) :=
  rendered_flatMap_render marks wrap _

theorem rendered_renderCitationsFrom (code : List Span) (start : Nat) (pieces : List Piece) :
    Rendered citationMarks Latex.citation pieces (renderCitationsFrom code start pieces) := by
  induction pieces generalizing start with
  | nil => exact .nil
  | cons piece rest ih =>
    cases piece with
    | char c => exact .char c (ih _)
    | span key =>
      -- a key inside a code span is left as it was
      rw [renderCitationsFrom]
      split
      · exact .kept key (ih _)
      · exact .wrapped key (ih _)

theorem rendered_renderCitations (code : List Span) (text : Text) :
    Rendered citationMarks Latex.citation (citationMarks.pieces text)
      (renderCitations code text) :=
  rendered_renderCitationsFrom code 0 _

namespace Rendered

variable {marks : Delimiters} {wrap : Text → Text} {pieces : List Piece} {out : Text}

/-- What holds of the characters of the pieces, and of those that `wrap` adds, holds of the
characters of the spelling. -/
theorem forall_mem {P : Char → Prop} (h : Rendered marks wrap pieces out)
    (hwrap : ∀ body, (∀ c ∈ body, P c) → ∀ c ∈ wrap body, P c)
    (hpieces : ∀ c ∈ pieces.flatMap (Piece.source marks), P c) : ∀ c ∈ out, P c := by
  induction h with
  | nil => simp
  | char c _ ih =>
    simp only [List.flatMap_cons, Piece.source, List.forall_mem_append] at hpieces
    exact List.forall_mem_cons.2 ⟨hpieces.1 c (by simp), ih hpieces.2⟩
  | kept body _ ih =>
    simp only [List.flatMap_cons, Piece.source, List.forall_mem_append] at hpieces
    exact List.forall_mem_append.2 ⟨hpieces.1, ih hpieces.2⟩
  | wrapped body _ ih =>
    simp only [List.flatMap_cons, Piece.source, List.forall_mem_append] at hpieces
    refine List.forall_mem_append.2 ⟨hwrap body fun c mem => hpieces.1 c ?_, ih hpieces.2⟩
    simp [Delimiters.enclose, mem]

/-- A character of the pieces that is in neither mark is still there afterwards. -/
theorem mem {c : Char} (h : Rendered marks wrap pieces out) (hopening : c ∉ marks.opening)
    (hclosing : c ∉ marks.closing) (hwrap : ∀ body, c ∈ body → c ∈ wrap body)
    (hpieces : c ∈ pieces.flatMap (Piece.source marks)) : c ∈ out := by
  induction h with
  | nil => exact hpieces
  | char d _ ih =>
    simp only [List.flatMap_cons, Piece.source, List.mem_append, List.mem_singleton] at hpieces
    exact List.mem_cons.2 (hpieces.imp_right ih)
  | kept body _ ih =>
    simp only [List.flatMap_cons, Piece.source, List.mem_append] at hpieces
    exact List.mem_append.2 (hpieces.imp_right ih)
  | wrapped body _ ih =>
    simp only [List.flatMap_cons, Piece.source, Delimiters.enclose, List.mem_append, hopening,
      hclosing, false_or, or_false] at hpieces
    exact List.mem_append.2 (hpieces.imp (hwrap body) ih)

/-- Either every span was left as it was, or one was written. -/
theorem eq_or_wrapped (h : Rendered marks wrap pieces out) :
    out = pieces.flatMap (Piece.source marks) ∨ ∃ body, ∀ c ∈ wrap body, c ∈ out := by
  induction h with
  | nil => exact .inl rfl
  | char c _ ih =>
    rcases ih with rfl | ⟨body, ih⟩
    · exact .inl rfl
    · exact .inr ⟨body, fun c mem => List.mem_cons_of_mem _ (ih c mem)⟩
  | kept _ _ ih =>
    rcases ih with rfl | ⟨body, ih⟩
    · exact .inl rfl
    · exact .inr ⟨body, fun c mem => List.mem_append_right _ (ih c mem)⟩
  | wrapped body _ _ => exact .inr ⟨body, fun c mem => List.mem_append_left _ mem⟩

end Rendered

/-! ### All passes together -/

/-- The passes, in the order in which they are made. -/
inductive Pass
  | strongStar
  | strongUnderscore
  | emphasisStar
  | emphasisUnderscore
  | code
  | citation

/-- The marks that a pass looks for. -/
def Pass.marks : Pass → Delimiters
  | strongStar => strongMarks '*'
  | strongUnderscore => strongMarks '_'
  | emphasisStar => emphasisMarks '*'
  | emphasisUnderscore => emphasisMarks '_'
  | code => codeMarks
  | citation => citationMarks

/-- The name of the command that a pass writes. -/
def Pass.name : Pass → Text
  | strongStar | strongUnderscore => "textbf".toList
  | emphasisStar | emphasisUnderscore => "textit".toList
  | code => "texttt".toList
  | citation => "cite".toList

/-- What every pass preserves, formatting preserves. -/
theorem format_induction {motive : Text → Prop}
    (step : ∀ (pass : Pass) {text out : Text},
      Rendered pass.marks (Latex.command pass.name) (pass.marks.pieces text) out →
        motive text → motive out)
    {text : Text} (h : motive text) : motive (format text) := by
  have render : ∀ (pass : Pass) (text : Text), motive text →
      motive (pass.marks.render (Latex.command pass.name) text) :=
    fun pass text => step pass (rendered_render _ _ text)
  have emphasised : motive (renderAllEmphasis text) :=
    render .emphasisUnderscore _ <| render .emphasisStar _ <|
      render .strongUnderscore _ <| render .strongStar _ h
  exact step .citation (rendered_renderCitations _ _) (render .code _ emphasised)

theorem mem_command {c : Char} {name argument : Text} :
    c ∈ Latex.command name argument ↔ c ∈ Latex.command name [] ∨ c ∈ argument := by
  simp only [Latex.command, List.mem_append, List.mem_cons, List.not_mem_nil]
  grind

/-- A pass brings no characters but those of its command. -/
theorem Pass.forall_mem_rendered {P : Char → Prop} (pass : Pass)
    (command : ∀ c ∈ Latex.command pass.name [], P c) {text out : Text}
    (rendered : Rendered pass.marks (Latex.command pass.name) (pass.marks.pieces text) out)
    (h : ∀ c ∈ text, P c) : ∀ c ∈ out, P c := by
  refine rendered.forall_mem (fun body hbody c hc => ?_) ?_
  · exact (mem_command.1 hc).elim (command c) (hbody c)
  · rwa [Delimiters.flatMap_source_pieces]

/-- Formatting brings no characters but those of its commands. -/
theorem forall_mem_format {P : Char → Prop}
    (commands : ∀ pass : Pass, ∀ c ∈ Latex.command pass.name [], P c) {text : Text}
    (h : ∀ c ∈ text, P c) : ∀ c ∈ format text, P c := by
  refine format_induction (motive := fun text => ∀ c ∈ text, P c) ?_ h
  intro pass text out rendered htext
  exact pass.forall_mem_rendered (commands pass) rendered htext

theorem Pass.ne_lineFeed_of_mem_command (pass : Pass) :
    ∀ c ∈ Latex.command pass.name [], c ≠ '\n' := by
  have outside : '\n' ∉ Latex.command pass.name [] := by
    cases pass <;> decide
  exact fun c hc => ne_of_mem_of_not_mem hc outside

theorem lineFeed_not_mem_format {text : Text} (h : '\n' ∉ text) : '\n' ∉ format text := by
  have characters : ∀ c ∈ text, c ≠ '\n' := fun c hc => ne_of_mem_of_not_mem hc h
  intro mem
  exact forall_mem_format (P := (· ≠ '\n')) Pass.ne_lineFeed_of_mem_command characters _ mem rfl

/-- A text that formatting changes holds an `x` or a `c` afterwards: every command has one of them
in its name, and later passes keep both, as they are in no mark. -/
theorem format_eq_self_or_mem (text : Text) :
    format text = text ∨ 'x' ∈ format text ∨ 'c' ∈ format text := by
  have outside : ∀ c ∈ ['x', 'c'], ∀ pass : Pass,
      c ∉ pass.marks.opening ∧ c ∉ pass.marks.closing := by
    intro c hc pass
    obtain rfl | rfl : c = 'x' ∨ c = 'c' := by simpa using hc
    · cases pass <;> decide
    · cases pass <;> decide
  have named : ∀ pass : Pass, 'x' ∈ pass.name ∨ 'c' ∈ pass.name := by
    intro pass
    cases pass <;> decide
  refine format_induction (motive := fun out => out = text ∨ 'x' ∈ out ∨ 'c' ∈ out) ?_ (.inl rfl)
  intro pass before out rendered h
  have keep : ∀ c ∈ ['x', 'c'], c ∈ before → c ∈ out := by
    intro c hc hbefore
    refine rendered.mem (outside c hc pass).1 (outside c hc pass).2
      (fun body hbody => mem_command.2 (.inr hbody)) ?_
    rwa [Delimiters.flatMap_source_pieces]
  rcases h with rfl | h
  · -- nothing has been written yet, and this pass may be the first to write
    rcases rendered.eq_or_wrapped with same | ⟨body, brought⟩
    · exact .inl (same.trans (Delimiters.flatMap_source_pieces _ _))
    · have bring : ∀ c ∈ pass.name, c ∈ out := fun c hc =>
        brought c (mem_command.2 (.inl (by simp [Latex.command, hc])))
      exact .inr ((named pass).imp (bring _) (bring _))
  · -- what an earlier pass has brought is kept
    exact .inr (h.imp (keep _ (by simp)) (keep _ (by simp)))

end Inline
end Manuscript
