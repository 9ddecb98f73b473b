import Manuscript.Proofs.Inline.Rendered
import Manuscript.Proofs.Inline.Search

/-!
# Markup in a line

Which lines does formatting change? Those that hold markup, where markup is a pattern of the line as
it is written: two doubled delimiters with something between them, two lone delimiters with no
delimiter between them, two backticks with something between them, or a citation (`Pass.Markup`).
The passes are six and each sees what the one before it has left, but only the line counts.

* **A pass changes what it finds** (`Pass.render_eq_self_iff`), and it finds something wherever
  there is markup of its form (`Pass.finds_iff`).
* **No pass undoes another.** Each command brings a backslash and no mark takes one away, so a text
  that was changed has more of them than it had (`Grows.comp_eq_self_iff`).

Main statement: `Inline.format_eq_self_iff`.
-/

namespace Manuscript
namespace Inline

variable {text out : Text}

/-! ### Passes that change nothing -/

section Backslashes

variable {marks : Delimiters} (name : Text) (hopening : '\\' ∉ marks.opening)
  (hclosing : '\\' ∉ marks.closing)

include hopening hclosing

/-- A command brings a backslash, and the marks that it replaces held none. -/
theorem count_enclose_lt_count_command (body : Text) :
    (marks.enclose body).count '\\' < (Latex.command name body).count '\\' := by
  have enclosed : (marks.enclose body).count '\\' = body.count '\\' := by
    rw [Delimiters.enclose, List.count_append, List.count_append, List.count_eq_zero.2 hopening,
      List.count_eq_zero.2 hclosing, Nat.zero_add, Nat.add_zero]
  have command : (Latex.command name body).count '\\' = name.count '\\' + body.count '\\' + 1 := by
    simp [Latex.command]
  omega

/-- A pass leaves the text as it was, or the text has more backslashes than before. -/
theorem Rendered.eq_or_count_lt {pieces : List Piece}
    (h : Rendered marks (Latex.command name) pieces out) :
    out = pieces.flatMap (Piece.source marks) ∨
      (pieces.flatMap (Piece.source marks)).count '\\' < out.count '\\' := by
  induction h with
  | nil => exact .inl rfl
  | char c _ ih =>
    rcases ih with rfl | more
    · exact .inl rfl
    · refine .inr ?_
      simp only [List.flatMap_cons, Piece.source, List.singleton_append, List.count_cons]
      omega
  | kept body _ ih =>
    rcases ih with rfl | more
    · exact .inl rfl
    · refine .inr ?_
      simp only [List.flatMap_cons, Piece.source, List.count_append]
      omega
  | wrapped body _ ih =>
    -- what follows has lost no backslash, and the command has brought one
    have here := count_enclose_lt_count_command name hopening hclosing body
    refine .inr ?_
    simp only [List.flatMap_cons, Piece.source, List.count_append]
    rcases ih with rfl | more
    · omega
    · omega

/-- Where every span is written, nothing changes iff there is no span. -/
theorem flatMap_render_eq_iff (pieces : List Piece) :
    pieces.flatMap (Piece.render (Latex.command name)) = pieces.flatMap (Piece.source marks) ↔
      ¬ ∃ body, .span body ∈ pieces := by
  induction pieces with
  | nil => simp
  | cons piece rest ih =>
    cases piece with
    | char c => simpa [Piece.render, Piece.source] using ih
    | span body =>
      -- the first span changes the text: what follows it cannot make up for its backslash
      have here := count_enclose_lt_count_command name hopening hclosing body
      have behind : (rest.flatMap (Piece.source marks)).count '\\' ≤
          (rest.flatMap (Piece.render (Latex.command name))).count '\\' := by
        rcases (rendered_flatMap_render marks (Latex.command name) rest).eq_or_count_lt name
          hopening hclosing with same | more
        · exact Nat.le_of_eq (by rw [same])
        · exact Nat.le_of_lt more
      constructor
      · intro same
        have counts := congrArg (List.count '\\') same
        simp only [List.flatMap_cons, Piece.render, Piece.source, List.count_append] at counts
        omega
      · intro none
        exact absurd ⟨body, by simp⟩ none

end Backslashes

/-- A rewriting that brings a backslash wherever it changes something. -/
def Grows (rewrite : Text → Text) : Prop :=
  ∀ text, rewrite text = text ∨ text.count '\\' < (rewrite text).count '\\'

namespace Grows

variable {first : Text → Text} {second : Text → Text → Text}

/-- One rewriting after the other, where the second may look at the text as it was. -/
theorem comp (hfirst : Grows first) (hsecond : ∀ seen, Grows (second seen)) :
    Grows fun text => second text (first text) := by
  intro text
  show second text (first text) = text ∨ _ < (second text (first text)).count '\\'
  rcases hfirst text with same | more
  · rw [same]
    exact hsecond text text
  · rcases hsecond text (first text) with same | evenMore
    · rw [same]
      exact .inr more
    · exact .inr (Nat.lt_trans more evenMore)

/-- **No rewriting undoes another.** Both together leave a text as it is iff each of them does. -/
theorem comp_eq_self_iff (hfirst : Grows first) (hsecond : ∀ seen, Grows (second seen))
    (text : Text) :
    second text (first text) = text ↔ first text = text ∧ second text text = text := by
  constructor
  · intro unchanged
    have same : first text = text := by
      refine (hfirst text).resolve_right fun more => ?_
      -- the backslash that the first has brought is still there
      rcases hsecond text (first text) with same | evenMore
      · rw [← same, unchanged] at more
        exact Nat.lt_irrefl _ more
      · rw [unchanged] at evenMore
        omega
    rw [same] at unchanged
    exact ⟨same, unchanged⟩
  · rintro ⟨same, unchanged⟩
    rw [same, unchanged]

end Grows

theorem Pass.backslash_not_mem (pass : Pass) :
    '\\' ∉ pass.marks.opening ∧ '\\' ∉ pass.marks.closing := by
  cases pass <;> decide

theorem Pass.grows (pass : Pass) : Grows (pass.marks.render (Latex.command pass.name)) := by
  intro text
  obtain ⟨hopening, hclosing⟩ := pass.backslash_not_mem
  have kept := (rendered_render pass.marks (Latex.command pass.name) text).eq_or_count_lt pass.name
    hopening hclosing
  rwa [Delimiters.flatMap_source_pieces] at kept

theorem grows_renderCitations (code : List Span) : Grows (renderCitations code) := by
  intro text
  obtain ⟨hopening, hclosing⟩ := Pass.citation.backslash_not_mem
  have kept := (rendered_renderCitations code text).eq_or_count_lt Pass.citation.name hopening
    hclosing
  have source : (citationMarks.pieces text).flatMap (Piece.source Pass.citation.marks) = text :=
    Delimiters.flatMap_source_pieces _ _
  rwa [source] at kept

/-- A pass finds a span in the text. -/
def Pass.Finds (pass : Pass) (text : Text) : Prop := ∃ body, .span body ∈ pass.marks.pieces text

/-- A pass that writes every span leaves the text as it is iff it finds none. -/
theorem Pass.render_eq_self_iff (pass : Pass) (text : Text) :
    pass.marks.render (Latex.command pass.name) text = text ↔ ¬ pass.Finds text := by
  obtain ⟨hopening, hclosing⟩ := pass.backslash_not_mem
  have written := flatMap_render_eq_iff pass.name hopening hclosing (pass.marks.pieces text)
  rwa [Delimiters.flatMap_source_pieces] at written

/-- Without code spans, every citation is rendered. -/
theorem renderCitations_nil (text : Text) :
    renderCitations [] text = citationMarks.render Latex.citation text := by
  have fromStart (start : Nat) (pieces : List Piece) :
      renderCitationsFrom [] start pieces = pieces.flatMap (Piece.render Latex.citation) := by
    induction pieces generalizing start with
    | nil => rfl
    | cons piece rest ih =>
      cases piece with
      | char c => rw [renderCitationsFrom, ih]; rfl
      | span key => rw [renderCitationsFrom, ih]; rfl
  exact fromStart 0 _

/-- A text in which no code span is found has no code spans. -/
theorem codeSpans_eq_nil (h : ¬ Pass.code.Finds text) : codeSpans text = [] := by
  have fromStart (start : Nat) (pieces : List Piece) (plain : ¬ ∃ body, .span body ∈ pieces) :
      codeSpansFrom start pieces = [] := by
    induction pieces generalizing start with
    | nil => rfl
    | cons piece rest ih =>
      cases piece with
      | char c =>
        rw [codeSpansFrom]
        exact ih _ fun ⟨body, mem⟩ => plain ⟨body, List.mem_cons_of_mem _ mem⟩
      | span body => exact absurd ⟨body, by simp⟩ plain
  exact fromStart 0 _ h

theorem grows_strong : Grows fun text => renderStrong '_' (renderStrong '*' text) :=
  Pass.strongStar.grows.comp fun _ => Pass.strongUnderscore.grows

theorem grows_strong_emphasisStar :
    Grows fun text => renderEmphasis '*' (renderStrong '_' (renderStrong '*' text)) :=
  grows_strong.comp fun _ => Pass.emphasisStar.grows

theorem grows_renderAllEmphasis : Grows renderAllEmphasis :=
  grows_strong_emphasisStar.comp fun _ => Pass.emphasisUnderscore.grows

theorem renderAllEmphasis_eq_self_iff : renderAllEmphasis text = text ↔
    ((renderStrong '*' text = text ∧ renderStrong '_' text = text) ∧
      renderEmphasis '*' text = text) ∧ renderEmphasis '_' text = text := by
  -- from the last pass to the first
  calc renderAllEmphasis text = text
    _ ↔ renderEmphasis '*' (renderStrong '_' (renderStrong '*' text)) = text ∧
          renderEmphasis '_' text = text :=
      grows_strong_emphasisStar.comp_eq_self_iff (fun _ => Pass.emphasisUnderscore.grows) text
    _ ↔ (renderStrong '_' (renderStrong '*' text) = text ∧ renderEmphasis '*' text = text) ∧
          renderEmphasis '_' text = text :=
      and_congr_left' (grows_strong.comp_eq_self_iff (fun _ => Pass.emphasisStar.grows) text)
    _ ↔ ((renderStrong '*' text = text ∧ renderStrong '_' text = text) ∧
          renderEmphasis '*' text = text) ∧ renderEmphasis '_' text = text :=
      and_congr_left' (and_congr_left'
        (Pass.strongStar.grows.comp_eq_self_iff (fun _ => Pass.strongUnderscore.grows) text))

/-- **No pass undoes another.** Formatting leaves a text as it is iff each pass, made on the text
itself, finds nothing. -/
theorem format_eq_self_iff_not_finds : format text = text ↔ ∀ pass : Pass, ¬ pass.Finds text := by
  have spans : Grows fun text => renderCitations (codeSpans text) (renderCode text) :=
    Pass.code.grows.comp fun seen => grows_renderCitations (codeSpans seen)
  have outer : format text = text ↔
      renderAllEmphasis text = text ∧ renderCitations (codeSpans text) (renderCode text) = text :=
    grows_renderAllEmphasis.comp_eq_self_iff (fun _ => spans) text
  have inner : renderCitations (codeSpans text) (renderCode text) = text ↔
      renderCode text = text ∧ renderCitations (codeSpans text) text = text :=
    Pass.code.grows.comp_eq_self_iff (fun seen => grows_renderCitations (codeSpans seen)) text
  rw [outer, inner, renderAllEmphasis_eq_self_iff]
  constructor
  · rintro ⟨⟨⟨⟨strongStar, strongUnderscore⟩, emphasisStar⟩, emphasisUnderscore⟩, code, citation⟩
    -- with no code span found, citations are looked for everywhere
    have noCode : ¬ Pass.code.Finds text := (Pass.render_eq_self_iff .code text).1 code
    rw [codeSpans_eq_nil noCode, renderCitations_nil] at citation
    intro pass
    rw [← pass.render_eq_self_iff]
    cases pass with
    | strongStar => exact strongStar
    | strongUnderscore => exact strongUnderscore
    | emphasisStar => exact emphasisStar
    | emphasisUnderscore => exact emphasisUnderscore
    | code => exact code
    | citation => exact citation
  · intro none
    have same : ∀ pass : Pass, pass.marks.render (Latex.command pass.name) text = text :=
      fun pass => pass.render_eq_self_iff text |>.2 (none pass)
    have citation : renderCitations (codeSpans text) text = text := by
      rw [codeSpans_eq_nil (none .code), renderCitations_nil]
      exact same .citation
    exact ⟨⟨⟨⟨same .strongStar, same .strongUnderscore⟩, same .emphasisStar⟩,
      same .emphasisUnderscore⟩, same .code, citation⟩

/-! ### Markup -/

/-- Strong emphasis: the delimiter doubled, at least one character, and the delimiter doubled. -/
def HasStrong (delimiter : Char) (line : Text) : Prop :=
  ∃ before body after : Text,
    line = before ++ ([delimiter, delimiter] ++ body ++ [delimiter, delimiter] ++ after) ∧
      body ≠ []

/-- Emphasis: two lone delimiters, without a delimiter between them. A delimiter is lone if it has
no other as its neighbour. -/
def HasEmphasis (delimiter : Char) (line : Text) : Prop :=
  ∃ before body after : Text,
    line = before ++ ([delimiter] ++ body ++ [delimiter] ++ after) ∧ body ≠ [] ∧
      delimiter ∉ body ∧ before.getLast? ≠ some delimiter ∧ after.head? ≠ some delimiter

/-- A code span: two backticks with at least one character between them. -/
def HasCode (line : Text) : Prop :=
  ∃ before body after : Text, line = before ++ (['`'] ++ body ++ ['`'] ++ after) ∧ body ≠ []

/-- A citation: its opening mark, at least one character that is no closing bracket, and a closing
bracket. -/
def HasCitation (line : Text) : Prop :=
  ∃ before key after : Text,
    line = before ++ ("[ref:".toList ++ key ++ [']'] ++ after) ∧ key ≠ [] ∧ ']' ∉ key

/-! ### Spans start where markup is -/

theorem starts_strongMarks_iff {delimiter : Char} (plain : '\n' ∉ text) :
    (strongMarks delimiter).Starts none text ↔ HasStrong delimiter text :=
  Delimiters.starts_iff_of_permits (fun _ _ => rfl)
    fun _ mem => bne_iff_ne.2 (ne_of_mem_of_not_mem mem plain)

theorem starts_codeMarks_iff (plain : '\n' ∉ text) : codeMarks.Starts none text ↔ HasCode text :=
  Delimiters.starts_iff_of_permits (fun _ _ => rfl)
    fun _ mem => bne_iff_ne.2 (ne_of_mem_of_not_mem mem plain)

theorem starts_emphasisMarks_iff {delimiter : Char} :
    (emphasisMarks delimiter).Starts none text ↔ HasEmphasis delimiter text := by
  have neighbours (left right : Option Char) : (emphasisMarks delimiter).permits left right ↔
      left ≠ some delimiter ∧ right ≠ some delimiter := by
    simp [emphasisMarks]
  rw [Delimiters.starts_iff_of_closing rfl fun c => bne_iff_ne]
  simp only [neighbours]
  rfl

theorem starts_citationMarks_iff : citationMarks.Starts none text ↔ HasCitation text := by
  have anywhere (left right : Option Char) : citationMarks.permits left right := rfl
  rw [Delimiters.starts_iff_of_closing rfl fun c => bne_iff_ne]
  simp only [anywhere, and_true]
  rfl

/-- The form of markup that a pass looks for. -/
def Pass.Markup : Pass → Text → Prop
  | strongStar => HasStrong '*'
  | strongUnderscore => HasStrong '_'
  | emphasisStar => HasEmphasis '*'
  | emphasisUnderscore => HasEmphasis '_'
  | code => HasCode
  | citation => HasCitation

/-- A pass finds something in a line iff there is markup of its form. -/
theorem Pass.finds_iff (pass : Pass) (plain : '\n' ∉ text) :
    pass.Finds text ↔ pass.Markup text := by
  rw [Pass.Finds, Delimiters.pieces, Delimiters.exists_span_iff]
  cases pass with
  | strongStar | strongUnderscore => exact starts_strongMarks_iff plain
  | emphasisStar | emphasisUnderscore => exact starts_emphasisMarks_iff
  | code => exact starts_codeMarks_iff plain
  | citation => exact starts_citationMarks_iff

/-- **Formatting changes exactly the lines with markup.** -/
theorem format_eq_self_iff {line : Text} (plain : '\n' ∉ line) :
    format line = line ↔ ¬ ∃ pass : Pass, pass.Markup line := by
  rw [format_eq_self_iff_not_finds, not_exists]
  exact forall_congr' fun pass => not_congr (pass.finds_iff plain)

end Inline
end Manuscript
