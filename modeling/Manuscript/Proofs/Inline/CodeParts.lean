import Manuscript.Proofs.Inline.Citations
import Manuscript.Proofs.Inline.Rendered

/-!
# A text between its code spans

The code pass is told here by how a text can be cut: into parts, each of them plain text and the
body of a code span behind it, and a tail (`Inline.CodeCut`). Whether a span opens at a place is
told by the text from there on alone (`Inline.OpensCode`). Every span opens at the first place where
one can, and has the shortest body that it can have there, so there is one cut only
(`Inline.CodeCut.unique`).

* `Inline.exists_codeCut`: the pieces that the pass finds are those of a cut. The induction is on
  the search: a character that opens nothing joins the plain text of the first part behind it.
* `Inline.getElem?_codeSpansFrom_pieces` and `Inline.map_extract_codeSpansFrom_pieces`: the places
  that the pass reports are those of the commands in the text that it writes.

Main statement: `Inline.codeExact`.
-/

namespace Manuscript
namespace Inline

variable {text after : Text}

/-! ### Cuts -/

/-- A code span opens where the text starts: there is a backtick, and another one behind at least
one character and before any line feed. -/
def OpensCode (text : Text) : Prop :=
  ∃ body after : Text, text = '`' :: (body ++ '`' :: after) ∧ body ≠ [] ∧ '\n' ∉ body

/-- Some plain text, and the body of the code span behind it. -/
structure CodePart where
  plain : Text
  body : Text
deriving DecidableEq, Repr

namespace CodePart

/-- The part as it is written: its body stands between backticks. -/
def source (part : CodePart) : Text := part.plain ++ '`' :: (part.body ++ ['`'])

/-- The part as it is rendered. -/
def rendered (part : CodePart) : Text := part.plain ++ Latex.typewriter part.body

/-- The pieces of the part. -/
def pieces (part : CodePart) : List Piece := part.plain.map .char ++ [.span part.body]

/-- The part is the first one of a text, and `after` is what follows it. -/
structure IsFirst (part : CodePart) (text after : Text) : Prop where
  spelled : text = part.plain ++ '`' :: (part.body ++ '`' :: after)
  body_ne_nil : part.body ≠ []
  lineFeed_not_mem : '\n' ∉ part.body
  /-- No span opens before this one. -/
  earliest : ∀ front rest : Text, text = front ++ rest → OpensCode rest →
    part.plain.length ≤ front.length
  /-- No other body is shorter. -/
  shortest : ∀ other rest : Text, part.body ++ '`' :: after = other ++ '`' :: rest → other ≠ [] →
    '\n' ∉ other → part.body.length ≤ other.length

/-- A text has one first part at most. -/
theorem IsFirst.unique {part other : CodePart} {after' : Text} (first : part.IsFirst text after)
    (first' : other.IsFirst text after') : part = other ∧ after = after' := by
  obtain ⟨plain, body⟩ := part
  obtain ⟨plain', body'⟩ := other
  have opens : OpensCode ('`' :: (body ++ '`' :: after)) :=
    ⟨body, after, rfl, first.body_ne_nil, first.lineFeed_not_mem⟩
  have opens' : OpensCode ('`' :: (body' ++ '`' :: after')) :=
    ⟨body', after', rfl, first'.body_ne_nil, first'.lineFeed_not_mem⟩
  -- both open at the same place, so neither body is shorter than the other
  have place : plain.length = plain'.length :=
    Nat.le_antisymm (first.earliest _ _ first'.spelled opens')
      (first'.earliest _ _ first.spelled opens)
  obtain ⟨rfl, opened⟩ : plain = plain' ∧
      '`' :: (body ++ '`' :: after) = '`' :: (body' ++ '`' :: after') :=
    List.append_inj (first.spelled.symm.trans first'.spelled) place
  have behind : body ++ '`' :: after = body' ++ '`' :: after' := (List.cons.inj opened).2
  have length : body.length = body'.length :=
    Nat.le_antisymm
      (first.shortest _ _ behind first'.body_ne_nil first'.lineFeed_not_mem)
      (first'.shortest _ _ behind.symm first.body_ne_nil first.lineFeed_not_mem)
  obtain ⟨rfl, closed⟩ := List.append_inj behind length
  exact ⟨rfl, (List.cons.inj closed).2⟩

end CodePart

/-- A text cut at its code spans, from left to right: each part is the first one of what the parts
before it have left, and in the tail no span opens any more. -/
inductive CodeCut : Text → List CodePart → Text → Prop
  | tail {text : Text} (nowhere : ∀ front rest : Text, text = front ++ rest → ¬ OpensCode rest) :
      CodeCut text [] text
  | part {text after tail : Text} {part : CodePart} {parts : List CodePart}
      (first : part.IsFirst text after) (behind : CodeCut after parts tail) :
      CodeCut text (part :: parts) tail

namespace CodeCut

variable {part : CodePart} {parts others : List CodePart} {tail tail' : Text}

/-- The parts and the tail are all of the text. -/
theorem spelled (cut : CodeCut text parts tail) :
    text = parts.flatMap CodePart.source ++ tail := by
  induction cut with
  | tail nowhere => rfl
  | part first behind ih =>
    rw [List.flatMap_cons, List.append_assoc, ← ih, first.spelled, CodePart.source]
    simp only [List.append_assoc, List.cons_append, List.nil_append]

theorem bodies (cut : CodeCut text parts tail) :
    ∀ part ∈ parts, part.body ≠ [] ∧ '\n' ∉ part.body := by
  induction cut with
  | tail nowhere => simp
  | part first behind ih =>
    exact List.forall_mem_cons.2 ⟨⟨first.body_ne_nil, first.lineFeed_not_mem⟩, ih⟩

/-- Where a part is cut off, a span opens. -/
theorem not_nowhere (first : part.IsFirst text after) :
    ¬ ∀ front rest : Text, text = front ++ rest → ¬ OpensCode rest := by
  intro nowhere
  exact nowhere _ _ first.spelled
    ⟨part.body, after, rfl, first.body_ne_nil, first.lineFeed_not_mem⟩

/-- **There is one cut only.** -/
theorem unique (cut : CodeCut text parts tail) (cut' : CodeCut text others tail') :
    parts = others ∧ tail = tail' := by
  induction cut generalizing others tail' with
  | tail nowhere =>
    cases cut' with
    | tail nowhere' => exact ⟨rfl, rfl⟩
    | part first' behind' => exact absurd nowhere (not_nowhere first')
  | part first behind ih =>
    cases cut' with
    | tail nowhere' => exact absurd nowhere' (not_nowhere first)
    | part first' behind' =>
      obtain ⟨rfl, rfl⟩ := first.unique first'
      obtain ⟨rfl, rfl⟩ := ih behind'
      exact ⟨rfl, rfl⟩

/-- A character in front, where nothing opens, is plain. -/
theorem skip {c : Char} (cut : CodeCut text parts tail) (closed : ¬ OpensCode (c :: text)) :
    ∃ parts' tail', CodeCut (c :: text) parts' tail' ∧
      parts'.flatMap CodePart.pieces ++ tail'.map .char =
        .char c :: (parts.flatMap CodePart.pieces ++ tail.map .char) := by
  cases cut with
  | tail nowhere =>
    refine ⟨[], c :: text, .tail ?_, rfl⟩
    intro front rest cut
    rcases List.cons_eq_append_iff.1 cut with ⟨-, rfl⟩ | ⟨front, -, later⟩
    · exact closed
    · exact nowhere front rest later
  | @part _ after _ part parts first behind =>
    refine ⟨⟨c :: part.plain, part.body⟩ :: parts, tail, .part ⟨?_, first.body_ne_nil,
      first.lineFeed_not_mem, ?_, first.shortest⟩ behind, ?_⟩
    · rw [first.spelled]
      rfl
    · intro front rest cut opens
      rcases List.cons_eq_append_iff.1 cut with ⟨-, rfl⟩ | ⟨front, rfl, later⟩
      · exact absurd opens closed
      · exact Nat.succ_le_succ (first.earliest front rest later opens)
    · simp only [List.flatMap_cons, CodePart.pieces, List.map_cons, List.cons_append]

end CodeCut

/-! ### What the code pass finds -/

theorem enclose_codeMarks_append (body after : Text) :
    codeMarks.enclose body ++ after = '`' :: (body ++ '`' :: after) := by
  unfold Delimiters.enclose
  show ['`'] ++ body ++ ['`'] ++ after = _
  simp only [List.append_assoc, List.cons_append, List.nil_append]

theorem lineFeed_not_mem_of_bodyAtStart {body : Text}
    (found : codeMarks.bodyAtStart text = some body) : '\n' ∉ body := by
  intro mem
  have allowed : ('\n' != '\n') = true := Delimiters.allows_of_bodyAtStart found '\n' mem
  exact absurd allowed (by decide)

/-- A span opens where a search finds one that starts. -/
theorem opensCode_iff : OpensCode text ↔ ∃ body, codeMarks.bodyAtStart text = some body := by
  constructor
  · rintro ⟨body, after, rfl, nonempty, plain⟩
    have allowed : ∀ c ∈ body, codeMarks.allows c := by
      intro c mem
      exact bne_iff_ne.2 (ne_of_mem_of_not_mem mem plain)
    obtain ⟨shortest, found⟩ := Delimiters.exists_body_of_closing after nonempty allowed
    rw [← enclose_codeMarks_append]
    exact ⟨shortest, Delimiters.bodyAtStart_enclose found⟩
  · rintro ⟨body, found⟩
    obtain ⟨after, rfl⟩ := Delimiters.enclose_isPrefix_of_bodyAtStart found
    exact ⟨body, after, enclose_codeMarks_append body after,
      Delimiters.ne_nil_of_bodyAtStart found, lineFeed_not_mem_of_bodyAtStart found⟩

/-- A span that is found makes a first part, with no plain text in front. -/
theorem isFirst_of_bodyAtStart {body : Text}
    (found : codeMarks.bodyAtStart ('`' :: (body ++ '`' :: after)) = some body) :
    CodePart.IsFirst ⟨[], body⟩ ('`' :: (body ++ '`' :: after)) after := by
  refine ⟨rfl, Delimiters.ne_nil_of_bodyAtStart found, lineFeed_not_mem_of_bodyAtStart found,
    fun _ _ _ _ => Nat.zero_le _, ?_⟩
  intro other rest same nonempty _
  have shortest : codeMarks.bodyBeforeClosing (body ++ '`' :: after) = some body := found
  refine Delimiters.length_le_of_bodyBeforeClosing shortest nonempty ⟨rest, ?_⟩
  rw [same]
  exact List.append_assoc other ['`'] rest

/-- **The search cuts the text at its code spans.** -/
theorem exists_codeCut (before : Option Char) (text : Text) :
    ∃ parts tail, CodeCut text parts tail ∧
      codeMarks.piecesAfter before text = parts.flatMap CodePart.pieces ++ tail.map .char := by
  fun_induction Delimiters.piecesAfter codeMarks before text with
  | case1 before =>
    refine ⟨[], [], .tail ?_, rfl⟩
    rintro front rest cut ⟨body, after, rfl, -, -⟩
    cases front <;> cases cut
  | case2 before c rest body found after permitted ih =>
    obtain ⟨parts, tail, cut, pieces⟩ := ih
    have whole : '`' :: (body ++ '`' :: after) = c :: rest :=
      (enclose_codeMarks_append body after).symm.trans (Delimiters.enclose_append_drop found)
    rw [← whole] at found ⊢
    refine ⟨⟨[], body⟩ :: parts, tail, .part (isFirst_of_bodyAtStart found) cut, ?_⟩
    rw [pieces]
    rfl
  | case3 before c rest body found after refused ih => exact absurd rfl refused
  | case4 before c rest found ih =>
    obtain ⟨parts, tail, cut, pieces⟩ := ih
    have closed : ¬ OpensCode (c :: rest) := by
      rw [opensCode_iff, found]
      rintro ⟨body, ⟨⟩⟩
    obtain ⟨parts', tail', cut', pieces'⟩ := cut.skip closed
    exact ⟨parts', tail', cut', by rw [pieces, pieces']⟩

/-! ### What the code pass writes and reports -/

section Rendering

variable (start : Nat) (front tail : Text) (part : CodePart) (parts : List CodePart)

theorem flatMap_render_pieces :
    (parts.flatMap CodePart.pieces ++ tail.map Piece.char).flatMap
        (Piece.render Latex.typewriter) =
      parts.flatMap CodePart.rendered ++ tail := by
  induction parts with
  | nil => exact flatMap_render_map_char Latex.typewriter tail
  | cons part parts ih =>
    have first : part.pieces.flatMap (Piece.render Latex.typewriter) = part.rendered := by
      rw [CodePart.pieces, flatMap_render_chars, List.flatMap_singleton]
      rfl
    rw [List.flatMap_cons, List.append_assoc, List.flatMap_append, ih, first, List.flatMap_cons,
      List.append_assoc]

/-- The place of a part's command is behind its plain text. -/
theorem codeSpansFrom_part (rest : List Piece) :
    codeSpansFrom start (part.pieces ++ rest) =
      ⟨start + part.plain.length, start + part.rendered.length⟩ ::
        codeSpansFrom (start + part.rendered.length) rest := by
  have stop : start + part.plain.length + (Latex.typewriter part.body).length =
      start + part.rendered.length := by
    rw [CodePart.rendered, List.length_append, Nat.add_assoc]
  rw [CodePart.pieces, List.append_assoc, codeSpansFrom_append, codeSpansFrom_map_char,
    flatMap_render_map_char, List.nil_append, List.singleton_append, codeSpansFrom, stop]

theorem codeSpansFrom_tail :
    codeSpansFrom start (([] : List CodePart).flatMap CodePart.pieces ++ tail.map .char) = [] :=
  codeSpansFrom_map_char start tail

theorem length_codeSpansFrom_pieces :
    (codeSpansFrom start (parts.flatMap CodePart.pieces ++ tail.map .char)).length =
      parts.length := by
  induction parts generalizing start with
  | nil => rw [codeSpansFrom_tail, List.length_nil, List.length_nil]
  | cons part parts ih =>
    rw [List.flatMap_cons, List.append_assoc, codeSpansFrom_part, List.length_cons, ih,
      List.length_cons]

/-- **The places are those of the commands,** part by part. -/
theorem getElem?_codeSpansFrom_pieces (left right : List CodePart) :
    (codeSpansFrom start ((left ++ part :: right).flatMap CodePart.pieces ++
        tail.map .char))[left.length]? =
      some ⟨start + (left.flatMap CodePart.rendered ++ part.plain).length,
        start + (left.flatMap CodePart.rendered ++ part.rendered).length⟩ := by
  induction left generalizing start with
  | nil =>
    rw [List.nil_append, List.flatMap_cons, List.append_assoc, codeSpansFrom_part]
    rfl
  | cons first left ih =>
    rw [List.cons_append, List.flatMap_cons, List.append_assoc, codeSpansFrom_part,
      List.length_cons, List.getElem?_cons_succ, ih]
    simp only [List.flatMap_cons, List.length_append, Nat.add_assoc]

/-- What stands at the places are the commands. -/
theorem map_extract_codeSpansFrom_pieces :
    (codeSpansFrom front.length (parts.flatMap CodePart.pieces ++ tail.map .char)).map
        (fun span => (front ++ (parts.flatMap CodePart.rendered ++ tail)).extract span.start
          span.stop) = parts.map fun part => Latex.typewriter part.body := by
  induction parts generalizing front with
  | nil => rw [codeSpansFrom_tail, List.map_nil, List.map_nil]
  | cons part parts ih =>
    have behind : front.length + part.rendered.length = (front ++ part.rendered).length :=
      List.length_append.symm
    have whole : front ++ ((part :: parts).flatMap CodePart.rendered ++ tail) =
        (front ++ part.rendered) ++ (parts.flatMap CodePart.rendered ++ tail) := by
      simp only [List.flatMap_cons, List.append_assoc]
    have here : (front ++ ((part :: parts).flatMap CodePart.rendered ++ tail)).extract
        (front.length + part.plain.length) (front ++ part.rendered).length =
          Latex.typewriter part.body := by
      have cut : front ++ part.rendered = (front ++ part.plain) ++ Latex.typewriter part.body :=
        (List.append_assoc front part.plain _).symm
      rw [whole, cut, List.append_assoc (front ++ part.plain), ← List.length_append, extract_middle]
    rw [List.flatMap_cons (f := CodePart.pieces), List.append_assoc, codeSpansFrom_part, behind,
      List.map_cons, here, List.map_cons, whole, ih]

end Rendering

/-- A text, cut at its code spans, and what the code pass returns for it. -/
structure CodeExact (text out : Text) (spans : List Span) (parts : List CodePart) (tail : Text) :
    Prop where
  /-- These parts and this tail are the one way in which the text can be cut. -/
  cut : ∀ others rest, CodeCut text others rest ↔ others = parts ∧ rest = tail
  /-- They are all of the text. -/
  spelled : text = parts.flatMap CodePart.source ++ tail
  bodies : ∀ part ∈ parts, part.body ≠ [] ∧ '\n' ∉ part.body
  /-- Every body is written as a command, and all else as it is. -/
  rendered : out = parts.flatMap CodePart.rendered ++ tail
  length_eq : spans.length = parts.length
  /-- Each place goes from the end of the plain text to the end of the command. -/
  places : ∀ left part right, parts = left ++ part :: right → spans[left.length]? =
    some ⟨(left.flatMap CodePart.rendered ++ part.plain).length,
      (left.flatMap CodePart.rendered ++ part.rendered).length⟩
  /-- What stands there is the command. -/
  commands : spans.map (fun span => out.extract span.start span.stop) =
    parts.map fun part => Latex.typewriter part.body
  /-- No place is empty, and all are inside the result. -/
  inside : ∀ span ∈ spans, span.start < span.stop ∧ span.stop ≤ out.length
  /-- The places are in order, and have no character in common. -/
  inOrder : spans.Pairwise fun span other => span.stop ≤ other.start

/-- **The places of code are exact.** -/
theorem codeExact (text : Text) :
    ∃ parts tail, CodeExact text (renderCode text) (codeSpans text) parts tail := by
  obtain ⟨parts, tail, cut, pieces⟩ := exists_codeCut none text
  have rendered : renderCode text = parts.flatMap CodePart.rendered ++ tail :=
    (congrArg _ pieces).trans (flatMap_render_pieces tail parts)
  have spans : codeSpans text =
      codeSpansFrom 0 (parts.flatMap CodePart.pieces ++ tail.map .char) :=
    congrArg (codeSpansFrom 0) pieces
  refine ⟨parts, tail, fun others rest => ⟨fun cut' => cut'.unique cut, ?_⟩, cut.spelled,
    cut.bodies, rendered, ?_, ?_, ?_, fun span mem => ?_, pairwise_codeSpansFrom 0 _⟩
  · rintro ⟨rfl, rfl⟩
    exact cut
  · rw [spans, length_codeSpansFrom_pieces]
  · rintro left part right rfl
    rw [spans, getElem?_codeSpansFrom_pieces, Nat.zero_add, Nat.zero_add]
  · rw [spans, rendered]
    exact map_extract_codeSpansFrom_pieces [] tail parts
  · exact ⟨start_lt_stop_of_mem_codeSpans mem, stop_le_of_mem_codeSpans mem⟩

-- A body may begin with a backtick, and a line feed keeps a span from opening.
example : renderCode "``a` `\n`b`".toList = Latex.typewriter "`a".toList ++ " `\n".toList ++
      Latex.typewriter "b".toList ∧
    codeSpans "``a` `\n`b`".toList = [⟨0, 11⟩, ⟨14, 24⟩] := by
  decide +kernel

end Inline
end Manuscript
