import Manuscript.Proofs.Inline.Rendered
import Manuscript.Proofs.Inline.Search
import Mathlib.Tactic.ByContra

/-!
# What a pass does not see

A pass looks for its own marks. What stands between them matters only so far as it is there at all,
may be part of a body, and is no part of a mark: how it is spelled does not matter. A text is
therefore taken here as a list of *tokens*, characters and marks, and a mark can be spelled in two
ways, as it stands in the source or as the part of a command that it becomes.

* **Unseen text.** `Delimiters.Unseen` says which texts a search passes over: it cannot tell one of
  them from another.
* **A search cuts the tokens** (`Inline.exists_cuts`). However the tokens are spelled, if all the
  marks among them are unseen, the pieces that a pass finds are spellings of the same cuts.
* `Inline.spells_source`, `Inline.spells_rendered`: the marks of the other delimiters are unseen,
  and the commands of every pass are.
-/

namespace Manuscript
namespace Delimiters

variable {marks : Delimiters} {before : Option Char} {text : Text}

/-- A search does not see what the text says: it is part of a body or stands between the spans, but
never part of a mark. -/
structure Unseen (marks : Delimiters) (text : Text) : Prop where
  /-- There is something, so what stands on its two sides does not touch. -/
  ne_nil : text ≠ []
  /-- It may be part of a body. -/
  allowed : ∀ c ∈ text, marks.allows c
  /-- No mark starts in it. -/
  starts : ∀ c ∈ text, ∀ rest, ¬ marks.opening <+: c :: rest ∧ ¬ marks.closing <+: c :: rest
  /-- No mark that starts before it reaches into it. -/
  ends : ∀ c ∈ text.head?, c ∉ marks.opening ∧ c ∉ marks.closing
  /-- As a neighbour it is like an end of the text. -/
  neighbour : ∀ c ∈ text, ∀ other,
    marks.permits (some c) other = marks.permits none other ∧
      marks.permits other (some c) = marks.permits other none

theorem getLast?_enclose (closing : marks.closing ≠ []) (body : Text) :
    (marks.enclose body).getLast? = marks.closing.getLast? := by
  obtain ⟨last, isLast⟩ := Option.isSome_iff_exists.1 (List.getLast?_isSome.2 closing)
  rw [enclose, List.getLast?_append, isLast]
  rfl

/-- A span that is found and permitted is the first piece. -/
theorem piecesAfter_of_span {body after : Text}
    (found : marks.bodyAtStart (marks.enclose body ++ after) = some body)
    (permitted : marks.permits before after.head?) :
    marks.piecesAfter before (marks.enclose body ++ after) =
      .span body :: marks.piecesAfter (marks.enclose body).getLast? after := by
  cases text : marks.enclose body ++ after with
  | nil =>
    rw [text] at found
    cases (bodyAtStart_nil marks).symm.trans found
  | cons c rest =>
    rw [text] at found
    have behind : rest.drop ((marks.enclose body).length - 1) = after := by
      rw [← drop_enclose rest found, ← text, List.drop_left]
    rw [piecesAfter, found]
    simp only [behind, permitted, if_true]

/-- Where no span is permitted, the first character is the first piece. -/
theorem piecesAfter_cons_of_refused {c : Char} {rest : Text}
    (refused : ∀ body, marks.bodyAtStart (c :: rest) = some body →
      ¬ marks.permits before ((c :: rest).drop (marks.enclose body).length).head?) :
    marks.piecesAfter before (c :: rest) = .char c :: marks.piecesAfter (some c) rest := by
  rw [piecesAfter]
  split
  · next body found =>
    have against := refused body found
    rw [drop_enclose rest found] at against
    simp only [against, if_false, Bool.false_eq_true]
  · rfl

/-- The mark starts nowhere in a text that `rest` follows. -/
def StartsNowhere (mark text rest : Text) : Prop :=
  ∀ suffix, suffix <:+ text → suffix ≠ [] → ¬ mark <+: suffix ++ rest

theorem StartsNowhere.of_cons {mark rest : Text} {c : Char}
    (h : StartsNowhere mark (c :: text) rest) :
    ¬ mark <+: c :: (text ++ rest) ∧ StartsNowhere mark text rest :=
  ⟨h (c :: text) (List.suffix_refl _) (List.cons_ne_nil _ _),
    fun suffix ends => h suffix (ends.trans (List.suffix_cons _ _))⟩

/-- A mark that starts with none of the characters of a text starts nowhere in it. -/
theorem startsNowhere_of_forall {mark : Text} (h : ∀ c ∈ text, ∀ rest, ¬ mark <+: c :: rest)
    (rest : Text) : StartsNowhere mark text rest := by
  intro suffix ends nonempty
  obtain ⟨c, others, rfl⟩ := List.exists_cons_of_ne_nil nonempty
  exact h c (ends.subset List.mem_cons_self) _

/-- Where no opening mark starts in a text, its characters stand outside every span. -/
theorem piecesAfter_append {rest : Text} (starts : StartsNowhere marks.opening text rest) :
    marks.piecesAfter before (text ++ rest) =
      text.map .char ++ marks.piecesAfter (text.getLast?.or before) rest := by
  induction text generalizing before with
  | nil => rfl
  | cons c others ih =>
    obtain ⟨first, more⟩ := starts.of_cons
    have closed : marks.bodyAtStart (c :: (others ++ rest)) = none := by
      unfold bodyAtStart
      rw [if_neg]
      intro opened
      exact first (List.isPrefixOf_iff_prefix.1 opened)
    have last : others.getLast?.or (some c) = (c :: others).getLast?.or before := by
      rw [List.getLast?_cons]
      cases others.getLast? <;> rfl
    rw [List.cons_append, piecesAfter, closed, ih more, last]
    rfl

/-- Where no closing mark starts in a text of allowed characters, a body holds all of it. -/
theorem bodyBeforeClosing_append_of_allowed {rest : Text} (nonempty : text ≠ [])
    (allowed : ∀ c ∈ text, marks.allows c) (starts : StartsNowhere marks.closing text rest) :
    marks.bodyBeforeClosing (text ++ rest) =
      if marks.closing.isPrefixOf rest then some text
      else (marks.bodyBeforeClosing rest).map (text ++ ·) := by
  induction text with
  | nil => exact absurd rfl nonempty
  | cons c others ih =>
    obtain ⟨first, allowed⟩ := List.forall_mem_cons.1 allowed
    obtain ⟨-, starts⟩ := starts.of_cons
    rw [List.cons_append, bodyBeforeClosing, if_pos first]
    cases others with
    | nil => rfl
    | cons next others =>
      -- the closing mark does not start with the next character, so the body goes on
      have goesOn : ¬ marks.closing.isPrefixOf (next :: others ++ rest) := by
        intro closed
        exact starts.of_cons.1 (List.isPrefixOf_iff_prefix.1 closed)
      rw [if_neg goesOn, ih (by simp) allowed starts]
      split
      · rfl
      · rw [Option.map_map]
        rfl

end Delimiters

namespace Inline

deriving instance DecidableEq for Pass

/-- The two ends of a span. -/
inductive Side
  | opening
  | closing
deriving DecidableEq, Repr

/-- The mark that a pass looks for at an end of a span. -/
def Pass.mark (pass : Pass) : Side → Text
  | .opening => pass.marks.opening
  | .closing => pass.marks.closing

/-- The half of a command that stands on one side of its argument. -/
def Side.half (name : Text) : Side → Text
  | opening => '\\' :: name ++ ['{']
  | closing => ['}']

/-- What a pass writes in place of its mark. -/
def Pass.command (pass : Pass) (side : Side) : Text := side.half pass.name

/-- A part of a text that is either kept or substituted as a whole. -/
inductive Token
  /-- A character that is kept. -/
  | kept (c : Char)
  /-- A mark that its pass substitutes. -/
  | mark (pass : Pass) (side : Side)
deriving DecidableEq

namespace Token

/-- The text that a token stands for before any pass. -/
def source : Token → Text
  | kept c => [c]
  | mark pass side => pass.mark side

/-- The text that a token becomes. -/
def rendered : Token → Text
  | kept c => [c]
  | mark pass side => pass.command side

end Token

theorem Pass.mark_ne_nil (pass : Pass) (side : Side) : pass.mark side ≠ [] := by
  cases pass <;> cases side <;> decide

/-! ### Spellings -/

variable {pass : Pass} {tokens : List Token} {spell : Token → Text}

/-- A way to spell tokens that keeps the characters and spells the marks unseen. -/
structure Pass.Spells (pass : Pass) (tokens : List Token) (spell : Token → Text) : Prop where
  kept : ∀ c, spell (.kept c) = [c]
  mark : ∀ other side, .mark other side ∈ tokens → pass.marks.Unseen (spell (.mark other side))

theorem Pass.Spells.mono {fewer : List Token} (h : pass.Spells tokens spell)
    (subset : fewer ⊆ tokens) : pass.Spells fewer spell :=
  ⟨h.kept, fun other side mem => h.mark other side (subset mem)⟩

theorem Pass.Spells.flatMap_kept (h : pass.Spells tokens spell) (text : Text) :
    (text.map Token.kept).flatMap spell = text := by
  induction text with
  | nil => rfl
  | cons c rest ih => rw [List.map_cons, List.flatMap_cons, h.kept, ih]; rfl

/-- **A mark is read off the tokens.** The characters of a mark are a beginning of the text iff
they are a beginning of the tokens. -/
theorem Pass.Spells.prefix_iff (h : pass.Spells tokens spell) {text : Text}
    (hmark : (∀ c ∈ text, c ∈ pass.marks.opening) ∨ ∀ c ∈ text, c ∈ pass.marks.closing) :
    text <+: tokens.flatMap spell ↔ text.map .kept <+: tokens := by
  induction text generalizing tokens with
  | nil => simp
  | cons c rest ih =>
    have further : (∀ d ∈ rest, d ∈ pass.marks.opening) ∨ ∀ d ∈ rest, d ∈ pass.marks.closing :=
      hmark.imp (fun all => (List.forall_mem_cons.1 all).2)
        fun all => (List.forall_mem_cons.1 all).2
    cases tokens with
    | nil => simp
    | cons token tokens =>
      have behind := ih (h.mono (List.subset_cons_self _ _)) further
      cases token with
      | kept d =>
        rw [List.flatMap_cons, h.kept, List.singleton_append, List.map_cons,
          List.cons_prefix_cons, List.cons_prefix_cons, behind, Token.kept.injEq]
      | mark other side =>
        -- a mark that is spelled unseen starts with no character of this one
        have unseen := h.mark other side (by simp)
        obtain ⟨d, others, spelled⟩ := List.exists_cons_of_ne_nil unseen.ne_nil
        have differs : c ≠ d := by
          rintro rfl
          have outside := unseen.ends c (by simp [spelled])
          rcases hmark with all | all
          · exact outside.1 (all c (by simp))
          · exact outside.2 (all c (by simp))
        rw [List.flatMap_cons, spelled, List.map_cons, List.cons_append, List.cons_prefix_cons,
          List.cons_prefix_cons]
        simp [differs]

/-- The first character, if the first token is one. -/
def firstKept : List Token → Option Char
  | .kept c :: _ => some c
  | _ => none

/-- The right neighbour of a span matters only if it is a character that is kept. -/
theorem Pass.Spells.permits_head? (h : pass.Spells tokens spell) (left : Option Char) :
    pass.marks.permits left (tokens.flatMap spell).head? =
      pass.marks.permits left (firstKept tokens) := by
  cases tokens with
  | nil => rfl
  | cons token tokens =>
    cases token with
    | kept c =>
      rw [List.flatMap_cons, h.kept]
      rfl
    | mark other side =>
      have unseen := h.mark other side (by simp)
      obtain ⟨d, others, spelled⟩ := List.exists_cons_of_ne_nil unseen.ne_nil
      rw [List.flatMap_cons, spelled]
      exact (unseen.neighbour d (by simp [spelled]) left).2

/-! ### What is unseen -/

/-- The characters that a pass looks at, wherever they stand. -/
def Pass.reserved : Pass → List Char
  | strongStar => ['*', '\n']
  | strongUnderscore => ['_', '\n']
  | emphasisStar => ['*']
  | emphasisUnderscore => ['_']
  | code => ['`', '\n']
  | citation => ['[', ']']

theorem Pass.reserved_of_head? {side : Side} {c : Char} (h : (pass.mark side).head? = some c) :
    c ∈ pass.reserved := by
  cases pass <;> cases side <;> (obtain rfl := Option.some.inj h; decide)

theorem Pass.reserved_of_not_allows {c : Char} (h : ¬ pass.marks.allows c) : c ∈ pass.reserved := by
  have eq {d : Char} (h : ¬ (c != d) = true) : c = d := by simpa using h
  cases pass <;> (obtain rfl := eq h; decide)

theorem Pass.permits_of_not_reserved {c : Char} (h : c ∉ pass.reserved) (other : Option Char) :
    pass.marks.permits (some c) other = pass.marks.permits none other ∧
      pass.marks.permits other (some c) = pass.marks.permits other none := by
  cases pass with
  | emphasisStar | emphasisUnderscore =>
    have differs := bne_iff_ne.2 fun same => List.ne_of_not_mem_cons h (Option.some.inj same)
    simp only [Pass.marks, emphasisMarks, differs]
    exact ⟨rfl, rfl⟩
  | _ => exact ⟨rfl, rfl⟩

/-- A text without reserved characters is unseen, unless a mark reaches into it. -/
theorem Pass.unseen {text : Text} (nonempty : text ≠ []) (free : text.all (· ∉ pass.reserved))
    (apart : text.head?.all fun c => c ∉ pass.marks.opening ∧ c ∉ pass.marks.closing) :
    pass.marks.Unseen text := by
  have plain : ∀ c ∈ text, c ∉ pass.reserved := fun c mem =>
    of_decide_eq_true (List.all_eq_true.1 free c mem)
  have ends : ∀ c ∈ text.head?, c ∉ pass.marks.opening ∧ c ∉ pass.marks.closing := fun c mem =>
    of_decide_eq_true (Option.all_eq_true _ _ |>.1 apart c mem)
  have starts (side : Side) : ∀ c ∈ text, ∀ rest, ¬ pass.mark side <+: c :: rest := by
    intro c mem rest start
    obtain ⟨d, others, spelled⟩ := List.exists_cons_of_ne_nil (pass.mark_ne_nil side)
    rw [spelled, List.cons_prefix_cons] at start
    have first : (pass.mark side).head? = some c := by
      rw [spelled, ← start.1]
      rfl
    exact plain c mem (reserved_of_head? first)
  refine ⟨nonempty, fun c mem => ?_, fun c mem rest => ⟨starts .opening c mem rest,
    starts .closing c mem rest⟩, ends, fun c mem => permits_of_not_reserved (plain c mem)⟩
  by_contra forbidden
  exact plain c mem (reserved_of_not_allows forbidden)

/-- No pass sees the commands, its own or those of another. -/
theorem spells_rendered (pass : Pass) (tokens : List Token) :
    pass.Spells tokens Token.rendered := by
  refine ⟨fun c => rfl, fun other side _ => ?_⟩
  show pass.marks.Unseen (other.command side)
  apply Pass.unseen
  · cases other <;> cases side <;> decide
  · cases pass <;> cases other <;> cases side <;> decide
  · cases pass <;> cases other <;> cases side <;> decide

/-- The character that the marks of a pass start with. -/
def Pass.delimiter : Pass → Char
  | strongStar | emphasisStar => '*'
  | strongUnderscore | emphasisUnderscore => '_'
  | code => '`'
  | citation => '['

/-- No pass sees the marks of another delimiter. -/
theorem spells_source (others : ∀ other side, .mark other side ∈ tokens →
    other.delimiter ≠ pass.delimiter) : pass.Spells tokens Token.source := by
  refine ⟨fun c => rfl, fun other side mem => ?_⟩
  have differs := others other side mem
  show pass.marks.Unseen (other.mark side)
  apply Pass.unseen (other.mark_ne_nil side)
  · revert differs
    cases pass <;> cases other <;> cases side <;> decide
  · revert differs
    cases pass <;> cases other <;> cases side <;> decide

/-! ### Cuts -/

/-- A part of some tokens, as a pass cuts them. -/
inductive Cut
  /-- A token outside every span. -/
  | token (token : Token)
  /-- A span, given by the tokens of its body. -/
  | span (body : List Token)

namespace Cut

/-- The tokens that were cut, the marks of a span among them as characters. -/
def unmarked (pass : Pass) : Cut → List Token
  | token t => [t]
  | span body => (pass.mark .opening).map .kept ++ body ++ (pass.mark .closing).map .kept

/-- The tokens that were cut, the marks of a span among them as marks. -/
def marked (pass : Pass) : Cut → List Token
  | token t => [t]
  | span body => .mark pass .opening :: body ++ [.mark pass .closing]

/-- The pieces of the text that are spelled by the tokens of a cut. -/
def pieces (spell : Token → Text) : Cut → List Piece
  | token t => (spell t).map .char
  | span body => [.span (body.flatMap spell)]

end Cut

/-- Either no spelling of the tokens starts with a body, or all of them start with the spelling of
the same one. -/
theorem exists_body (pass : Pass) (tokens : List Token) :
    (∀ spell, pass.Spells tokens spell →
      pass.marks.bodyBeforeClosing (tokens.flatMap spell) = none) ∨
    ∃ body rest, tokens = body ++ ((pass.mark .closing).map .kept ++ rest) ∧
      ∀ spell, pass.Spells tokens spell →
        pass.marks.bodyBeforeClosing (tokens.flatMap spell) = some (body.flatMap spell) := by
  induction tokens with
  | nil => exact .inl fun spell _ => rfl
  | cons token tokens ih =>
    have behind {spell : Token → Text} (h : pass.Spells (token :: tokens) spell) :
        pass.Spells tokens spell := h.mono (List.subset_cons_self _ _)
    have closes_iff {spell : Token → Text} (h : pass.Spells (token :: tokens) spell) :
        pass.marks.closing.isPrefixOf (tokens.flatMap spell) ↔
          (pass.mark .closing).map .kept <+: tokens :=
      List.isPrefixOf_iff_prefix.trans ((behind h).prefix_iff (.inr fun c mem => mem))
    by_cases refused : ∃ c, token = .kept c ∧ ¬ pass.marks.allows c
    · obtain ⟨c, rfl, refused⟩ := refused
      refine .inl fun spell h => ?_
      rw [List.flatMap_cons, h.kept, List.singleton_append, Delimiters.bodyBeforeClosing,
        if_neg refused]
    · -- the first token is part of the body: what follows decides whether it is the whole
      have first {spell : Token → Text} (h : pass.Spells (token :: tokens) spell) :
          pass.marks.bodyBeforeClosing ((token :: tokens).flatMap spell) =
            if pass.marks.closing.isPrefixOf (tokens.flatMap spell) then some (spell token)
            else (pass.marks.bodyBeforeClosing (tokens.flatMap spell)).map (spell token ++ ·) := by
        cases token with
        | kept c =>
          have allowed : pass.marks.allows c := by
            by_contra forbidden
            exact refused ⟨c, rfl, forbidden⟩
          rw [List.flatMap_cons, h.kept, List.singleton_append, Delimiters.bodyBeforeClosing,
            if_pos allowed]
          rfl
        | mark other side =>
          have unseen := h.mark other side (by simp)
          rw [List.flatMap_cons]
          exact Delimiters.bodyBeforeClosing_append_of_allowed unseen.ne_nil unseen.allowed
            (Delimiters.startsNowhere_of_forall (fun c mem rest => (unseen.starts c mem rest).2) _)
      by_cases closed : (pass.mark .closing).map .kept <+: tokens
      · obtain ⟨rest, rfl⟩ := closed
        refine .inr ⟨[token], rest, rfl, fun spell h => ?_⟩
        rw [first h, if_pos ((closes_iff h).2 (List.prefix_append _ _)), List.flatMap_singleton]
      · rcases ih with none | ⟨body, rest, rfl, found⟩
        · refine .inl fun spell h => ?_
          rw [first h, if_neg (mt (closes_iff h).1 closed), none spell (behind h)]
          rfl
        · refine .inr ⟨token :: body, rest, rfl, fun spell h => ?_⟩
          rw [first h, if_neg (mt (closes_iff h).1 closed), found spell (behind h)]
          rfl

/-- Either no spelling of the tokens starts with a span, or all of them start with the spelling of
the same one. -/
theorem exists_bodyAtStart (pass : Pass) (tokens : List Token) :
    (∀ spell, pass.Spells tokens spell →
      pass.marks.bodyAtStart (tokens.flatMap spell) = none) ∨
    ∃ body rest, tokens = (Cut.span body).unmarked pass ++ rest ∧
      ∀ spell, pass.Spells tokens spell →
        pass.marks.bodyAtStart (tokens.flatMap spell) = some (body.flatMap spell) := by
  by_cases opened : (pass.mark .opening).map .kept <+: tokens
  · obtain ⟨inner, rfl⟩ := opened
    have start {spell : Token → Text}
        (h : pass.Spells ((pass.mark .opening).map .kept ++ inner) spell) :
        pass.marks.bodyAtStart (((pass.mark .opening).map Token.kept ++ inner).flatMap spell) =
          pass.marks.bodyBeforeClosing (inner.flatMap spell) := by
      have spelled : ((pass.mark .opening).map Token.kept ++ inner).flatMap spell =
          pass.marks.opening ++ inner.flatMap spell := by
        rw [List.flatMap_append, h.flatMap_kept]
        rfl
      rw [spelled, Delimiters.bodyAtStart,
        if_pos (List.isPrefixOf_iff_prefix.2 (List.prefix_append _ _)), List.drop_left]
    have within {spell : Token → Text}
        (h : pass.Spells ((pass.mark .opening).map .kept ++ inner) spell) :
        pass.Spells inner spell := h.mono (List.subset_append_right _ _)
    rcases exists_body pass inner with none | ⟨body, rest, rfl, found⟩
    · exact .inl fun spell h => (start h).trans (none spell (within h))
    · refine .inr ⟨body, rest, ?_, fun spell h => (start h).trans (found spell (within h))⟩
      simp only [Cut.unmarked, List.append_assoc]
  · refine .inl fun spell h => ?_
    rw [Delimiters.bodyAtStart, if_neg]
    intro starts
    exact opened ((h.prefix_iff (.inl fun c mem => mem)).1 (List.isPrefixOf_iff_prefix.1 starts))

/-- What the search remembers of a token that it has passed. -/
def Token.remembered : Token → Option Char
  | kept c => some c
  | mark _ _ => none

theorem Pass.Spells.permits_getLast? {token : Token} (h : pass.Spells (token :: tokens) spell)
    (right : Option Char) :
    pass.marks.permits (spell token).getLast? right =
      pass.marks.permits token.remembered right := by
  cases token with
  | kept c =>
    rw [h.kept]
    rfl
  | mark other side =>
    have unseen := h.mark other side (by simp)
    obtain ⟨last, isLast⟩ := Option.isSome_iff_exists.1 (List.getLast?_isSome.2 unseen.ne_nil)
    rw [isLast]
    exact (unseen.neighbour last (List.mem_of_getLast? isLast) right).1

/-- Where no span is made, the first token stands alone and the search goes on behind it. -/
theorem Pass.Spells.piecesAfter_cons {token : Token} {before : Option Char}
    (h : pass.Spells (token :: tokens) spell)
    (refused : ∀ body, pass.marks.bodyAtStart ((token :: tokens).flatMap spell) = some body →
      ¬ pass.marks.permits before
        (((token :: tokens).flatMap spell).drop (pass.marks.enclose body).length).head?) :
    pass.marks.piecesAfter before ((token :: tokens).flatMap spell) =
      (spell token).map .char ++
        pass.marks.piecesAfter (spell token).getLast? (tokens.flatMap spell) := by
  cases token with
  | kept c =>
    rw [List.flatMap_cons, h.kept, List.singleton_append] at refused ⊢
    exact Delimiters.piecesAfter_cons_of_refused refused
  | mark other side =>
    -- nothing starts in a mark that is spelled unseen
    have unseen := h.mark other side (by simp)
    obtain ⟨last, isLast⟩ := Option.isSome_iff_exists.1 (List.getLast?_isSome.2 unseen.ne_nil)
    have starts := Delimiters.startsNowhere_of_forall fun c mem rest =>
      (unseen.starts c mem rest).1
    rw [List.flatMap_cons, Delimiters.piecesAfter_append (starts _), isLast]
    rfl

/-- The cuts of a search that goes on behind a character. `seen` is what it remembers of it. -/
theorem exists_cutsAfter (pass : Pass) (seen : Option Char) (tokens : List Token) :
    ∃ cuts : List Cut, cuts.flatMap (Cut.unmarked pass) = tokens ∧
      ∀ spell before, pass.Spells tokens spell →
        (∀ right, pass.marks.permits before right = pass.marks.permits seen right) →
        pass.marks.piecesAfter before (tokens.flatMap spell) =
          cuts.flatMap (Cut.pieces spell) := by
  induction length : tokens.length using Nat.strongRecOn generalizing seen tokens with
  | ind n ih =>
    subst length
    cases tokens with
    | nil =>
      refine ⟨[], rfl, fun spell before _ _ => ?_⟩
      rw [List.flatMap_nil, Delimiters.piecesAfter, List.flatMap_nil]
    | cons token tokens =>
      obtain ⟨others, cut, found⟩ := ih tokens.length (by simp) token.remembered tokens rfl
      have alone (refused : ∀ spell before body, pass.Spells (token :: tokens) spell →
          (∀ right, pass.marks.permits before right = pass.marks.permits seen right) →
          pass.marks.bodyAtStart ((token :: tokens).flatMap spell) = some body →
          ¬ pass.marks.permits before
            (((token :: tokens).flatMap spell).drop (pass.marks.enclose body).length).head?) :
          ∃ cuts : List Cut, cuts.flatMap (Cut.unmarked pass) = token :: tokens ∧
            ∀ spell before, pass.Spells (token :: tokens) spell →
              (∀ right, pass.marks.permits before right = pass.marks.permits seen right) →
              pass.marks.piecesAfter before ((token :: tokens).flatMap spell) =
                cuts.flatMap (Cut.pieces spell) := by
        refine ⟨.token token :: others, by rw [List.flatMap_cons, cut]; rfl, ?_⟩
        intro spell before h like
        rw [h.piecesAfter_cons fun body => refused spell before body h like,
          found spell _ (h.mono (List.subset_cons_self _ _)) h.permits_getLast?]
        rfl
      rcases exists_bodyAtStart pass (token :: tokens) with none | ⟨body, rest, spans, starts⟩
      · refine alone fun spell before body h _ some => ?_
        cases (none spell h).symm.trans some
      · -- the one span that starts here is made or refused, whatever the spelling
        have spelled {spell : Token → Text} (h : pass.Spells (token :: tokens) spell) :
            (token :: tokens).flatMap spell =
              pass.marks.enclose (body.flatMap spell) ++ rest.flatMap spell := by
          rw [spans]
          simp only [Cut.unmarked, List.flatMap_append, h.flatMap_kept]
          rfl
        have behind {spell : Token → Text} (h : pass.Spells (token :: tokens) spell) :
            pass.Spells rest spell := by
          rw [spans] at h
          exact h.mono (List.subset_append_right _ _)
        by_cases permitted : pass.marks.permits seen (firstKept rest)
        · have shorter : rest.length < (token :: tokens).length := by
            have opening := List.length_pos_iff.2 (pass.mark_ne_nil .opening)
            rw [spans]
            simp only [Cut.unmarked, List.length_append, List.length_map]
            omega
          obtain ⟨later, cutLater, foundLater⟩ :=
            ih rest.length shorter (pass.mark .closing).getLast? rest rfl
          refine ⟨.span body :: later, by rw [List.flatMap_cons, cutLater, spans], ?_⟩
          intro spell before h like
          have here := starts spell h
          rw [spelled h] at here ⊢
          rw [Delimiters.piecesAfter_of_span here (by
            rwa [like, (behind h).permits_head?])]
          rw [foundLater spell _ (behind h) fun right => by
            rw [Delimiters.getLast?_enclose (pass.mark_ne_nil .closing)]
            rfl]
          rfl
        · refine alone fun spell before other h like some => ?_
          obtain rfl := Option.some.inj ((starts spell h).symm.trans some)
          rw [spelled h, List.drop_left, like, (behind h).permits_head?]
          exact permitted

/-- **A pass cuts the tokens, not their spelling.** However the tokens are spelled, if the marks
among them are unseen, the pieces of the text are spellings of the same cuts. -/
theorem exists_cuts (pass : Pass) (tokens : List Token) :
    ∃ cuts : List Cut, cuts.flatMap (Cut.unmarked pass) = tokens ∧
      ∀ spell, pass.Spells tokens spell →
        pass.marks.pieces (tokens.flatMap spell) = cuts.flatMap (Cut.pieces spell) := by
  obtain ⟨cuts, cut, found⟩ := exists_cutsAfter pass none tokens
  exact ⟨cuts, cut, fun spell h => found spell none h fun right => rfl⟩

end Inline
end Manuscript
