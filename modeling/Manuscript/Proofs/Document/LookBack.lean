import Manuscript.Proofs.Document.LineStep
import Mathlib.Data.List.Induction

/-!
# Looking back

A conversion carries what is open from one line to the next. The same can be read off the lines
already passed, without a state:

* a line is inside a literal block iff an odd number of fences is in front of it
  (`LookBack.insideLiteral`);
* a list is open in front of a line iff the line is not inside a literal block, and the nearest
  earlier line that is no bare marker is an item of that list (`LookBack.openList?`).

Main statement: `Document.latex_eq_joinLines_groups`. The result is one group of lines for each line
of the document, in order, and one for its end, where each group is given by looking back. The
invariant that carries it is `LookBack.context_ofLines`: the state carried is the one read off.
-/

namespace Manuscript

/-- A line of a document, with the lines in front of it. -/
structure Placed where
  earlier : List Text
  line : Text

/-- The lines of a document in order, each with the lines in front of it. -/
def placed (lines : List Text) : List Placed := lines.mapIdx fun i line => ⟨lines.take i, line⟩

theorem placed_concat (lines : List Text) (line : Text) :
    placed (lines ++ [line]) = placed lines ++ [⟨lines, line⟩] := by
  rw [placed, List.mapIdx_concat, placed]
  congr 1
  · -- what is in front of a line does not change when lines are added behind it
    rw [List.mapIdx_eq_mapIdx_iff]
    intro i h
    rw [List.take_append_of_le_length (Nat.le_of_lt h)]
  · simp

namespace LookBack

/-! ### What is open -/

/-- Whether the line after these is inside a literal block: an odd number of them are fences. -/
def insideLiteral (earlier : List Text) : Bool := earlier.countP Line.isFence % 2 == 1

/-- The nearest of these lines that is no bare marker. -/
def nearest? (earlier : List Text) : Option Text := earlier.reverse.find? (!Line.isBareMarker ·)

/-- The kind of list that is open in front of the line after these, if one is. -/
def openList? (earlier : List Text) : Option ListKind :=
  if insideLiteral earlier then none
  else (nearest? earlier).bind fun line =>
    if Line.isFence line then none else (Line.listItem? line).map (·.kind)

/-! ### What is emitted -/

/-- The end of the open list, if one is open. -/
def closing (earlier : List Text) : List Text :=
  match openList? earlier with
  | some kind => [kind.environment.closing]
  | none => []

/-- The lines emitted for a line, given the lines in front of it. -/
def group (earlier : List Text) (line : Text) : List Text :=
  if Line.isFence line then
    if insideLiteral earlier then [Latex.Environment.verbatim.closing]
    else closing earlier ++ [Latex.Environment.verbatim.opening]
  else if insideLiteral earlier then [line]
  else match Line.heading? line, Line.listItem? line with
  | some heading, _ => closing earlier ++ [heading.latex]
  | none, some item =>
    if openList? earlier = some item.kind then [item.latex]
    else closing earlier ++ [item.kind.environment.opening, item.latex]
  | none, none =>
    if Line.isBareMarker line then [Inline.format line]
    else if Line.isBlank line then closing earlier ++ [[]]
    else closing earlier ++ [Inline.format line]

/-- The lines emitted at the end of a document that consists of these lines. -/
def endGroup (options : Options) (lines : List Text) : List Text :=
  if insideLiteral lines then
    if options.closeUnterminated then [Latex.Environment.verbatim.closing] else []
  else closing lines

/-! ### The context carried is the one read off -/

/-- What is open after these lines. -/
def context (earlier : List Text) : BlockContext :=
  if insideLiteral earlier then .literal else (openList? earlier).elim .prose .list

theorem context_eq_literal_iff (earlier : List Text) :
    context earlier = .literal ↔ insideLiteral earlier := by
  rw [context]
  cases insideLiteral earlier with
  | true => simp
  | false => cases openList? earlier <;> simp

theorem insideLiteral_concat (earlier : List Text) (line : Text) :
    insideLiteral (earlier ++ [line]) = (insideLiteral earlier != Line.isFence line) := by
  rw [insideLiteral, insideLiteral, List.countP_append, List.countP_singleton]
  cases Line.isFence line <;> grind

theorem nearest?_concat (earlier : List Text) (line : Text) :
    nearest? (earlier ++ [line]) =
      if Line.isBareMarker line then nearest? earlier else some line := by
  rw [nearest?, List.reverse_append, List.reverse_singleton, List.singleton_append, List.find?_cons]
  cases Line.isBareMarker line <;> rfl

/-- Outside literal blocks, a bare marker is passed over on the way back, and any other line is the
nearest. -/
theorem openList?_concat {earlier : List Text} {line : Text}
    (outside : insideLiteral earlier = false) :
    openList? (earlier ++ [line]) =
      if Line.isBareMarker line then openList? earlier
      else (Line.listItem? line).map (·.kind) := by
  rw [openList?, openList?, insideLiteral_concat, nearest?_concat, outside,
    Line.isFence_eq_classify, Line.isBareMarker_eq_classify, Line.listItem?_eq_classify]
  cases type : Line.classify line <;>
    simp [Line.Class.isFence, Line.Class.isBareMarker, Line.Class.item?, Line.isFence_eq_classify,
      Line.listItem?_eq_classify, type]

/-- A fence ends any list, and the literal block that it may end holds none. -/
theorem openList?_concat_of_isFence (earlier : List Text) {line : Text}
    (fence : Line.isFence line) : openList? (earlier ++ [line]) = none := by
  have type : Line.classify line = .fence := Line.classify_eq_fence_iff.2 fence
  have bare : Line.isBareMarker line = false := by rw [Line.isBareMarker_eq_classify, type]; rfl
  rw [openList?, nearest?_concat, bare]
  simp [fence]

/-- **One more line.** Reading the context off one more line is carrying it over that line. -/
theorem context_concat (earlier : List Text) (line : Text) :
    context (earlier ++ [line]) = (Line.classify line).leaves (context earlier) := by
  cases inside : insideLiteral earlier with
  | true =>
    have before : context earlier = .literal := by rw [context, inside]; rfl
    rw [before]
    by_cases fence : Line.isFence line
    · -- the block ends, and the fence that ends it is the nearest line: no list is open
      rw [context, insideLiteral_concat, inside, fence, openList?_concat_of_isFence _ fence,
        Line.classify_eq_fence_iff.2 fence]
      rfl
    · -- any other line is inside the block
      rw [context, insideLiteral_concat, inside, eq_false_of_ne_true fence]
      rw [← Line.classify_eq_fence_iff] at fence
      cases type : Line.classify line with
      | fence => exact absurd type fence
      | _ => rfl
  | false =>
    -- what is read off depends on the class of the line only, and on the list open in front of it
    rw [context, context, openList?_concat inside, insideLiteral_concat, inside,
      Line.isFence_eq_classify, Line.isBareMarker_eq_classify, Line.listItem?_eq_classify]
    cases Line.classify line <;> cases openList? earlier <;> rfl

/-- **The invariant.** What a conversion carries is what looking back reads off. -/
theorem context_ofLines (lines : List Text) :
    (Step.ofLines .standard .prose lines).context = context lines := by
  -- the induction is on the last line, since what is read off is read off the lines in front
  induction lines using List.reverseRecOn with
  | nil => rfl
  | append_singleton earlier line ih =>
    rw [Step.ofLines_concat, Step.context_andThen, ih, Step.context_ofLine, context_concat]

/-! ### The lines emitted are the groups read off -/

theorem lines_ofLine (earlier : List Text) (line : Text) :
    (Step.ofLine .standard (context earlier) line).lines = group earlier line := by
  rw [Step.ofLine_standard, group, context, closing, Line.isFence_eq_classify,
    Line.heading?_eq_classify, Line.listItem?_eq_classify, Line.isBareMarker_eq_classify,
    Line.isBlank_eq_classify]
  cases inside : insideLiteral earlier with
  | true => cases Line.classify line <;> rfl
  | false =>
    cases openList? earlier with
    | none => cases Line.classify line <;> rfl
    | some kind =>
      cases type : Line.classify line with
      | item item =>
        -- the list goes on, or it ends and another one opens
        show (Step.ofClass line (.item item) (.list kind)).lines =
          if some kind = some item.kind then [item.latex]
          else [kind.environment.closing] ++ [item.kind.environment.opening, item.latex]
        by_cases same : item.kind = kind
        · subst same
          rw [Step.ofClass_item_self, if_pos rfl]
          rfl
        · have other : some kind ≠ some item.kind := fun h => same (Option.some.inj h).symm
          rw [Step.ofClass_item_of_ne line same, if_neg other]
          rfl
      | _ => rfl

theorem lines_ofLines (lines : List Text) :
    (Step.ofLines .standard .prose lines).lines =
      (placed lines).flatMap fun place => group place.earlier place.line := by
  induction lines using List.reverseRecOn with
  | nil => rfl
  | append_singleton earlier line ih =>
    rw [placed_concat, List.flatMap_append, ← ih, Step.ofLines_concat, context_ofLines]
    show _ ++ _ = _ ++ _
    rw [lines_ofLine, List.flatMap_singleton]

theorem lines_ending (options : Options) (lines : List Text) :
    (Document.ending options (context lines)).lines = endGroup options lines := by
  rw [endGroup, context, closing]
  cases insideLiteral lines with
  | true => cases close : options.closeUnterminated <;> simp [Document.ending, close] <;> rfl
  | false => cases openList? lines <;> rfl

end LookBack

namespace Document

theorem context_body (text : Text) :
    (body .standard text).context = LookBack.context text.lines :=
  LookBack.context_ofLines text.lines

/-- **A document, without a state.** The result is one group for each line, in order, and one for
the end of the document, each of them read off the lines in front of it. -/
theorem latex_eq_joinLines_groups (options : Options) (text : Text) :
    (convert options text).latex =
      Text.joinLines
        ((placed text.lines).flatMap (fun place => LookBack.group place.earlier place.line) ++
          LookBack.endGroup options text.lines) := by
  show Text.joinLines (_ ++ _) = _
  rw [context_body, LookBack.lines_ending, body, LookBack.lines_ofLines]

end Document
end Manuscript
