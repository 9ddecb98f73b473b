import Manuscript.Proofs.Document.Seam

/-!
# The blocks of a document

A document is made of blocks: a line of its own, a list with every line that goes on with it, or a
literal block between its two fences. Nothing is open between two blocks, so each of them is
converted as if it were a document of its own.

* `Document.block_induction`: what holds of no lines, and with every block in front, holds of the
  lines of every document.
* `Document.wholeOfLines_single`, `Document.wholeOfLines_list`, `Document.wholeOfLines_literal`:
  what each block contributes. The one block that can lack its end is a literal block, and then it
  is the last one (`Document.wholeOfLines_unterminated`).
* `Document.separate_single`, `Document.separate_list`, `Document.separate_literal`: nothing goes on
  from a block to the lines after it.
-/

namespace Manuscript

namespace Line

/-- What a line emits outside lists and literal blocks that is neither a fence nor an item. -/
def alone (line : Text) : Text :=
  match heading? line with
  | some heading => heading.latex
  | none => if isBlank line then [] else Inline.format line

/-- What a line emits that belongs to a list: an item, or the text of a bare marker. -/
def entry (line : Text) : Text :=
  match listItem? line with
  | some item => item.latex
  | none => Inline.format line

end Line

namespace Step

/-! ### Lines inside a block -/

theorem ofLine_prose_of_single {line : Text} (fence : Line.isFence line = false)
    (item : Line.listItem? line = none) :
    ∃ events headings, ofLine .standard .prose line =
      { context := .prose, lines := [Line.alone line], events, tally := { headings } } := by
  rw [Line.isFence_eq_classify] at fence
  rw [Line.listItem?_eq_classify] at item
  rw [ofLine_standard, Line.alone, Line.heading?_eq_classify, Line.isBlank_eq_classify]
  cases type : Line.classify line with
  | fence => simp [type, Line.Class.isFence] at fence
  | item found => simp [type, Line.Class.item?] at item
  | heading heading => exact ⟨_, 1, rfl⟩
  | bareMarker => exact ⟨_, 0, rfl⟩
  | blank => exact ⟨_, 0, rfl⟩
  | paragraph => exact ⟨_, 0, rfl⟩

theorem ofLine_list_of_continues {kind : ListKind} {line : Text}
    (h : Line.continues kind line) :
    ∃ events listItems, ofLine .standard (.list kind) line =
      { context := .list kind, lines := [Line.entry line], events, tally := { listItems } } := by
  rw [← Line.continues_classify] at h
  rw [ofLine_standard, ofClass, if_pos h, Line.entry, Line.listItem?_eq_classify]
  cases type : Line.classify line with
  | item item =>
    obtain rfl : item.kind = kind := by simpa [type, Line.Class.continues] using h
    exact ⟨_, 1, rfl⟩
  | bareMarker => exact ⟨_, 0, rfl⟩
  | _ => simp [type, Line.Class.continues] at h

/-- Lines that go on with a list emit its entries, one each, and leave it open. -/
theorem ofLines_list_of_continues {kind : ListKind} {lines : List Text}
    (h : ∀ line ∈ lines, Line.continues kind line) :
    ∃ events listItems, ofLines .standard (.list kind) lines =
      { context := .list kind, lines := lines.map Line.entry, events, tally := { listItems } } := by
  induction lines with
  | nil => exact ⟨[], 0, rfl⟩
  | cons line rest ih =>
    obtain ⟨events, listItems, first⟩ := ofLine_list_of_continues (h line (by simp))
    obtain ⟨moreEvents, more, others⟩ := ih fun other mem => h other (by simp [mem])
    refine ⟨events ++ moreEvents, listItems + more, ?_⟩
    rw [ofLines, first, others]
    rfl

theorem ofLine_literal_of_not_isFence {line : Text} (h : Line.isFence line = false) :
    ofLine .standard .literal line = (emit .literal line).record (.claimed .literal) := by
  rw [Line.isFence_eq_classify] at h
  rw [ofLine_standard, ofClass]
  cases type : Line.classify line with
  | fence => simp [type, Line.Class.isFence] at h
  | _ => rfl

/-- Lines of a literal block are copied. -/
theorem ofLines_literal {lines : List Text} (h : ∀ line ∈ lines, Line.isFence line = false) :
    ∃ events, ofLines .standard .literal lines = { context := .literal, lines, events } := by
  induction lines with
  | nil => exact ⟨[], rfl⟩
  | cons line rest ih =>
    obtain ⟨events, others⟩ := ih fun other mem => h other (by simp [mem])
    refine ⟨.claimed .literal :: events, ?_⟩
    rw [ofLines, ofLine_literal_of_not_isFence (h line (by simp))]
    show Step.andThen _ (ofLines .standard .literal rest) = _
    rw [others]
    rfl

theorem ofLine_prose_of_isFence {line : Text} (h : Line.isFence line) :
    ofLine .standard .prose line = openLiteral.record (.claimed .fence) := by
  rw [ofLine_standard, Line.classify_eq_fence_iff.2 h]
  rfl

theorem ofLine_literal_of_isFence {line : Text} (h : Line.isFence line) :
    ofLine .standard .literal line = closeLiteral.record (.claimed .fence) := by
  rw [ofLine_standard, Line.classify_eq_fence_iff.2 h]
  rfl

/-! ### Runs over a block -/

theorem ofLines_prose_of_single {line : Text} (fence : Line.isFence line = false)
    (item : Line.listItem? line = none) :
    ∃ events headings, ofLines .standard .prose [line] =
      { context := .prose, lines := [Line.alone line], events, tally := { headings } } := by
  obtain ⟨events, headings, run⟩ := ofLine_prose_of_single fence item
  exact ⟨events, headings, (andThen_stay _).trans run⟩

theorem ofLines_prose_of_list {item : Line.ListItem} {first : Text} {others : List Text}
    (starts : Line.listItem? first = some item)
    (goOn : ∀ line ∈ others, Line.continues item.kind line) :
    ∃ events listItems, ofLines .standard .prose (first :: others) =
      { context := .list item.kind
        lines := item.kind.environment.opening :: (first :: others).map Line.entry
        events
        tally := { listItems, listsOpened := 1 } } := by
  have inside : ∀ line ∈ first :: others, Line.continues item.kind line := by
    intro line mem
    rcases List.mem_cons.1 mem with rfl | mem
    · simp [Line.continues, starts]
    · exact goOn line mem
  obtain ⟨events, listItems, run⟩ := ofLines_list_of_continues inside
  refine ⟨.openList item.kind :: events, listItems, ?_⟩
  rw [ofLines_prose_of_listItem? others starts, run]
  show Step.mk _ _ _ (Tally.mk _ (0 + listItems) _ _) = _
  rw [Nat.zero_add]
  rfl

theorem ofLines_prose_of_unterminated {opening : Text} {copied : List Text}
    (fence : Line.isFence opening) (plain : ∀ line ∈ copied, Line.isFence line = false) :
    ∃ events, ofLines .standard .prose (opening :: copied) =
      { context := .literal
        lines := Latex.Environment.verbatim.opening :: copied
        events
        tally := { literalBlocks := 1 } } := by
  obtain ⟨events, run⟩ := ofLines_literal plain
  refine ⟨.openLiteral :: .claimed .fence :: events, ?_⟩
  rw [ofLines, ofLine_prose_of_isFence fence]
  show Step.andThen _ (ofLines .standard .literal copied) = _
  rw [run]
  rfl

theorem ofLines_prose_of_literal {opening closing : Text} {copied : List Text}
    (fence : Line.isFence opening) (plain : ∀ line ∈ copied, Line.isFence line = false)
    (closes : Line.isFence closing) :
    ∃ events, ofLines .standard .prose (opening :: (copied ++ [closing])) =
      { context := .prose
        lines := Latex.Environment.verbatim.opening :: (copied ++
          [Latex.Environment.verbatim.closing])
        events
        tally := { literalBlocks := 1 } } := by
  obtain ⟨events, run⟩ := ofLines_prose_of_unterminated fence plain
  refine ⟨events ++ [.claimed .fence], ?_⟩
  rw [← List.cons_append, ofLines_concat, run, ofLine_literal_of_isFence closes]
  rfl

end Step

namespace Document

/-! ### Block by block -/

/-- **Induction over the blocks of a document.** -/
@[elab_as_elim]
theorem block_induction {motive : List Text → Prop}
    (nil : motive [])
    (single : ∀ line rest, Line.isFence line = false → Line.listItem? line = none →
      motive rest → motive ([line] ++ rest))
    (list : ∀ item first others rest, Line.listItem? first = some item →
      (∀ line ∈ others, Line.continues item.kind line) →
      (∀ next ∈ rest.head?, Line.continues item.kind next = false) →
      motive rest → motive ((first :: others) ++ rest))
    (literal : ∀ opening copied closing rest, Line.isFence opening →
      (∀ line ∈ copied, Line.isFence line = false) → Line.isFence closing →
      motive rest → motive ((opening :: (copied ++ [closing])) ++ rest))
    (unterminated : ∀ opening copied, Line.isFence opening →
      (∀ line ∈ copied, Line.isFence line = false) → motive (opening :: copied))
    (lines : List Text) : motive lines := by
  induction size : lines.length using Nat.strong_induction_on generalizing lines with
  | _ size ih =>
  subst size
  cases lines with
  | nil => exact nil
  | cons line rest =>
    cases item : Line.listItem? line with
    | some found =>
      -- the list goes on for as long as its lines do
      have shorter : (rest.dropWhile (Line.continues found.kind)).length < (line :: rest).length :=
        Nat.lt_succ_of_le (List.dropWhile_suffix _).length_le
      have block := list found line (rest.takeWhile (Line.continues found.kind))
        (rest.dropWhile (Line.continues found.kind)) item (fun _ mem => List.mem_takeWhile_imp mem)
        (fun next mem => by
          have := List.head?_dropWhile_not (Line.continues found.kind) rest
          rw [Option.mem_def] at mem
          simpa [mem] using this)
        (ih _ shorter _ rfl)
      rwa [List.cons_append, List.takeWhile_append_dropWhile] at block
    | none =>
      cases fence : Line.isFence line with
      | false => exact single line rest fence item (ih _ (Nat.lt_succ_self _) _ rfl)
      | true =>
        -- the literal block reaches to the next fence, or to the end
        have plain : ∀ copied ∈ rest.takeWhile (!Line.isFence ·), Line.isFence copied = false :=
          fun _ mem => by simpa using List.mem_takeWhile_imp mem
        have cut := List.takeWhile_append_dropWhile (p := (!Line.isFence ·)) (l := rest)
        cases after : rest.dropWhile (!Line.isFence ·) with
        | nil =>
          rw [after, List.append_nil] at cut
          rw [cut] at plain
          exact unterminated line rest fence plain
        | cons closing others =>
          have closes : Line.isFence closing := by
            have := List.head?_dropWhile_not (!Line.isFence ·) rest
            simpa [after] using this
          have shorter : others.length < (line :: rest).length := by
            have := (List.dropWhile_suffix (!Line.isFence ·) (l := rest)).length_le
            rw [after, List.length_cons] at this
            rw [List.length_cons]
            omega
          have block := literal line _ closing others fence plain closes (ih _ shorter _ rfl)
          rw [after] at cut
          rwa [List.cons_append, List.append_assoc, List.singleton_append, cut] at block

/-! ### What a block contributes -/

theorem separate_single {line : Text} (rest : List Text) (fence : Line.isFence line = false)
    (item : Line.listItem? line = none) : Separate [line] rest := by
  obtain ⟨events, headings, body⟩ := Step.ofLines_prose_of_single fence item
  refine .of_context_eq_prose ?_
  rw [body]

theorem separate_list {item : Line.ListItem} {first : Text} {others rest : List Text}
    (starts : Line.listItem? first = some item)
    (goOn : ∀ line ∈ others, Line.continues item.kind line)
    (ends : ∀ next ∈ rest.head?, Line.continues item.kind next = false) :
    Separate (first :: others) rest := by
  obtain ⟨events, listItems, body⟩ := Step.ofLines_prose_of_list starts goOn
  constructor
  · rw [body]
    simp
  · intro kind context
    obtain rfl : item.kind = kind := by simpa [body] using context
    exact ends

theorem separate_literal {opening closing : Text} {copied : List Text} (rest : List Text)
    (fence : Line.isFence opening) (plain : ∀ line ∈ copied, Line.isFence line = false)
    (closes : Line.isFence closing) : Separate (opening :: (copied ++ [closing])) rest := by
  obtain ⟨events, body⟩ := Step.ofLines_prose_of_literal fence plain closes
  refine .of_context_eq_prose ?_
  rw [body]

variable (options : Options)

theorem wholeOfLines_single {line : Text} (fence : Line.isFence line = false)
    (item : Line.listItem? line = none) :
    ∃ events headings, wholeOfLines options [line] =
      { context := .prose, lines := [Line.alone line], events, tally := { headings } } := by
  obtain ⟨events, headings, body⟩ := Step.ofLines_prose_of_single fence item
  refine ⟨events, headings, ?_⟩
  rw [wholeOfLines, body]
  exact Step.andThen_stay _

theorem wholeOfLines_list {item : Line.ListItem} {first : Text} {others : List Text}
    (starts : Line.listItem? first = some item)
    (goOn : ∀ line ∈ others, Line.continues item.kind line) :
    ∃ events listItems, wholeOfLines options (first :: others) =
      { context := .prose
        lines := item.kind.environment.opening :: ((first :: others).map Line.entry ++
          [item.kind.environment.closing])
        events
        tally := { listItems, listsOpened := 1 } } := by
  obtain ⟨events, listItems, body⟩ := Step.ofLines_prose_of_list starts goOn
  refine ⟨events ++ [.closeList item.kind], listItems, ?_⟩
  rw [wholeOfLines, body]
  rfl

theorem wholeOfLines_literal {opening closing : Text} {copied : List Text}
    (fence : Line.isFence opening) (plain : ∀ line ∈ copied, Line.isFence line = false)
    (closes : Line.isFence closing) :
    ∃ events, wholeOfLines options (opening :: (copied ++ [closing])) =
      { context := .prose
        lines := Latex.Environment.verbatim.opening :: (copied ++
          [Latex.Environment.verbatim.closing])
        events
        tally := { literalBlocks := 1 } } := by
  obtain ⟨events, body⟩ := Step.ofLines_prose_of_literal fence plain closes
  refine ⟨events, ?_⟩
  rw [wholeOfLines, body]
  exact Step.andThen_stay _

/-- A literal block without its second fence is the last block, and ends as the options say. -/
theorem wholeOfLines_unterminated {opening : Text} {copied : List Text}
    (fence : Line.isFence opening) (plain : ∀ line ∈ copied, Line.isFence line = false) :
    ∃ events, wholeOfLines options (opening :: copied) =
      { context := if options.closeUnterminated then .prose else .literal
        lines := Latex.Environment.verbatim.opening :: (copied ++
          if options.closeUnterminated then [Latex.Environment.verbatim.closing] else [])
        events
        tally := { literalBlocks := 1 } } := by
  obtain ⟨events, body⟩ := Step.ofLines_prose_of_unterminated fence plain
  refine ⟨events ++ [.unterminated options.closeUnterminated], ?_⟩
  rw [wholeOfLines, body]
  cases close : options.closeUnterminated <;> simp only [ending, close] <;> rfl

end Document
end Manuscript
