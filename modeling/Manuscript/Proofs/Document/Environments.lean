import Manuscript.Proofs.Document.Markers

/-!
# The environments of the result

Where no line of the document is a marker, the markers of the result come in pairs, one environment
after the other (`Document.paired_wholeOfLines`); a list environment holds the entries of one list
(`Document.listBody_of_wholeOfLines`), and every item is in one (`Document.enclosed`).

Main statement: `Document.wellDelimited`.
-/

namespace Manuscript

theorem ListKind.environment_injective {kind other : ListKind}
    (h : kind.environment = other.environment) : kind = other := by
  cases kind <;> cases other <;> first | rfl | cases h

/-! ### Pairs -/

/-- The markers that a step emits come in pairs, but for the beginning of a literal block that it
leaves open, and are as many as it counts. -/
structure Step.Paired (step : Step) : Prop where
  pairs : ∃ closed : List Latex.Environment, markers step.lines =
    closed.flatMap Marker.pair ++ if step.context = .literal then [.opening .verbatim] else []
  lists : (markers step.lines).countP Marker.opensList = step.tally.listsOpened
  literals : (markers step.lines).count (.opening .verbatim) = step.tally.literalBlocks

/-- A step after one that leaves nothing open. -/
theorem Step.Paired.andThen {first second : Step} (hfirst : first.Paired) (hsecond : second.Paired)
    (closed : first.context = .prose) : (first.andThen second).Paired where
  pairs := by
    obtain ⟨before, hbefore⟩ := hfirst.pairs
    obtain ⟨after, hafter⟩ := hsecond.pairs
    refine ⟨before ++ after, ?_⟩
    rw [Step.lines_andThen, markers_append, hbefore, hafter, closed, if_neg (by simp),
      List.append_nil, List.flatMap_append, List.append_assoc]
    rfl
  lists := by
    rw [Step.lines_andThen, markers_append, List.countP_append, hfirst.lists, hsecond.lists]
    rfl
  literals := by
    rw [Step.lines_andThen, markers_append, List.count_append, hfirst.literals, hsecond.literals]
    rfl

/-- A step that emits one environment around lines without markers, and counts it. -/
theorem Step.paired_of_environment {step : Step} {environment : Latex.Environment}
    {inside : List Text} (plain : markers inside = [])
    (lines : step.lines = environment.opening :: (inside ++ [environment.closing]))
    (closed : step.context ≠ .literal)
    (lists : (Marker.pair environment).countP Marker.opensList = step.tally.listsOpened)
    (literals : (Marker.pair environment).count (.opening .verbatim) = step.tally.literalBlocks) :
    step.Paired := by
  have pair : markers step.lines = Marker.pair environment := by
    rw [lines, markers_environment environment plain]
  refine ⟨⟨[environment], ?_⟩, ?_, ?_⟩
  · rw [pair, if_neg closed]
    rfl
  · rw [pair, lists]
  · rw [pair, literals]

/-- The rule for items claims items only, and none inside a literal block. -/
theorem Step.exists_item_of_claimed {context : BlockContext} {line : Text}
    (h : .claimed .listItem ∈ (ofLine .standard context line).events) :
    context ≠ .literal ∧ ∃ item, Line.listItem? line = some item := by
  rw [ofLine_standard] at h
  rw [Line.listItem?_eq_classify]
  have notLiteral : context ≠ .literal := by
    rintro rfl
    cases type : Line.classify line <;>
      simp [type, ofClass, inLiteral, closeLiteral, emit, record] at h
  refine ⟨notLiteral, ?_⟩
  cases type : Line.classify line with
  | item item => exact ⟨item, rfl⟩
  | _ =>
    cases context <;>
      simp [type, ofClass, inProse, inList, Line.Class.continues, openLiteral, closeList, emit,
        count, record, andThen] at h notLiteral

namespace Document

variable (options : Options)

/-- **The markers come in pairs.** Every list and every literal block contributes one, and the lines
between them none. -/
theorem paired_wholeOfLines {lines : List Text} (unmarked : ∀ line ∈ lines, Line.Unmarked line) :
    (wholeOfLines options lines).Paired := by
  induction lines using block_induction with
  | nil => exact ⟨⟨[], rfl⟩, rfl, rfl⟩
  | single line rest fence item ih =>
    obtain ⟨events, headings, block⟩ := wholeOfLines_single options fence item
    rw [(separate_single rest fence item).wholeOfLines_append, block]
    have none : markers [Line.alone line] = [] := markers_alone (unmarked line (by simp))
    refine Step.Paired.andThen ?_ (ih fun other mem => unmarked other (by simp [mem])) rfl
    exact ⟨⟨[], by simp [none]⟩, by simp [none], by simp [none]⟩
  | list item first others rest starts goOn ends ih =>
    obtain ⟨events, listItems, block⟩ := wholeOfLines_list options starts goOn
    rw [(separate_list starts goOn ends).wholeOfLines_append, block]
    have entries : markers ((first :: others).map Line.entry) = [] :=
      markers_map_entry fun line mem => unmarked line (List.mem_append_left _ mem)
    refine Step.Paired.andThen ?_ (ih fun other mem => unmarked other (by simp [mem])) rfl
    exact Step.paired_of_environment entries rfl (by simp) (by cases item.kind <;> rfl)
      (by cases item.kind <;> rfl)
  | literal opening copied closing rest fence plain closes ih =>
    obtain ⟨events, block⟩ := wholeOfLines_literal options fence plain closes
    rw [(separate_literal rest fence plain closes).wholeOfLines_append, block]
    have inside : markers copied = [] :=
      markers_eq_nil fun line mem => unmarked line (by simp [mem])
    refine Step.Paired.andThen ?_ (ih fun other mem => unmarked other (by simp [mem])) rfl
    exact Step.paired_of_environment inside rfl (by simp) rfl rfl
  | unterminated opening copied fence plain =>
    obtain ⟨events, block⟩ := wholeOfLines_unterminated options fence plain
    rw [block]
    have inside : markers copied = [] :=
      markers_eq_nil fun line mem => unmarked line (by simp [mem])
    cases options.closeUnterminated with
    | true =>
      -- the end of the document supplies the missing end
      exact Step.paired_of_environment inside rfl (by simp) rfl rfl
    | false =>
      have alone : markers (Latex.Environment.verbatim.opening :: (copied ++ [])) =
          [.opening .verbatim] := by
        rw [markers_cons_opening, List.append_nil, inside]
      -- nothing ends the block, and its beginning has no partner
      refine ⟨⟨[], ?_⟩, ?_, ?_⟩
      · exact alone
      · exact congrArg (List.countP Marker.opensList) alone
      · exact congrArg (List.count (.opening .verbatim)) alone

/-! ### What a list environment holds -/

/-- The lines are those of one list of the document: an item of that kind, and after it items of the
same kind and bare markers. -/
def ListBody (document : List Text) (kind : ListKind) (inside : List Text) : Prop :=
  ∃ first others, (first :: others) <:+: document ∧
    (∃ item, Line.listItem? first = some item ∧ item.kind = kind) ∧
    (∀ line ∈ others, Line.continues kind line) ∧
    inside = (first :: others).map Line.entry

theorem ListBody.append {rest inside : List Text} {kind : ListKind} (block : List Text)
    (h : ListBody rest kind inside) : ListBody (block ++ rest) kind inside := by
  obtain ⟨first, others, among, body⟩ := h
  exact ⟨first, others, among.trans (List.suffix_append block rest).isInfix, body⟩

/-- **A list environment holds one list.** Two neighbouring markers of a list belong to one block,
since in each block only its own marker begins an environment. -/
theorem listBody_of_wholeOfLines {lines : List Text} {kind : ListKind}
    {before inside after : List Text} (unmarked : ∀ line ∈ lines, Line.Unmarked line)
    (cut : (wholeOfLines options lines).lines =
      before ++ kind.environment.opening :: (inside ++ kind.environment.closing :: after))
    (plain : markers inside = []) : ListBody lines kind inside := by
  have notVerbatim : Marker.opening kind.environment ∉ Marker.pair .verbatim := by
    cases kind <;> decide
  induction lines using block_induction generalizing before with
  | nil =>
    have cut : [] = _ := cut
    simp at cut
  | single line rest fence item ih =>
    obtain ⟨events, headings, block⟩ := wholeOfLines_single options fence item
    rw [(separate_single rest fence item).wholeOfLines_append, block] at cut
    have none : markers [Line.alone line] = [] := markers_alone (unmarked line (by simp))
    obtain ⟨middle, -, cut⟩ := exists_middle_of_not_mem (.opening kind.environment) cut
      (by simp [none])
    exact (ih (fun other mem => unmarked other (by simp [mem])) cut).append [line]
  | list item first others rest starts goOn ends ih =>
    obtain ⟨events, listItems, block⟩ := wholeOfLines_list options starts goOn
    rw [(separate_list starts goOn ends).wholeOfLines_append, block] at cut
    have entries : markers ((first :: others).map Line.entry) = [] :=
      markers_map_entry fun line mem => unmarked line (List.mem_append_left _ mem)
    rcases cut_of_append_eq cut with ⟨behind, here, there⟩ | ⟨middle, -, cut⟩
    · -- the environment is that of this list, and reaches to its end
      obtain ⟨-, same, rfl⟩ := eq_nil_of_environment_eq entries here
      obtain rfl : item.kind = kind := ListKind.environment_injective same
      have inside_eq : inside = (first :: others).map Line.entry := by
        rw [List.append_assoc] at there
        exact eq_of_append_marker_eq (.closing item.kind.environment) there plain entries
      exact ⟨first, others, (List.prefix_append _ rest).isInfix, ⟨item, starts, rfl⟩, goOn,
        inside_eq⟩
    · exact (ih (fun other mem => unmarked other (by simp [mem])) cut).append (first :: others)
  | literal opening copied closing rest fence copy closes ih =>
    obtain ⟨events, block⟩ := wholeOfLines_literal options fence copy closes
    rw [(separate_literal rest fence copy closes).wholeOfLines_append, block] at cut
    have inside : markers copied = [] :=
      markers_eq_nil fun line mem => unmarked line (by simp [mem])
    have pair := markers_environment .verbatim inside
    obtain ⟨middle, -, cut⟩ := exists_middle_of_not_mem (.opening kind.environment) cut
      (by rw [pair]; exact notVerbatim)
    exact (ih (fun other mem => unmarked other (by simp [mem])) cut).append _
  | unterminated opening copied fence copy =>
    obtain ⟨events, block⟩ := wholeOfLines_unterminated options fence copy
    have inside : markers copied = [] :=
      markers_eq_nil fun line mem => unmarked line (by simp [mem])
    have pair := markers_environment .verbatim inside
    -- the only environment is the literal block
    have mem : Marker.opening kind.environment ∈
        markers (wholeOfLines options (opening :: copied)).lines :=
      mem_markers (by rw [cut]; simp [Marker.text])
    refine absurd (?_ : Marker.opening kind.environment ∈ Marker.pair .verbatim) notVerbatim
    rw [← pair]
    refine (List.Sublist.filterMap Marker.ofLine? ?_).subset mem
    rw [block]
    cases options.closeUnterminated <;> simp

/-! ### Where items are emitted -/

/-- The item that the line after `before` contributes is emitted inside an environment of its list:
the environment has begun when the item is emitted, and ends later in the result. -/
def Enclosed (result before : List Text) (line : Text) (item : Line.ListItem) : Prop :=
  ∃ front ahead behind back,
    (Step.ofLines .standard .prose (before ++ [line])).lines =
      front ++ item.kind.environment.opening :: (ahead ++ [item.latex]) ∧
    result = front ++ item.kind.environment.opening ::
      (ahead ++ item.latex :: (behind ++ item.kind.environment.closing :: back)) ∧
    markers ahead = [] ∧ markers behind = []

variable {options}

theorem Enclosed.append {block before after : List Text} {line : Text} {item : Line.ListItem}
    (separate : Separate block (before ++ line :: after))
    (h : Enclosed (wholeOfLines options (before ++ line :: after)).lines before line item) :
    Enclosed (wholeOfLines options (block ++ (before ++ line :: after))).lines (block ++ before)
      line item := by
  obtain ⟨front, ahead, behind, back, run, whole, plain⟩ := h
  refine ⟨(wholeOfLines options block).lines ++ front, ahead, behind, back, ?_, ?_, plain⟩
  · have separate : Separate block (before ++ [line]) :=
      separate.of_head?_eq (by cases before <;> rfl)
    rw [List.append_assoc, separate.ofLines_append options (by simp), Step.lines_andThen, run,
      List.append_assoc]
  · rw [separate.wholeOfLines_append, Step.lines_andThen, whole, List.append_assoc]

/-- A line of a list is emitted between the first line of its environment and the last. -/
theorem enclosed_of_list {item entry : Line.ListItem} {first line : Text}
    {others before behind rest : List Text} (starts : Line.listItem? first = some item)
    (goOn : ∀ line ∈ others, Line.continues item.kind line)
    (ends : ∀ next ∈ rest.head?, Line.continues item.kind next = false)
    (unmarked : ∀ line ∈ first :: others, Line.Unmarked line)
    (cut : first :: others = before ++ line :: behind) (found : Line.listItem? line = some entry) :
    Enclosed (wholeOfLines options ((first :: others) ++ rest)).lines before line entry := by
  -- an item in a list is of the list's kind
  have kind : entry.kind = item.kind := by
    have mem : line ∈ first :: others := by simp [cut]
    rcases List.mem_cons.1 mem with rfl | mem
    · rw [Option.some.inj (found.symm.trans starts)]
    · simpa [Line.continues, Line.isBareMarker, found] using goOn line mem
  have entry_eq : Line.entry line = entry.latex := by rw [Line.entry, found]
  have inside : ∀ part : List Text, part ⊆ first :: others → markers (part.map Line.entry) = [] :=
    fun part sub => markers_map_entry fun line mem => unmarked line (sub mem)
  refine ⟨[], before.map Line.entry, behind.map Line.entry, (wholeOfLines options rest).lines,
    ?_, ?_, inside before ?_, inside behind ?_⟩
  · -- up to the line, the list is a shorter one
    obtain ⟨others', shorter, sub⟩ : ∃ others', before ++ [line] = first :: others' ∧
        others' ⊆ others := by
      cases before with
      | nil =>
        obtain ⟨rfl, -⟩ := List.cons.inj cut
        exact ⟨[], rfl, by simp⟩
      | cons _ before =>
        obtain ⟨rfl, rfl⟩ := List.cons.inj cut
        refine ⟨before ++ [line], rfl, ?_⟩
        intro other mem
        rcases List.mem_append.1 mem with mem | mem
        · exact List.mem_append_left _ mem
        · rw [List.mem_singleton.1 mem]
          exact List.mem_append_right _ List.mem_cons_self
    obtain ⟨events, listItems, run⟩ :=
      Step.ofLines_prose_of_list starts fun other mem => goOn other (sub mem)
    rw [shorter, run, ← shorter, List.map_append, List.map_singleton, entry_eq, kind]
    rfl
  · obtain ⟨events, listItems, block⟩ := wholeOfLines_list options starts goOn
    rw [(separate_list starts goOn ends).wholeOfLines_append, block, cut, kind]
    simp [entry_eq]
  · rw [cut]
    exact List.subset_append_left _ _
  · rw [cut]
    exact List.subset_append_of_subset_right _ (List.subset_cons_self _ _)

/-- In front of an item among the lines of a literal block, the block is open: its first line is a
fence, and no item. -/
theorem context_eq_literal_of_item {opening line : Text} {copied before after : List Text}
    {item : Line.ListItem} (fence : Line.isFence opening)
    (plain : ∀ line ∈ copied, Line.isFence line = false)
    (cut : opening :: copied = before ++ line :: after) (found : Line.listItem? line = some item) :
    (Step.ofLines .standard .prose before).context = .literal := by
  cases before with
  | nil =>
    obtain ⟨rfl, -⟩ := List.cons.inj cut
    rw [Line.listItem?_eq_none_of_isFence fence] at found
    cases found
  | cons _ before =>
    obtain ⟨rfl, rfl⟩ := List.cons.inj cut
    have copied : ∀ other ∈ before, Line.isFence other = false :=
      fun other mem => plain other (by simp [mem])
    obtain ⟨events, run⟩ := Step.ofLines_prose_of_unterminated fence copied
    rw [run]

/-- **Items are emitted inside lists.** An item is in a list block or in a literal block, and inside
a literal block no rule but that of literal lines applies. -/
theorem enclosed {lines before after : List Text} {line : Text} {item : Line.ListItem}
    (unmarked : ∀ line ∈ lines, Line.Unmarked line) (cut : lines = before ++ line :: after)
    (outside : (Step.ofLines .standard .prose before).context ≠ .literal)
    (found : Line.listItem? line = some item) :
    Enclosed (wholeOfLines options lines).lines before line item := by
  induction lines using block_induction generalizing before with
  | nil => simp at cut
  | single other rest fence plain ih =>
    rcases cut_of_append_eq cut with ⟨behind, here, -⟩ | ⟨middle, rfl, rfl⟩
    · -- a line of its own is no item
      have mem : line ∈ [other] := by simp [here]
      rw [List.mem_singleton.1 mem, plain] at found
      cases found
    · have separate := separate_single (middle ++ line :: after) fence plain
      exact (ih (fun other mem => unmarked other (by simp [mem])) rfl
        (separate.outside_of_append outside)).append separate
  | list head first others rest starts goOn ends ih =>
    rcases cut_of_append_eq cut with ⟨behind, here, rfl⟩ | ⟨middle, rfl, rfl⟩
    · exact enclosed_of_list starts goOn ends
        (fun other mem => unmarked other (List.mem_append_left _ mem)) here found
    · have separate := separate_list starts goOn ends
      exact (ih (fun other mem => unmarked other (by simp [mem])) rfl
        (separate.outside_of_append outside)).append separate
  | literal opening copied closing rest fence plain closes ih =>
    rcases cut_of_append_eq cut with ⟨behind, here, -⟩ | ⟨middle, rfl, rfl⟩
    · -- the item is one of the copied lines, since the closing fence is none
      rw [← List.cons_append] at here
      rcases cut_of_append_eq here with ⟨_, here, -⟩ | ⟨middle, -, last⟩
      · exact absurd (context_eq_literal_of_item fence plain here found) outside
      · have mem : line ∈ [closing] := by simp [last]
        rw [List.mem_singleton.1 mem, Line.listItem?_eq_none_of_isFence closes] at found
        cases found
    · have separate := separate_literal (middle ++ line :: after) fence plain closes
      exact (ih (fun other mem => unmarked other (by simp [mem])) rfl
        (separate.outside_of_append outside)).append separate
  | unterminated opening copied fence plain =>
    exact absurd (context_eq_literal_of_item fence plain cut found) outside

/-! ### The result -/

variable (options) in
/-- A literal block is left open where the document ends inside one and is not to be closed. -/
theorem context_whole_eq_literal_iff (text : Text) :
    (whole .standard options text).context = .literal ↔
      (convert options text).stats.unterminatedLiteral ∧ ¬ options.closeUnterminated := by
  rw [unterminatedLiteral_iff, whole, Step.context_andThen]
  cases (body .standard text).context with
  | literal => cases close : options.closeUnterminated <;> simp [ending, close, Step.closeLiteral]
  | _ => simp [ending]

variable (options) in
/-- What the markers tell of the result of a conversion, and what is between them. -/
structure WellDelimited (text : Text) : Prop where
  /-- Each environment ends before the next one begins; only a literal block can lack its end. -/
  pairs : ∃ closed : List Latex.Environment, markers (convert options text).latex.lines =
    closed.flatMap Marker.pair ++
      if (convert options text).stats.unterminatedLiteral ∧ ¬ options.closeUnterminated then
        [.opening .verbatim]
      else []
  lists : (markers (convert options text).latex.lines).countP Marker.opensList =
    (convert options text).stats.listsOpened
  literals : (markers (convert options text).latex.lines).count (.opening .verbatim) =
    (convert options text).stats.literalBlocks
  /-- Each list environment holds the entries of one list of its kind. -/
  bodies : ∀ kind before inside after, (convert options text).latex.lines =
      before ++ kind.environment.opening :: (inside ++ kind.environment.closing :: after) →
    markers inside = [] → ListBody text.lines kind inside
  /-- Each item is emitted inside an environment of its list. -/
  items : ∀ before line after, text.lines = before ++ line :: after →
    .claimed .listItem ∈
      (Step.ofLine .standard (Step.ofLines .standard .prose before).context line).events →
    ∃ item, Line.listItem? line = some item ∧
      Enclosed (convert options text).latex.lines before line item

/-- **The environments of the result.** -/
theorem wellDelimited (options : Options) (text : Text)
    (unmarked : ∀ line ∈ text.lines, ∀ marker : Marker, line ≠ marker.text) :
    WellDelimited options text := by
  have paired : (whole .standard options text).Paired := paired_wholeOfLines options unmarked
  constructor
  · obtain ⟨closed, pairs⟩ := paired.pairs
    refine ⟨closed, ?_⟩
    rw [lines_latex, pairs]
    simp only [context_whole_eq_literal_iff]
  · rw [lines_latex]
    exact paired.lists
  · rw [lines_latex]
    exact paired.literals
  · intro kind before inside after cut plain
    rw [lines_latex] at cut
    exact listBody_of_wholeOfLines options unmarked cut plain
  · intro before line after cut claimed
    obtain ⟨outside, item, found⟩ := Step.exists_item_of_claimed claimed
    rw [lines_latex]
    exact ⟨item, found, enclosed unmarked cut outside found⟩

/-- A list with a bare marker, and a literal block that is left open. -/
theorem wellDelimited_notes :
    let notes : Text := "- one\n- \n- two\nText\n```\n- three".toList
    (∀ line ∈ notes.lines, ∀ marker : Marker, line ≠ marker.text) ∧ WellDelimited {} notes := by
  intro notes
  have unmarked : ∀ line ∈ notes.lines, ∀ marker : Marker, line ≠ marker.text := by
    have none : markers notes.lines = [] := by decide +kernel
    exact fun line mem => unmarked_of_markers_eq_nil none mem
  exact ⟨unmarked, wellDelimited {} notes unmarked⟩

end Document
end Manuscript
