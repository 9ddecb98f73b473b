import Manuscript.Proofs.Document.EventOrder
import Manuscript.Proofs.Document.Statistics

/-!
# What the trace of a conversion tells

The trace tells what has become of a document: which rule has handled which line, where the lists
and the literal blocks are, what the counters say, and whether the document ended inside a literal
block.

* `Step.claims_ofRules`: a line is claimed once, by the rule that handles it, and `Placed.handler`
  tells that rule from the lines in front.
* `Step.Counted`: a step records as many events of a kind as it counts. One line after the other,
  this is kept (`Step.Counted.andThen`).
* `Document.faithful_trace`: these two, with the order of events, for every document.
-/

namespace Manuscript

namespace TraceEvent

/-- The rule that has claimed a line, if the event says that one has. -/
def rule? : TraceEvent → Option Rule
  | claimed rule => some rule
  | _ => none

/-- Whether the event opens a list. -/
def opensList : TraceEvent → Bool
  | openList _ => true
  | _ => false

end TraceEvent

/-! ### Claims -/

namespace Step

/-- The rules that have claimed a line, in the order of their claims. -/
def claims (step : Step) : List Rule := step.events.filterMap TraceEvent.rule?

@[simp] theorem claims_andThen (first second : Step) :
    (first.andThen second).claims = first.claims ++ second.claims := List.filterMap_append

@[simp] theorem claims_record_claimed (step : Step) (rule : Rule) :
    (step.record (.claimed rule)).claims = step.claims ++ [rule] := List.filterMap_append

@[simp] theorem claims_stay (context : BlockContext) : (stay context).claims = [] := rfl

@[simp] theorem claims_emit (context : BlockContext) (line : Text) :
    (emit context line).claims = [] := rfl

@[simp] theorem claims_count (step : Step) (more : Tally) :
    (step.count more).claims = step.claims := rfl

@[simp] theorem claims_openList (kind : ListKind) : (openList kind).claims = [] := rfl

@[simp] theorem claims_closeList (kind : ListKind) : (closeList kind).claims = [] := rfl

@[simp] theorem claims_closeAnyList (context : BlockContext) :
    (closeAnyList context).claims = [] := by
  cases context <;> rfl

@[simp] theorem claims_openLiteral : openLiteral.claims = [] := rfl

@[simp] theorem claims_closeLiteral : closeLiteral.claims = [] := rfl

end Step

/-- The rule that handles a line: the first that claims it, in the context that the rules before it
leave when they let the line pass. -/
def Rule.handling? (kinds : List ListKind) (context : BlockContext) (line : Text) :
    List Rule → Option Rule
  | [] => none
  | rule :: rules =>
    if (rule.claim? kinds context line).isSome then some rule
    else handling? kinds (rule.letPass context line).context line rules

/-- What a rule contributes to a line does not say that it has claimed it. -/
theorem Rule.claims_of_claim? {kinds : List ListKind} {context : BlockContext} {line : Text}
    {rule : Rule} {step : Step} (h : rule.claim? kinds context line = some step) :
    step.claims = [] := by
  cases rule with
  | fence =>
    obtain ⟨-, h⟩ := Option.ite_none_right_eq_some.1 h
    obtain rfl := Option.some.inj h
    cases context <;> simp
  | literal =>
    obtain ⟨-, h⟩ := Option.ite_none_right_eq_some.1 h
    obtain rfl := Option.some.inj h
    simp
  | heading =>
    obtain ⟨heading, -, rfl⟩ := Option.map_eq_some_iff.1 h
    simp
  | listItem =>
    obtain ⟨item, -, rfl⟩ := Option.map_eq_some_iff.1 h
    by_cases goesOn : context = .list item.kind <;> simp [goesOn]
  | closeList => cases h
  | blank =>
    obtain ⟨-, h⟩ := Option.ite_none_right_eq_some.1 h
    obtain rfl := Option.some.inj h
    simp
  | paragraph =>
    obtain rfl := Option.some.inj h
    simp

/-- Letting a line pass is not claiming it. -/
theorem Rule.claims_letPass (context : BlockContext) (line : Text) (rule : Rule) :
    (rule.letPass context line).claims = [] := by
  cases rule with
  | closeList =>
    rw [letPass]
    split <;> simp
  | _ => rfl

/-- **One line, one claim.** Whatever the rules and their order, a line is claimed once, by the rule
that handles it. -/
theorem Step.claims_ofRules (kinds : List ListKind) (context : BlockContext) (line : Text)
    (rules : List Rule) :
    (ofRules kinds context line rules).claims =
      (Rule.handling? kinds context line rules).toList := by
  induction rules generalizing context with
  | nil => rfl
  | cons rule rules ih =>
    rw [ofRules, Rule.handling?]
    cases claimed : rule.claim? kinds context line with
    | some step =>
      show (step.record (.claimed rule)).claims = [rule]
      rw [claims_record_claimed, Rule.claims_of_claim? claimed, List.nil_append]
    | none =>
      show (Step.andThen _ _).claims = (Rule.handling? kinds _ line rules).toList
      rw [claims_andThen, Rule.claims_letPass, List.nil_append, ih]

/-- The rule that handles a line, told by looking back. -/
def Placed.handler (place : Placed) : Rule :=
  if Line.isFence place.line then .fence
  else if LookBack.insideLiteral place.earlier then .literal
  else if (Line.heading? place.line).isSome then .heading
  else if (Line.listItem? place.line).isSome then .listItem
  else if Line.isBlank place.line then .blank
  else .paragraph

theorem Rule.handling?_standard (earlier : List Text) (line : Text) :
    handling? ListKind.all (LookBack.context earlier) line Precedence.standard.rules =
      some (⟨earlier, line⟩ : Placed).handler := by
  have item? : Line.listItemAmong? ListKind.all line = Line.listItem? line := rfl
  have inside := LookBack.context_eq_literal_iff earlier
  have passed : (letPass (LookBack.context earlier) line .fence).context =
      LookBack.context earlier := rfl
  simp only [handling?, Precedence.standard, claim?, item?, Placed.handler, Option.isSome_map,
    passed, inside]
  -- the cases follow the rules in their order, each knowing that those before it have let pass
  by_cases fence : Line.isFence line
  · simp [fence]
  by_cases literal : LookBack.insideLiteral earlier
  · simp [fence, literal]
  by_cases heading : (Line.heading? line).isSome
  · simp [fence, literal, heading]
  by_cases item : (Line.listItem? line).isSome
  · simp [fence, literal, heading, item]
  by_cases blank : Line.isBlank line
  · simp [fence, literal, heading, item, blank]
  · simp [fence, literal, heading, item, blank]

/-- The lines of a document are claimed one after the other, each by the rule that handles it. -/
theorem Step.claims_ofLines (lines : List Text) :
    (ofLines .standard .prose lines).claims = (placed lines).map Placed.handler := by
  -- on the lines read so far, since it is by them that the next line is handled
  induction lines using List.reverseRecOn with
  | nil => rfl
  | append_singleton earlier line ih =>
    rw [ofLines_concat, claims_andThen, ih, LookBack.context_ofLines, ofLine, claims_ofRules,
      placed_concat, List.map_append]
    congr 1
    exact congrArg Option.toList (Rule.handling?_standard earlier line)

/-! ### Counts -/

/-- The events of a step are as many as it counts. -/
structure Step.Counted (step : Step) : Prop where
  lists : step.events.countP TraceEvent.opensList = step.tally.listsOpened
  literals : step.events.count .openLiteral = step.tally.literalBlocks
  headings : step.events.count (.claimed .heading) = step.tally.headings
  items : step.events.count (.claimed .listItem) = step.tally.listItems

namespace Step

theorem Counted.andThen {first second : Step} (hfirst : first.Counted) (hsecond : second.Counted) :
    (first.andThen second).Counted where
  lists := by
    rw [Step.andThen, List.countP_append, hfirst.lists, hsecond.lists]
    rfl
  literals := by
    rw [Step.andThen, List.count_append, hfirst.literals, hsecond.literals]
    rfl
  headings := by
    rw [Step.andThen, List.count_append, hfirst.headings, hsecond.headings]
    rfl
  items := by
    rw [Step.andThen, List.count_append, hfirst.items, hsecond.items]
    rfl

theorem counted_inProse (line : Text) (type : Line.Class) : (inProse line type).Counted := by
  cases type <;> constructor <;> rfl

theorem counted_ofLine (context : BlockContext) (line : Text) :
    (ofLine .standard context line).Counted := by
  have closing (kind : ListKind) : (closeList kind).Counted := by constructor <;> rfl
  rw [ofLine_standard]
  cases context with
  | prose => exact counted_inProse line _
  | literal => cases Line.classify line <;> constructor <;> rfl
  | list kind =>
    rw [ofClass]
    split
    · cases Line.classify line <;> constructor <;> rfl
    · -- closing the list is counted nowhere
      exact (closing kind).andThen (counted_inProse line _)

theorem counted_ofLines (context : BlockContext) (lines : List Text) :
    (ofLines .standard context lines).Counted := by
  induction lines generalizing context with
  | nil => constructor <;> rfl
  | cons line rest ih =>
    rw [ofLines]
    exact (counted_ofLine context line).andThen (ih _)

end Step

namespace Document

theorem counted_ending (options : Options) (context : BlockContext) :
    (ending options context).Counted := by
  cases context with
  | literal =>
    cases close : options.closeUnterminated <;> rw [ending, close] <;> constructor <;> rfl
  | _ => constructor <;> rfl

/-- What the events of a conversion tell of it. -/
structure FaithfulTrace (options : Options) (text : Text) : Prop where
  /-- Each line is claimed once, in order, by the rule that handles it. -/
  claims : (trace options text).filterMap TraceEvent.rule? = (placed text.lines).map Placed.handler
  /-- That rule is the first to claim the line, in the context left by the lines in front of it. -/
  handled : ∀ place ∈ placed text.lines,
    Rule.handling? ListKind.all (Step.ofLines .standard .prose place.earlier).context place.line
      Precedence.standard.rules = some place.handler
  lines : ((trace options text).filterMap TraceEvent.rule?).length =
    (convert options text).stats.inputLines
  closeList : .claimed .closeList ∉ trace options text
  /-- Lists open and close in turn, each list with its own kind. -/
  pairs : ∃ kinds : List ListKind, (trace options text).filter TraceEvent.isOfList =
    kinds.flatMap fun kind => [.openList kind, .closeList kind]
  /-- Between the two events of a list, only items and paragraphs are claimed. -/
  inLists : ∀ before kind inside other after,
    trace options text = before ++ .openList kind :: (inside ++ .closeList other :: after) →
      (∀ another, .closeList another ∉ inside) →
      other = kind ∧ .openLiteral ∉ inside ∧
        ∀ rule, .claimed rule ∈ inside → rule = .listItem ∨ rule = .paragraph
  /-- A literal line is claimed after a fence that opens a block, and before any other fence. -/
  inLiterals : ∀ before after, trace options text = before ++ .claimed .literal :: after →
    ∃ front inside, before = front ++ .openLiteral :: .claimed .fence :: inside ∧
      ∀ event ∈ inside, event = .claimed .literal
  listsOpened : (trace options text).countP TraceEvent.opensList =
    (convert options text).stats.listsOpened
  literalBlocks : (trace options text).count .openLiteral =
    (convert options text).stats.literalBlocks
  headings : (trace options text).count (.claimed .heading) =
    (convert options text).stats.headings
  listItems : (trace options text).count (.claimed .listItem) =
    (convert options text).stats.listItems
  /-- A document that ends inside a literal block is reported once, last of all, and the report says
  whether the block is closed. -/
  unterminated : ∃ front, (∀ closed, .unterminated closed ∉ front) ∧
    trace options text = front ++
      if (convert options text).stats.unterminatedLiteral then
        [.unterminated options.closeUnterminated]
      else []

theorem claims_ending (options : Options) (context : BlockContext) :
    (ending options context).claims = [] := by
  cases context with
  | literal => cases close : options.closeUnterminated <;> rw [ending, close] <;> rfl
  | _ => rfl

variable (options : Options) (text : Text)

theorem filterMap_rule?_trace :
    (trace options text).filterMap TraceEvent.rule? = (placed text.lines).map Placed.handler := by
  show (whole .standard options text).claims = _
  rw [whole, Step.claims_andThen, claims_ending, List.append_nil]
  exact Step.claims_ofLines text.lines

theorem counted_whole : (whole .standard options text).Counted :=
  (Step.counted_ofLines .prose text.lines).andThen (counted_ending options _)

/-- The report is what the end of the document adds inside a literal block. -/
theorem exists_unterminated : ∃ front, (∀ closed, .unterminated closed ∉ front) ∧
    trace options text = front ++
      if (convert options text).stats.unterminatedLiteral then
        [.unterminated options.closeUnterminated]
      else [] := by
  have run := TracePhase.run_ofLines .prose text.lines
  have unterminated := unterminatedLiteral_iff options text
  have silent : ∀ closed, .unterminated closed ∉ (body .standard text).events := by
    refine run.unterminated_not_mem ?_
    cases (Step.ofLines .standard .prose text.lines).context <;> exact nofun
  show ∃ front, _ ∧ (body .standard text).events ++ _ = _
  cases context : (body .standard text).context with
  | prose =>
    -- nothing is open, and the end adds nothing
    refine ⟨(body .standard text).events, silent, ?_⟩
    rw [if_neg (by simp [unterminated, context])]
    rfl
  | list kind =>
    refine ⟨(body .standard text).events ++ [.closeList kind], fun closed mem => ?_, ?_⟩
    · rcases List.mem_append.1 mem with mem | mem
      · exact silent closed mem
      · cases List.mem_singleton.1 mem
    · rw [if_neg (by simp [unterminated, context]), List.append_nil]
      rfl
  | literal =>
    refine ⟨(body .standard text).events, silent, ?_⟩
    rw [if_pos (unterminated.2 context), ending]
    cases options.closeUnterminated <;> rfl

/-- **The trace is faithful.** -/
theorem faithful_trace (options : Options) (text : Text) : FaithfulTrace options text := by
  have claims := filterMap_rule?_trace options text
  have counted := counted_whole options text
  obtain ⟨last, closed, run⟩ := TracePhase.run_trace options text
  constructor
  case claims => exact claims
  case handled =>
    intro place _
    rw [LookBack.context_ofLines, Rule.handling?_standard]
  case lines =>
    rw [claims, List.length_map]
    exact List.length_mapIdx
  case closeList => exact run.closeList_not_claimed
  case pairs =>
    obtain ⟨kinds, pairs⟩ := run.exists_pairs
    refine ⟨kinds, ?_⟩
    rcases closed with rfl | rfl <;> simpa [TracePhase.Run.opened] using pairs
  case inLists =>
    intro before kind inside other after cut open_
    rw [cut] at run
    obtain ⟨second, -, rest⟩ := run.exists_of_append
    -- behind the opening event the run is in the list, until an event closes it
    cases rest with
    | cons step rest =>
      cases step
      obtain ⟨entries, rest⟩ := rest.inside_list open_
      cases rest with
      | cons step _ =>
        cases step
        refine ⟨rfl, fun mem => ?_, fun rule mem => ?_⟩
        · rcases entries _ mem with same | same <;> cases same
        · rcases entries _ mem with same | same
          · cases same
            exact .inl rfl
          · cases same
            exact .inr rfl
  case inLiterals =>
    intro before after cut
    rw [cut] at run
    obtain ⟨second, front, rest⟩ := run.exists_of_append
    -- a literal line is claimed in one phase only, so the events in front of it lead there
    cases rest with
    | cons step _ =>
      cases step
      exact front.exists_opening_fence
  case listsOpened => exact counted.lists
  case literalBlocks => exact counted.literals
  case headings => exact counted.headings
  case listItems => exact counted.items
  case unterminated => exact exists_unterminated options text

end Document
end Manuscript
