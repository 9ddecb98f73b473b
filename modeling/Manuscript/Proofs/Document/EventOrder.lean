import Manuscript.Proofs.Document.LineStep
import Mathlib.Data.List.Induction

/-!
# The order of events

The events of a conversion come in an order that they themselves tell. `TracePhase.Next` says which
event may come in which phase and which phase it leads to, without a look at the document;
`TracePhase.Run` is a sequence of such events. Every line records a run (`TracePhase.run_ofLine`),
so every document does (`TracePhase.run_trace`), and what holds of all runs holds of all traces.

* `TracePhase.Run.exists_pairs`: lists open and close in turn.
* `TracePhase.Run.inside_list`: in a list, only items and paragraphs are claimed.
* `TracePhase.Run.exists_opening_fence`: a literal line is claimed after a fence that opens a block,
  and nothing but other literal lines between them.
* `TracePhase.Run.unterminated_not_mem`: nothing is recorded after the report that the document has
  ended inside a literal block.
-/

namespace Manuscript

/-- Whether an event opens or closes a list. -/
def TraceEvent.isOfList : TraceEvent → Bool
  | openList _ | closeList _ => true
  | _ => false

/-- What the events so far have come to. -/
inductive TracePhase
  /-- Nothing is open. -/
  | prose
  /-- A list of the given kind is open. -/
  | list (kind : ListKind)
  /-- A literal block has been opened, by a fence that is still to be claimed. -/
  | opening
  /-- A literal block is open. -/
  | literal
  /-- The document has ended inside a literal block. -/
  | ended

/-- The phase between two lines. -/
def BlockContext.phase : BlockContext → TracePhase
  | prose => .prose
  | list kind => .list kind
  | literal => .literal

namespace TracePhase

/-- Which event may come in a phase, and the phase that it leads to. -/
inductive Next : TracePhase → TraceEvent → TracePhase → Prop
  | heading : Next prose (.claimed .heading) prose
  | blank : Next prose (.claimed .blank) prose
  | paragraph : Next prose (.claimed .paragraph) prose
  | openList (kind : ListKind) : Next prose (.openList kind) (list kind)
  | item (kind : ListKind) : Next (list kind) (.claimed .listItem) (list kind)
  /-- The text of a bare marker. -/
  | entry (kind : ListKind) : Next (list kind) (.claimed .paragraph) (list kind)
  | closeList (kind : ListKind) : Next (list kind) (.closeList kind) prose
  | openLiteral : Next prose .openLiteral opening
  | openingFence : Next opening (.claimed .fence) literal
  | copied : Next literal (.claimed .literal) literal
  | closingFence : Next literal (.claimed .fence) prose
  | unterminated (closed : Bool) : Next literal (.unterminated closed) ended

/-- Events that come one after the other, each in the phase that the one before leads to. -/
inductive Run : TracePhase → List TraceEvent → TracePhase → Prop
  | nil (phase : TracePhase) : Run phase [] phase
  | cons {first second last : TracePhase} {event : TraceEvent} {events : List TraceEvent} :
      Next first event second → Run second events last → Run first (event :: events) last

namespace Run

variable {first second last : TracePhase} {event : TraceEvent}
  {events before after : List TraceEvent}

theorem single (h : Next first event last) : Run first [event] last := .cons h (.nil last)

theorem append (h : Run first before second) (next : Run second after last) :
    Run first (before ++ after) last := by
  induction h with
  | nil => exact next
  | cons step _ ih => exact .cons step (ih next)

/-- A run passes through some phase at every place. -/
theorem exists_of_append (h : Run first (before ++ after) last) :
    ∃ second, Run first before second ∧ Run second after last := by
  induction before generalizing first with
  | nil => exact ⟨first, .nil first, h⟩
  | cons event rest ih =>
    cases h with
    | cons step run =>
      obtain ⟨second, front, back⟩ := ih run
      exact ⟨second, .cons step front, back⟩

/-- A run up to an event, and the event. -/
theorem exists_of_concat (h : Run first (before ++ [event]) last) :
    ∃ second, Run first before second ∧ Next second event last := by
  obtain ⟨second, front, back⟩ := h.exists_of_append
  cases back with
  | cons step rest =>
    cases rest with
    | nil => exact ⟨second, front, step⟩

/-! ### Lists -/

/-- A list that is open has been opened by an event of its own. -/
def opened : TracePhase → List TraceEvent
  | list kind => [.openList kind]
  | _ => []

/-- **Lists open and close in turn.** With the event that opened the list of the first phase in
front, and without that of the last phase, the events of lists come in pairs. -/
theorem exists_pairs (h : Run first events last) :
    ∃ kinds : List ListKind, opened first ++ events.filter TraceEvent.isOfList =
      kinds.flatMap (fun kind => [.openList kind, .closeList kind]) ++ opened last := by
  induction h with
  | nil phase => exact ⟨[], by simp⟩
  | cons step _ ih =>
    obtain ⟨kinds, pairs⟩ := ih
    -- only the event that closes a list completes a pair; the one in front of it is still owed
    cases step with
    | openList kind => exact ⟨kinds, pairs⟩
    | closeList kind =>
      refine ⟨kind :: kinds, ?_⟩
      rw [List.flatMap_cons, List.append_assoc, ← pairs]
      rfl
    | _ => exact ⟨kinds, pairs⟩

/-- **Inside a list.** Until the list closes, only items and paragraphs are claimed. -/
theorem inside_list {kind : ListKind} {inside : List TraceEvent}
    (h : Run (.list kind) (inside ++ after) last) (open_ : ∀ other, .closeList other ∉ inside) :
    (∀ event ∈ inside, event = .claimed .listItem ∨ event = .claimed .paragraph) ∧
      Run (.list kind) after last := by
  induction inside with
  | nil => exact ⟨by simp, h⟩
  | cons event rest ih =>
    have others : ∀ other, .closeList other ∉ rest := fun other mem => open_ other (by simp [mem])
    cases h with
    | cons step run =>
      cases step with
      | item =>
        obtain ⟨inside, behind⟩ := ih run others
        exact ⟨List.forall_mem_cons.2 ⟨.inl rfl, inside⟩, behind⟩
      | entry =>
        obtain ⟨inside, behind⟩ := ih run others
        exact ⟨List.forall_mem_cons.2 ⟨.inr rfl, inside⟩, behind⟩
      | closeList => exact absurd (by simp) (open_ kind)

/-! ### Literal blocks -/

/-- A block that has just been opened was opened by the last event. -/
theorem exists_openLiteral (h : Run .prose events .opening) :
    ∃ front, events = front ++ [.openLiteral] := by
  cases events using List.reverseRecOn with
  | nil => cases h
  | append_singleton front event =>
    obtain ⟨second, -, step⟩ := h.exists_of_concat
    cases step
    exact ⟨front, rfl⟩

/-- **Inside a literal block.** A block that is open was opened by a fence, and since then only
literal lines have been claimed. -/
theorem exists_opening_fence (h : Run .prose events .literal) :
    ∃ front inside, events = front ++ .openLiteral :: .claimed .fence :: inside ∧
      ∀ event ∈ inside, event = .claimed .literal := by
  -- backwards from the place inside the block: each event is a literal line or the opening fence
  induction events using List.reverseRecOn with
  | nil => cases h
  | append_singleton events event ih =>
    obtain ⟨second, run, step⟩ := h.exists_of_concat
    cases step with
    | openingFence =>
      obtain ⟨front, rfl⟩ := run.exists_openLiteral
      exact ⟨front, [], by simp, by simp⟩
    | copied =>
      obtain ⟨front, inside, rfl, literal⟩ := ih run
      refine ⟨front, inside ++ [.claimed .literal], by simp, ?_⟩
      intro event mem
      rcases List.mem_append.1 mem with mem | mem
      · exact literal event mem
      · exact List.mem_singleton.1 mem

/-! ### The end -/

/-- Nothing comes after the end. -/
theorem eq_of_ended (h : Run .ended events last) : events = [] ∧ last = .ended := by
  cases h with
  | nil => exact ⟨rfl, rfl⟩
  | cons step _ => cases step

/-- No line is claimed by the rule that only closes lists. -/
theorem closeList_not_claimed (h : Run first events last) : .claimed .closeList ∉ events := by
  intro mem
  obtain ⟨before, after, rfl⟩ := List.append_of_mem mem
  obtain ⟨second, -, rest⟩ := h.exists_of_append
  cases rest with
  | cons step _ => cases step

/-- A run that has not ended inside a literal block reports no such end. -/
theorem unterminated_not_mem (h : Run first events last) (open_ : last ≠ .ended) (closed : Bool) :
    .unterminated closed ∉ events := by
  intro mem
  obtain ⟨before, after, rfl⟩ := List.append_of_mem mem
  obtain ⟨second, -, rest⟩ := h.exists_of_append
  cases rest with
  | cons step behind =>
    cases step
    exact open_ behind.eq_of_ended.2

end Run

/-! ### Every line records a run -/

theorem run_inProse (line : Text) (type : Line.Class) :
    Run .prose (Step.inProse line type).events (Step.inProse line type).context.phase := by
  cases type with
  | fence => exact .cons .openLiteral (.single .openingFence)
  | heading => exact .single .heading
  | item entry => exact .cons (.openList entry.kind) (.single (.item entry.kind))
  | blank => exact .single .blank
  | bareMarker | paragraph => exact .single .paragraph

theorem run_ofLine (context : BlockContext) (line : Text) :
    Run context.phase (Step.ofLine .standard context line).events
      (Step.ofLine .standard context line).context.phase := by
  rw [Step.ofLine_standard]
  cases context with
  | prose => exact run_inProse line _
  | literal =>
    cases Line.classify line with
    | fence => exact .single .closingFence
    | _ => exact .single .copied
  | list kind =>
    rw [Step.ofClass]
    split
    · next continued =>
      cases type : Line.classify line with
      | item entry =>
        obtain rfl : entry.kind = kind := by simpa [type, Line.Class.continues] using continued
        exact .single (.item entry.kind)
      | bareMarker => exact .single (.entry kind)
      | _ => simp [type, Line.Class.continues] at continued
    · -- the list is closed first, and then the line stands in prose
      exact .cons (.closeList kind) (run_inProse line _)

theorem run_ofLines (context : BlockContext) (lines : List Text) :
    Run context.phase (Step.ofLines .standard context lines).events
      (Step.ofLines .standard context lines).context.phase := by
  induction lines generalizing context with
  | nil => exact .nil _
  | cons line rest ih =>
    rw [Step.ofLines]
    exact (run_ofLine context line).append (ih _)

theorem run_ending (options : Options) (context : BlockContext) :
    ∃ last, (last = .prose ∨ last = .ended) ∧
      Run context.phase (Document.ending options context).events last := by
  cases context with
  | prose => exact ⟨.prose, .inl rfl, .nil .prose⟩
  | list kind => exact ⟨.prose, .inl rfl, .single (.closeList kind)⟩
  | literal =>
    refine ⟨.ended, .inr rfl, ?_⟩
    cases close : options.closeUnterminated with
    | true =>
      rw [Document.ending, close]
      exact .single (.unterminated true)
    | false =>
      rw [Document.ending, close]
      exact .single (.unterminated false)

/-- **The events of a document are a run.** -/
theorem run_trace (options : Options) (text : Text) :
    ∃ last, (last = .prose ∨ last = .ended) ∧
      Run .prose (Document.trace options text) last := by
  obtain ⟨last, closed, run⟩ := run_ending options (Document.body .standard text).context
  exact ⟨last, closed, (run_ofLines .prose text.lines).append run⟩

end TracePhase
end Manuscript
