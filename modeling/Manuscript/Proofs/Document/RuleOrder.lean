import Manuscript.Proofs.Document.LineStep

/-!
# The order of rules

Rules are tried one after the other, and so are the kinds of list on an item. Where two of them
never claim the same line, it does not matter which is first. This holds of the two kinds, as a line
has one marker at most, and of the rules for headings and for items, as a line has one class. The
argument does not reach the rule that closes lists: it claims no line, but what it lets pass goes on
in another context.

* `Line.listItemAmong?_eq`: an item is the same whichever kind is tried first.
* `Step.ofRules_exchange`: neighbouring rules that never compete, and let lines pass without an
  effect, can be exchanged.

Main statement: `Document.noncompeting`.
-/

namespace Manuscript

namespace Line

variable {line : Text}

/-! ### Kinds of list -/

/-- **It does not matter in which order the kinds are tried,** if both are. -/
theorem listItemAmong?_eq {kinds : List ListKind} (both : ∀ kind, kind ∈ kinds) (line : Text) :
    listItemAmong? kinds line = listItem? line := by
  cases found : listItem? line with
  | none =>
    -- an item of some kind would be an item
    unfold listItemAmong?
    rw [List.findSome?_eq_none_iff]
    intro kind _
    by_contra present
    obtain ⟨item, own⟩ := Option.ne_none_iff_exists'.1 present
    cases found.symm.trans (listItemOf?_eq_some_iff.1 own).1
  | some item =>
    -- the kind of the item is among those tried, and no other gives an item
    have own : listItemOf? item.kind line = some item := listItemOf?_eq_some_iff.2 ⟨found, rfl⟩
    obtain ⟨other, among⟩ : ∃ other, listItemAmong? kinds line = some other := by
      apply Option.isSome_iff_exists.1
      exact List.findSome?_isSome_iff.2 ⟨item.kind, both _, by rw [own]; rfl⟩
    obtain ⟨kind, -, given⟩ := List.exists_of_findSome?_eq_some among
    rw [among, ← found]
    exact (listItemOf?_eq_some_iff.1 given).1.symm

/-- Whether a line is an item of a kind is told by its class. -/
theorem isSome_listItemOf?_eq_classify (kind : ListKind) (line : Text) :
    (listItemOf? kind line).isSome = (classify line).item?.any (·.kind == kind) := by
  rw [← listItem?_eq_classify, Bool.eq_iff_iff, Option.isSome_iff_exists, Option.any_eq_true]
  simp only [listItemOf?_eq_some_iff, beq_iff_eq]

/-- **The tests do not compete:** a line passes one of them at most. -/
theorem count_tests_le_one (line : Text) :
    [isFence line, (heading? line).isSome, (listItemOf? .ordered line).isSome,
      (listItemOf? .unordered line).isSome, isBlank line, isBareMarker line].count true ≤ 1 := by
  rw [isFence_eq_classify, heading?_eq_classify, isSome_listItemOf?_eq_classify,
    isSome_listItemOf?_eq_classify, isBlank_eq_classify, isBareMarker_eq_classify]
  cases classify line with
  | item entry =>
    -- the one class that passes one of two tests, by the kind of the item
    obtain ⟨kind, latex⟩ := entry
    cases kind <;> exact Nat.le_refl 1
  | heading => exact Nat.le_refl 1
  | fence | bareMarker | blank | paragraph => decide

end Line

/-! ### Neighbouring rules -/

variable {kinds : List ListKind} {context : BlockContext} {line : Text}

/-- A rule looks at kinds only to find an item. -/
theorem Rule.claim?_congr (both : ∀ kind, kind ∈ kinds) (context : BlockContext) (line : Text)
    (rule : Rule) : rule.claim? kinds context line = rule.claim? ListKind.all context line := by
  cases rule with
  | listItem =>
    show (Line.listItemAmong? kinds line).map _ = (Line.listItem? line).map _
    rw [Line.listItemAmong?_eq both]
  | _ => rfl

/-- Headings and items do not compete, whatever is open. -/
theorem Rule.heading_or_listItem (both : ∀ kind, kind ∈ kinds) (context : BlockContext)
    (line : Text) : heading.claim? kinds context line = none ∨
      listItem.claim? kinds context line = none := by
  unfold claim?
  rw [Option.map_eq_none_iff, Option.map_eq_none_iff, Line.listItemAmong?_eq both,
    Line.heading?_eq_classify, Line.listItem?_eq_classify]
  cases Line.classify line with
  | heading => exact .inr rfl
  | _ => exact .inl rfl

namespace Step

/-- The order of kinds is immaterial to every list of rules. -/
theorem ofRules_congr (both : ∀ kind, kind ∈ kinds) (context : BlockContext) (line : Text)
    (rules : List Rule) :
    ofRules kinds context line rules = ofRules ListKind.all context line rules := by
  induction rules generalizing context with
  | nil => rfl
  | cons rule rules ih =>
    unfold ofRules
    rw [rule.claim?_congr both]
    simp only [ih]

/-- **Neighbours can be exchanged** if they never claim the same line, and let lines pass without an
effect. -/
theorem ofRules_exchange {first second : Rule} (front rest : List Rule)
    (apart : ∀ context, first.claim? kinds context line = none ∨
      second.claim? kinds context line = none)
    (passes : ∀ context, first.letPass context line = stay context)
    (passes' : ∀ context, second.letPass context line = stay context) :
    ofRules kinds context line (front ++ first :: second :: rest) =
      ofRules kinds context line (front ++ second :: first :: rest) := by
  induction front generalizing context with
  | nil =>
    simp only [List.nil_append, ofRules, passes, passes', context_stay, stay_andThen]
    rcases apart context with unclaimed | unclaimed
    · rw [unclaimed]
    · rw [unclaimed]
  | cons rule front ih =>
    -- the rules in front are tried as before, and hand on whatever context they leave
    simp only [List.cons_append, ofRules, ih]

end Step

/-! ### Other precedences -/

/-- The precedences that are compared with the standard one: both kinds are tried on an item, and
the rules for headings and for items have the standard places or each other's. -/
structure Precedence.IsVariant (precedence : Precedence) : Prop where
  kinds : ∀ kind, kind ∈ precedence.kinds
  rules : precedence.rules = Precedence.standard.rules ∨
    precedence.rules = [.fence, .literal, .listItem, .heading, .closeList, .blank, .paragraph]

namespace Precedence.IsVariant

variable {precedence : Precedence}

/-- A line contributes what it does under the standard precedence. -/
theorem ofLine_eq (variant : precedence.IsVariant) (context : BlockContext) (line : Text) :
    Step.ofLine precedence context line = Step.ofLine .standard context line := by
  have exchanged :
      Step.ofRules ListKind.all context line
          [.fence, .literal, .listItem, .heading, .closeList, .blank, .paragraph] =
        Step.ofRules ListKind.all context line Precedence.standard.rules := by
    have both : ∀ kind, kind ∈ ListKind.all := by
      intro kind
      cases kind <;> decide
    exact Step.ofRules_exchange [.fence, .literal] [.closeList, .blank, .paragraph]
      (fun context => (Rule.heading_or_listItem both context line).symm)
      (fun _ => rfl) (fun _ => rfl)
  calc Step.ofLine precedence context line
    _ = Step.ofRules ListKind.all context line precedence.rules :=
      Step.ofRules_congr variant.kinds context line precedence.rules
    _ = Step.ofRules ListKind.all context line Precedence.standard.rules := by
      rcases variant.rules with same | same
      · rw [same]
      · rw [same, exchanged]

theorem ofLines_eq (variant : precedence.IsVariant) (context : BlockContext) (lines : List Text) :
    Step.ofLines precedence context lines = Step.ofLines .standard context lines := by
  induction lines generalizing context with
  | nil => rfl
  | cons line rest ih =>
    unfold Step.ofLines
    simp only [variant.ofLine_eq, ih]

theorem body_eq (variant : precedence.IsVariant) (text : Text) :
    Document.body precedence text = Document.body .standard text :=
  variant.ofLines_eq .prose text.lines

theorem whole_eq (variant : precedence.IsVariant) (options : Options) (text : Text) :
    Document.whole precedence options text = Document.whole .standard options text := by
  unfold Document.whole
  rw [variant.body_eq]

end Precedence.IsVariant

namespace Document

/-- **Neither tests nor rules compete.** A line passes one test at most: that for a fence, for a
heading, for an item of either kind, for a blank line, or for a marker without an item. So headings
and items can be tried in either order, and so can the two kinds of items: the latex, the counters
and the trace stay the same. -/
theorem noncompeting {precedence : Precedence} (variant : precedence.IsVariant) :
    (∀ line : Text,
      [Line.isFence line, (Line.heading? line).isSome, (Line.listItemOf? .ordered line).isSome,
        (Line.listItemOf? .unordered line).isSome, Line.isBlank line,
        Line.startsLikeItem line && (Line.listItem? line).isNone].count true ≤ 1) ∧
      ∀ (options : Options) (text : Text),
        convertBy precedence options text = convert options text ∧
          (whole precedence options text).events = trace options text := by
  refine ⟨Line.count_tests_le_one, fun options text => ⟨?_, ?_⟩⟩
  · unfold convert convertBy
    rw [variant.whole_eq, variant.body_eq]
  · rw [variant.whole_eq]
    rfl

/-- Both exchanged at once. -/
theorem noncompeting_exchanged :
    let exchanged : Precedence :=
      ⟨[.fence, .literal, .listItem, .heading, .closeList, .blank, .paragraph],
        [.unordered, .ordered]⟩
    exchanged.IsVariant ∧
      convertBy exchanged {} "1. a\n# b\n- c".toList = convert {} "1. a\n# b\n- c".toList := by
  intro exchanged
  have variant : exchanged.IsVariant := by
    refine ⟨?_, .inr rfl⟩
    intro kind
    cases kind <;> decide
  exact ⟨variant, ((noncompeting variant).2 {} "1. a\n# b\n- c".toList).1⟩

end Document
end Manuscript
