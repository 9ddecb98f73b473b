import Manuscript.Inline.Delimiters

/-!
# The search for spans

A text is searched for spans from left to right. The search tries every place, takes the shortest
body there, may refuse it for its neighbours, and goes on behind what it has taken or one character
after what it has refused. What comes of it can be told from the text alone.

* `Delimiters.exists_span_iff`: the search finds a span iff one starts somewhere in the text.
* `Delimiters.starts_iff_of_permits`, `Delimiters.starts_iff_of_closing`: one starts where two marks
  have a body between them. Which of the bodies is the shortest does not matter, if neighbours do
  not, or if a body cannot hold the closing mark.
-/

namespace Manuscript
namespace Delimiters

variable {marks : Delimiters} {before : Option Char} {text : Text}

/-- A span starts somewhere in a text: some rest of it begins with one, and the characters around
allow it. The first argument after the marks is the character in front of the text. -/
def Starts (marks : Delimiters) (before : Option Char) (text : Text) : Prop :=
  ∃ front rest body : Text, text = front ++ rest ∧ marks.bodyAtStart rest = some body ∧
    marks.permits (front.getLast?.or before) (rest.drop (marks.enclose body).length).head?

theorem bodyAtStart_nil (marks : Delimiters) : marks.bodyAtStart [] = none := by
  rw [bodyAtStart]
  split
  · rw [List.drop_nil, bodyBeforeClosing]
  · rfl

theorem not_starts_nil : ¬ marks.Starts before [] := by
  rintro ⟨front, rest, body, cut, found, -⟩
  obtain ⟨-, rfl⟩ := List.append_eq_nil_iff.1 cut.symm
  rw [bodyAtStart_nil] at found
  cases found

/-- Where no span starts with the first character, one starts later or not at all. -/
theorem starts_cons_iff {c : Char} {rest : Text}
    (refused : ∀ body, marks.bodyAtStart (c :: rest) = some body →
      ¬ marks.permits before ((c :: rest).drop (marks.enclose body).length).head?) :
    marks.Starts before (c :: rest) ↔ marks.Starts (some c) rest := by
  have behind (front : Text) :
      (c :: front).getLast?.or before = front.getLast?.or (some c) := by
    rw [List.getLast?_cons]
    cases front.getLast? <;> rfl
  constructor
  · rintro ⟨front, tail, body, cut, found, permitted⟩
    rcases List.cons_eq_append_iff.1 cut with ⟨rfl, rfl⟩ | ⟨front, rfl, rfl⟩
    · exact absurd permitted (refused body found)
    · exact ⟨front, tail, body, rfl, found, by rwa [← behind]⟩
  · rintro ⟨front, tail, body, rfl, found, permitted⟩
    exact ⟨c :: front, tail, body, rfl, found, by rwa [behind]⟩

/-- **The search finds a span iff one starts somewhere.** -/
theorem exists_span_iff (marks : Delimiters) (before : Option Char) (text : Text) :
    (∃ body, .span body ∈ marks.piecesAfter before text) ↔ marks.Starts before text := by
  fun_induction piecesAfter marks before text with
  | case1 before => simp [not_starts_nil]
  | case2 before c rest body found after permitted _ =>
    constructor
    · intro
      exact ⟨[], c :: rest, body, rfl, found, by rwa [drop_enclose rest found]⟩
    · intro
      exact ⟨body, by simp⟩
  | case3 before c rest body found after refused ih =>
    -- the one span that starts here is refused, and the search goes on behind its first character
    have skipped : marks.Starts before (c :: rest) ↔ marks.Starts (some c) rest := by
      refine starts_cons_iff fun other foundOther => ?_
      obtain rfl := Option.some.inj (found.symm.trans foundOther)
      rwa [drop_enclose rest found]
    rw [skipped, ← ih]
    simp
  | case4 before c rest found ih =>
    have skipped : marks.Starts before (c :: rest) ↔ marks.Starts (some c) rest :=
      starts_cons_iff (by simp [found])
    rw [skipped, ← ih]
    simp

/-! ### Bodies -/

theorem allows_of_bodyBeforeClosing {body : Text}
    (h : marks.bodyBeforeClosing text = some body) : ∀ c ∈ body, marks.allows c := by
  induction text generalizing body with
  | nil => simp [bodyBeforeClosing] at h
  | cons c rest ih =>
    rw [bodyBeforeClosing] at h
    split at h
    · next allowed =>
      split at h
      · obtain rfl := Option.some.inj h
        simpa using allowed
      · obtain ⟨tail, found, rfl⟩ := Option.map_eq_some_iff.1 h
        exact List.forall_mem_cons.2 ⟨allowed, ih found⟩
    · cases h

/-- Something allowed in front of a closing mark has a shortest beginning that is a body. -/
theorem exists_body_of_closing {body : Text} (after : Text) (nonempty : body ≠ [])
    (allowed : ∀ c ∈ body, marks.allows c) :
    ∃ shortest, marks.bodyBeforeClosing (body ++ (marks.closing ++ after)) = some shortest := by
  induction body with
  | nil => exact absurd rfl nonempty
  | cons c rest ih =>
    obtain ⟨first, others⟩ := List.forall_mem_cons.1 allowed
    rw [List.cons_append, bodyBeforeClosing, if_pos first]
    split
    · exact ⟨_, rfl⟩
    · next open_ =>
      -- the closing mark is not here, so the body goes on
      have more : rest ≠ [] := by
        rintro rfl
        exact open_ (List.isPrefixOf_iff_prefix.2 (List.prefix_append _ _))
      obtain ⟨shortest, found⟩ := ih more others
      rw [found]
      exact ⟨c :: shortest, rfl⟩

/-- A body that may not hold the closing mark ends at the first one. -/
theorem bodyBeforeClosing_append {d : Char} {body : Text} (after : Text)
    (closing : marks.closing = [d]) (allows : ∀ c, marks.allows c ↔ c ≠ d) (nonempty : body ≠ [])
    (plain : d ∉ body) : marks.bodyBeforeClosing (body ++ ([d] ++ after)) = some body := by
  induction body with
  | nil => exact absurd rfl nonempty
  | cons c rest ih =>
    obtain ⟨first, others⟩ := not_or.1 (mt List.mem_cons.2 plain)
    rw [List.cons_append, bodyBeforeClosing, if_pos ((allows c).2 (Ne.symm first)), closing]
    cases rest with
    | nil => simp [List.isPrefixOf]
    | cons next rest =>
      -- the closing mark is not here, so the body goes on
      have distinct : d ≠ next := fun same => others (by simp [same])
      rw [ih (by simp) others]
      simp [List.isPrefixOf, distinct]

/-- **No other body is shorter.** -/
theorem length_le_of_bodyBeforeClosing {body other : Text}
    (found : marks.bodyBeforeClosing text = some body) (nonempty : other ≠ [])
    (closed : other ++ marks.closing <+: text) : body.length ≤ other.length := by
  induction text generalizing body other with
  | nil => simp [bodyBeforeClosing] at found
  | cons c rest ih =>
    obtain ⟨d, others, rfl⟩ := List.exists_cons_of_ne_nil nonempty
    rw [List.cons_append, List.cons_prefix_cons] at closed
    rw [bodyBeforeClosing] at found
    split at found
    · split at found
      · obtain rfl := Option.some.inj found
        exact Nat.le_add_left 1 others.length
      · next open_ =>
        -- the closing mark is not here, so the other body goes on as well
        obtain ⟨tail, shorter, rfl⟩ := Option.map_eq_some_iff.1 found
        have more : others ≠ [] := by
          rintro rfl
          exact open_ (List.isPrefixOf_iff_prefix.2 closed.2)
        exact Nat.succ_le_succ (ih shorter more closed.2)
    · cases found

theorem allows_of_bodyAtStart {body : Text} (h : marks.bodyAtStart text = some body) :
    ∀ c ∈ body, marks.allows c := by
  rw [bodyAtStart] at h
  split at h
  · exact allows_of_bodyBeforeClosing h
  · cases h

/-- Where there is no closing mark, there is no body. -/
theorem bodyBeforeClosing_eq_none (h : ¬ marks.closing <:+: text) :
    marks.bodyBeforeClosing text = none := by
  cases found : marks.bodyBeforeClosing text with
  | none => rfl
  | some body =>
    have inside := append_closing_isPrefix_of_bodyBeforeClosing found
    exact absurd ((List.suffix_append body marks.closing).isInfix.trans inside.isInfix) h

/-- A span that is found and the text behind it are the whole text. -/
theorem enclose_append_drop {c : Char} {rest body : Text}
    (h : marks.bodyAtStart (c :: rest) = some body) :
    marks.enclose body ++ rest.drop ((marks.enclose body).length - 1) = c :: rest := by
  rw [← drop_enclose rest h]
  exact List.prefix_iff_eq_append.1 (enclose_isPrefix_of_bodyAtStart h)

/-- A span starts with the text of a span, if that is where its body ends. -/
theorem bodyAtStart_enclose {body shortest after : Text}
    (h : marks.bodyBeforeClosing (body ++ (marks.closing ++ after)) = some shortest) :
    marks.bodyAtStart (marks.enclose body ++ after) = some shortest := by
  have opened : marks.enclose body ++ after =
      marks.opening ++ (body ++ (marks.closing ++ after)) := by simp [enclose]
  rw [opened, bodyAtStart, if_pos (List.isPrefixOf_iff_prefix.2 (List.prefix_append _ _)),
    List.drop_left, h]

/-! ### Patterns -/

/-- Where neighbours do not matter, a span starts wherever two marks have something between them. -/
theorem starts_iff_of_permits (permits : ∀ left right, marks.permits left right)
    (allowed : ∀ c ∈ text, marks.allows c) :
    marks.Starts none text ↔
      ∃ front body after : Text, text = front ++ (marks.enclose body ++ after) ∧ body ≠ [] := by
  constructor
  · rintro ⟨front, rest, body, rfl, found, -⟩
    obtain ⟨after, rfl⟩ := enclose_isPrefix_of_bodyAtStart found
    exact ⟨front, body, after, rfl, ne_nil_of_bodyAtStart found⟩
  · rintro ⟨front, body, after, rfl, nonempty⟩
    have inside : ∀ c ∈ body, marks.allows c := fun c mem => allowed c (by simp [enclose, mem])
    obtain ⟨shortest, found⟩ := exists_body_of_closing after nonempty inside
    exact ⟨front, _, shortest, rfl, bodyAtStart_enclose found, permits _ _⟩

/-- Where the closing mark is a character that no body may hold, a span reaches to the next one. -/
theorem starts_iff_of_closing {d : Char} (closing : marks.closing = [d])
    (allows : ∀ c, marks.allows c ↔ c ≠ d) :
    marks.Starts none text ↔
      ∃ front body after : Text, text = front ++ (marks.enclose body ++ after) ∧ body ≠ [] ∧
        d ∉ body ∧ marks.permits front.getLast? after.head? := by
  constructor
  · rintro ⟨front, rest, body, rfl, found, permitted⟩
    obtain ⟨after, rfl⟩ := enclose_isPrefix_of_bodyAtStart found
    rw [List.drop_left, Option.or_none] at permitted
    have plain : d ∉ body := fun mem => (allows d).1 (allows_of_bodyAtStart found d mem) rfl
    exact ⟨front, body, after, rfl, ne_nil_of_bodyAtStart found, plain, permitted⟩
  · rintro ⟨front, body, after, rfl, nonempty, plain, permitted⟩
    have found := bodyBeforeClosing_append after closing allows nonempty plain
    rw [← closing] at found
    refine ⟨front, _, body, rfl, bodyAtStart_enclose found, ?_⟩
    rwa [List.drop_left, Option.or_none]

end Delimiters
end Manuscript
