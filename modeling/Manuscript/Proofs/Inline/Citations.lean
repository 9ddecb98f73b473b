import Manuscript.Proofs.Inline.Places
import Manuscript.Proofs.Inline.Search
import Mathlib.Data.List.Pairwise
import Mathlib.Tactic.ByContra

/-!
# Citations outside code

The citations of a text are told here by the text alone: an occurrence is an opening mark, a key and
a closing bracket, and those that count are the leftmost ones, each behind the one before it
(`Inline.Leftmost`). Of these, the ones that lie inside a typewriter command are code. The others
are rendered at their positions, and every other character stays where it is (`Inline.cited`).

Places of code are apart from each other. So a citation that reaches out of one command, or holds a
whole one, lies inside no other command, and is rendered; and a command that no citation reaches
into from outside stands in the rendered text as it was.

* `Inline.leftmost_occurrencesFrom`: the citation pass finds the leftmost occurrences, and
  `Inline.Leftmost.unique` says that there is one list of them only.
* `Inline.renderCitationsFrom_eq_cited`: it renders those outside code, and nothing else.

Main statement: `Inline.citesOutside_renderCode`.
-/

namespace Manuscript
namespace Inline

variable {text : Text} {start stop : Nat}

/-! ### Occurrences -/

/-- A citation in a text, by the position of its first character and its key. -/
structure Occurrence where
  start : Nat
  key : Text
deriving DecidableEq, Repr

namespace Occurrence

variable {o other : Occurrence}

/-- The citation as it is written. -/
def source (o : Occurrence) : Text := "[ref:".toList ++ o.key ++ [']']

/-- The characters that the citation takes up. -/
def place (o : Occurrence) : Span := ⟨o.start, o.start + o.source.length⟩

/-- The citation stands in the text. Its key is not empty, and ends at the first closing bracket. -/
structure StandsIn (o : Occurrence) (text : Text) : Prop where
  spelled : ∃ front after : Text, text = front ++ (o.source ++ after) ∧ front.length = o.start
  key_ne_nil : o.key ≠ []
  bracket_not_mem : ']' ∉ o.key

theorem start_lt_stop (o : Occurrence) : o.start < o.place.stop := by
  have nonempty : o.source ≠ [] := List.append_ne_nil_of_right_ne_nil _ (List.cons_ne_nil _ _)
  exact Nat.lt_add_of_pos_right (List.length_pos_iff.2 nonempty)

/-- A citation stands where a search finds a span that starts. -/
theorem standsIn_iff :
    o.StandsIn text ↔ citationMarks.bodyAtStart (text.drop o.start) = some o.key := by
  constructor
  · rintro ⟨⟨front, after, rfl, length⟩, nonempty, closed⟩
    have found : citationMarks.bodyBeforeClosing (o.key ++ ([']'] ++ after)) = some o.key :=
      Delimiters.bodyBeforeClosing_append after rfl (fun c => bne_iff_ne) nonempty closed
    rw [← length, List.drop_left]
    exact Delimiters.bodyAtStart_enclose found
  · intro found
    obtain ⟨after, spelled⟩ := Delimiters.enclose_isPrefix_of_bodyAtStart found
    have inside : o.start ≤ text.length := by
      by_contra outside
      rw [List.drop_eq_nil_of_le (by omega), Delimiters.bodyAtStart_nil] at found
      cases found
    refine ⟨⟨text.take o.start, after, ?_, List.length_take_of_le inside⟩,
      Delimiters.ne_nil_of_bodyAtStart found, fun mem => ?_⟩
    · calc text = text.take o.start ++ text.drop o.start := (List.take_append_drop _ _).symm
        _ = text.take o.start ++ (o.source ++ after) := by rw [← spelled]; rfl
    · have allowed : (']' != ']') = true := Delimiters.allows_of_bodyAtStart found _ mem
      exact absurd allowed (by decide)

/-- A citation is known by where it starts. -/
theorem StandsIn.eq (h : o.StandsIn text) (h' : other.StandsIn text)
    (same : o.start = other.start) : o = other := by
  have key := standsIn_iff.1 h
  rw [same, standsIn_iff.1 h'] at key
  cases o
  cases other
  rw [Occurrence.mk.injEq]
  exact ⟨same, (Option.some.inj key).symm⟩

theorem StandsIn.stop_le (h : o.StandsIn text) : o.place.stop ≤ text.length := by
  obtain ⟨⟨front, after, rfl, length⟩, -, -⟩ := h
  simp only [place, List.length_append]
  omega

end Occurrence

/-- The citations that are found from left to right from position `start` on: each is the first one
to stand there or further on, and the next is looked for behind it. -/
inductive Leftmost (text : Text) : Nat → List Occurrence → Prop
  | nil {start : Nat} (passed : ∀ o : Occurrence, o.StandsIn text → o.start < start) :
      Leftmost text start []
  | cons {start : Nat} {o : Occurrence} {rest : List Occurrence} (stands : o.StandsIn text)
      (onward : start ≤ o.start)
      (first : ∀ other : Occurrence, other.StandsIn text → start ≤ other.start →
        o.start ≤ other.start)
      (behind : Leftmost text o.place.stop rest) : Leftmost text start (o :: rest)

namespace Leftmost

variable {found others : List Occurrence}

/-- **The search has one result.** -/
theorem unique (h : Leftmost text start found) (h' : Leftmost text start others) :
    found = others := by
  induction h generalizing others with
  | nil passed =>
    cases h' with
    | nil => rfl
    | cons stands onward => exact absurd (passed _ stands) (Nat.not_lt.2 onward)
  | cons stands onward first behind ih =>
    cases h' with
    | nil passed => exact absurd (passed _ stands) (Nat.not_lt.2 onward)
    | cons stands' onward' first' behind' =>
      obtain rfl := stands.eq stands'
        (Nat.le_antisymm (first _ stands' onward') (first' _ stands onward))
      rw [ih behind']

/-- Where no citation starts, the search may as well begin one character further on. -/
theorem skip (h : Leftmost text (start + 1) found)
    (elsewhere : ∀ o : Occurrence, o.StandsIn text → o.start ≠ start) :
    Leftmost text start found := by
  have later (o : Occurrence) (stands : o.StandsIn text) (onward : start ≤ o.start) :
      start + 1 ≤ o.start :=
    Nat.lt_of_le_of_ne onward (elsewhere o stands).symm
  cases h with
  | nil passed =>
    refine .nil fun o stands => ?_
    by_contra onward
    exact absurd (passed o stands) (Nat.not_lt.2 (later o stands (Nat.not_lt.1 onward)))
  | cons stands onward first behind =>
    exact .cons stands (Nat.le_of_succ_le onward)
      (fun other stands' onward' => first other stands' (later other stands' onward')) behind

theorem start_le (h : Leftmost text start found) : ∀ o ∈ found, start ≤ o.start := by
  induction h with
  | nil => simp
  | cons stands onward first behind ih =>
    refine List.forall_mem_cons.2 ⟨onward, fun other mem => ?_⟩
    have behind := Nat.lt_of_lt_of_le (Occurrence.start_lt_stop _) (ih other mem)
    exact Nat.le_trans onward (Nat.le_of_lt behind)

theorem standsIn (h : Leftmost text start found) : ∀ o ∈ found, o.StandsIn text := by
  induction h with
  | nil => simp
  | cons stands onward first behind ih => exact List.forall_mem_cons.2 ⟨stands, ih⟩

/-- The citations that are found come one behind the other. -/
theorem pairwise (h : Leftmost text start found) :
    found.Pairwise fun o other => o.place.stop ≤ other.start := by
  induction h with
  | nil => exact .nil
  | cons stands onward first behind ih => exact .cons behind.start_le ih

end Leftmost

/-! ### What the citation pass finds -/

/-- The citations among some pieces, the first of which starts at position `start`. -/
def occurrencesFrom (start : Nat) : List Piece → List Occurrence
  | [] => []
  | .char _ :: rest => occurrencesFrom (start + 1) rest
  | .span key :: rest => ⟨start, key⟩ :: occurrencesFrom (Occurrence.place ⟨start, key⟩).stop rest

/-- **The pass finds the leftmost citations.** -/
theorem leftmost_occurrencesFrom (front rest : Text) (before : Option Char) :
    Leftmost (front ++ rest) front.length
      (occurrencesFrom front.length (citationMarks.piecesAfter before rest)) := by
  -- the induction is on the search, with all that it has passed in front
  fun_induction Delimiters.piecesAfter citationMarks before rest generalizing front with
  | case1 before =>
    refine .nil fun o stands => ?_
    have inside := Nat.lt_of_lt_of_le o.start_lt_stop stands.stop_le
    rwa [List.append_nil] at inside
  | case2 before c rest key found after permitted ih =>
    have whole : citationMarks.enclose key ++ after = c :: rest :=
      Delimiters.enclose_append_drop found
    have behind := ih (front ++ citationMarks.enclose key)
    rw [List.append_assoc, whole, List.length_append] at behind
    refine .cons ?_ (Nat.le_refl _) (fun _ _ onward => onward) behind
    rw [Occurrence.standsIn_iff, List.drop_left, found]
  | case3 before c rest key found after refused ih => exact absurd rfl refused
  | case4 before c rest found ih =>
    -- nothing is found here, so the search from the next character on is the search from here on
    have behind := ih (front ++ [c])
    rw [List.append_assoc, List.length_append] at behind
    refine behind.skip fun o stands here => ?_
    rw [Occurrence.standsIn_iff, here, List.drop_left] at stands
    cases found.symm.trans stands

theorem start_le_of_mem_occurrencesFrom {pieces : List Piece} :
    ∀ o ∈ occurrencesFrom start pieces, start ≤ o.start := by
  induction pieces generalizing start with
  | nil => simp [occurrencesFrom]
  | cons piece rest ih =>
    cases piece with
    | char c => exact fun o mem => Nat.le_of_succ_le (ih o mem)
    | span key =>
      refine List.forall_mem_cons.2 ⟨Nat.le_refl _, fun o mem => ?_⟩
      exact Nat.le_of_lt (Nat.lt_of_lt_of_le (Occurrence.start_lt_stop ⟨start, key⟩) (ih o mem))

/-! ### Rendering at positions -/

theorem extract_append_extract {middle : Nat} (h : start ≤ middle) (h' : middle ≤ stop) :
    text.extract start middle ++ text.extract middle stop = text.extract start stop := by
  have reach : stop - start = (middle - start) + (stop - middle) := by omega
  have onward : start + (middle - start) = middle := by omega
  simp only [List.extract_eq_take_drop, reach, List.take_add, List.drop_drop, onward]

/-- The characters of a text from position `start` up to position `stop`, with the given citations
among them rendered. -/
def cited (text : Text) (start stop : Nat) : List Occurrence → Text
  | [] => text.extract start stop
  | o :: rest =>
    text.extract start o.start ++ (Latex.citation o.key ++ cited text o.place.stop stop rest)

/-- At the first citation nothing comes before it. -/
theorem cited_cons_self (text : Text) (stop : Nat) (o : Occurrence) (rest : List Occurrence) :
    cited text o.start stop (o :: rest) =
      Latex.citation o.key ++ cited text o.place.stop stop rest := by
  rw [cited, List.extract_eq_take_drop, Nat.sub_self, List.take_zero, List.nil_append]

/-- Up to the first citation the text stays as it is. -/
theorem cited_of_forall_le {middle : Nat} {cites : List Occurrence} (h : start ≤ middle)
    (h' : middle ≤ stop) (behind : ∀ o ∈ cites, middle ≤ o.start) :
    cited text start stop cites = text.extract start middle ++ cited text middle stop cites := by
  cases cites with
  | nil => exact (extract_append_extract h h').symm
  | cons o rest =>
    rw [cited, cited, ← extract_append_extract h (behind o List.mem_cons_self), List.append_assoc]

/-- A text is rendered part by part, if no citation lies across the seam. -/
theorem cited_append {middle : Nat} {left right : List Occurrence} (h : start ≤ middle)
    (h' : middle ≤ stop) (before : ∀ o ∈ left, o.place.stop ≤ middle)
    (behind : ∀ o ∈ right, middle ≤ o.start) :
    cited text start stop (left ++ right) =
      cited text start middle left ++ cited text middle stop right := by
  induction left generalizing start with
  | nil => exact cited_of_forall_le h h' behind
  | cons o left ih =>
    obtain ⟨first, others⟩ := List.forall_mem_cons.1 before
    rw [List.cons_append, cited, cited, ih first others]
    simp only [List.append_assoc]

theorem extract_middle (front middle after : Text) :
    (front ++ (middle ++ after)).extract front.length (front ++ middle).length = middle := by
  rw [List.extract_eq_take_drop, List.drop_left, List.length_append, Nat.add_sub_cancel_left,
    List.take_left]

/-- A part of the text in front of all citations stays as it is. -/
theorem cited_of_spelled {front part rest : Text} {cites : List Occurrence}
    (spelled : text = front ++ (part ++ rest))
    (behind : ∀ o ∈ cites, (front ++ part).length ≤ o.start) :
    cited text front.length text.length cites =
      part ++ cited text (front ++ part).length text.length cites := by
  have onward : front.length ≤ (front ++ part).length := by simp
  have inside : (front ++ part).length ≤ text.length := by simp [spelled]
  have here : text.extract front.length (front ++ part).length = part := by
    rw [spelled, extract_middle]
  rw [cited_of_forall_le onward inside behind, here]

/-- The citations that lie inside none of the given spans. -/
def outsideCode (code : List Span) (found : List Occurrence) : List Occurrence :=
  found.filter fun o => !code.any (·.contains o.place)

theorem mem_outsideCode_iff {code : List Span} {found : List Occurrence} {o : Occurrence} :
    o ∈ outsideCode code found ↔ o ∈ found ∧ ∀ span ∈ code, ¬ span.contains o.place := by
  simp [outsideCode]

theorem outsideCode_cons_of_inside {code : List Span} {o : Occurrence}
    (h : code.any (·.contains o.place)) (rest : List Occurrence) :
    outsideCode code (o :: rest) = outsideCode code rest :=
  List.filter_cons_of_neg (by rw [h]; exact Bool.false_ne_true)

theorem outsideCode_cons_of_outside {code : List Span} {o : Occurrence}
    (h : ¬ code.any (·.contains o.place)) (rest : List Occurrence) :
    outsideCode code (o :: rest) = o :: outsideCode code rest :=
  List.filter_cons_of_pos (by rw [eq_false_of_ne_true h]; rfl)

theorem renderCitationsFrom_span (code : List Span) (start : Nat) (key : Text)
    (rest : List Piece) :
    renderCitationsFrom code start (.span key :: rest) =
      (if code.any (·.contains (Occurrence.place ⟨start, key⟩)) then citationMarks.enclose key
        else Latex.citation key) ++
        renderCitationsFrom code (Occurrence.place ⟨start, key⟩).stop rest :=
  rfl

/-- **The pass renders the citations outside code,** and leaves the rest of the text as it is. -/
theorem renderCitationsFrom_eq_cited (code : List Span) {front : Text} {pieces : List Piece}
    (spelled : text = front ++ pieces.flatMap (Piece.source citationMarks)) :
    renderCitationsFrom code front.length pieces =
      cited text front.length text.length
        (outsideCode code (occurrencesFrom front.length pieces)) := by
  induction pieces generalizing front with
  | nil =>
    rw [List.flatMap_nil, List.append_nil] at spelled
    simp [renderCitationsFrom, occurrencesFrom, outsideCode, cited, spelled]
  | cons piece rest ih =>
    rw [List.flatMap_cons] at spelled
    have rendered := @ih (front ++ piece.source citationMarks)
      (by rw [spelled, List.append_assoc])
    -- the citations behind the piece start behind it
    have behind : ∀ o ∈ outsideCode code
        (occurrencesFrom (front ++ piece.source citationMarks).length rest),
        (front ++ piece.source citationMarks).length ≤ o.start := fun o mem =>
      start_le_of_mem_occurrencesFrom o (mem_outsideCode_iff.1 mem).1
    have passed := cited_of_spelled spelled behind
    rw [← rendered, List.length_append] at passed
    cases piece with
    | char c => exact passed.symm
    | span key =>
      rw [renderCitationsFrom_span, occurrencesFrom]
      by_cases inside : code.any (·.contains (Occurrence.place ⟨front.length, key⟩))
      · -- a citation inside code is left out, and so it stays as it is
        rw [if_pos inside, outsideCode_cons_of_inside inside]
        exact passed.symm
      · rw [if_neg inside, outsideCode_cons_of_outside inside]
        rw [List.length_append] at rendered
        exact (congrArg (Latex.citation key ++ ·) rendered).trans
          (cited_cons_self text _ ⟨front.length, key⟩ _).symm

/-! ### Citations and code -/

namespace Span

/-- The spans have no character in common. -/
def Avoids (span other : Span) : Prop := span.stop ≤ other.start ∨ other.stop ≤ span.start

/-- The spans have characters in common, but none of them contains the other. -/
def Straddles (span other : Span) : Prop :=
  ¬ span.Avoids other ∧ ¬ span.contains other ∧ ¬ other.contains span

instance : Std.Symm Avoids := ⟨fun _ _ => Or.symm⟩

variable {span other inner : Span}

theorem contains_iff :
    span.contains other ↔ span.start ≤ other.start ∧ other.stop ≤ span.stop := by
  simp [contains]

/-- What lies in a span avoids what the span avoids. -/
theorem Avoids.of_contains (h : span.Avoids other) (within : span.contains inner) :
    inner.Avoids other := by
  rw [contains_iff] at within
  rcases h with before | behind
  · exact .inl (Nat.le_trans within.2 before)
  · exact .inr (Nat.le_trans behind within.1)

theorem not_avoids_self (proper : span.start < span.stop) : ¬ span.Avoids span := by
  rintro (before | behind)
  · exact absurd proper (Nat.not_lt.2 before)
  · exact absurd proper (Nat.not_lt.2 behind)

end Span

variable {span : Span} {o : Occurrence} {found cites : List Occurrence}

/-- What stands at the place of a typewriter command. -/
theorem exists_typewriter_of_mem_codeSpans (h : span ∈ codeSpans text) :
    ∃ front body after, renderCode text = front ++ (Latex.typewriter body ++ after) ∧
      front.length = span.start ∧ (front ++ Latex.typewriter body).length = span.stop := by
  obtain ⟨left, body, right, cut, first, last⟩ := mem_codeSpansFrom_iff.1 h
  rw [Nat.zero_add] at first
  refine ⟨left.flatMap (Piece.render Latex.typewriter), body,
    right.flatMap (Piece.render Latex.typewriter), ?_, first.symm, ?_⟩
  · rw [renderCode, Delimiters.render, cut, List.flatMap_append, List.flatMap_cons]
    rfl
  · rw [List.length_append, last, first]

/-- Places of code have no character in common. -/
theorem avoids_of_mem_codeSpans {other : Span} (h : span ∈ codeSpans text)
    (h' : other ∈ codeSpans text) (distinct : span ≠ other) : span.Avoids other := by
  have apart : (codeSpans text).Pairwise Span.Avoids :=
    (pairwise_codeSpansFrom 0 _).imp fun inOrder => .inl inOrder
  exact apart.forall h h' distinct

theorem start_lt_stop_of_mem_codeSpans (h : span ∈ codeSpans text) : span.start < span.stop := by
  obtain ⟨front, body, after, -, first, last⟩ := exists_typewriter_of_mem_codeSpans h
  simp only [List.length_append, Latex.typewriter, Latex.command, List.length_singleton] at last
  omega

theorem stop_le_of_mem_codeSpans (h : span ∈ codeSpans text) :
    span.stop ≤ (renderCode text).length := by
  obtain ⟨front, body, after, spelled, -, last⟩ := exists_typewriter_of_mem_codeSpans h
  rw [spelled, ← last, ← List.append_assoc]
  exact (List.prefix_append _ after).length_le

/-- A citation does not start where a command starts: it starts with another character. -/
theorem start_ne_of_mem_codeSpans (h : span ∈ codeSpans text)
    (stands : o.StandsIn (renderCode text)) : o.start ≠ span.start := by
  obtain ⟨front, body, after, spelled, first, -⟩ := exists_typewriter_of_mem_codeSpans h
  obtain ⟨⟨front', after', spelled', first'⟩, -, -⟩ := stands
  intro same
  have length : front'.length = front.length := by omega
  -- one starts with a bracket, and the other with a backslash
  cases (List.append_inj (spelled'.symm.trans spelled) length).2

/-- **A citation that holds or straddles code, or avoids all of it, lies outside code.** -/
theorem not_contains_of_mem_codeSpans (stands : o.StandsIn (renderCode text))
    (h : (∃ span ∈ codeSpans text, o.place.contains span ∨ o.place.Straddles span) ∨
      ∀ span ∈ codeSpans text, o.place.Avoids span)
    {other : Span} (mem : other ∈ codeSpans text) : ¬ other.contains o.place := by
  intro inside
  rcases h with ⟨span, mem', reaches⟩ | avoids
  · by_cases same : span = other
    · -- the citation would be all of the command
      subst same
      rcases reaches with holds | straddles
      · exact start_ne_of_mem_codeSpans mem stands
          (Nat.le_antisymm (Span.contains_iff.1 holds).1 (Span.contains_iff.1 inside).1)
      · exact straddles.2.2 inside
    · -- the citation lies in one command and reaches another one
      have apart : o.place.Avoids span :=
        (avoids_of_mem_codeSpans mem mem' (Ne.symm same)).of_contains inside
      rcases reaches with holds | straddles
      · exact Span.not_avoids_self (start_lt_stop_of_mem_codeSpans mem')
          (symm (apart.of_contains holds))
      · exact straddles.1 apart
  · exact Span.not_avoids_self o.start_lt_stop ((symm (avoids other mem)).of_contains inside)

/-- Citations that avoid a span stand before it or behind it. -/
theorem exists_append_of_avoids (inOrder : cites.Pairwise fun o other => o.place.stop ≤ other.start)
    (avoids : ∀ o ∈ cites, o.place.Avoids span) :
    ∃ left right, cites = left ++ right ∧ (∀ o ∈ left, o.place.stop ≤ span.start) ∧
      ∀ o ∈ right, span.stop ≤ o.start := by
  induction cites with
  | nil => exact ⟨[], [], rfl, by simp, by simp⟩
  | cons o rest ih =>
    obtain ⟨first, inOrder⟩ := List.pairwise_cons.1 inOrder
    obtain ⟨here, avoids⟩ := List.forall_mem_cons.1 avoids
    rcases here with before | behind
    · obtain ⟨left, right, rfl, before', behind'⟩ := ih inOrder avoids
      exact ⟨o :: left, right, rfl, List.forall_mem_cons.2 ⟨before, before'⟩, behind'⟩
    · -- the first one behind the span has all others behind it
      refine ⟨[], o :: rest, rfl, by simp, List.forall_mem_cons.2 ⟨behind, fun other mem => ?_⟩⟩
      exact Nat.le_trans behind (Nat.le_trans (Nat.le_of_lt o.start_lt_stop) (first other mem))

/-- What is rendered around a span in which there is nothing to render. -/
theorem cited_around {left right : List Occurrence} (proper : span.start ≤ span.stop)
    (inside : span.stop ≤ text.length) (before : ∀ o ∈ left, o.place.stop ≤ span.start)
    (behind : ∀ o ∈ right, span.stop ≤ o.start) :
    cited text 0 text.length (left ++ right) = cited text 0 span.start left ++
      (text.extract span.start span.stop ++ cited text span.stop text.length right) := by
  rw [cited_append (Nat.zero_le _) (Nat.le_trans proper inside) before
    fun o mem => Nat.le_trans proper (behind o mem), cited_of_forall_le proper inside behind]

/-- What is rendered around one of the citations. -/
theorem cited_around_citation {left right : List Occurrence} (inside : o.start ≤ text.length)
    (before : ∀ other ∈ left, other.place.stop ≤ o.start)
    (behind : ∀ other ∈ right, o.place.stop ≤ other.start) :
    cited text 0 text.length (left ++ o :: right) = cited text 0 o.start left ++
      (Latex.citation o.key ++ cited text o.place.stop text.length right) := by
  have onward : ∀ other ∈ o :: right, o.start ≤ other.start :=
    List.forall_mem_cons.2 ⟨Nat.le_refl _, fun other mem =>
      Nat.le_trans (Nat.le_of_lt o.start_lt_stop) (behind other mem)⟩
  rw [cited_append (Nat.zero_le _) inside before onward, cited_cons_self]

/-- The text in which some citations have been found is rendered outside code. -/
structure CitesOutside (text : Text) (code : List Span) (found : List Occurrence) (out : Text) :
    Prop where
  /-- The citations are the leftmost ones that stand in the text. -/
  leftmost : ∀ others, Leftmost text 0 others ↔ others = found
  /-- Those outside code are rendered, and every other character stays as it is. -/
  rendered : out = cited text 0 text.length (outsideCode code found)
  /-- Code that no citation holds or straddles stands as it stood, between what becomes of the text
  before it and of the text behind it. -/
  codeKept : ∀ span ∈ code,
    (∀ o ∈ found, ¬ o.place.contains span ∧ ¬ o.place.Straddles span) →
      ∃ body left right, text.extract span.start span.stop = Latex.typewriter body ∧
        outsideCode code found = left ++ right ∧
        (∀ o ∈ left, o.place.stop ≤ span.start) ∧ (∀ o ∈ right, span.stop ≤ o.start) ∧
        out = cited text 0 span.start left ++
          (Latex.typewriter body ++ cited text span.stop text.length right)
  /-- A citation that holds or straddles code, or avoids all of it, is rendered. -/
  citationRendered : ∀ o ∈ found,
    (∃ span ∈ code, o.place.contains span ∨ o.place.Straddles span) ∨
        (∀ span ∈ code, o.place.Avoids span) →
      ∃ left right, outsideCode code found = left ++ o :: right ∧
        (∀ o' ∈ left, o'.place.stop ≤ o.start) ∧ (∀ o' ∈ right, o.place.stop ≤ o'.start) ∧
        out = cited text 0 o.start left ++
          (Latex.citation o.key ++ cited text o.place.stop text.length right)

/-- **Citations are rendered outside code.** After the code pass, the citation pass renders the
leftmost citations of the text that the code pass has written, but for those inside the places that
it has reported. -/
theorem citesOutside_renderCode (text : Text) : ∃ found, CitesOutside (renderCode text)
    (codeSpans text) found (renderCitations (codeSpans text) (renderCode text)) := by
  let code := codeSpans text
  let found := occurrencesFrom 0 (citationMarks.pieces (renderCode text))
  have leftmost : Leftmost (renderCode text) 0 found := leftmost_occurrencesFrom [] _ none
  have rendered : renderCitations code (renderCode text) =
      cited (renderCode text) 0 (renderCode text).length (outsideCode code found) :=
    @renderCitationsFrom_eq_cited _ code [] _
      (Delimiters.flatMap_source_pieces citationMarks (renderCode text)).symm
  have inOrder : (outsideCode code found).Pairwise fun o other => o.place.stop ≤ other.start :=
    leftmost.pairwise.filter _
  refine ⟨found, fun others => ⟨fun h => h.unique leftmost, ?_⟩, rendered, ?_, ?_⟩
  · rintro rfl
    exact leftmost
  · intro span mem apart
    -- of the citations outside code none reaches into this command
    have avoids : ∀ o ∈ outsideCode code found, o.place.Avoids span := by
      intro o cites
      obtain ⟨isFound, outside⟩ := mem_outsideCode_iff.1 cites
      obtain ⟨holdsNot, straddlesNot⟩ := apart o isFound
      by_contra touches
      exact straddlesNot ⟨touches, holdsNot, outside span mem⟩
    obtain ⟨left, right, cut, before, behind⟩ := exists_append_of_avoids inOrder avoids
    obtain ⟨front, body, after, spelled, first, last⟩ := exists_typewriter_of_mem_codeSpans mem
    have here : (renderCode text).extract span.start span.stop = Latex.typewriter body := by
      rw [spelled, ← first, ← last, extract_middle]
    refine ⟨body, left, right, here, cut, before, behind, ?_⟩
    rw [rendered, cut, cited_around (Nat.le_of_lt (start_lt_stop_of_mem_codeSpans mem))
      (stop_le_of_mem_codeSpans mem) before behind, here]
  · intro o isFound reaches
    have stands := leftmost.standsIn o isFound
    have cites : o ∈ outsideCode code found := mem_outsideCode_iff.2
      ⟨isFound, fun other mem => not_contains_of_mem_codeSpans stands reaches mem⟩
    obtain ⟨left, right, cut⟩ := List.append_of_mem cites
    rw [cut, List.pairwise_append, List.pairwise_cons] at inOrder
    obtain ⟨-, ⟨behind, -⟩, before⟩ := inOrder
    have before : ∀ other ∈ left, other.place.stop ≤ o.start := fun other mem =>
      before other mem o List.mem_cons_self
    have inside : o.start ≤ (renderCode text).length :=
      Nat.le_trans (Nat.le_of_lt o.start_lt_stop) stands.stop_le
    refine ⟨left, right, cut, before, behind, ?_⟩
    rw [rendered, cut, cited_around_citation inside before behind]

-- One citation inside code, one around it, and one that straddles it.
example : let text := "`[ref:a]` [ref:`b`] `[ref:c`]".toList
    renderCitations (codeSpans text) (renderCode text) =
      Latex.typewriter "[ref:a]".toList ++ " ".toList ++
        Latex.citation (Latex.typewriter "b".toList) ++ " \\texttt\x7b".toList ++
        Latex.citation "c\x7d".toList := by
  decide +kernel

end Inline
end Manuscript
