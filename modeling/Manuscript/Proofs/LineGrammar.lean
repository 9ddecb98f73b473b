import Manuscript.Line.Heading
import Manuscript.Line.ListItem
import Mathlib.Data.List.TakeWhile
import Mathlib.Tactic.ByContra

/-!
# The grammar of headings and list items

Headings and list items are told here by how a line can be cut. A heading is one to six number
signs, blanks and a title; a list item is an indent, a marker, blanks and content. What comes last
is not empty and holds no line feed. Such a cut is not unique: of several blanks, some may be taken
for the start of the title or of the content. All else is, since no sign, digit, period or bullet is
a blank.

* `Line.textAfterBlanks_eq_some_iff`: of the cuts into blanks and text, the one with the most blanks
  is taken.
* `Line.IsCut.unique`: the indent, the marker and the kind are the same for every cut.

Main statements: `Line.itemGrammar` and `Line.headingGrammar`.
-/

namespace Manuscript

/-! ### Classes without a common character -/

theorem CharClass.not_contains_of_apart {left right : CharClass}
    (apart : ∀ range ∈ left, ∀ other ∈ right, range.2 < other.1 ∨ other.2 < range.1) {c : Char}
    (h : left.contains c) : ¬ right.contains c := by
  intro h'
  obtain ⟨range, mem, inside⟩ := List.any_eq_true.1 h
  obtain ⟨other, mem', inside'⟩ := List.any_eq_true.1 h'
  simp only [Bool.and_eq_true, decide_eq_true_eq] at inside inside'
  rcases apart range mem other mem' with below | above
  · omega
  · omega

theorem Text.not_isBlank_of_isDigit {c : Char} (h : Text.isDigit c) : ¬ Text.isBlank c :=
  CharClass.not_contains_of_apart (by decide +kernel) h

namespace Line

variable {rest blanks content : Text}

/-! ### Blanks and text -/

/-- Blanks that set off some content. -/
structure SetOff (blanks content : Text) : Prop where
  blanks_ne_nil : blanks ≠ []
  blank : ∀ c ∈ blanks, Text.isBlank c
  content_ne_nil : content ≠ []
  lineFeed_not_mem : '\n' ∉ content

/-- Blanks that set off the rest of a text, as many of them as can be. -/
def SetOffMost (rest blanks content : Text) : Prop :=
  rest = blanks ++ content ∧ SetOff blanks content ∧
    ∀ fewer more : Text, rest = fewer ++ more → SetOff fewer more → fewer.length ≤ blanks.length

/-- How many characters are taken for blanks: those at the start, but not the last of all. -/
def separation (rest : Text) : Nat :=
  min (rest.takeWhile Text.isBlank).length (rest.length - 1)

theorem textAfterBlanks_eq (rest : Text) : textAfterBlanks rest =
    if separation rest = 0 || (rest.drop (separation rest)).contains '\n' then none
    else some (rest.drop (separation rest)) :=
  rfl

theorem SetOff.length_le_separation (h : SetOff blanks content) :
    blanks.length ≤ separation (blanks ++ content) := by
  have nonempty := List.length_pos_iff.2 h.content_ne_nil
  -- these blanks are at the start, and the last character is one of the content
  rw [separation, List.takeWhile_append_of_pos h.blank, List.length_append, List.length_append]
  omega

theorem setOff_separation (present : separation rest ≠ 0)
    (plain : '\n' ∉ rest.drop (separation rest)) :
    SetOff (rest.take (separation rest)) (rest.drop (separation rest)) := by
  have few : separation rest ≤ (rest.takeWhile Text.isBlank).length := Nat.min_le_left _ _
  have notAll : separation rest < rest.length := by
    have last : separation rest ≤ rest.length - 1 := Nat.min_le_right _ _
    omega
  have among : rest.take (separation rest) <+: rest.takeWhile Text.isBlank :=
    List.prefix_of_prefix_length_le (List.take_prefix _ rest) (List.takeWhile_prefix _)
      ((List.length_take_le _ rest).trans few)
  refine ⟨fun empty => ?_, fun c mem => List.mem_takeWhile_imp (among.subset mem), fun empty => ?_,
    plain⟩
  · have length := congrArg List.length empty
    rw [List.length_take, List.length_nil] at length
    omega
  · have length := congrArg List.length empty
    rw [List.length_drop, List.length_nil] at length
    omega

theorem setOffMost_of_textAfterBlanks (h : textAfterBlanks rest = some content) :
    ∃ blanks, SetOffMost rest blanks content := by
  rw [textAfterBlanks_eq] at h
  split at h
  · cases h
  · next separated =>
    obtain rfl := Option.some.inj h
    simp only [Bool.or_eq_true, decide_eq_true_eq, List.contains_iff_mem, not_or] at separated
    refine ⟨rest.take (separation rest), (List.take_append_drop _ _).symm,
      setOff_separation separated.1 separated.2, fun fewer more cut setOff => ?_⟩
    have most := setOff.length_le_separation
    rw [← cut] at most
    have all : separation rest ≤ rest.length := (Nat.min_le_right _ _).trans (Nat.sub_le _ _)
    rwa [List.length_take_of_le all]

/-- Content that can be set off is found, at least the end of it. -/
theorem SetOff.exists_textAfterBlanks (h : SetOff blanks content) :
    ∃ most, textAfterBlanks (blanks ++ content) = some most := by
  have most := h.length_le_separation
  have present : separation (blanks ++ content) ≠ 0 := by
    have nonempty := List.length_pos_iff.2 h.blanks_ne_nil
    omega
  -- what is found is an end of the content, since no fewer blanks are taken
  have plain : '\n' ∉ (blanks ++ content).drop (separation (blanks ++ content)) := by
    intro mem
    rw [List.drop_append, List.drop_eq_nil_of_le most, List.nil_append] at mem
    exact h.lineFeed_not_mem (List.mem_of_mem_drop mem)
  refine ⟨_, (textAfterBlanks_eq _).trans (if_neg ?_)⟩
  simpa using ⟨present, plain⟩

/-- **As many blanks as can be count as separation.** -/
theorem textAfterBlanks_eq_some_iff :
    textAfterBlanks rest = some content ↔ ∃ blanks, SetOffMost rest blanks content := by
  constructor
  · exact setOffMost_of_textAfterBlanks
  · rintro ⟨blanks, rfl, setOff, most⟩
    obtain ⟨found, isFound⟩ := setOff.exists_textAfterBlanks
    obtain ⟨others, cut, setOff', most'⟩ := setOffMost_of_textAfterBlanks isFound
    -- two cuts with the most blanks are at the same place
    have same : blanks.length = others.length :=
      Nat.le_antisymm (most' _ _ rfl setOff) (most _ _ cut setOff')
    rw [isFound, (List.append_inj cut same).2]

/-- One blank and nothing else sets nothing off. -/
theorem textAfterBlanks_eq_none_iff {c : Char} (plain : '\n' ∉ c :: rest) (blank : Text.isBlank c) :
    textAfterBlanks (c :: rest) = none ↔ rest = [] := by
  constructor
  · intro nothing
    by_contra nonempty
    have setOff : SetOff [c] rest := ⟨List.cons_ne_nil _ _, by simpa using blank, nonempty,
      fun mem => plain (List.mem_cons_of_mem _ mem)⟩
    obtain ⟨most, found⟩ := setOff.exists_textAfterBlanks
    cases nothing.symm.trans found
  · rintro rfl
    simp [textAfterBlanks]

end Line

/-! ### Markers -/

namespace ListKind

variable {kind other : ListKind} {marker marker' text rest rest' : Text}

/-- The markers of a list item: digits and a period, or a bullet. -/
def IsMarker : ListKind → Text → Prop
  | ordered, marker =>
    ∃ digits : Text, marker = digits ++ ['.'] ∧ digits ≠ [] ∧ ∀ c ∈ digits, Text.isDigit c
  | unordered, marker => ∃ bullet ∈ "-*+".toList, marker = [bullet]

/-- A marker starts with a digit or a bullet, which tells its kind and is no blank. -/
theorem IsMarker.exists_cons (h : kind.IsMarker marker) : ∃ c others, marker = c :: others ∧
    (Text.isDigit c ↔ kind = ordered) ∧ ¬ Text.isBlank c := by
  cases kind with
  | ordered =>
    obtain ⟨digits, rfl, nonempty, digit⟩ := h
    obtain ⟨c, others, rfl⟩ := List.exists_cons_of_ne_nil nonempty
    have first := digit c List.mem_cons_self
    exact ⟨c, others ++ ['.'], rfl, by simpa using first, Text.not_isBlank_of_isDigit first⟩
  | unordered =>
    obtain ⟨bullet, mem, rfl⟩ := h
    refine ⟨bullet, [], rfl, ?_⟩
    obtain rfl | rfl | rfl : bullet = '-' ∨ bullet = '*' ∨ bullet = '+' := by simpa using mem
    all_goals decide +kernel

theorem IsMarker.forall_mem (h : kind.IsMarker marker) :
    ∀ c ∈ marker, Text.isDigit c ∨ c ∈ ".-*+".toList := by
  cases kind with
  | ordered =>
    obtain ⟨digits, rfl, -, digit⟩ := h
    exact List.forall_mem_append.2 ⟨fun c mem => .inl (digit c mem), by simp⟩
  | unordered =>
    obtain ⟨bullet, mem, rfl⟩ := h
    exact List.forall_mem_singleton.2 (.inr (List.mem_cons_of_mem '.' mem))

theorem afterMarker_append (h : kind.IsMarker marker) (rest : Text) :
    kind.afterMarker (marker ++ rest) = some rest := by
  cases kind with
  | ordered =>
    obtain ⟨digits, rfl, nonempty, digit⟩ := h
    have period : Text.isDigit '.' = false := by decide +kernel
    rw [afterMarker, List.append_assoc, List.takeWhile_append_of_pos digit,
      List.dropWhile_append_of_pos digit]
    simp [period, nonempty]
  | unordered =>
    obtain ⟨bullet, mem, rfl⟩ := h
    exact if_pos (List.contains_iff_mem.2 mem)

/-- **What follows a marker.** -/
theorem afterMarker_eq_some_iff :
    kind.afterMarker text = some rest ↔ ∃ marker, kind.IsMarker marker ∧ text = marker ++ rest := by
  constructor
  · intro h
    cases kind with
    | ordered =>
      rw [afterMarker] at h
      split at h
      · cases h
      · next present =>
        split at h
        · next others cut =>
          obtain rfl := Option.some.inj h
          refine ⟨text.takeWhile Text.isDigit ++ ['.'], ⟨_, rfl, ?_, ?_⟩, ?_⟩
          · simpa [List.isEmpty_iff] using present
          · exact fun c mem => List.mem_takeWhile_imp mem
          · rw [List.append_assoc, List.singleton_append, ← cut, List.takeWhile_append_dropWhile]
        · cases h
    | unordered =>
      cases text with
      | nil => cases h
      | cons bullet others =>
        rw [afterMarker] at h
        split at h
        · next known =>
          obtain rfl := Option.some.inj h
          exact ⟨[bullet], ⟨bullet, List.contains_iff_mem.1 known, rfl⟩, rfl⟩
        · cases h
  · rintro ⟨marker, isMarker, rfl⟩
    exact afterMarker_append isMarker rest

/-- A text starts with one marker at most. -/
theorem IsMarker.unique (h : kind.IsMarker marker) (h' : other.IsMarker marker')
    (same : marker ++ rest = marker' ++ rest') : kind = other ∧ marker = marker' := by
  have sameKind : kind = other := by
    obtain ⟨c, others, rfl, digit, -⟩ := h.exists_cons
    obtain ⟨d, others', rfl, digit', -⟩ := h'.exists_cons
    obtain rfl : c = d := (List.cons.inj same).1
    have likewise : kind = ordered ↔ other = ordered := digit.symm.trans digit'
    revert likewise
    cases kind <;> cases other <;> decide
  subst sameKind
  -- a marker of this kind is what is missing from the text once it is taken off
  have after := afterMarker_append h rest
  rw [same, afterMarker_append h' rest'] at after
  obtain rfl := Option.some.inj after
  exact ⟨rfl, List.append_cancel_right same⟩

end ListKind

namespace Line

variable {line rest rest' blanks content indent indent' marker marker' : Text}
  {kind kind' : ListKind}

/-! ### Cuts of a list item -/

/-- A line cut behind an indent and a marker of the given kind. -/
structure IsCut (line : Text) (kind : ListKind) (indent marker rest : Text) : Prop where
  spelled : line = indent ++ (marker ++ rest)
  indent_blank : ∀ c ∈ indent, Text.isBlank c
  isMarker : kind.IsMarker marker

namespace IsCut

/-- The indent is all that is trimmed off. -/
theorem indent_eq (h : IsCut line kind indent marker rest) :
    line.takeWhile Text.isBlank = indent ∧ line.trimStart = marker ++ rest := by
  obtain ⟨c, others, rfl, -, solid⟩ := h.isMarker.exists_cons
  rw [Text.trimStart, h.spelled, List.takeWhile_append_of_pos h.indent_blank,
    List.dropWhile_append_of_pos h.indent_blank]
  simp [solid]

/-- **There is one indent and one marker.** -/
theorem unique (h : IsCut line kind indent marker rest)
    (h' : IsCut line kind' indent' marker' rest') :
    kind = kind' ∧ indent = indent' ∧ marker = marker' ∧ rest = rest' := by
  have behind := h.indent_eq.2.symm.trans h'.indent_eq.2
  obtain ⟨sameKind, rfl⟩ := h.isMarker.unique h'.isMarker behind
  exact ⟨sameKind, h.indent_eq.1.symm.trans h'.indent_eq.1, rfl, List.append_cancel_left behind⟩

end IsCut

/-- A line is cut behind its marker by trimming it and taking the marker off. -/
theorem afterMarker_trimStart_iff : kind.afterMarker line.trimStart = some rest ↔
    ∃ indent marker, IsCut line kind indent marker rest := by
  rw [ListKind.afterMarker_eq_some_iff]
  constructor
  · rintro ⟨marker, isMarker, cut⟩
    refine ⟨line.takeWhile Text.isBlank, marker, ?_, fun c mem => List.mem_takeWhile_imp mem,
      isMarker⟩
    rw [← cut]
    exact (List.takeWhile_append_dropWhile).symm
  · rintro ⟨indent, marker, cut⟩
    exact ⟨marker, cut.isMarker, cut.indent_eq.2⟩

theorem startsLikeItem_iff : startsLikeItem line ↔
    ∃ kind indent marker c rest, IsCut line kind indent marker (c :: rest) ∧ Text.isBlank c := by
  constructor
  · intro h
    obtain ⟨kind, -, h⟩ := List.any_eq_true.1 h
    split at h
    · next c rest after =>
      obtain ⟨indent, marker, cut⟩ := afterMarker_trimStart_iff.1 after
      exact ⟨kind, indent, marker, c, rest, cut, h⟩
    · cases h
  · rintro ⟨kind, indent, marker, c, rest, cut, blank⟩
    refine List.any_eq_true.2 ⟨kind, by cases kind <;> decide, ?_⟩
    rw [afterMarker_trimStart_iff.2 ⟨indent, marker, cut⟩]
    exact blank

theorem exists_isCut_of_listItemOf? {item : ListItem} (h : listItemOf? kind line = some item) :
    ∃ indent marker rest, IsCut line kind indent marker rest := by
  obtain ⟨content, found, -⟩ := Option.map_eq_some_iff.1 h
  obtain ⟨rest, after, -⟩ := Option.bind_eq_some_iff.1 found
  obtain ⟨indent, marker, cut⟩ := afterMarker_trimStart_iff.1 after
  exact ⟨indent, marker, rest, cut⟩

theorem exists_isCut_of_listItem? {item : ListItem} (h : listItem? line = some item) :
    ∃ kind indent marker rest, IsCut line kind indent marker rest := by
  obtain ⟨kind, -, found⟩ := List.exists_of_findSome?_eq_some h
  exact ⟨kind, exists_isCut_of_listItemOf? found⟩

theorem listItem?_eq_or (line : Text) :
    listItem? line = (listItemOf? .ordered line).or (listItemOf? .unordered line) := by
  rw [listItem?, listItemAmong?, ListKind.all, List.findSome?_cons]
  cases listItemOf? .ordered line with
  | some item => rfl
  | none =>
    rw [List.findSome?_cons]
    cases listItemOf? .unordered line <;> rfl

theorem kind_of_listItemOf? {item : ListItem} (h : listItemOf? kind line = some item) :
    item.kind = kind := by
  obtain ⟨content, -, rfl⟩ := Option.map_eq_some_iff.1 h
  rfl

/-- A line with a marker of one kind is no item of another. -/
theorem IsCut.listItemOf?_eq_none (cut : IsCut line kind indent marker rest)
    (differs : kind' ≠ kind) : listItemOf? kind' line = none := by
  by_contra present
  obtain ⟨item, found⟩ := Option.ne_none_iff_exists'.1 present
  obtain ⟨_, _, _, cut'⟩ := exists_isCut_of_listItemOf? found
  exact differs (cut'.unique cut).1

/-- **The item that a line is** is told by what follows its marker. It does not matter which kind is
tried first, since there is a marker of one kind only. -/
theorem IsCut.listItem?_eq (cut : IsCut line kind indent marker rest) :
    listItem? line = (textAfterBlanks rest).map fun content =>
      ⟨kind, Latex.item indent (Inline.format content)⟩ := by
  have own : listItemOf? kind line = (textAfterBlanks rest).map fun content =>
      ⟨kind, Latex.item indent (Inline.format content)⟩ := by
    rw [listItemOf?, afterMarker_trimStart_iff.2 ⟨indent, marker, cut⟩, cut.indent_eq.1]
    rfl
  rw [listItem?_eq_or, ← own]
  cases kind with
  | ordered =>
    have refused : listItemOf? .unordered line = none := cut.listItemOf?_eq_none (by decide)
    rw [refused, Option.or_none]
  | unordered =>
    have refused : listItemOf? .ordered line = none := cut.listItemOf?_eq_none (by decide)
    rw [refused, Option.none_or]

/-- **A line is an item of one kind only,** that of the item which it is. -/
theorem listItemOf?_eq_some_iff {item : ListItem} :
    listItemOf? kind line = some item ↔ listItem? line = some item ∧ item.kind = kind := by
  constructor
  · intro h
    refine ⟨?_, kind_of_listItemOf? h⟩
    obtain ⟨_, _, _, cut⟩ := exists_isCut_of_listItemOf? h
    rw [listItem?_eq_or]
    cases kind with
    | ordered => rw [h, Option.some_or]
    | unordered => rw [cut.listItemOf?_eq_none (by decide), Option.none_or, h]
  · rintro ⟨h, rfl⟩
    obtain ⟨kind, -, found⟩ := List.exists_of_findSome?_eq_some h
    rwa [kind_of_listItemOf? found]

theorem listItem?_eq_some_iff {item : ListItem} : listItem? line = some item ↔
    ∃ kind indent marker rest blanks content, IsCut line kind indent marker rest ∧
      SetOffMost rest blanks content ∧
      item = ⟨kind, Latex.item indent (Inline.format content)⟩ := by
  constructor
  · intro h
    obtain ⟨kind, indent, marker, rest, cut⟩ := exists_isCut_of_listItem? h
    rw [cut.listItem?_eq] at h
    obtain ⟨content, found, rfl⟩ := Option.map_eq_some_iff.1 h
    obtain ⟨blanks, setOff⟩ := textAfterBlanks_eq_some_iff.1 found
    exact ⟨kind, indent, marker, rest, blanks, content, cut, setOff, rfl⟩
  · rintro ⟨kind, indent, marker, rest, blanks, content, cut, setOff, rfl⟩
    rw [cut.listItem?_eq, textAfterBlanks_eq_some_iff.2 ⟨blanks, setOff⟩]
    rfl

/-- Every item has a marker. -/
theorem startsLikeItem_of_listItem? {item : ListItem} (h : listItem? line = some item) :
    startsLikeItem line := by
  obtain ⟨kind, indent, marker, rest, blanks, content, cut, ⟨rfl, setOff, -⟩, -⟩ :=
    listItem?_eq_some_iff.1 h
  obtain ⟨c, others, rfl⟩ := List.exists_cons_of_ne_nil setOff.blanks_ne_nil
  exact startsLikeItem_iff.2
    ⟨kind, indent, marker, c, others ++ content, cut, setOff.blank c List.mem_cons_self⟩

/-- What the list items are, by the ways in which a line can be cut. -/
structure ItemGrammar (line : Text) : Prop where
  /-- A line is an item iff it can be cut into an indent, a marker, blanks and content. -/
  isItem : (listItem? line).isSome ↔ ∃ kind indent marker blanks content,
    IsCut line kind indent marker (blanks ++ content) ∧ SetOff blanks content
  /-- The kind, the indent and the marker are the same for every cut. -/
  unique : ∀ {kind kind' indent indent' marker marker' rest rest'},
    IsCut line kind indent marker rest → IsCut line kind' indent' marker' rest' →
      kind = kind' ∧ indent = indent' ∧ marker = marker' ∧ rest = rest'
  /-- The item is that of the cut with the most blanks. Blanks at the end of the content stay. -/
  rendered : ∀ {item}, listItem? line = some item ↔
    ∃ kind indent marker rest blanks content, IsCut line kind indent marker rest ∧
      SetOffMost rest blanks content ∧
      item = ⟨kind, indent ++ "\\item ".toList ++ Inline.format content⟩
  /-- A line has a marker iff it can be cut into an indent, a marker, a blank and whatever else. -/
  hasMarker : startsLikeItem line ↔ ∃ kind indent marker c rest,
    IsCut line kind indent marker (c :: rest) ∧ Text.isBlank c
  /-- Every item has a marker. -/
  item_hasMarker : (listItem? line).isSome → startsLikeItem line
  /-- Without line feeds, a line with a marker is no item iff a single blank is all that follows. -/
  bareMarker : '\n' ∉ line → startsLikeItem line → (listItem? line = none ↔
    ∃ kind indent marker c, IsCut line kind indent marker [c] ∧ Text.isBlank c)

/-- **The grammar of list items.** -/
theorem itemGrammar (line : Text) : ItemGrammar line := by
  have isItem : (listItem? line).isSome ↔ ∃ kind indent marker blanks content,
      IsCut line kind indent marker (blanks ++ content) ∧ SetOff blanks content := by
    constructor
    · intro h
      obtain ⟨item, found⟩ := Option.isSome_iff_exists.1 h
      obtain ⟨kind, indent, marker, rest, blanks, content, cut, ⟨rfl, setOff, -⟩, -⟩ :=
        listItem?_eq_some_iff.1 found
      exact ⟨kind, indent, marker, blanks, content, cut, setOff⟩
    · rintro ⟨kind, indent, marker, blanks, content, cut, setOff⟩
      obtain ⟨most, found⟩ := setOff.exists_textAfterBlanks
      rw [cut.listItem?_eq, found]
      rfl
  refine ⟨isItem, IsCut.unique, listItem?_eq_some_iff, startsLikeItem_iff, fun h => ?_,
    fun plain marked => ?_⟩
  · obtain ⟨item, found⟩ := Option.isSome_iff_exists.1 h
    exact startsLikeItem_of_listItem? found
  · obtain ⟨kind, indent, marker, c, rest, cut, blank⟩ := startsLikeItem_iff.1 marked
    have plainRest : '\n' ∉ c :: rest := fun mem => plain (by simp [cut.spelled, mem])
    rw [cut.listItem?_eq, Option.map_eq_none_iff, textAfterBlanks_eq_none_iff plainRest blank]
    constructor
    · rintro rfl
      exact ⟨kind, indent, marker, c, cut, blank⟩
    · rintro ⟨_, _, _, d, cut', -⟩
      exact (List.cons.inj (cut.unique cut').2.2.2).2

/-! ### Headings -/

/-- A line cut into number signs, blanks and a title. -/
structure IsHeadingCut (line : Text) (level : Nat) (blanks title : Text) : Prop where
  spelled : line = List.replicate level '#' ++ (blanks ++ title)
  level_pos : 1 ≤ level
  level_le : level ≤ 6
  setOff : SetOff blanks title

/-- Blanks in front of a text are trimmed off with its own. -/
theorem trim_append_of_blank (h : ∀ c ∈ blanks, Text.isBlank c) (text : Text) :
    Text.trim (blanks ++ text) = Text.trim text := by
  rw [Text.trim, Text.trimStart, List.dropWhile_append_of_pos h]
  rfl

variable {level : Nat} {title : Text}

/-- The signs are all that the line starts with. -/
theorem IsHeadingCut.signs_eq (cut : IsHeadingCut line level blanks title) :
    line.takeWhile (· == '#') = List.replicate level '#' ∧
      line.dropWhile (· == '#') = blanks ++ title := by
  -- the signs end at the first blank
  obtain ⟨c, others, rfl⟩ := List.exists_cons_of_ne_nil cut.setOff.blanks_ne_nil
  have signs : ∀ c ∈ List.replicate level '#', (c == '#') = true := by simp
  have solid : ¬ Text.isBlank '#' := by decide
  have differs : c ≠ '#' := by
    rintro rfl
    exact solid (cut.setOff.blank _ List.mem_cons_self)
  rw [cut.spelled, List.takeWhile_append_of_pos signs, List.dropWhile_append_of_pos signs]
  simp [differs]

/-- A heading is a line that can be cut. -/
theorem exists_isHeadingCut_of_heading? {heading : Heading} (h : heading? line = some heading) :
    ∃ level blanks title, IsHeadingCut line level blanks title := by
  rw [heading?] at h
  split at h
  · next between =>
    simp only [Bool.and_eq_true, decide_eq_true_eq] at between
    obtain ⟨title, found, -⟩ := Option.map_eq_some_iff.1 h
    obtain ⟨blanks, cut, setOff, -⟩ := textAfterBlanks_eq_some_iff.1 found
    refine ⟨_, blanks, title, ?_, between.1, between.2, setOff⟩
    have signs : line.takeWhile (· == '#') =
        List.replicate (line.takeWhile (· == '#')).length '#' :=
      List.eq_replicate_of_mem fun c mem => beq_iff_eq.1 (List.mem_takeWhile_imp mem :)
    calc line = line.take (line.takeWhile (· == '#')).length ++
          line.drop (line.takeWhile (· == '#')).length := (List.take_append_drop _ line).symm
      _ = List.replicate (line.takeWhile (· == '#')).length '#' ++ (blanks ++ title) := by
        rw [← List.prefix_iff_eq_take.1 (List.takeWhile_prefix _), ← signs, cut]
  · cases h

/-- **The heading that a line is.** -/
theorem IsHeadingCut.heading?_eq (cut : IsHeadingCut line level blanks title) :
    heading? line = some
      ⟨level, Latex.heading level (Inline.format (Text.trim (blanks ++ title)))⟩ := by
  obtain ⟨most, found⟩ := cut.setOff.exists_textAfterBlanks
  obtain ⟨others, same, setOff, -⟩ := textAfterBlanks_eq_some_iff.1 found
  have length : (line.takeWhile (· == '#')).length = level := by
    rw [cut.signs_eq.1, List.length_replicate]
  have behind : line.drop level = blanks ++ title := by
    rw [cut.spelled, List.drop_left' (List.length_replicate)]
  -- whatever the title is taken to be, it is trimmed
  have trimmed : Text.trim most = Text.trim (blanks ++ title) := by
    rw [same, trim_append_of_blank setOff.blank]
  simp only [heading?, length, behind, found, Option.map_some, trimmed]
  exact if_pos (by simp [cut.level_pos, cut.level_le])

/-- What the headings are, by the ways in which a line can be cut. -/
structure HeadingGrammar (line : Text) : Prop where
  /-- A line is a heading iff it can be cut into one to six number signs, blanks and a title. -/
  isHeading : (heading? line).isSome ↔ ∃ level blanks title, IsHeadingCut line level blanks title
  /-- Every cut tells the same heading: its level is the number of signs that the line starts with,
  and its title is all that follows them, without the blanks around it. -/
  rendered : ∀ {level blanks title}, IsHeadingCut line level blanks title →
    level = (line.takeWhile (· == '#')).length ∧
      Text.trim title = Text.trim (line.dropWhile (· == '#')) ∧
      heading? line = some ⟨level,
        Latex.heading level (Inline.format (Text.trim (line.dropWhile (· == '#'))))⟩
  /-- More than six signs make no heading. -/
  tooDeep : 7 ≤ (line.takeWhile (· == '#')).length → heading? line = none
  /-- A line with an indent is no heading. -/
  indented : (∃ c ∈ line.head?, Text.isBlank c) → heading? line = none
  /-- Signs without a blank behind them make no heading. -/
  unseparated : (∀ c ∈ (line.dropWhile (· == '#')).head?, ¬ Text.isBlank c) → heading? line = none

/-- **The grammar of headings.** -/
theorem headingGrammar (line : Text) : HeadingGrammar line := by
  have isHeading : (heading? line).isSome ↔
      ∃ level blanks title, IsHeadingCut line level blanks title := by
    constructor
    · intro h
      obtain ⟨heading, found⟩ := Option.isSome_iff_exists.1 h
      exact exists_isHeadingCut_of_heading? found
    · rintro ⟨level, blanks, title, cut⟩
      rw [cut.heading?_eq]
      rfl
  -- what is no heading is shown by looking at the cut that it would have
  have noHeading (noCut : ∀ level blanks title, ¬ IsHeadingCut line level blanks title) :
      heading? line = none := by
    rw [← Option.not_isSome_iff_eq_none, isHeading]
    rintro ⟨level, blanks, title, cut⟩
    exact noCut level blanks title cut
  refine ⟨isHeading, fun {level blanks title} cut => ⟨?_, ?_, ?_⟩, fun deep => ?_, ?_, ?_⟩
  · rw [cut.signs_eq.1, List.length_replicate]
  · rw [cut.signs_eq.2, trim_append_of_blank cut.setOff.blank]
  · rw [cut.signs_eq.2, cut.heading?_eq]
  · refine noHeading fun level blanks title cut => ?_
    rw [cut.signs_eq.1, List.length_replicate] at deep
    exact absurd cut.level_le (by omega)
  · rintro ⟨c, first, blank⟩
    refine noHeading fun level blanks title cut => ?_
    obtain ⟨n, rfl⟩ := Nat.exists_eq_succ_of_ne_zero (Nat.pos_iff_ne_zero.1 cut.level_pos)
    rw [cut.spelled, List.replicate_succ] at first
    obtain rfl := Option.some.inj first
    exact absurd blank (by decide)
  · intro solid
    refine noHeading fun level blanks title cut => ?_
    obtain ⟨c, others, rfl⟩ := List.exists_cons_of_ne_nil cut.setOff.blanks_ne_nil
    rw [cut.signs_eq.2] at solid
    exact solid c rfl (cut.setOff.blank c List.mem_cons_self)

end Line
end Manuscript
