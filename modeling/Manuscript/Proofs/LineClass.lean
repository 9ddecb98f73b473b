import Manuscript.Proofs.LineGrammar

/-!
# The classes of lines

Seen without its neighbours, a line is a fence, a heading, a list item, a bare marker, blank, or a
paragraph. The tests for these classes do not compete: the first character of a line that is not
blank (`Line.lead`) tells fences, headings and markers apart, and a blank line has none. So
`Line.classify`, which tries the tests in one fixed order, answers each of them
(`Line.classify_eq_fence_iff` and its siblings).
-/

namespace Manuscript

namespace Text

theorem trimEnd_isPrefix (text : Text) : text.trimEnd <+: text := by
  have : text.reverse.dropWhile isBlank <:+ text.reverse := List.dropWhile_suffix _
  simpa [trimEnd] using List.reverse_prefix.2 this

theorem mem_of_mem_trim {c : Char} {text : Text} (h : c ∈ text.trim) : c ∈ text :=
  (List.dropWhile_suffix isBlank).subset ((trimEnd_isPrefix _).subset h)

/-- Trimming takes blanks off both ends, and nothing else. -/
theorem exists_eq_append_trim (text : Text) :
    ∃ before after : Text, text = before ++ (text.trim ++ after) ∧
      (∀ c ∈ before, isBlank c) ∧ ∀ c ∈ after, isBlank c := by
  have start : text = text.takeWhile isBlank ++ text.trimStart :=
    (List.takeWhile_append_dropWhile).symm
  have finish : text.trimStart =
      text.trim ++ (text.trimStart.reverse.takeWhile isBlank).reverse := by
    rw [trim, trimEnd, ← List.reverse_append, List.takeWhile_append_dropWhile, List.reverse_reverse]
  refine ⟨text.takeWhile isBlank, (text.trimStart.reverse.takeWhile isBlank).reverse, ?_, ?_, ?_⟩
  · rw [← finish, ← start]
  · exact fun c mem => List.mem_takeWhile_imp mem
  · exact fun c mem => List.mem_takeWhile_imp (List.mem_reverse.1 mem)

end Text

namespace Line

variable {line : Text}

/-- A marker with a blank after it, but without the content that would make it an item. -/
def isBareMarker (line : Text) : Bool := startsLikeItem line && (listItem? line).isNone

/-- The classes of lines. -/
inductive Class
  | fence
  | heading (heading : Heading)
  | item (item : ListItem)
  | bareMarker
  | blank
  | paragraph

/-- The class of a line. -/
def classify (line : Text) : Class :=
  if isFence line then .fence
  else match heading? line, listItem? line with
  | some heading, _ => .heading heading
  | none, some item => .item item
  | none, none =>
    if startsLikeItem line then .bareMarker else if isBlank line then .blank else .paragraph

/-! ### The leading character -/

/-- The first character of a line that is not blank. -/
def lead (line : Text) : Option Char := line.trimStart.head?

theorem lead_of_isFence (h : isFence line) : lead line = some '`' := by
  have opened : "```".toList <+: line.trimStart :=
    (List.isPrefixOf_iff_prefix.1 h).trans (Text.trimEnd_isPrefix _)
  obtain ⟨rest, spelled⟩ := opened
  rw [lead, ← spelled]
  rfl

theorem lead_of_heading? {heading : Heading} (h : heading? line = some heading) :
    lead line = some '#' := by
  cases line with
  | nil => simp [heading?] at h
  | cons c rest =>
    by_cases sign : c = '#'
    · -- a number sign is not blank, so nothing is trimmed off in front of it
      subst sign
      have : Text.isBlank '#' = false := by decide
      simp [lead, Text.trimStart, this]
    · simp [heading?, sign] at h

/-- A marker starts with a digit or is a bullet. -/
theorem exists_lead_of_startsLikeItem (h : startsLikeItem line) :
    ∃ c, lead line = some c ∧ (Text.isDigit c ∨ c ∈ "-*+".toList) := by
  obtain ⟨kind, indent, marker, blank, rest, cut, -⟩ := startsLikeItem_iff.1 h
  rw [lead, cut.indent_eq.2]
  cases kind with
  | ordered =>
    obtain ⟨digits, rfl, nonempty, digit⟩ := cut.isMarker
    obtain ⟨c, others, rfl⟩ := List.exists_cons_of_ne_nil nonempty
    exact ⟨c, rfl, .inl (digit c List.mem_cons_self)⟩
  | unordered =>
    obtain ⟨bullet, mem, rfl⟩ := cut.isMarker
    exact ⟨bullet, rfl, .inr mem⟩

theorem lead_eq_none_iff : lead line = none ↔ isBlank line := by
  have : ∀ text : Text, text.trimEnd = [] ↔ ∀ c ∈ text, Text.isBlank c := by
    simp [Text.trimEnd, List.dropWhile_eq_nil_iff]
  rw [lead, List.head?_eq_none_iff, isBlank, List.isEmpty_iff, Text.trim, this, Text.trimStart]
  constructor
  · intro h
    simp [h]
  · intro h
    by_contra nonempty
    exact absurd (h _ (List.head_mem nonempty)) (by simp [List.head_dropWhile_not _ nonempty])

theorem isBlank_iff : isBlank line ↔ ∀ c ∈ line, Text.isBlank c := by
  rw [← lead_eq_none_iff, lead, List.head?_eq_none_iff, Text.trimStart, List.dropWhile_eq_nil_iff]

/-! ### The tests do not compete -/

theorem isFence_eq_false (h : lead line ≠ some '`') : isFence line = false :=
  Bool.not_eq_true _ ▸ mt lead_of_isFence h

theorem heading?_eq_none (h : lead line ≠ some '#') : heading? line = none :=
  Option.eq_none_iff_forall_ne_some.2 fun _ found => h (lead_of_heading? found)

theorem lead_ne_of_startsLikeItem {c : Char} (h : startsLikeItem line)
    (hc : ¬ (Text.isDigit c ∨ c ∈ "-*+".toList)) : lead line ≠ some c := by
  obtain ⟨d, lead, marker⟩ := exists_lead_of_startsLikeItem h
  rw [lead]
  rintro ⟨⟩
  exact hc marker

theorem not_startsLikeItem_of_isBlank (h : isBlank line) : startsLikeItem line = false := by
  rw [← Bool.not_eq_true]
  intro marker
  obtain ⟨c, lead, -⟩ := exists_lead_of_startsLikeItem marker
  simp [lead_eq_none_iff.2 h] at lead

theorem listItem?_eq_none_of_not_startsLikeItem (h : startsLikeItem line = false) :
    listItem? line = none := by
  by_contra found
  obtain ⟨item, found⟩ := Option.ne_none_iff_exists'.1 found
  simp [startsLikeItem_of_listItem? found] at h

/-! ### What the classified lines hold -/

/-- A heading is a run of signs, blanks, and its title. -/
theorem exists_title_of_heading? {heading : Heading} (h : heading? line = some heading) :
    ∃ front title : Text, line = front ++ title ∧ (∀ c ∈ front, c = '#' ∨ Text.isBlank c) ∧
      heading.latex = Latex.heading heading.level (Inline.format title.trim) := by
  obtain ⟨level, blanks, title, cut⟩ := exists_isHeadingCut_of_heading? h
  rw [cut.heading?_eq] at h
  obtain rfl := Option.some.inj h
  exact ⟨List.replicate level '#', blanks ++ title, cut.spelled,
    fun c mem => .inl (List.eq_of_mem_replicate mem), rfl⟩

/-- An item is an indent, a marker, blanks, and its content. -/
theorem exists_content_of_listItem? {item : ListItem} (h : listItem? line = some item) :
    ∃ marker content : Text, line = line.takeWhile Text.isBlank ++ (marker ++ content) ∧
      (∀ c ∈ marker, Text.isDigit c ∨ c ∈ ".-*+".toList ∨ Text.isBlank c) ∧
      item.latex = Latex.item (line.takeWhile Text.isBlank) (Inline.format content) := by
  obtain ⟨kind, indent, marker, rest, blanks, content, cut, ⟨rfl, setOff, -⟩, rfl⟩ :=
    listItem?_eq_some_iff.1 h
  rw [cut.indent_eq.1]
  refine ⟨marker ++ blanks, content, by rw [List.append_assoc, cut.spelled], fun c mem => ?_, rfl⟩
  rcases List.mem_append.1 mem with mem | mem
  · exact (cut.isMarker.forall_mem c mem).imp_right .inl
  · exact .inr (.inr (setOff.blank c mem))

/-! ### Every test is answered by the class -/

namespace Class

/-- Whether the class is that of fences. -/
def isFence : Class → Bool
  | .fence => true
  | _ => false

/-- The heading, in the class of headings. -/
def heading? : Class → Option Heading
  | .heading found => some found
  | _ => none

/-- The list item, in the class of list items. -/
def item? : Class → Option ListItem
  | .item found => some found
  | _ => none

/-- Whether the class is that of bare markers. -/
def isBareMarker : Class → Bool
  | .bareMarker => true
  | _ => false

/-- Whether the class is that of blank lines. -/
def isBlank : Class → Bool
  | .blank => true
  | _ => false

end Class

theorem isFence_eq_classify (line : Text) : isFence line = (classify line).isFence := by
  unfold classify
  grind [Class.isFence]

theorem classify_eq_fence_iff : classify line = .fence ↔ isFence line := by
  rw [isFence_eq_classify]
  cases classify line <;> simp [Class.isFence]

theorem heading?_eq_classify (line : Text) : heading? line = (classify line).heading? := by
  have fence : isFence line → heading? line = none := fun h =>
    heading?_eq_none (by simp [lead_of_isFence h])
  unfold classify
  grind [Class.heading?]

theorem listItem?_eq_classify (line : Text) : listItem? line = (classify line).item? := by
  have marker := @listItem?_eq_none_of_not_startsLikeItem line
  have lead : startsLikeItem line → isFence line = false ∧ heading? line = none := fun h =>
    ⟨isFence_eq_false (lead_ne_of_startsLikeItem h (by decide)),
      heading?_eq_none (lead_ne_of_startsLikeItem h (by decide))⟩
  unfold classify
  grind [Class.item?]

theorem listItem?_eq_none_of_isFence (h : isFence line) : listItem? line = none := by
  rw [listItem?_eq_classify, classify_eq_fence_iff.2 h]
  rfl

theorem isBareMarker_eq_classify (line : Text) :
    isBareMarker line = (classify line).isBareMarker := by
  have lead : startsLikeItem line → isFence line = false ∧ heading? line = none := fun h =>
    ⟨isFence_eq_false (lead_ne_of_startsLikeItem h (by decide)),
      heading?_eq_none (lead_ne_of_startsLikeItem h (by decide))⟩
  unfold classify isBareMarker
  grind [Class.isBareMarker]

theorem isBlank_eq_classify (line : Text) : isBlank line = (classify line).isBlank := by
  have marker := @listItem?_eq_none_of_not_startsLikeItem line
  have lead : isBlank line → lead line = none := lead_eq_none_iff.2
  have fence := @isFence_eq_false line
  have heading := @heading?_eq_none line
  have bare := @not_startsLikeItem_of_isBlank line
  unfold classify
  grind [Class.isBlank]

end Line
end Manuscript
