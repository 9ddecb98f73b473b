import Manuscript.Proofs.Document.Seam
import Manuscript.Proofs.Inline.Markup

/-!
# Marks without a text

A heading mark or a list marker is to be followed by blanks and a text. If blanks are all that
follows, it depends on their number what becomes of the line. A single blank separates nothing, and
the line is text: it is emitted as it stands, and if it has a marker, an open list goes on behind
it. Of several blanks, the last is taken for the text that the others set off
(`textAfterBlanks_concat`), and so the line is a heading with an empty title, or an item that holds
a blank.

Main statement: `Document.textless`.
-/

namespace Manuscript

/-! ### Delimiters without a partner -/

namespace Inline

variable {text : Text}

/-- Every form of markup has a delimiter twice, or an opening bracket. -/
theorem Pass.not_markup_of_count (pass : Pass) (lone : ∀ c ∈ "*_`".toList, text.count c ≤ 1)
    (noBracket : '[' ∉ text) : ¬ pass.Markup text := by
  have once (c : Char) (mem : c ∈ "*_`".toList) (before middle after : Text) :
      text ≠ before ++ ([c] ++ middle ++ [c] ++ after) := by
    intro cut
    have few := lone c mem
    simp only [cut, List.count_append, List.count_singleton_self] at few
    omega
  cases pass with
  | strongStar =>
    rintro ⟨before, body, after, cut, -⟩
    exact once '*' (by decide) before ('*' :: body ++ ['*']) after (by simpa using cut)
  | strongUnderscore =>
    rintro ⟨before, body, after, cut, -⟩
    exact once '_' (by decide) before ('_' :: body ++ ['_']) after (by simpa using cut)
  | emphasisStar =>
    rintro ⟨before, body, after, cut, -⟩
    exact once '*' (by decide) before body after cut
  | emphasisUnderscore =>
    rintro ⟨before, body, after, cut, -⟩
    exact once '_' (by decide) before body after cut
  | code =>
    rintro ⟨before, body, after, cut, -⟩
    exact once '`' (by decide) before body after cut
  | citation =>
    rintro ⟨before, key, after, rfl, -⟩
    exact noBracket (by simp)

theorem format_eq_self_of_count (plain : '\n' ∉ text) (lone : ∀ c ∈ "*_`".toList, text.count c ≤ 1)
    (noBracket : '[' ∉ text) : format text = text :=
  (format_eq_self_iff plain).2 fun ⟨pass, markup⟩ => pass.not_markup_of_count lone noBracket markup

end Inline

/-- A marker has one delimiter at most: it is one character if it is a bullet, and digits are no
delimiters. -/
theorem ListKind.IsMarker.count_le_one {kind : ListKind} {marker : Text} (h : kind.IsMarker marker)
    {delimiter : Char} (mem : delimiter ∈ "*_`".toList) : marker.count delimiter ≤ 1 := by
  cases kind with
  | ordered =>
    obtain ⟨digits, rfl, -, digit⟩ := h
    have noDigit : "*_`".toList.all (!Text.isDigit ·) := by decide +kernel
    have absent : delimiter ∉ digits := fun within => by
      simpa [digit delimiter within] using List.all_eq_true.1 noDigit delimiter mem
    rw [List.count_append, List.count_eq_zero_of_not_mem absent, Nat.zero_add]
    exact List.count_le_length
  | unordered =>
    obtain ⟨bullet, -, rfl⟩ := h
    exact List.count_le_length

/-- An item outside literal blocks opens its list unless that is open. -/
theorem Step.ofClass_item (line : Text) (entry : Line.ListItem) {context : BlockContext}
    (outside : context ≠ .literal) : ofClass line (.item entry) context =
      (if context = .list entry.kind then stay context
        else (closeAnyList context).andThen (openList entry.kind)).andThen (item entry) := by
  cases context with
  | literal => exact absurd rfl outside
  | prose => simp [ofClass, inProse]
  | list kind =>
    by_cases same : entry.kind = kind
    · subst same
      simp [ofClass_item_self]
    · simp [ofClass_item_of_ne line same, Ne.symm same, andThen_assoc]

namespace Line

variable {blanks : Text} {last : Char}

/-- No delimiter and no bracket is among blanks. -/
theorem not_mem_of_blank (blank : ∀ c ∈ blanks, Text.isBlank c) {delimiter : Char}
    (mem : delimiter ∈ "*_`[".toList) : delimiter ∉ blanks := by
  have solid : "*_`[".toList.all (!Text.isBlank ·) := by decide +kernel
  intro within
  simpa [blank delimiter within] using List.all_eq_true.1 solid delimiter mem

theorem count_of_blank (blank : ∀ c ∈ blanks, Text.isBlank c) {delimiter : Char}
    (mem : delimiter ∈ "*_`".toList) : blanks.count delimiter = 0 := by
  have among : "*_`".toList ⊆ "*_`[".toList := by decide
  exact List.count_eq_zero_of_not_mem (not_mem_of_blank blank (among mem))

/-! ### The class of a line with a mark -/

/-- A line that starts with a number sign is a heading or a paragraph. -/
theorem classify_of_lead_sign {line : Text} (sign : lead line = some '#') : classify line =
    match heading? line with
    | some heading => .heading heading
    | none => .paragraph := by
  have fence : isFence line = false := isFence_eq_false (by simp [sign])
  have marker : startsLikeItem line = false := by
    rw [← Bool.not_eq_true]
    exact fun starts => lead_ne_of_startsLikeItem starts (by decide +kernel) sign
  have item : listItem? line = none := listItem?_eq_none_of_not_startsLikeItem marker
  have blank : isBlank line = false := by
    rw [← Bool.not_eq_true, ← lead_eq_none_iff]
    simp [sign]
  rw [classify, fence, item, marker, blank]
  cases heading? line <;> rfl

/-- A line that starts like an item is one, or a bare marker. -/
theorem classify_of_startsLikeItem {line : Text} (starts : startsLikeItem line) : classify line =
    match listItem? line with
    | some item => .item item
    | none => .bareMarker := by
  have fence : isFence line = false :=
    isFence_eq_false (lead_ne_of_startsLikeItem starts (by decide +kernel))
  have heading : heading? line = none :=
    heading?_eq_none (lead_ne_of_startsLikeItem starts (by decide +kernel))
  rw [classify, fence, heading, starts]
  cases listItem? line <;> rfl

/-- A line cut behind a marker that blanks follow is an item, or a bare marker. -/
theorem IsCut.classify_eq {line indent marker rest : Text} {kind : ListKind} {c : Char}
    (cut : IsCut line kind indent marker (c :: rest)) (blank : Text.isBlank c) : classify line =
    match textAfterBlanks (c :: rest) with
    | some content => .item ⟨kind, Latex.item indent (Inline.format content)⟩
    | none => .bareMarker := by
  rw [classify_of_startsLikeItem (startsLikeItem_iff.2 ⟨_, _, _, _, _, cut, blank⟩),
    cut.listItem?_eq]
  cases textAfterBlanks (c :: rest) <;> rfl

/-! ### Nothing but blanks -/

theorem setOff_concat (nonempty : blanks ≠ []) (blank : ∀ c ∈ blanks ++ [last], Text.isBlank c)
    (plain : '\n' ∉ blanks ++ [last]) : SetOff blanks [last] where
  blanks_ne_nil := nonempty
  blank c mem := blank c (List.mem_append_left _ mem)
  content_ne_nil := List.cons_ne_nil _ _
  lineFeed_not_mem mem := plain (List.mem_append_right _ mem)

/-- **The last of several blanks** is the text that the others set off. -/
theorem textAfterBlanks_concat (nonempty : blanks ≠ [])
    (blank : ∀ c ∈ blanks ++ [last], Text.isBlank c) (plain : '\n' ∉ blanks ++ [last]) :
    textAfterBlanks (blanks ++ [last]) = some [last] := by
  have setOff := setOff_concat nonempty blank plain
  refine textAfterBlanks_eq_some_iff.2 ⟨blanks, rfl, setOff, fun fewer more cut setOff' => ?_⟩
  -- something is left for the content
  have nonempty := List.length_pos_iff.2 setOff'.content_ne_nil
  have lengths := congrArg List.length cut
  simp only [List.length_append, List.length_singleton] at lengths
  omega

/-- A single blank is not cut into blanks and a title. -/
theorem heading?_concat_eq_none (level : Nat) {c : Char} (blank : Text.isBlank c) :
    heading? (List.replicate level '#' ++ [c]) = none := by
  have differs : c ≠ '#' := by
    rintro rfl
    exact absurd blank (by decide)
  by_contra found
  obtain ⟨heading, found⟩ := Option.ne_none_iff_exists'.1 found
  obtain ⟨level, blanks, title, cut⟩ := exists_isHeadingCut_of_heading? found
  have behind := cut.signs_eq.2
  rw [List.dropWhile_append_of_pos (by simp), List.dropWhile_cons_of_neg (by simpa using differs)]
    at behind
  have lengths := congrArg List.length behind
  have blanks_pos := List.length_pos_iff.2 cut.setOff.blanks_ne_nil
  have title_pos := List.length_pos_iff.2 cut.setOff.content_ne_nil
  simp only [List.length_append, List.length_singleton] at lengths
  omega

/-! ### Openings -/

/-- What a line opens with that is to hold a title or the content of an item. -/
inductive Opening
  /-- One to six number signs. -/
  | signs (level : Nat) (level_pos : 1 ≤ level) (level_le : level ≤ 6)
  /-- An indent and a marker. -/
  | marked (kind : ListKind) (indent marker : Text) (indent_blank : ∀ c ∈ indent, Text.isBlank c)
      (isMarker : kind.IsMarker marker)

namespace Opening

/-- How the opening is spelled. -/
def text : Opening → Text
  | signs level .. => List.replicate level '#'
  | marked _ indent marker .. => indent ++ marker

/-- Whether it is a marker. -/
def isMarked : Opening → Bool
  | signs .. => false
  | marked .. => true

/-- The class of the opening with a single blank behind it. -/
def bareClass : Opening → Class
  | signs .. => .paragraph
  | marked .. => .bareMarker

/-- The class of the opening with several blanks behind it, the last of which is given. -/
def blankClass (last : Char) : Opening → Class
  | signs level .. => .heading ⟨level, Latex.heading level []⟩
  | marked kind indent .. => .item ⟨kind, Latex.item indent [last]⟩

variable (opening : Opening) {c : Char}

theorem isCut_marked {kind : ListKind} {indent marker : Text} (blank : ∀ c ∈ indent, Text.isBlank c)
    (isMarker : kind.IsMarker marker) (rest : Text) :
    IsCut ((marked kind indent marker blank isMarker).text ++ rest) kind indent marker rest where
  spelled := List.append_assoc indent marker rest
  indent_blank := blank
  isMarker := isMarker

theorem lead_signs {level : Nat} (level_pos : 1 ≤ level) (level_le : level ≤ 6) (rest : Text) :
    lead ((signs level level_pos level_le).text ++ rest) = some '#' := by
  obtain ⟨fewer, rfl⟩ := Nat.exists_eq_add_of_le' level_pos
  rfl

/-- With a single blank, nothing is set off. -/
theorem classify_bare (blank : Text.isBlank c) (plain : '\n' ∉ opening.text ++ [c]) :
    classify (opening.text ++ [c]) = opening.bareClass := by
  cases opening with
  | signs level level_pos level_le =>
    rw [classify_of_lead_sign (lead_signs level_pos level_le [c])]
    simp only [text, heading?_concat_eq_none level blank]
    rfl
  | marked kind indent marker indent_blank isMarker =>
    have cut := isCut_marked indent_blank isMarker [c]
    have nothing : textAfterBlanks [c] = none :=
      (textAfterBlanks_eq_none_iff (fun mem => plain (List.mem_append_right _ mem)) blank).2 rfl
    rw [cut.classify_eq blank, nothing]
    rfl

/-- With several blanks, the last of them is. -/
theorem classify_blank (nonempty : blanks ≠ []) (blank : ∀ c ∈ blanks ++ [last], Text.isBlank c)
    (plain : '\n' ∉ opening.text ++ (blanks ++ [last])) :
    classify (opening.text ++ (blanks ++ [last])) = opening.blankClass last := by
  have plainBlanks : '\n' ∉ blanks ++ [last] := fun mem => plain (List.mem_append_right _ mem)
  cases opening with
  | signs level level_pos level_le =>
    have cut : IsHeadingCut (List.replicate level '#' ++ (blanks ++ [last])) level blanks [last] :=
      ⟨rfl, level_pos, level_le, setOff_concat nonempty blank plainBlanks⟩
    have empty : Text.trim (blanks ++ [last]) = [] := List.isEmpty_iff.1 (isBlank_iff.2 blank)
    have untitled : Inline.format [] = [] := by decide +kernel
    rw [classify_of_lead_sign (lead_signs level_pos level_le (blanks ++ [last]))]
    simp only [text, cut.heading?_eq, empty, untitled]
    rfl
  | marked kind indent marker indent_blank isMarker =>
    obtain ⟨first, others, rfl⟩ := List.exists_cons_of_ne_nil nonempty
    have cut := isCut_marked indent_blank isMarker (first :: (others ++ [last]))
    have content : Inline.format [last] = [last] :=
      Inline.format_eq_self_of_count (fun mem => plainBlanks (List.mem_append_right _ mem))
        (fun _ _ => List.count_le_length) fun mem =>
          not_mem_of_blank blank (by decide) (List.mem_append_right _ mem)
    rw [List.cons_append, cut.classify_eq (blank first List.mem_cons_self), ← List.cons_append,
      textAfterBlanks_concat nonempty blank plainBlanks]
    simp only [content]
    rfl

/-- An opening has one delimiter at most, and that is a bullet. -/
theorem count_text_le_one {delimiter : Char} (mem : delimiter ∈ "*_`".toList) :
    opening.text.count delimiter ≤ 1 := by
  cases opening with
  | signs level _ _ =>
    have absent : delimiter ∉ List.replicate level '#' := by
      intro sign
      rw [List.eq_of_mem_replicate sign] at mem
      exact absurd mem (by decide)
    exact (List.count_eq_zero_of_not_mem absent).le.trans (Nat.zero_le 1)
  | marked kind indent marker indent_blank isMarker =>
    rw [text, List.count_append, count_of_blank indent_blank mem, Nat.zero_add]
    exact isMarker.count_le_one mem

theorem bracket_not_mem_text : '[' ∉ opening.text := by
  cases opening with
  | signs level _ _ =>
    intro sign
    exact absurd (List.eq_of_mem_replicate sign) (by decide)
  | marked kind indent marker indent_blank isMarker =>
    rw [text, List.mem_append]
    rintro (mem | mem)
    · exact not_mem_of_blank indent_blank (by decide) mem
    · exact absurd (isMarker.forall_mem '[' mem) (by decide +kernel)

/-- There is nothing to format in an opening and a blank. -/
theorem format_bare (blank : Text.isBlank c) (plain : '\n' ∉ opening.text ++ [c]) :
    Inline.format (opening.text ++ [c]) = opening.text ++ [c] := by
  have blank : ∀ d ∈ [c], Text.isBlank d := List.forall_mem_singleton.2 blank
  refine Inline.format_eq_self_of_count plain (fun delimiter mem => ?_) ?_
  · rw [List.count_append, count_of_blank blank mem]
    exact opening.count_text_le_one mem
  · rw [List.mem_append, not_or]
    exact ⟨opening.bracket_not_mem_text, not_mem_of_blank blank (by decide)⟩

/-- The line is neither a heading nor a list item iff there is a single blank. -/
theorem unclaimed_iff (nonempty : blanks ≠ []) (blank : ∀ c ∈ blanks, Text.isBlank c)
    (plain : '\n' ∉ opening.text ++ blanks) :
    (heading? (opening.text ++ blanks) = none ∧ listItem? (opening.text ++ blanks) = none) ↔
      blanks.length = 1 := by
  obtain ⟨front, last, rfl⟩ : ∃ front last, blanks = front ++ [last] :=
    ⟨_, _, (List.dropLast_concat_getLast nonempty).symm⟩
  rw [heading?_eq_classify, listItem?_eq_classify, List.length_append, List.length_singleton]
  by_cases single : front = []
  · subst single
    have class_eq : classify (opening.text ++ [last]) = opening.bareClass :=
      opening.classify_bare (blank last List.mem_cons_self) plain
    rw [List.nil_append, class_eq]
    cases opening <;> simp [bareClass, Class.heading?, Class.item?]
  · rw [opening.classify_blank single blank plain]
    cases opening <;> simp [blankClass, Class.heading?, Class.item?, single]

/-! ### Steps -/

/-- What a line contributes that is text behind the opening: it ends an open list unless it has a
marker. -/
def asText (context : BlockContext) (line : Text) : Opening → Step
  | signs .. => (Step.closeAnyList context).andThen
      ((Step.emit .prose line).record (.claimed .paragraph))
  | marked .. => (Step.emit context line).record (.claimed .paragraph)

/-- What a line contributes that has the given blank for a text: a heading with an empty title, or
an item of its list, which is opened unless it is open. -/
def asStructure (context : BlockContext) (last : Char) : Opening → Step
  | signs level .. =>
    let heading := Step.emit .prose (Latex.heading level [])
    (Step.closeAnyList context).andThen
      ((heading.count { headings := 1 }).record (.claimed .heading))
  | marked kind indent .. =>
    let opened := if context = .list kind then Step.stay context
      else (Step.closeAnyList context).andThen (.openList kind)
    opened.andThen (Step.item ⟨kind, Latex.item indent [last]⟩)

variable {context : BlockContext} (outside : context ≠ .literal)

include outside

theorem ofLine_bare (blank : Text.isBlank c) (plain : '\n' ∉ opening.text ++ [c]) :
    Step.ofLine .standard context (opening.text ++ [c]) =
      opening.asText context (opening.text ++ [c]) := by
  have formatted := opening.format_bare blank plain
  rw [Step.ofLine_standard, opening.classify_bare blank plain]
  cases context with
  | literal => exact absurd rfl outside
  | prose => cases opening <;> simp [Step.ofClass, bareClass, Step.inProse, asText, formatted]
  | list kind =>
    cases opening <;> simp [Step.ofClass, bareClass, Class.continues, Step.inProse, Step.inList,
      asText, formatted]

theorem ofLine_blank (nonempty : blanks ≠ []) (blank : ∀ c ∈ blanks ++ [last], Text.isBlank c)
    (plain : '\n' ∉ opening.text ++ (blanks ++ [last])) :
    Step.ofLine .standard context (opening.text ++ (blanks ++ [last])) =
      opening.asStructure context last := by
  rw [Step.ofLine_standard, opening.classify_blank nonempty blank plain]
  cases opening with
  | signs level _ _ =>
    cases context with
    | literal => exact absurd rfl outside
    | _ => simp [Step.ofClass, blankClass, Class.continues, Step.inProse, asStructure]
  | marked kind indent _ _ _ => exact Step.ofClass_item _ _ outside

end Opening

end Line

namespace Document

variable {text shorter : Text} {before after : List Text}

/-- **A line that is emitted as it stands,** and leaves open what is open, can be left out: nothing
but itself is missing then. -/
theorem convert_leaveOut {line : Text} {events : List TraceEvent} (options : Options)
    (step : Step.ofLine .standard (Step.ofLines .standard .prose before).context line =
      { Step.emit (Step.ofLines .standard .prose before).context line with events })
    (lines : text.lines = before ++ line :: after) (others : shorter.lines = before ++ after) :
    (convert options text).stats =
        { (convert options shorter).stats with
          inputLines := (convert options shorter).stats.inputLines + 1
          outputLines := (convert options shorter).stats.outputLines + 1 } ∧
      ∃ front back, (convert options shorter).latex.lines = front ++ back ∧
        (convert options text).latex.lines = front ++ line :: back := by
  let front := Step.ofLines .standard .prose before
  let back := Step.ofLines .standard front.context after
  have body_text : body .standard text =
      front.andThen (({ Step.emit front.context line with events } : Step).andThen back) := by
    rw [body, lines, Step.ofLines_append, Step.ofLines, step]
    rfl
  have body_shorter : body .standard shorter = front.andThen back := by
    rw [body, others, Step.ofLines_append]
  constructor
  · rw [stats_eq, stats_eq, whole, whole, body_text, body_shorter, lines, others]
    simp [Step.andThen, Step.emit]
    omega
  · refine ⟨front.lines, back.lines ++ (ending options back.context).lines, ?_, ?_⟩
    · rw [lines_latex, whole, body_shorter]
      simp [Step.andThen]
    · rw [lines_latex, whole, body_text]
      simp [Step.andThen, Step.emit]

/-- What becomes of lines that hold nothing but blanks behind the opening. -/
structure Textless (opening : Line.Opening) (blanks : Text) : Prop where
  /-- The line is neither a heading nor a list item iff there is a single blank. -/
  unclaimed_iff : (Line.heading? (opening.text ++ blanks) = none ∧
    Line.listItem? (opening.text ++ blanks) = none) ↔ blanks.length = 1
  /-- With a single blank, it is text outside literal blocks, and counts for nothing. A marker
  leaves open what is open. -/
  single : blanks.length = 1 → ∀ context ≠ .literal,
    Step.ofLine .standard context (opening.text ++ blanks) =
        opening.asText context (opening.text ++ blanks) ∧
      (opening.asText context (opening.text ++ blanks)).tally = {}
  /-- So such a marker can be left out: only its own line is missing then. -/
  leaveOut : opening.isMarked → blanks.length = 1 → ∀ options text shorter before after,
    text.lines = before ++ (opening.text ++ blanks) :: after → shorter.lines = before ++ after →
    (Step.ofLines .standard .prose before).context ≠ .literal →
    (convert options text).stats =
        { (convert options shorter).stats with
          inputLines := (convert options shorter).stats.inputLines + 1
          outputLines := (convert options shorter).stats.outputLines + 1 } ∧
      ∃ front back, (convert options shorter).latex.lines = front ++ back ∧
        (convert options text).latex.lines = front ++ (opening.text ++ blanks) :: back
  /-- With several blanks, the last of them is the text of a heading or of an item. -/
  several : ∀ front last, front ≠ [] → blanks = front ++ [last] → ∀ context ≠ .literal,
    Step.ofLine .standard context (opening.text ++ blanks) = opening.asStructure context last

/-- **Marks without a text.** Behind one to six number signs, or behind a marker, nothing but blanks
follows. With a single blank the line is text; with several it is structure. -/
theorem textless (opening : Line.Opening) {blanks : Text} (nonempty : blanks ≠ [])
    (blank : ∀ c ∈ blanks, Text.isBlank c) (plain : '\n' ∉ opening.text ++ blanks) :
    Textless opening blanks := by
  refine ⟨opening.unclaimed_iff nonempty blank plain, fun one context outside => ?_,
    fun marked one options text shorter before after lines others outside => ?_,
    fun front last several cut context outside => ?_⟩
  · obtain ⟨c, rfl⟩ := List.length_eq_one_iff.1 one
    refine ⟨opening.ofLine_bare outside (blank c List.mem_cons_self) plain, ?_⟩
    cases opening with
    | signs => cases context <;> rfl
    | marked => rfl
  · obtain ⟨c, rfl⟩ := List.length_eq_one_iff.1 one
    have step := opening.ofLine_bare outside (blank c List.mem_cons_self) plain
    cases opening with
    | signs => cases marked
    | marked => exact convert_leaveOut options step lines others
  · subst cut
    exact opening.ofLine_blank outside several blank plain

/-- A hyphen without an indent. -/
def hyphen : Line.Opening := .marked .unordered [] ['-'] nofun ⟨'-', by decide, rfl⟩

/-- One blank behind the hyphen leaves an open list open, two make an item of it. -/
theorem textless_hyphen :
    (convert {} "1. a\n- \n2. b".toList).stats =
        { (convert {} "1. a\n2. b".toList).stats with inputLines := 3, outputLines := 5 } ∧
      Step.ofLine .standard (.list .ordered) "-  ".toList =
        ((Step.closeList .ordered).andThen (.openList .unordered)).andThen
          (Step.item ⟨.unordered, "\\item  ".toList⟩) := by
  have space : Text.isBlank ' ' := by decide
  have one : Textless hyphen [' '] := textless hyphen (by decide) (by simp [space]) (by decide)
  have two : Textless hyphen [' ', ' '] := textless hyphen (by decide) (by simp [space]) (by decide)
  have within : (Step.ofLines .standard .prose ["1. a".toList]).context ≠ .literal := by
    decide +kernel
  exact ⟨(one.leaveOut rfl rfl {} _ "1. a\n2. b".toList ["1. a".toList] ["2. b".toList] (by decide)
    (by decide) within).1, two.several [' '] ' ' (by decide) rfl (.list .ordered) (by decide)⟩

/-- Two blanks behind a mark are enough for a heading without a title, and for an item that ends the
open list of the other kind. -/
theorem convert_blank_text :
    Line.heading? "#  ".toList = some ⟨1, "\\chapter\x7b\x7d".toList⟩ ∧
      (convert {} "#  ".toList).stats.headings = 1 ∧
      Line.listItem? "-  ".toList = some ⟨.unordered, "\\item  ".toList⟩ ∧
      (convert {} "-  ".toList).stats.listItems = 1 ∧
      (convert {} "1. a\n-  \n2. b".toList).stats.listsOpened = 3 := by
  decide +kernel

end Document
end Manuscript
