import Manuscript.Proofs.Document.LineStep
import Mathlib.Data.List.Infix

/-!
# Braces

LaTeX reads braces in pairs, so a conversion must not tear a pair apart. `Text.Balanced` counts raw
braces: no beginning of the text closes more of them than it opens, and the whole closes as many as
it opens.

A conversion moves text and drops marks, and puts commands around what is left, wherever the spans
of different passes cross. What survives all of it is a comparison: `Text.Shelters text out` says
that every beginning of `out` is at least as deep inside braces as some beginning of `text`. It
composes along a text (`Text.Shelters.append`) and along the passes (`Text.Shelters.trans`), a
command shelters its argument (`Text.Shelters.command`), and what shelters a balanced text is
balanced.

* `Inline.shelters_format`: a formatted text shelters the text it was made from.
* `Document.balanced_latex`: if every line of the document is balanced, so is every line of the
  result.
-/

namespace Manuscript
namespace Text

/-- The braces that a text opens, less those that it closes. -/
def depth (text : Text) : Int := text.count '{' - text.count '}'

/-- No beginning of the text closes more braces than it opens, and the text as a whole closes as
many as it opens. -/
structure Balanced (text : Text) : Prop where
  beginnings : ∀ front : Text, front <+: text → front.count '}' ≤ front.count '{'
  whole : text.count '}' = text.count '{'

instance (text : Text) : Decidable (Balanced text) :=
  decidable_of_iff
    ((∀ front ∈ text.inits, front.count '}' ≤ front.count '{') ∧ text.count '}' = text.count '{')
    ⟨fun h => ⟨fun front among => h.1 front ((List.mem_inits _ _).2 among), h.2⟩,
      fun h => ⟨fun front mem => h.beginnings front ((List.mem_inits _ _).1 mem), h.whole⟩⟩

/-- A text without braces. -/
def Braceless (text : Text) : Prop := '{' ∉ text ∧ '}' ∉ text

instance (text : Text) : Decidable (Braceless text) :=
  inferInstanceAs (Decidable ('{' ∉ text ∧ '}' ∉ text))

/-- Every beginning of `out` is at least as deep as some beginning of `text`, and the two texts come
to the same depth in the end. -/
structure Shelters (text out : Text) : Prop where
  beginnings : ∀ front : Text, front <+: out →
    ∃ below : Text, below <+: text ∧ below.depth ≤ front.depth
  whole : out.depth = text.depth

/-! ### Depth -/

@[simp] theorem depth_append (first second : Text) :
    depth (first ++ second) = first.depth + second.depth := by
  simp only [depth, List.count_append]
  omega

theorem depth_of_braceless {text : Text} (h : Braceless text) : text.depth = 0 := by
  rw [depth, List.count_eq_zero.2 h.1, List.count_eq_zero.2 h.2]
  rfl

/-- What all characters of a text are and no brace is. -/
theorem Braceless.of_forall {p : Char → Prop} {text : Text} (h : ∀ c ∈ text, p c)
    (opening : ¬ p '{') (closing : ¬ p '}') : Braceless text :=
  ⟨mt (h _) opening, mt (h _) closing⟩

theorem Braceless.of_prefix {text front : Text} (h : Braceless text) (among : front <+: text) :
    Braceless front :=
  ⟨mt (fun mem => among.subset mem) h.1, mt (fun mem => among.subset mem) h.2⟩

/-- Balance, told by depth. -/
theorem balanced_iff {text : Text} :
    Balanced text ↔ (∀ front : Text, front <+: text → 0 ≤ front.depth) ∧ depth text = 0 := by
  constructor
  · rintro ⟨beginnings, whole⟩
    refine ⟨fun front among => ?_, ?_⟩
    · have := beginnings front among
      rw [depth]
      omega
    · rw [depth]
      omega
  · rintro ⟨beginnings, whole⟩
    refine ⟨fun front among => ?_, ?_⟩
    · have := beginnings front among
      rw [depth] at this
      omega
    · rw [depth] at whole
      omega

theorem balanced_nil : Balanced [] := by
  refine balanced_iff.2 ⟨fun front among => ?_, rfl⟩
  rw [List.prefix_nil.1 among]
  decide

/-! ### Shelter -/

/-- A beginning of two texts in a row ends in the first of them, or in the second. -/
theorem prefix_append_cases {first second front : Text} (h : front <+: first ++ second) :
    front <+: first ∨ ∃ behind, front = first ++ behind ∧ behind <+: second := by
  rcases List.prefix_or_prefix_of_prefix h (List.prefix_append first second) with h | ⟨behind, rfl⟩
  · exact .inl h
  · exact .inr ⟨behind, rfl, (List.prefix_append_right_inj first).1 h⟩

namespace Shelters

variable {text out first second firstOut secondOut : Text}

theorem refl (text : Text) : Shelters text text where
  beginnings := fun front among => ⟨front, among, Int.le_refl _⟩
  whole := rfl

theorem trans {middle : Text} (h : Shelters text middle) (next : Shelters middle out) :
    Shelters text out where
  beginnings := by
    intro front among
    obtain ⟨between, amongMiddle, shallower⟩ := next.beginnings front among
    obtain ⟨below, amongText, shallowest⟩ := h.beginnings between amongMiddle
    exact ⟨below, amongText, Int.le_trans shallowest shallower⟩
  whole := next.whole.trans h.whole

instance : Trans Shelters Shelters Shelters := ⟨trans⟩

/-- Two texts in a row are sheltered in a row: behind the first, both sides are equally deep. -/
theorem append (hfirst : Shelters first firstOut) (hsecond : Shelters second secondOut) :
    Shelters (first ++ second) (firstOut ++ secondOut) where
  beginnings := by
    intro front among
    rcases prefix_append_cases among with inFirst | ⟨front, rfl, inSecond⟩
    · obtain ⟨below, amongFirst, shallower⟩ := hfirst.beginnings front inFirst
      exact ⟨below, amongFirst.trans (List.prefix_append first second), shallower⟩
    · -- behind the first text both sides are equally deep, so only the second one matters
      obtain ⟨below, amongSecond, shallower⟩ := hsecond.beginnings front inSecond
      refine ⟨first ++ below, (List.prefix_append_right_inj first).2 amongSecond, ?_⟩
      have ends := hfirst.whole
      rw [depth_append, depth_append]
      omega
  whole := by rw [depth_append, depth_append, hfirst.whole, hsecond.whole]

/-- Text without braces can be put in the place of other text without braces. -/
theorem of_braceless (htext : Braceless text) (hout : Braceless out) : Shelters text out where
  beginnings := by
    intro front among
    refine ⟨[], List.nil_prefix, ?_⟩
    rw [depth_of_braceless (hout.of_prefix among)]
    exact Int.le_refl _
  whole := by rw [depth_of_braceless htext, depth_of_braceless hout]

/-- Braces around a text: within them everything is deeper by one. -/
theorem braced (text : Text) : Shelters text ('{' :: text ++ ['}']) where
  beginnings := by
    intro front among
    rcases prefix_append_cases among with opened | ⟨behind, rfl, closed⟩
    · -- the closing brace is not among the characters seen so far
      rcases List.prefix_cons_iff.1 opened with rfl | ⟨front, rfl, amongText⟩
      · exact ⟨[], List.nil_prefix, Int.le_refl _⟩
      · refine ⟨front, amongText, ?_⟩
        have opening : depth ('{' :: front) = 1 + depth front := depth_append ['{'] front
        omega
    · -- all of the text is, with at most one brace closed behind it
      refine ⟨text, List.prefix_refl text, ?_⟩
      have opening : depth ('{' :: text) = 1 + depth text := depth_append ['{'] text
      have closing : -1 ≤ depth behind := by
        rcases List.prefix_cons_iff.1 closed with rfl | ⟨tail, rfl, nothing⟩
        · decide
        · rw [List.prefix_nil.1 nothing]
          decide
      rw [depth_append, opening]
      omega
  whole := by
    have opening : depth ('{' :: text) = 1 + depth text := depth_append ['{'] text
    have closing : depth ['}'] = -1 := rfl
    rw [depth_append, opening, closing]
    omega

/-- A command shelters its argument. -/
theorem command {name : Text} (hname : Braceless name) (argument : Text) :
    Shelters argument (Latex.command name argument) := by
  have named : Braceless ('\\' :: name) := ⟨by simp [hname.1], by simp [hname.2]⟩
  have whole : Latex.command name argument = ('\\' :: name) ++ ('{' :: argument ++ ['}']) := by
    simp [Latex.command]
  rw [whole]
  have none : Braceless [] := by decide
  exact append (of_braceless none named) (braced argument)

/-- Text without braces can be dropped from both ends. -/
theorem of_append {before after : Text} (hbefore : Braceless before) (hafter : Braceless after) :
    Shelters (before ++ (text ++ after)) text := by
  have dropFront : Shelters before [] := of_braceless hbefore (by decide)
  have dropBack : Shelters after [] := of_braceless hafter (by decide)
  have all := dropFront.append ((refl text).append dropBack)
  rwa [List.append_nil, List.nil_append] at all

/-- **What shelters a balanced text is balanced.** -/
theorem balanced (h : Shelters text out) (htext : Balanced text) : Balanced out := by
  obtain ⟨beginnings, whole⟩ := balanced_iff.1 htext
  refine balanced_iff.2 ⟨fun front among => ?_, h.whole.trans whole⟩
  obtain ⟨below, amongText, shallower⟩ := h.beginnings front among
  exact Int.le_trans (beginnings below amongText) shallower

end Shelters

theorem shelters_trim (text : Text) : Shelters text text.trim := by
  obtain ⟨before, after, cut, hbefore, hafter⟩ := exists_eq_append_trim text
  have all : Shelters (before ++ (text.trim ++ after)) text.trim :=
    .of_append (.of_forall hbefore (by decide) (by decide))
      (.of_forall hafter (by decide) (by decide))
  rwa [← cut] at all

end Text

/-! ### Formatting -/

namespace Inline

open Text (Balanced Braceless Shelters)

/-- Marks give way to a command: the text of a span is sheltered by it. -/
theorem Rendered.shelters {marks : Delimiters} {name : Text} {pieces : List Piece} {out : Text}
    (h : Rendered marks (Latex.command name) pieces out) (hopening : Braceless marks.opening)
    (hclosing : Braceless marks.closing) (hname : Braceless name) :
    Shelters (pieces.flatMap (Piece.source marks)) out := by
  induction h with
  | nil => exact .refl []
  | char c _ ih => exact Shelters.append (.refl [c]) ih
  | kept body _ ih => exact Shelters.append (.refl (marks.enclose body)) ih
  | wrapped body _ ih =>
    -- dropping the marks changes no depth, and the command only adds to it
    have bare : Shelters (marks.enclose body) body := by
      rw [Delimiters.enclose, List.append_assoc]
      exact .of_append hopening hclosing
    exact Shelters.append (bare.trans (.command hname body)) ih

theorem shelters_format (text : Text) : Shelters text (format text) := by
  have braceless : ∀ pass : Pass,
      Braceless pass.marks.opening ∧ Braceless pass.marks.closing ∧ Braceless pass.name := by
    intro pass
    cases pass <;> decide
  -- every pass shelters what the one before it has left, wherever its spans are
  refine format_induction (motive := Shelters text) ?_ (.refl text)
  intro pass before out rendered h
  obtain ⟨hopening, hclosing, hname⟩ := braceless pass
  have step := rendered.shelters hopening hclosing hname
  rw [Delimiters.flatMap_source_pieces] at step
  exact h.trans step

end Inline

/-! ### Lines -/

namespace Line

open Text (Braceless Shelters)

variable {line : Text}

/-- The signs of a heading hold no braces, and its title goes into a command. -/
theorem shelters_heading {heading : Heading} (h : heading? line = some heading) :
    Shelters line heading.latex := by
  obtain ⟨front, title, cut, signs, spelled⟩ := exists_title_of_heading? h
  have hfront : Braceless front := .of_forall signs (by decide) (by decide)
  have command : ∀ level, Braceless (Latex.sectioningCommand level) := by
    intro level
    unfold Latex.sectioningCommand
    split <;> decide
  have bare : Shelters line title := by
    have all : Shelters (front ++ (title ++ [])) title := .of_append hfront (by decide)
    rwa [List.append_nil, ← cut] at all
  rw [spelled]
  calc Shelters line title := bare
    Shelters _ title.trim := Text.shelters_trim title
    Shelters _ (Inline.format title.trim) := Inline.shelters_format _
    Shelters _ (Latex.heading heading.level (Inline.format title.trim)) :=
      Shelters.command (command heading.level) _

/-- The marker of an item gives way to the token, and neither holds a brace. -/
theorem shelters_item {item : ListItem} (h : listItem? line = some item) :
    Shelters line item.latex := by
  obtain ⟨marker, content, cut, known, spelled⟩ := exists_content_of_listItem? h
  have hmarker : Braceless marker := .of_forall known (by decide) (by decide)
  have token : Shelters marker Latex.itemToken := .of_braceless hmarker (by decide)
  have all := (Shelters.refl (line.takeWhile Text.isBlank)).append
    (token.append (Inline.shelters_format content))
  rwa [← cut, ← List.append_assoc, ← Latex.item, ← spelled] at all

end Line

/-! ### The result -/

/-- A marker line is a command around the name of its environment. -/
theorem Latex.Environment.balanced_command {name : Text} (hname : Text.Braceless name)
    (environment : Latex.Environment) : (Latex.command name environment.name).Balanced := by
  have argument : Text.Braceless environment.name := by cases environment <;> decide
  have all : Text.Shelters [] (Latex.command name environment.name) :=
    (Text.Shelters.of_braceless (by decide) argument).trans (.command hname _)
  exact all.balanced Text.balanced_nil

/-- Nothing that a balanced line emits is out of balance. -/
theorem Step.Emits.balanced {line out : Text} (h : Emits line out) (hline : line.Balanced) :
    out.Balanced := by
  cases h with
  | opening environment => exact environment.balanced_command (by decide)
  | closing environment => exact environment.balanced_command (by decide)
  | heading found => exact (Line.shelters_heading found).balanced hline
  | item found => exact (Line.shelters_item found).balanced hline
  | formatted => exact (Inline.shelters_format line).balanced hline
  | copied => exact hline
  | empty => exact Text.balanced_nil

namespace Document

/-- **Balance is preserved.** If every line of a document is balanced, so is every line of its
conversion. -/
theorem balanced_latex (options : Options) (text : Text) (h : ∀ line ∈ text.lines, line.Balanced) :
    ∀ out ∈ (convert options text).latex.lines, out.Balanced := by
  intro out mem
  rw [lines_latex] at mem
  obtain ⟨line, hline, emits⟩ := emits_of_mem_whole options text mem
  exact emits.balanced (h line hline)

/-- A code span that reaches out of strong text, a citation that begins in one, and a heading with
braces of its own. -/
theorem balanced_latex_crossing :
    let notes : Text := "# {A} **b `c** d`\n- `e [ref:f` {g}]\n  {*h*}".toList
    (∀ line ∈ notes.lines, line.Balanced) ∧
      ∀ out ∈ (convert {} notes).latex.lines, out.Balanced := by
  intro notes
  have balanced : ∀ line ∈ notes.lines, line.Balanced := by decide +kernel
  exact ⟨balanced, balanced_latex {} notes balanced⟩

end Document
end Manuscript
