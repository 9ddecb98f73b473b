import Manuscript.Path.Name
import Mathlib.Data.List.TakeWhile

/-!
# The stem and the extension of a name

A name is cut at its last period, unless nothing is in front of it (`Name.cut_eq`). So a name has an
extension iff it is spelled by a stem that is not empty, a period, and an extension without a period
(`Name.extension?_eq_some_iff`); and whatever is put behind such a stem and a period, if there is no
period in it, is the extension of the name that they make.
-/

namespace Manuscript
namespace Name

variable {name : Name} {stem extension : Text}

/-- A name without a period is all stem. -/
theorem cut_of_not_mem (h : '.' ∉ name.text) : name.cut = (name.text, none) := by
  have all : name.text.reverse.takeWhile (· ≠ '.') = name.text.reverse := by
    rw [List.takeWhile_eq_self_iff]
    intro c mem
    simp only [ne_eq, decide_eq_true_eq]
    rintro rfl
    exact h (List.mem_reverse.1 mem)
  simp only [cut, all, List.length_reverse, decide_true, Bool.true_or, if_true]

/-- **The last period** cuts a name in two, unless nothing is in front of it. -/
theorem cut_eq (text : name.text = stem ++ '.' :: extension) (last : '.' ∉ extension) :
    name.cut = if stem = [] then (name.text, none) else (stem, some extension) := by
  have behind : name.text.reverse.takeWhile (· ≠ '.') = extension.reverse := by
    rw [text, List.reverse_append, List.reverse_cons, List.append_assoc,
      List.takeWhile_append_of_pos]
    · simp
    · intro c mem
      simp only [ne_eq, decide_eq_true_eq]
      rintro rfl
      exact last (List.mem_reverse.1 mem)
  have length : name.text.length = stem.length + (extension.length + 1) := by
    rw [text, List.length_append, List.length_cons]
  have front : name.text.take (name.text.length - extension.length - 1) = stem := by
    have cuts : name.text.length - extension.length - 1 = stem.length := by omega
    rw [cuts, text, List.take_left]
  have shorter : extension.length ≠ name.text.length := by omega
  simp only [cut, behind, List.reverse_reverse, front, shorter, decide_false, Bool.false_or,
    decide_eq_true_eq]

/-- What follows the last period of a text, and what is in front of it. -/
theorem exists_last_period {text : Text} (h : '.' ∈ text) :
    ∃ before behind : Text, text = before ++ '.' :: behind ∧ '.' ∉ behind := by
  obtain ⟨behind, before, split, last⟩ := List.eq_append_cons_of_mem (List.mem_reverse.2 h)
  refine ⟨before.reverse, behind.reverse, ?_, mt List.mem_reverse.1 last⟩
  rw [← List.reverse_reverse text, split]
  simp

/-- **Names with an extension.** -/
theorem extension?_eq_some_iff : name.extension? = some extension ↔
    ∃ stem : Text, stem ≠ [] ∧ name.text = stem ++ '.' :: extension ∧ '.' ∉ extension := by
  constructor
  · intro h
    by_cases period : '.' ∈ name.text
    · obtain ⟨before, behind, text, last⟩ := exists_last_period period
      rw [extension?, cut_eq text last] at h
      split at h
      · cases h
      · next nonempty =>
        obtain rfl := Option.some.inj h
        exact ⟨before, nonempty, text, last⟩
    · rw [extension?, cut_of_not_mem period] at h
      cases h
  · rintro ⟨stem, nonempty, text, last⟩
    rw [extension?, cut_eq text last, if_neg nonempty]

/-- The stem that a name is made of, with a period and an extension without one. -/
theorem stem_eq (text : name.text = stem ++ '.' :: extension) (last : '.' ∉ extension)
    (nonempty : stem ≠ []) : name.stem = stem := by
  rw [Name.stem, cut_eq text last, if_neg nonempty]

/-- A name with an extension is its stem, a period and the extension. -/
theorem text_eq_of_extension? (h : name.extension? = some extension) :
    name.text = name.stem ++ '.' :: extension := by
  obtain ⟨stem, nonempty, text, last⟩ := extension?_eq_some_iff.1 h
  rw [stem_eq text last nonempty, text]

end Name
end Manuscript
