import Manuscript.Failure

/-!
# Refused requests

A request can be refused although everything stands where it has to stand: a permission is wanting,
a quota is used up, a medium fails. `Refusals` says which requests are refused so, and why.

Each request is known by the path that it is about. So whether one is refused does not depend on
what was asked before: this is how permissions work, and not how room works that documents share.
-/

namespace Manuscript

/-- The requests that are refused whatever stands in the tree, by the path that each is about. -/
structure Refusals where
  /-- To tell what the path leads to. -/
  kind : Path → Option IoError := fun _ => none
  /-- To read the file. -/
  read : Path → Option IoError := fun _ => none
  /-- To list the directory. -/
  list : Path → Option IoError := fun _ => none
  /-- To make the directory. -/
  make : Path → Option IoError := fun _ => none
  /-- To create the temporary file for what is to stand at the path. The path of that file may also
  be too long, which it is not for what is to stand there. -/
  create : Path → Option IoError := fun _ => none
  /-- To fill that file. -/
  fill : Path → Option IoError := fun _ => none
  /-- To move it onto the path. -/
  move : Path → Option IoError := fun _ => none

/-- The answer to a request that may be refused. One that fails anyway fails for its own reason. -/
def grant {α : Type} : Option IoError → Except IoError α → Except IoError α
  | none, answer => answer
  | some cause, .ok _ => .error cause
  | some _, .error cause => .error cause

variable {α : Type} {refusal : Option IoError} {answer : Except IoError α} {value : α}
  {cause : IoError}

@[simp] theorem grant_none (answer : Except IoError α) : grant none answer = answer := rfl

@[simp] theorem grant_error (refusal : Option IoError) (cause : IoError) :
    grant refusal (.error cause : Except IoError α) = .error cause := by
  cases refusal <;> rfl

theorem grant_eq_ok_iff :
    grant refusal answer = .ok value ↔ refusal = none ∧ answer = .ok value := by
  cases refusal with
  | none => simp
  | some cause => cases answer <;> simp [grant]

end Manuscript
