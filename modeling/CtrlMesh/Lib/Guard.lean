import Mathlib.Tactic.Common

/-!
# Checks that refuse with a reason

A validation is a sequence of checks, each of which refuses its input or lets it pass to the next.
What passes the whole sequence is what passes every check of it.
-/

namespace CtrlMesh.Lib

variable {ε α : Type}

/-- Refuse for a reason, or pass. -/
def refuse (bad : Prop) [Decidable bad] (reason : ε) : Except ε Unit :=
  if bad then throw reason else pure ()

/-- The check of a value that may be absent. -/
def whenSome (value : Option α) (check : α → Except ε Unit) : Except ε Unit :=
  match value with
  | none => pure ()
  | some a => check a

/-- A refusal passes what is not bad. -/
theorem refuse_ok {bad : Prop} [Decidable bad] {reason : ε} :
    refuse bad reason = .ok () ↔ ¬bad := by
  unfold refuse
  split
  · next holds => exact iff_of_false nofun fun absent => absent holds
  · next absent => exact iff_of_true rfl absent

/-- A check of an optional value passes `none`. -/
theorem whenSome_ok {value : Option α} {check : α → Except ε Unit} :
    whenSome value check = .ok () ↔ ∀ a ∈ value, check a = .ok () := by
  cases value with
  | none => exact iff_of_true rfl nofun
  | some a => simp [whenSome]

/-- Two checks pass what both pass. -/
theorem seq_ok {first second : Except ε Unit} :
    (do first; second) = .ok () ↔ first = .ok () ∧ second = .ok () := by
  cases first with
  | error reason => exact iff_of_false nofun fun both => nomatch both.1
  | ok _ => simp [bind, Except.bind]

end CtrlMesh.Lib
