import Mathlib.Data.List.Perm.Basic

/-!
# A value that is overwritten in a loop

A loop goes over elements some of which write a result. The last one that writes decides. If the
elements come in no fixed order the result is determined exactly when all of them write the same.
-/

namespace CtrlMesh.Lib

variable {α β : Type} (f : α → Option β)

/-- The result after the loop: `f a` is what the element `a` writes. -/
def lastWrite (init : β) (elements : List α) : β :=
  elements.foldl (fun result a => (f a).getD result) init

variable {f} {init value : β} {elements : List α}

/-- The first element is written first. -/
theorem lastWrite_cons (init : β) (a : α) (elements : List α) :
    lastWrite f init (a :: elements) = lastWrite f ((f a).getD init) elements := rfl

/-- The last element is written last. -/
theorem lastWrite_concat {a : α} (writes : f a = some value) :
    lastWrite f init (elements ++ [a]) = value := by
  simp [lastWrite, writes]

/-- A loop in which nothing is written. -/
theorem lastWrite_of_none (silent : ∀ a ∈ elements, f a = none) :
    lastWrite f init elements = init := by
  induction elements with
  | nil => rfl
  | cons a elements ih =>
    rw [List.forall_mem_cons] at silent
    rw [lastWrite_cons, silent.1, Option.getD_none, ih silent.2]

/-- What all elements write has a property, and one writes or it had the property before. -/
theorem lastWrite_of_forall (property : β → Prop)
    (all : ∀ a ∈ elements, ∀ b, f a = some b → property b)
    (written : property init ∨ ∃ a ∈ elements, f a ≠ none) :
    property (lastWrite f init elements) := by
  induction elements generalizing init with
  | nil => simpa [lastWrite] using written
  | cons a elements ih =>
    rw [List.forall_mem_cons] at all
    rw [lastWrite_cons]
    apply ih all.2
    cases writes : f a with
    | some b => exact .inl (all.1 b writes)
    | none => simpa [writes] using written

/-- A loop in which one value only is written, and it is. -/
theorem lastWrite_of_agree (agree : ∀ a ∈ elements, ∀ b, f a = some b → b = value)
    (written : init = value ∨ ∃ a ∈ elements, f a ≠ none) : lastWrite f init elements = value :=
  lastWrite_of_forall (· = value) agree written

/-- The result is the same for every order exactly when no two elements write differently. -/
theorem lastWrite_perm_iff :
    (∀ order, order.Perm elements → lastWrite f init order = lastWrite f init elements) ↔
      ∀ a ∈ elements, ∀ b ∈ elements, ∀ left right, f a = some left → f b = some right →
        left = right := by
  classical
  constructor
  · intro same a isA b isB left right writes writes'
    have last : ∀ {c : α} {value : β}, c ∈ elements → f c = some value →
        value = lastWrite f init elements := by
      intro c value member writes
      have perm : (elements.erase c ++ [c]).Perm elements :=
        (List.perm_append_singleton c _).trans (List.perm_cons_erase member).symm
      rw [← same _ perm, lastWrite_concat writes]
    exact (last isA writes).trans (last isB writes').symm
  · intro agree order perm
    by_cases silent : ∀ a ∈ elements, f a = none
    · rw [lastWrite_of_none silent,
        lastWrite_of_none fun a member => silent a (perm.mem_iff.mp member)]
    · obtain ⟨a, isA, writes⟩ : ∃ a ∈ elements, f a ≠ none := by
        simpa only [not_forall, exists_prop] using silent
      obtain ⟨value, writes'⟩ := Option.ne_none_iff_exists'.mp writes
      have all : ∀ b ∈ elements, ∀ right, f b = some right → right = value :=
        fun b isB right writesB => agree b isB a isA right value writesB writes'
      rw [lastWrite_of_agree all (.inr ⟨a, isA, writes⟩),
        lastWrite_of_agree (fun b isB => all b (perm.mem_iff.mp isB))
          (.inr ⟨a, perm.mem_iff.mpr isA, writes⟩)]

end CtrlMesh.Lib
