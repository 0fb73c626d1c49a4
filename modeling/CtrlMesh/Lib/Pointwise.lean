import Mathlib.Data.List.Forall2

/-!
# Lists and optional values, element by element

When two lists or two optional values have the same image under a function that tells elements
apart as a relation does, and when a list is mapped by a function that may fail.
-/

namespace CtrlMesh.Lib

variable {α β γ : Type} {f : α → β} {R : α → β → Prop} {l items : List α} {m : List α}
  {x : Option α} {P : α → Prop} {Q : β → Prop}

/-- Mapped lists agree exactly if the lists are related. -/
theorem map_eq_map_iff_forall₂ {R : α → α → Prop} (each : ∀ a ∈ l, ∀ b ∈ m, (f a = f b ↔ R a b)) :
    l.map f = m.map f ↔ List.Forall₂ R l m := by
  induction l generalizing m with
  | nil => cases m <;> simp
  | cons first l ih =>
    cases m with
    | nil => simp
    | cons second m =>
      have later := ih fun a isLeft b isRight =>
        each a (List.mem_cons_of_mem _ isLeft) b (List.mem_cons_of_mem _ isRight)
      rw [List.map_cons, List.map_cons, List.cons.injEq, List.forall₂_cons, later,
        each first List.mem_cons_self second List.mem_cons_self]

/-- The relation of two values. -/
theorem rel_some_some {a : α} {b : β} : Option.Rel R (some a) (some b) ↔ R a b := by
  constructor
  · intro rel
    cases rel with
    | some related => exact related
  · exact .some

/-- Mapped options agree exactly if the options are related. -/
theorem map_eq_map_iff_rel {R : α → α → Prop} {y : Option α}
    (each : ∀ a ∈ x, ∀ b ∈ y, (f a = f b ↔ R a b)) : x.map f = y.map f ↔ Option.Rel R x y := by
  cases x with
  | none =>
    cases y with
    | none => exact iff_of_true rfl .none
    | some b => exact iff_of_false (by simp) (by intro rel; cases rel)
  | some a =>
    cases y with
    | none => exact iff_of_false (by simp) (by intro rel; cases rel)
    | some b =>
      rw [Option.map_some, Option.map_some, Option.some.injEq, each a rfl b rfl, rel_some_some]

/-- What is known of the right values carries over to the related left ones. -/
theorem forall_of_rel {y : Option β} (rel : Option.Rel R x y) (each : ∀ a b, R a b → Q b → P a)
    (all : ∀ b ∈ y, Q b) : ∀ a ∈ x, P a := by
  cases rel with
  | none => simp
  | some related => simpa using each _ _ related (all _ rfl)

/-- A property goes over to a related list. -/
theorem forall_of_forall₂ {m : List β} (related : List.Forall₂ R l m)
    (each : ∀ a b, R a b → Q b → P a) (all : ∀ b ∈ m, Q b) : ∀ a ∈ l, P a := by
  induction related with
  | nil => simp
  | cons first later ih =>
    rw [List.forall_mem_cons] at all ⊢
    exact ⟨each _ _ first all.1, ih all.2⟩

/-- Two functions that tell elements apart alike do so with lists. -/
theorem map_eq_map_iff_of {g : α → γ} (each : ∀ a ∈ l, ∀ b, f a = f b ↔ g a = g b) :
    l.map f = m.map f ↔ l.map g = m.map g :=
  (map_eq_map_iff_forall₂ fun a member b _ => each a member b).trans
    (map_eq_map_iff_forall₂ fun _ _ _ _ => Iff.rfl).symm

/-- A `mapM` succeeds with the values of the function. -/
theorem mapM_eq_some_iff {f : α → Option β} {mapped : List β} :
    items.mapM f = some mapped ↔ items.map f = mapped.map some := by
  induction items generalizing mapped with
  | nil => cases mapped <;> simp
  | cons item items ih =>
    rw [List.mapM_cons, List.map_cons]
    cases mapped with
    | nil => simp [Option.bind_eq_some_iff]
    | cons first mapped =>
      rw [List.map_cons, List.cons.injEq, ← ih]
      simp [Option.bind_eq_some_iff]

/-- A map over a list succeeds where every call does. -/
theorem isSome_mapM_iff {f : α → Option β} :
    (items.mapM f).isSome = true ↔ ∀ item ∈ items, (f item).isSome = true := by
  induction items with
  | nil => simp
  | cons item items ih =>
    rw [List.forall_mem_cons, ← ih, List.mapM_cons]
    cases f item with
    | none => simp
    | some first => cases items.mapM f <;> simp

/-- Two lists are mapped alike exactly if their elements are, provided one is mapped at all. -/
theorem mapM_eq_mapM_iff {f : α → Option β} {others : List α}
    (each : ∀ item ∈ items, (f item).isSome = true) :
    items.mapM f = others.mapM f ↔ items.map f = others.map f := by
  obtain ⟨mapped, isMapped⟩ := Option.isSome_iff_exists.mp (isSome_mapM_iff.mpr each)
  rw [isMapped, eq_comm, mapM_eq_some_iff, mapM_eq_some_iff.mp isMapped, eq_comm]

end CtrlMesh.Lib
