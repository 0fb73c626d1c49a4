import Mathlib.Data.Finset.Basic
import Mathlib.Data.List.AList

/-!
# Indexes from values to sets of keys

A map from index values to non-empty sets of keys, as a store keeps it to find its entries by what
they match. A key is added under all its values and removed from all of them; a set that loses its
last key is dropped from the map.
-/

namespace CtrlMesh.Lib

variable {ι κ : Type} [DecidableEq ι]

/-- A map from values to sets of keys. -/
abbrev MultiIndex (ι κ : Type) := AList fun _ : ι => Finset κ

namespace MultiIndex

/-- The keys under a value. -/
def keysAt (index : MultiIndex ι κ) (i : ι) : Finset κ := (index.lookup i).getD ∅

/-- No value is listed with an empty set. -/
def Tight (index : MultiIndex ι κ) : Prop := ∀ i, index.lookup i ≠ some ∅

/-- A value is missing exactly when it has no keys. -/
theorem Tight.lookup_eq_none {index : MultiIndex ι κ} (tight : index.Tight) (i : ι) :
    index.lookup i = none ↔ index.keysAt i = ∅ := by
  unfold keysAt
  cases found : index.lookup i with
  | none => simp
  | some keys =>
    have nonempty : keys ≠ ∅ := fun empty => tight i (empty ▸ found)
    simp [nonempty]

/-- The empty index lists no value. -/
theorem tight_empty : (∅ : MultiIndex ι κ).Tight := by
  intro i
  simp

/-- The empty index has no keys. -/
@[simp] theorem keysAt_empty (i : ι) : (∅ : MultiIndex ι κ).keysAt i = ∅ := by
  simp [keysAt]

variable [DecidableEq κ]

/-- Add a key under one value. -/
def add (index : MultiIndex ι κ) (i : ι) (k : κ) : MultiIndex ι κ :=
  index.insert i (insert k (index.keysAt i))

/-- Remove a key from one value. -/
def remove (index : MultiIndex ι κ) (i : ι) (k : κ) : MultiIndex ι κ :=
  match index.lookup i with
  | none => index
  | some keys => if keys.erase k = ∅ then index.erase i else index.insert i (keys.erase k)

/-- Add a key under all its values. -/
def addAll (index : MultiIndex ι κ) (values : List ι) (k : κ) : MultiIndex ι κ :=
  values.foldl (fun index i => index.add i k) index

/-- Remove a key from all its values. -/
def removeAll (index : MultiIndex ι κ) (values : List ι) (k : κ) : MultiIndex ι κ :=
  values.foldl (fun index i => index.remove i k) index

variable {index : MultiIndex ι κ} {i j : ι} {k l : κ} {values : List ι}

/-- The keys after an addition. -/
theorem mem_keysAt_add : l ∈ (index.add i k).keysAt j ↔ l ∈ index.keysAt j ∨ l = k ∧ j = i := by
  by_cases same : j = i
  · subst same
    simp [add, keysAt, or_comm]
  · simp [add, keysAt, same]

/-- The keys after a removal. -/
theorem mem_keysAt_remove :
    l ∈ (index.remove i k).keysAt j ↔ l ∈ index.keysAt j ∧ ¬(l = k ∧ j = i) := by
  cases found : index.lookup i with
  | none =>
    have missing : index.keysAt i = ∅ := by simp [keysAt, found]
    have same : index.remove i k = index := by simp [remove, found]
    rw [same]
    constructor
    · intro member
      refine ⟨member, fun ⟨_, hit⟩ => ?_⟩
      rw [hit, missing] at member
      simp at member
    · exact And.left
  | some keys =>
    by_cases hit : j = i
    · subst hit
      by_cases last : keys.erase k = ∅
      · have only : ∀ l ∈ keys, l = k := fun l member => by
          by_contra other
          have : l ∈ keys.erase k := Finset.mem_erase.mpr ⟨other, member⟩
          simp [last] at this
        have gone : (index.remove j k).keysAt j = ∅ := by simp [remove, found, last, keysAt]
        have here : index.keysAt j = keys := by simp [keysAt, found]
        rw [gone, here]
        constructor
        · simp
        · exact fun ⟨member, other⟩ => absurd ⟨only l member, rfl⟩ other
      · have left : (index.remove j k).keysAt j = keys.erase k := by
          simp [remove, found, last, keysAt]
        have here : index.keysAt j = keys := by simp [keysAt, found]
        rw [left, here, Finset.mem_erase]
        simp [and_comm]
    · have same : (index.remove i k).keysAt j = index.keysAt j := by
        by_cases last : keys.erase k = ∅ <;> simp [remove, found, last, keysAt, hit]
      rw [same]
      simp [hit]

/-- An addition leaves no empty set. -/
theorem Tight.add (tight : index.Tight) : (index.add i k).Tight := by
  intro j
  by_cases same : j = i
  · subst same
    simp [MultiIndex.add]
  · simpa [MultiIndex.add, same] using tight j

/-- A removal leaves no empty set. -/
theorem Tight.remove (tight : index.Tight) : (index.remove i k).Tight := by
  intro j
  unfold MultiIndex.remove
  split
  · exact tight j
  · next keys found =>
    by_cases same : j = i
    · subst same
      by_cases last : keys.erase k = ∅ <;> simp [last]
    · by_cases last : keys.erase k = ∅ <;> simpa [last, same] using tight j

/-- The keys after all additions. -/
theorem mem_keysAt_addAll :
    l ∈ (index.addAll values k).keysAt j ↔ l ∈ index.keysAt j ∨ l = k ∧ j ∈ values := by
  induction values generalizing index with
  | nil => simp [addAll]
  | cons i values ih =>
    have step : index.addAll (i :: values) k = (index.add i k).addAll values k := rfl
    rw [step, ih, mem_keysAt_add, List.mem_cons]
    tauto

/-- The keys after all removals. -/
theorem mem_keysAt_removeAll :
    l ∈ (index.removeAll values k).keysAt j ↔ l ∈ index.keysAt j ∧ ¬(l = k ∧ j ∈ values) := by
  induction values generalizing index with
  | nil => simp [removeAll]
  | cons i values ih =>
    have step : index.removeAll (i :: values) k = (index.remove i k).removeAll values k := rfl
    rw [step, ih, mem_keysAt_remove, List.mem_cons]
    tauto

/-- Additions leave no empty set. -/
theorem Tight.addAll (tight : index.Tight) : (index.addAll values k).Tight := by
  induction values generalizing index with
  | nil => exact tight
  | cons i values ih => exact ih tight.add

/-- Removals leave no empty set. -/
theorem Tight.removeAll (tight : index.Tight) : (index.removeAll values k).Tight := by
  induction values generalizing index with
  | nil => exact tight
  | cons i values ih => exact ih tight.remove

end MultiIndex

end CtrlMesh.Lib
