import Mathlib.Data.List.Nodup

/-!
# Keyed collections

A collection of objects no two of which share a key, in some order. The order is what a listing
returns; everything else is said through `find`.
-/

namespace CtrlMesh.Lib

/-- Objects with pairwise distinct keys. -/
structure Registry {α κ : Type} (key : α → κ) where
  items : List α
  distinct : (items.map key).Nodup

namespace Registry

variable {α κ : Type} {key : α → κ} {k j : κ} {item x : α}

/-- The registry of no objects. -/
def empty (key : α → κ) : Registry key := ⟨[], List.nodup_nil⟩

/-- Another form of the objects, under the same keys. -/
def map {β : Type} {key' : β → κ} (registry : Registry key) (f : α → β)
    (keyed : ∀ item, key' (f item) = key item) : Registry key' where
  items := registry.items.map f
  distinct := by
    have same : key' ∘ f = key := funext keyed
    rw [List.map_map, same]
    exact registry.distinct

/-- The objects determine the registry. -/
theorem ext {left right : Registry key} (same : left.items = right.items) : left = right := by
  cases left
  cases right
  cases same
  rfl

variable [DecidableEq κ]

/-- The object under a key. -/
def find (registry : Registry key) (k : κ) : Option α :=
  registry.items.find? fun item => key item = k

/-- Remove the object under a key. -/
def erase (registry : Registry key) (k : κ) : Registry key where
  items := registry.items.filter fun item => key item ≠ k
  distinct := by
    refine registry.distinct.sublist ?_
    exact List.filter_sublist.map key

/-- Replace the object under its key, or append it when the key is free. -/
def put (registry : Registry key) (item : α) : Registry key where
  items := if registry.find (key item) = none then registry.items ++ [item] else
    registry.items.map fun other => if key other = key item then item else other
  distinct := by
    split
    · next free =>
      rw [List.map_append, List.nodup_append]
      refine ⟨registry.distinct, by simp, ?_⟩
      intro k inside j last same
      obtain ⟨other, member, rfl⟩ := List.mem_map.mp inside
      rw [find, List.find?_eq_none] at free
      have : j = key item := by simpa using last
      exact free other member (by simpa using same.trans this)
    · rw [List.map_map]
      have keys : key ∘ (fun other => if key other = key item then item else other) = key := by
        funext other
        by_cases same : key other = key item <;> simp [same]
      rw [keys]
      exact registry.distinct

variable {registry : Registry key}

/-- What is found is stored under its key. -/
theorem find_some (found : registry.find k = some item) : item ∈ registry.items ∧ key item = k :=
  ⟨List.mem_of_find?_eq_some found, by simpa using List.find?_some found⟩

/-- An object is listed exactly when it is found under its key. -/
theorem mem_iff_find : item ∈ registry.items ↔ registry.find (key item) = some item := by
  constructor
  · intro member
    cases found : registry.find (key item) with
    | none => exact absurd (List.find?_eq_none.mp found item member) (by simp)
    | some other =>
      obtain ⟨inside, same⟩ := find_some found
      exact congrArg some (List.inj_on_of_nodup_map registry.distinct inside member same)
  · exact fun found => (find_some found).1

/-- An erased key is not found. -/
theorem find_erase_self : (registry.erase k).find k = none := by
  rw [find, List.find?_eq_none]
  intro item member
  simpa using (List.mem_filter.mp member).2

/-- An erasure leaves other keys alone. -/
theorem find_erase_of_ne (other : j ≠ k) : (registry.erase k).find j = registry.find j := by
  simp only [find, erase, List.find?_filter]
  congr 1
  funext item
  by_cases same : key item = j <;> simp [same, other]

/-- A stored object is found. -/
theorem find_put_self (registry : Registry key) :
    (registry.put item).find (key item) = some item := by
  refine mem_iff_find.mp ?_
  by_cases free : registry.find (key item) = none
  · simp [put, free]
  · obtain ⟨other, found⟩ := Option.ne_none_iff_exists'.mp free
    obtain ⟨member, same⟩ := find_some found
    simp only [put, free, if_false, List.mem_map]
    exact ⟨other, member, by rw [if_pos same]⟩

/-- A store leaves other keys alone. -/
theorem find_put_of_ne (registry : Registry key) (other : j ≠ key item) :
    (registry.put item).find j = registry.find j := by
  by_cases free : registry.find (key item) = none
  · have items : (registry.put item).items = registry.items ++ [item] := if_pos free
    rw [find, items, List.find?_append]
    simp [find, Ne.symm other]
  · have items : (registry.put item).items =
        registry.items.map fun x => if key x = key item then item else x := if_neg free
    have same : ((fun x => decide (key x = j)) ∘
        fun x => if key x = key item then item else x) = fun x => decide (key x = j) := by
      funext x
      by_cases hit : key x = key item <;> simp [hit, Ne.symm other]
    rw [find, items, List.find?_map, same]
    change Option.map _ (registry.find j) = registry.find j
    cases found : registry.find j with
    | none => rfl
    | some x => simp [(find_some found).2, other]

/-- The objects after a store. -/
theorem mem_put :
    x ∈ (registry.put item).items ↔ x = item ∨ x ∈ registry.items ∧ key x ≠ key item := by
  rw [mem_iff_find]
  by_cases same : key x = key item
  · rw [same, find_put_self, Option.some.injEq]
    simp [eq_comm]
  · have differs : x ≠ item := fun equal => same (congrArg key equal)
    rw [find_put_of_ne registry same, ← mem_iff_find]
    simp [same, differs]

/-- The objects after an erasure. -/
theorem mem_erase : x ∈ (registry.erase k).items ↔ x ∈ registry.items ∧ key x ≠ k := by
  simp [erase, List.mem_filter]

omit [DecidableEq κ] in
/-- A key has one object. -/
theorem eq_of_key_eq {y : α} (member : x ∈ registry.items) (member' : y ∈ registry.items)
    (same : key x = key y) : x = y :=
  List.inj_on_of_nodup_map registry.distinct member member' same

section Map

variable {β : Type} {key' : β → κ} (registry : Registry key) {f : α → β}
  (keyed : ∀ item, key' (f item) = key item)

/-- A view finds the view of what is found. -/
theorem find_map (k : κ) : (registry.map f keyed).find k = (registry.find k).map f := by
  have same : (fun item => decide (key' item = k)) ∘ f = fun item => decide (key item = k) := by
    funext item
    simp [keyed]
  rw [find, map, List.find?_map, same]
  rfl

/-- A view of a store is a store of the view. -/
theorem map_put (item : α) :
    (registry.put item).map f keyed = (registry.map f keyed).put (f item) := by
  have found := find_map registry keyed (key item)
  apply ext
  change (registry.put item).items.map f = _
  by_cases free : registry.find (key item) = none
  · have free' : (registry.map f keyed).find (key' (f item)) = none := by
      rw [keyed, found, free, Option.map_none]
    have items : (registry.put item).items = registry.items ++ [item] := if_pos free
    have items' : ((registry.map f keyed).put (f item)).items = registry.items.map f ++ [f item] :=
      if_pos free'
    rw [items, items', List.map_append]
    rfl
  · have taken : (registry.map f keyed).find (key' (f item)) ≠ none := by
      rw [keyed, found]
      simpa using free
    have items : (registry.put item).items =
        registry.items.map fun other => if key other = key item then item else other := if_neg free
    have items' : ((registry.map f keyed).put (f item)).items = (registry.items.map f).map
        fun other => if key' other = key' (f item) then f item else other := if_neg taken
    rw [items, items', List.map_map, List.map_map]
    refine List.map_congr_left fun other _ => ?_
    simp only [Function.comp_apply, keyed]
    split <;> rfl

/-- A view of an erasure is an erasure of the view. -/
theorem map_erase (k : κ) : (registry.erase k).map f keyed = (registry.map f keyed).erase k := by
  apply ext
  change List.map f (List.filter _ _) = List.filter _ (List.map f _)
  rw [List.filter_map]
  congr 2
  funext item
  simp [keyed]

end Map

/-- A store loses no key. -/
theorem isSome_find_put (found : (registry.find j).isSome) :
    ((registry.put item).find j).isSome := by
  by_cases same : j = key item
  · subst same
    rw [find_put_self]
    rfl
  · rwa [find_put_of_ne registry same]

end Registry

end CtrlMesh.Lib
