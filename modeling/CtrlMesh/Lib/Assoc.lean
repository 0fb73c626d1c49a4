import Mathlib.Data.List.AList
import Mathlib.Tactic.Common

/-!
# Looking up in association lists

What is found in an association list after entries have been inserted and erased, one by one or a
whole list of them.
-/

namespace CtrlMesh.Lib

variable {κ ρ : Type} [DecidableEq κ] {key : κ}

/-- What an insertion makes of any key. -/
theorem lookup_insert_ite (map : AList (fun _ : κ => ρ)) {other : κ} {value : ρ} :
    (map.insert key value).lookup other = if other = key then some value else map.lookup other := by
  by_cases same : other = key
  · subst same
    simp
  · simp [same, AList.lookup_insert_ne same]

/-- What an erasure makes of any key. -/
theorem lookup_erase_ite (map : AList (fun _ : κ => ρ)) (other : κ) :
    (map.erase key).lookup other = if other = key then none else map.lookup other := by
  by_cases same : other = key
  · subst same
    simp
  · simp [same, AList.lookup_erase_ne same]

section Entries

variable {map : AList (fun _ : κ => ρ)} {other : κ} {value found : ρ}

/-- Where an entry comes from after an insertion. -/
theorem lookup_insert_eq_some : (map.insert key value).lookup other = some found ↔
    other = key ∧ value = found ∨ other ≠ key ∧ map.lookup other = some found := by
  rw [lookup_insert_ite]
  split <;> simp [*]

/-- Which entries an erasure leaves. -/
theorem lookup_erase_eq_some : (map.erase key).lookup other = some found ↔
    other ≠ key ∧ map.lookup other = some found := by
  rw [lookup_erase_ite]
  split <;> simp [*]

variable {P : κ → ρ → Prop} (entries : ∀ k v, map.lookup k = some v → P k v)

include entries

/-- An insertion keeps what holds of every entry, if it holds of the new one. -/
theorem forall_lookup_insert (new : P key value) (k : κ) (v : ρ)
    (stored : (map.insert key value).lookup k = some v) : P k v := by
  rcases lookup_insert_eq_some.mp stored with ⟨rfl, rfl⟩ | ⟨-, old⟩
  · exact new
  · exact entries k v old

/-- An erasure keeps what holds of every entry. -/
theorem forall_lookup_erase (k : κ) (v : ρ) (stored : (map.erase key).lookup k = some v) :
    P k v :=
  entries k v (lookup_erase_eq_some.mp stored).2

end Entries

/-- The last of the elements entered under a key is found there. -/
theorem lookup_foldl_insert_of {α : Type} (keyOf : α → κ) (valueOf : α → ρ) (elements : List α)
    (key : κ) (map : AList (fun _ : κ => ρ)) :
    (elements.foldl (fun map a => map.insert (keyOf a) (valueOf a)) map).lookup key =
      ((elements.reverse.find? fun a => keyOf a = key).map valueOf).or (map.lookup key) := by
  induction elements generalizing map with
  | nil => simp
  | cons a elements ih =>
    rw [List.foldl_cons, ih, List.reverse_cons, List.find?_append]
    by_cases hit : keyOf a = key
    · subst hit
      cases elements.reverse.find? fun b => keyOf b = keyOf a with
      | none => simp
      | some b => simp
    · simp [hit, AList.lookup_insert_ne (Ne.symm hit)]

/-- Of several insertions under a key the last one counts. -/
theorem lookup_foldl_insert {keyOf : ρ → κ} {values : List ρ} (map : AList (fun _ : κ => ρ)) :
    (values.foldl (fun map value => map.insert (keyOf value) value) map).lookup key =
      (values.reverse.find? fun value => keyOf value = key).or (map.lookup key) := by
  have entered := lookup_foldl_insert_of keyOf id values key map
  rw [Option.map_id] at entered
  exact entered

/-- A map of values under their names. -/
def insertAll (nameOf : ρ → κ) (values : List ρ) : AList (fun _ : κ => ρ) :=
  values.foldl (fun map value => map.insert (nameOf value) value) ∅

section Named

variable {nameOf : ρ → κ} {values : List ρ} {name : κ} {value : ρ}

/-- Values of different names are all found. -/
theorem lookup_insertAll (distinct : (values.map nameOf).Nodup) :
    (insertAll nameOf values).lookup name = some value ↔
      value ∈ values ∧ nameOf value = name := by
  rw [insertAll, lookup_foldl_insert, AList.lookup_empty, Option.or_none]
  constructor
  · intro found
    exact ⟨List.mem_reverse.mp (List.mem_of_find?_eq_some found), by
      simpa using List.find?_some found⟩
  · rintro ⟨member, rfl⟩
    cases found : values.reverse.find? fun other => nameOf other = nameOf value with
    | none => simpa using List.find?_eq_none.mp found value (List.mem_reverse.mpr member)
    | some other =>
      have inside := List.mem_reverse.mp (List.mem_of_find?_eq_some found)
      have same : nameOf other = nameOf value := by simpa using List.find?_some found
      rw [List.inj_on_of_nodup_map distinct inside member same]

variable {map : AList (fun _ : κ => ρ)}
  (named : ∀ name value, map.lookup name = some value → nameOf value = name)
  (listed : values.Perm (map.entries.map (·.2)))

include named listed

/-- The values of a map that keeps them under their names. -/
theorem mem_values_iff : value ∈ values ↔ map.lookup (nameOf value) = some value := by
  rw [listed.mem_iff, List.mem_map]
  constructor
  · rintro ⟨⟨name, other⟩, member, rfl⟩
    have found := AList.mem_lookup_iff.mpr member
    rwa [named _ _ found]
  · exact fun found => ⟨⟨nameOf value, value⟩, AList.mem_lookup_iff.mp found, rfl⟩

/-- These values have different names. -/
theorem nodup_names : (values.map nameOf).Nodup := by
  rw [(listed.map nameOf).nodup_iff, List.map_map]
  have names : map.entries.map (nameOf ∘ (·.2)) = map.entries.keys :=
    List.map_congr_left fun entry member => named _ _ (AList.mem_lookup_iff.mpr member)
  rw [names]
  exact map.nodupKeys

/-- A map of these values is the same. -/
theorem lookup_values (name : κ) : (insertAll nameOf values).lookup name = map.lookup name := by
  ext value
  rw [lookup_insertAll (nodup_names named listed), mem_values_iff named listed]
  constructor
  · rintro ⟨found, rfl⟩
    exact found
  · intro found
    have same := named _ _ found
    exact ⟨same ▸ found, same⟩

end Named

/-- A loop of erasures keeps the entries of the other keys. -/
theorem lookup_foldl_erase {α : Type} {keyOf : α → κ} {elements : List α}
    (map : AList (fun _ : κ => ρ)) {value : ρ} :
    (elements.foldl (fun map old => map.erase (keyOf old)) map).lookup key = some value ↔
      (∀ old ∈ elements, key ≠ keyOf old) ∧ map.lookup key = some value := by
  induction elements generalizing map with
  | nil => simp
  | cons old elements ih =>
    rw [List.foldl_cons, ih, List.forall_mem_cons]
    by_cases hit : key = keyOf old
    · subst hit
      simp
    · simp [hit, AList.lookup_erase_ne hit]

/-- The entries of a map that pass a test, entered one after the other. -/
def insertSome (passes : κ → ρ → Bool) (entries : List (Sigma fun _ : κ => ρ))
    (map : AList (fun _ : κ => ρ)) : AList (fun _ : κ => ρ) :=
  entries.foldl (fun map entry =>
    if passes entry.1 entry.2 then map.insert entry.1 entry.2 else map) map

/-- The entries that pass stand before those of the map. -/
theorem lookup_insertSome {passes : κ → ρ → Bool} {entries : List (Sigma fun _ : κ => ρ)}
    (distinct : entries.NodupKeys) (map : AList (fun _ : κ => ρ)) :
    (insertSome passes entries map).lookup key =
      ((entries.dlookup key).filter (passes key)).or (map.lookup key) := by
  induction entries generalizing map with
  | nil => simp [insertSome]
  | cons entry entries ih =>
    obtain ⟨fresh, distinct⟩ := List.nodupKeys_cons.mp distinct
    have step : insertSome passes (entry :: entries) map =
        insertSome passes entries (if passes entry.1 entry.2 then map.insert entry.1 entry.2
          else map) := rfl
    rw [step, ih distinct]
    by_cases same : key = entry.1
    · have absent : entries.dlookup key = none := by
        rw [List.dlookup_eq_none, same]
        exact fresh
      rw [absent]
      subst same
      rw [List.dlookup_cons_eq]
      by_cases passed : passes entry.1 entry.2 = true <;> simp [passed, Option.filter]
    · rw [List.dlookup_cons_ne _ _ same]
      by_cases passed : passes entry.1 entry.2 = true <;> simp [passed, AList.lookup_insert_ne same]

end CtrlMesh.Lib
