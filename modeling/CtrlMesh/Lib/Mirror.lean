import CtrlMesh.Lib.Assoc

/-!
# A map kept in step with what is held under names

Holders are known by names, and each of them contributes entries to one map. Every key is owned by
one name. When a holder is withdrawn its keys are cleared, and when it is replaced the entries of
the new one take their place, so at any time the map has what the present holders contribute and
nothing of the earlier ones.
-/

namespace CtrlMesh.Lib

variable {ω κ γ ρ : Type} [DecidableEq ω] [DecidableEq κ]

/-- The map has a key only if the holder of the key's owner lists it. -/
def Covers (owner : κ → ω) (lists : γ → κ → Prop) (held : AList (fun _ : ω => γ))
    (map : AList (fun _ : κ => ρ)) : Prop :=
  ∀ key value, map.lookup key = some value →
    ∃ holder, held.lookup (owner key) = some holder ∧ lists holder key

namespace Covers

variable {owner : κ → ω} {lists : γ → κ → Prop} {held : AList (fun _ : ω => γ)}
  {map map' : AList (fun _ : κ => ρ)} {name : ω} {holder : γ}

/-- Nothing is entered. -/
protected theorem empty : Covers owner lists held (∅ : AList (fun _ : κ => ρ)) := by
  intro key value found
  simp at found

section

variable (covers : Covers owner lists held map)

include covers

/-- A name that nothing is held under owns no key of the map. -/
theorem lookup_unknown (unknown : held.lookup name = none) {key : κ} :
    map.lookup key = if owner key = name then none else map.lookup key := by
  split
  · next owned =>
    rw [Option.eq_none_iff_forall_ne_some]
    intro value found
    obtain ⟨holder, holds, -⟩ := covers key value found
    rw [owned, unknown] at holds
    cases holds
  · rfl

/-- Erasing the keys that a holder lists clears its name. -/
theorem lookup_erased (found : held.lookup name = some holder) {keys : List κ}
    (owned : ∀ key ∈ keys, owner key = name) (complete : ∀ key, lists holder key → key ∈ keys)
    (key : κ) : (keys.foldl (fun map key => map.erase key) map).lookup key =
      if owner key = name then none else map.lookup key := by
  apply Option.ext
  intro value
  rw [lookup_foldl_erase map]
  split
  · next mine =>
    simp only [reduceCtorEq, iff_false, not_and]
    intro unlisted stored
    obtain ⟨other, holds, listed⟩ := covers key value stored
    rw [mine, found] at holds
    cases holds
    exact unlisted key (complete key listed) rfl
  · next other =>
    refine and_iff_right ?_
    intro listed inside same
    exact other (same ▸ owned listed inside)

/-- The holder of a name is withdrawn. -/
theorem withdraw
    (cleared : ∀ key, map'.lookup key = if owner key = name then none else map.lookup key) :
    Covers owner lists (held.erase name) map' := by
  intro key value found
  rw [cleared] at found
  rw [lookup_erase_ite]
  split at found
  · cases found
  · next other =>
    rw [if_neg other]
    exact covers key value found

/-- A holder takes a name over, with no key entered yet. -/
theorem replace
    (cleared : ∀ key, map'.lookup key = if owner key = name then none else map.lookup key) :
    Covers owner lists (held.insert name holder) map' := by
  intro key value found
  rw [cleared] at found
  rw [lookup_insert_ite]
  split at found
  · cases found
  · next other =>
    rw [if_neg other]
    exact covers key value found

/-- A holder enters a key it lists. -/
theorem enter {key : κ} (found : held.lookup (owner key) = some holder) (listed : lists holder key)
    (value : ρ) : Covers owner lists held (map.insert key value) := by
  exact forall_lookup_insert covers ⟨holder, found, listed⟩

end

end Covers

/-- Under each key the map has what the holder of the key's owner contributes. -/
def Mirrors (owner : κ → ω) (entry : γ → κ → Option ρ) (held : AList (fun _ : ω => γ))
    (map : AList (fun _ : κ => ρ)) : Prop :=
  ∀ key, map.lookup key = (held.lookup (owner key)).bind (entry · key)

namespace Mirrors

variable {owner : κ → ω} {entry : γ → κ → Option ρ} {held held' : AList (fun _ : ω => γ)}
  {map map' : AList (fun _ : κ => ρ)} {name : ω} {holder : γ}

/-- Nothing is held and nothing entered. -/
protected theorem empty : Mirrors owner entry ∅ ∅ := by
  intro key
  simp

section

variable (mirrors : Mirrors owner entry held map)

include mirrors

/-- A mirror covers what is listed. -/
theorem covers {lists : γ → κ → Prop}
    (contributed : ∀ holder key value, entry holder key = some value → lists holder key) :
    Covers owner lists held map := by
  intro key value found
  rw [mirrors, Option.bind_eq_some_iff] at found
  obtain ⟨holder, holds, contributes⟩ := found
  exact ⟨holder, holds, contributed holder key value contributes⟩

/-- The holder of a name is withdrawn. -/
theorem withdraw
    (cleared : ∀ key, map'.lookup key = if owner key = name then none else map.lookup key) :
    Mirrors owner entry (held.erase name) map' := by
  intro key
  rw [cleared, lookup_erase_ite]
  split
  · rfl
  · exact mirrors key

/-- A holder takes a name over. -/
theorem replace (replaced : ∀ key, map'.lookup key =
      if owner key = name then entry holder key else map.lookup key) :
    Mirrors owner entry (held.insert name holder) map' := by
  intro key
  rw [replaced, lookup_insert_ite]
  split
  · rfl
  · exact mirrors key

/-- Maps that mirror the same holders have the same entries. -/
theorem perm (mirrors' : Mirrors owner entry held' map')
    (same : ∀ name, held.lookup name = held'.lookup name) : map.entries.Perm map'.entries := by
  have lookups : ∀ key, map.lookup key = map'.lookup key := by
    intro key
    rw [mirrors, mirrors', same]
  apply List.lookup_ext map.nodupKeys map'.nodupKeys
  intro key value
  have equal : map.entries.dlookup key = map'.entries.dlookup key := lookups key
  rw [equal]

end

end Mirrors

end CtrlMesh.Lib
