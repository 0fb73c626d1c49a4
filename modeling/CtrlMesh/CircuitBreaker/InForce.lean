import CtrlMesh.CircuitBreaker.Proto
import CtrlMesh.Lib.Assoc

/-!
# The rules in force

A proxy holds configurations by their names. A rule of one of them is stored under the names of its
configuration and its own, and of several rules of one name the last one counts. Both stores keep
rules this way, so the kind of rule is a parameter here: `rulesOf` are the rules of a configuration
and `nameOf` is the name of a rule.
-/

namespace CtrlMesh.CircuitBreaker

open Labels Lib

/-- Configurations are held under their names, which have no colon. -/
def Named (breakers : StringMap Config) : Prop :=
  ∀ name cb, breakers.lookup name = some cb → cb.name = name ∧ ':' ∉ name.toList

section

variable {ρ : Type} (rulesOf : Config → List ρ) (nameOf : ρ → String)

/-- The rule a configuration holds under a key: the last of that name. -/
def Config.lastAt (cb : Config) (key : String) : Option ρ :=
  (rulesOf cb).reverse.find? fun rule => ruleKey cb.name (nameOf rule) = key

/-- A configuration held has the rule under the key. -/
def Held (breakers : StringMap Config) (key : String) (rule : ρ) : Prop :=
  ∃ cb, breakers.lookup cb.name = some cb ∧ cb.lastAt rulesOf nameOf key = some rule

/-- A configuration of another name has the rule under the key. -/
def HeldElsewhere (breakers : StringMap Config) (name key : String) (rule : ρ) : Prop :=
  ∃ cb, cb.name ≠ name ∧ breakers.lookup cb.name = some cb ∧
    cb.lastAt rulesOf nameOf key = some rule

variable {rulesOf nameOf} {breakers : StringMap Config} {cb other config : Config}
  {name key : String} {rule : ρ}

/-- There are no configurations to start with. -/
theorem named_empty : Named ∅ := by
  intro name cb found
  simp at found

/-- A name without a colon may be added. -/
theorem Named.insert (named : Named breakers) (plain : ':' ∉ config.name.toList) :
    Named (breakers.insert config.name config) :=
  forall_lookup_insert named ⟨rfl, plain⟩

/-- Any name may go. -/
theorem Named.erase (named : Named breakers) (name : String) : Named (breakers.erase name) :=
  forall_lookup_erase named

/-- Every key under which a configuration holds a rule starts with its name. -/
theorem Config.key_of_lastAt (holds : cb.lastAt rulesOf nameOf key = some rule) :
    key = ruleKey cb.name (nameOf rule) := by
  have same : ruleKey cb.name (nameOf rule) = key := by simpa using List.find?_some holds
  exact same.symm

/-- No rule of the configuration has the key. -/
theorem Config.lastAt_none : cb.lastAt rulesOf nameOf key = none ↔
    ∀ rule ∈ rulesOf cb, key ≠ ruleKey cb.name (nameOf rule) := by
  rw [Config.lastAt, List.find?_eq_none]
  simp only [List.mem_reverse, decide_eq_true_eq]
  exact forall₂_congr fun rule _ => not_congr eq_comm

/-- Configurations of different names share no key. -/
theorem Config.lastAt_other (plain : ':' ∉ cb.name.toList) (plain' : ':' ∉ other.name.toList)
    (different : cb.name ≠ other.name) (holds : cb.lastAt rulesOf nameOf key = some rule) :
    other.lastAt rulesOf nameOf key = none := by
  rw [Config.lastAt_none]
  intro old _ same
  rw [Config.key_of_lastAt holds] at same
  exact different (ruleKey_inj plain plain' same).1

/-- What is held once a configuration replaces the one of its name. -/
theorem held_insert (named : Named breakers) (plain : ':' ∉ config.name.toList) :
    Held rulesOf nameOf (breakers.insert config.name config) key rule ↔
      config.lastAt rulesOf nameOf key = some rule ∨
        config.lastAt rulesOf nameOf key = none ∧
          HeldElsewhere rulesOf nameOf breakers config.name key rule := by
  constructor
  · rintro ⟨cb, found, holds⟩
    rcases lookup_insert_eq_some.mp found with ⟨-, rfl⟩ | ⟨different, old⟩
    · exact .inl holds
    · have free := Config.lastAt_other (named _ _ old).2 plain different holds
      exact .inr ⟨free, cb, different, old, holds⟩
  · rintro (holds | ⟨-, cb, different, found, holds⟩)
    · exact ⟨config, AList.lookup_insert _, holds⟩
    · exact ⟨cb, by rwa [AList.lookup_insert_ne different], holds⟩

/-- What is held once a configuration is withdrawn. -/
theorem held_erase : Held rulesOf nameOf (breakers.erase name) key rule ↔
    HeldElsewhere rulesOf nameOf breakers name key rule := by
  constructor
  · rintro ⟨cb, found, holds⟩
    obtain ⟨different, old⟩ := lookup_erase_eq_some.mp found
    exact ⟨cb, different, old, holds⟩
  · rintro ⟨cb, different, found, holds⟩
    exact ⟨cb, by rwa [AList.lookup_erase_ne different], holds⟩

/-- A rule held outside the configuration of a name is not under its keys. -/
theorem heldElsewhere_iff (named : Named breakers) (found : breakers.lookup cb.name = some cb) :
    HeldElsewhere rulesOf nameOf breakers cb.name key rule ↔
      (∀ old ∈ rulesOf cb, key ≠ ruleKey cb.name (nameOf old)) ∧
        Held rulesOf nameOf breakers key rule := by
  rw [← Config.lastAt_none]
  constructor
  · rintro ⟨other, different, here, holds⟩
    have plain := (named _ _ here).2
    exact ⟨Config.lastAt_other plain (named _ _ found).2 different holds, other, here, holds⟩
  · rintro ⟨free, other, here, holds⟩
    refine ⟨other, ?_, here, holds⟩
    intro same
    rw [same, found, Option.some.injEq] at here
    rw [← here, free] at holds
    cases holds

/-- While no configuration has the name, all rules are held outside it. -/
theorem heldElsewhere_of_unknown (unknown : breakers.lookup name = none) :
    HeldElsewhere rulesOf nameOf breakers name key rule ↔
      Held rulesOf nameOf breakers key rule := by
  constructor
  · exact fun ⟨other, _, here, holds⟩ => ⟨other, here, holds⟩
  · rintro ⟨other, here, holds⟩
    refine ⟨other, ?_, here, holds⟩
    intro same
    rw [same, unknown] at here
    cases here

end

end CtrlMesh.CircuitBreaker
