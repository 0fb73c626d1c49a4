import CtrlMesh.Proxy.SpecManager
import Mathlib.Data.List.Induction

/-!
# What a proxy reports of its load state

`GetStatus` gives three signs of whether the last specification is in use: the hashes of the
expected and the current one, and the reason why a specification was not loaded. A specification is
refused for its shard name or for its hash, but only the latter shows in the hashes; and the reason
of a refusal stays when a later specification is loaded.
-/

namespace CtrlMesh.Proxy

open Api

/-- The specification manager after a sequence of calls of `UpdateSpec`. -/
def received (specs : List ProxySpec) : SpecManager := specs.foldl SpecManager.updateSpec .new

/-- What `checkLoadable` compares. -/
def Agrees (current spec : ProxySpec) : Prop :=
  current.shardName = spec.shardName ∧ current.hash = spec.hash

instance (current spec : ProxySpec) : Decidable (Agrees current spec) :=
  inferInstanceAs (Decidable (_ ∧ _))

/-- The signs of a status agree: the last specification is the one in use, the hashes are equal, and
there is no reason against it. -/
def Truthful (sm : SpecManager) (last : ProxySpec) : Prop :=
  ∀ status ∈ sm.getStatus, ∀ metaState ∈ status.metaState,
    (sm.currentSpec = some last ↔ metaState.expectedHash = metaState.currentHash) ∧
      (sm.currentSpec = some last ↔ metaState.hashUnloadReason = "")

namespace SpecManager

variable {sm : SpecManager} {current spec : ProxySpec}

theorem updateSpec_of_agrees (held : sm.currentSpec = some current) (agrees : Agrees current spec) :
    sm.updateSpec spec = { sm with expectedSpec := some spec, currentSpec := some spec } := by
  simp [updateSpec, checkLoadable, held, agrees.1, agrees.2]

/-- A refused specification is only expected, and its refusal has a reason. -/
theorem updateSpec_of_not_agrees (held : sm.currentSpec = some current)
    (differs : ¬Agrees current spec) : ∃ reason ≠ "",
      sm.updateSpec spec = { sm with expectedSpec := some spec, unloadReason := reason } := by
  by_cases shard : current.shardName = spec.shardName
  · have hash : current.hash ≠ spec.hash := fun same => differs ⟨shard, same⟩
    refine ⟨"SpecHase changed from " ++ current.hash ++ " to " ++ spec.hash, ?_, ?_⟩
    · simp
    · simp [updateSpec, checkLoadable, held, shard, hash]
  · refine ⟨"ShardingConfig changed from " ++ current.shardName ++ " to " ++ spec.shardName, ?_, ?_⟩
    · simp
    · simp [updateSpec, checkLoadable, held, shard]

end SpecManager

/-- The state after a first specification, further ones, and the last of all. -/
structure Followed (first : ProxySpec) (later : List ProxySpec) (last : ProxySpec)
    (sm : SpecManager) : Prop where
  current : ∃ current, sm.currentSpec = some current ∧ Agrees first current
  expected : sm.expectedSpec = some last
  loaded : sm.currentSpec = some last ↔ Agrees first last
  reason : sm.unloadReason = "" ↔ ∀ spec ∈ later, Agrees first spec

variable {first last : ProxySpec} {later : List ProxySpec} {sm : SpecManager}

theorem Agrees.trans {second third : ProxySpec} (left : Agrees first second) :
    Agrees second third ↔ Agrees first third := by
  rw [Agrees, Agrees, left.1, left.2]

theorem followed_first : Followed first [] first (SpecManager.new.updateSpec first) :=
  ⟨⟨first, rfl, rfl, rfl⟩, rfl, iff_of_true rfl ⟨rfl, rfl⟩, iff_of_true rfl nofun⟩

theorem Followed.updateSpec (followed : Followed first later last sm) (spec : ProxySpec) :
    Followed first (later ++ [spec]) spec (sm.updateSpec spec) := by
  obtain ⟨current, held, same⟩ := followed.current
  have every : (∀ spec' ∈ later ++ [spec], Agrees first spec') ↔
      sm.unloadReason = "" ∧ Agrees first spec := by
    rw [List.forall_mem_append, followed.reason, List.forall_mem_singleton]
  by_cases agrees : Agrees current spec
  · have fits : Agrees first spec := same.trans.mp agrees
    rw [SpecManager.updateSpec_of_agrees held agrees]
    refine ⟨⟨spec, rfl, fits⟩, rfl, iff_of_true rfl fits, ?_⟩
    rw [every]
    exact (and_iff_left fits).symm
  · have differs : ¬Agrees first spec := fun fits => agrees (same.trans.mpr fits)
    obtain ⟨reason, given, updated⟩ := SpecManager.updateSpec_of_not_agrees held agrees
    rw [updated]
    refine ⟨⟨current, held, same⟩, rfl, iff_of_false (fun loaded => ?_) differs, ?_⟩
    · rw [held, Option.some.injEq] at loaded
      exact differs (loaded ▸ same)
    · rw [every]
      exact iff_of_false given fun both => differs both.2

theorem followed_received :
    Followed first later (later.getLast?.getD first) (received (first :: later)) := by
  induction later using List.reverseRecOn with
  | nil => exact followed_first
  | append_singleton later spec ih =>
    have next := ih.updateSpec spec
    simpa [received] using next

/-- What the status shows, in terms of the first specification. -/
theorem Followed.truthful_iff (followed : Followed first later last sm) : Truthful sm last ↔
      (Agrees first last ↔ first.hash = last.hash) ∧
        (Agrees first last ↔ ∀ spec ∈ later, Agrees first spec) := by
  obtain ⟨current, held, same⟩ := followed.current
  have reported : sm.getStatus =
      some ⟨none, some ⟨last.hash, current.hash, sm.unloadReason⟩, sm.leaderElectionState⟩ := by
    simp [SpecManager.getStatus, held, followed.expected]
  have hashes : last.hash = current.hash ↔ first.hash = last.hash := by
    rw [← same.2]
    exact eq_comm
  simp only [Truthful, reported, Option.mem_def, Option.some.injEq, forall_eq', followed.loaded,
    followed.reason, hashes]

/-- The signs agree exactly when no specification so far differs from the first one, or the last one
differs from it in its hash. -/
theorem truthful_received_iff (first : ProxySpec) (later : List ProxySpec) :
    Truthful (received (first :: later)) (later.getLast?.getD first) ↔
      (∀ spec ∈ later, first.shardName = spec.shardName ∧ first.hash = spec.hash) ∨
        first.hash ≠ (later.getLast?.getD first).hash := by
  have last : (∀ spec ∈ later, Agrees first spec) → Agrees first (later.getLast?.getD first) := by
    intro all
    cases found : later.getLast? with
    | none => exact ⟨rfl, rfl⟩
    | some last => exact all last (List.mem_of_getLast? found)
  rw [(followed_received).truthful_iff]
  change _ ↔ (∀ spec ∈ later, Agrees first spec) ∨ _
  have hash : Agrees first (later.getLast?.getD first) →
      first.hash = (later.getLast?.getD first).hash := And.right
  tauto

/-- A specification of another shard with the same hash is refused, and the hashes do not show
it. -/
theorem same_hash_not_loaded :
    ¬∀ (first : ProxySpec) (later : List ProxySpec),
      Truthful (received (first :: later)) (later.getLast?.getD first) := by
  intro truthful
  have signs := truthful ⟨some ⟨"shard-a", "hash"⟩, [], []⟩ [⟨some ⟨"shard-b", "hash"⟩, [], []⟩]
  have ⟨hashes, _⟩ := (followed_received).truthful_iff.mp signs
  exact absurd (hashes.mpr rfl) (by decide)

end CtrlMesh.Proxy
