import CtrlMesh.Rollout.Upgrade

/-!
# The leader goes last

A lease is held under `<podName>_<suffix>`. The upgrade takes a pod for the leader if its name, or
its host name, starts this identity, so `app-1` is taken for the leader when `app-10` leads. It
spares every pod it takes for the leader as long as it has another one to delete, and deletes
whichever it came to last when it has not.
-/

namespace CtrlMesh.Rollout

open Labels Lib Api

variable {e : Expectations} {o : Outcomes} {identity suffix : String} {sts : StatefulSet}
  {pods : List Pod} {po leader : Pod}

/-- The identity under which a pod holds the lease. -/
def holderIdentity (leader : Pod) (suffix : String) : String := leader.name ++ "_" ++ suffix

/-- The name or the host name of the pod starts the identity. -/
def StartsIdentity (po : Pod) (identity : String) : Prop :=
  po.name.toList <+: identity.toList ∨
    ∃ host, po.labels.lookup hostnameLabel = some host ∧ host.toList <+: identity.toList

/-- The code compares the start of the identity. -/
theorem isLeader_iff : isLeader po identity = true ↔ StartsIdentity po identity := by
  unfold isLeader StartsIdentity
  cases po.labels.lookup hostnameLabel with
  | none => simp
  | some host => simp

/-- The holder is taken for the leader. -/
theorem isLeader_holder : isLeader leader (holderIdentity leader suffix) = true := by
  refine isLeader_iff.mpr (.inl ?_)
  simp [holderIdentity, List.append_assoc]

/-- The second loop of the upgrade has the pod as its leader at some point. -/
def TakenForLeader (e : Expectations) (o : Outcomes) (identity : String) (sts : StatefulSet)
    (pods : List Pod) (po : Pod) : Prop :=
  AtRest e sts pods ∧ ∃ visited rest, podsToDelete o sts pods = visited ++ rest ∧
    (removeAll o identity visited).leaderPo = some po

/-- Which pods are taken for the leader. -/
theorem takenForLeader_iff : TakenForLeader e o identity sts pods po ↔
    AtRest e sts pods ∧ po ∈ podsToDelete o sts pods ∧ isLeader po identity = true := by
  simp only [TakenForLeader, leaderPo_removeAll]
  refine and_congr_right fun _ => ?_
  constructor
  · rintro ⟨visited, rest, split, last⟩
    obtain ⟨member, leads⟩ := List.mem_filter.mp (List.mem_of_getLast? last)
    exact ⟨split ▸ List.mem_append_left rest member, leads⟩
  · rintro ⟨member, leads⟩
    obtain ⟨visited, rest, split⟩ := List.append_of_mem member
    refine ⟨visited ++ [po], rest, by simp [split], ?_⟩
    simp [List.filter_append, leads]

/-- The pod that holds the lease is deleted only when all others of the shard have been replaced,
and no other pod is taken for it. -/
structure LeaderLast (e : Expectations) (o : Outcomes) (sts : StatefulSet) (pods : List Pod)
    (leader : Pod) (suffix : String) : Prop where
  last : ∀ error,
    .delete leader error ∈
        (upgrade e o (some (holderIdentity leader suffix)) sts pods).effects →
      ∀ other ∈ pods, other ≠ leader → isUpdatedRevision sts other = true
  only : ∀ other, TakenForLeader e o (holderIdentity leader suffix) sts pods other →
    other = leader

/-- The leader goes last exactly if the identity starts with no other name among the pods to
delete. -/
theorem leaderLast_iff (e : Expectations) (o : Outcomes) (sts : StatefulSet) (pods : List Pod)
    (leader : Pod) (suffix : String) (distinct : (pods.map (·.name)).Nodup) :
    LeaderLast e o sts pods leader suffix ↔
      (AtRest e sts pods → ∀ other ∈ pods, isUpdatedRevision sts other = false →
        StartsIdentity other (holderIdentity leader suffix) → other = leader) := by
  constructor
  · intro holds rest other member outdated starts
    refine holds.only other (takenForLeader_iff.mpr ⟨rest, ?_, isLeader_iff.mpr starts⟩)
    exact (mem_podsToDelete_iff distinct).mpr ⟨member, outdated⟩
  · intro alone
    constructor
    · intro error deletes other member different
      have upgraded := upgraded_of_upgrade e o (some (holderIdentity leader suffix)) sts pods
      generalize (upgrade e o (some (holderIdentity leader suffix)) sts pods).finish = finish,
        (upgrade e o (some (holderIdentity leader suffix)) sts pods).effects = effects
        at upgraded deletes
      cases upgraded with
      | finishes => cases deletes
      | waits => cases deletes
      | replaces identity held rest some =>
        -- The pod that holds the lease is no follower of itself.
        cases held
        obtain ⟨follower, member, effect⟩ := List.mem_flatMap.mp deletes
        have follows := (List.mem_filter.mp member).2
        rw [← mem_removeEffects effect, isLeader_holder] at follows
        cases follows
      | replacesLeader identity last held rest none isLast =>
        cases held
        by_contra outdated
        rw [Bool.not_eq_true] at outdated
        have inMap := (mem_podsToDelete_iff (o := o) distinct).mpr ⟨member, outdated⟩
        have leads : isLeader other (holderIdentity leader suffix) = true := by
          simpa [followers] using List.filter_eq_nil_iff.mp none other inMap
        exact different (alone rest other member outdated (isLeader_iff.mp leads))
    · intro other taken
      obtain ⟨rest, member, leads⟩ := takenForLeader_iff.mp taken
      obtain ⟨inPods, outdated⟩ := outdated_of_mem member
      exact alone rest other inPods outdated (isLeader_iff.mp leads)

/-- With `app-1` as the leader, `app-0` goes first. -/
theorem leaderLast_app_one : LeaderLast ∅ calm (appSet 2)
    [appPod "shard" "app-0" "old", appPod "shard" "app-1" "old"] (appPod "shard" "app-1" "old")
    "4f2c" := by
  refine (leaderLast_iff _ _ _ _ _ _ (by decide)).mpr fun _ other member _ starts => ?_
  rcases List.mem_pair.mp member with rfl | rfl
  · cases isLeader_iff.mpr starts
  · rfl

/-- With `app-10` as the leader, `app-1` is taken for it too, and `app-10` goes when it is the last
the loop comes to. -/
theorem leader_goes_before_app_one :
    ¬∀ (e : Expectations) (o : Outcomes) (sts : StatefulSet) (pods : List Pod) (leader : Pod)
      (suffix : String), (pods.map (·.name)).Nodup → leader ∈ pods →
      isUpdatedRevision sts leader = false → LeaderLast e o sts pods leader suffix := by
  intro always
  have leaderLast := always ∅ calm (appSet 2)
    [appPod "shard" "app-1" "old", appPod "shard" "app-10" "old"] (appPod "shard" "app-10" "old")
    "4f2c" (by decide) (by simp) rfl
  have deletes : (upgrade ∅ calm (some (holderIdentity (appPod "shard" "app-10" "old") "4f2c"))
      (appSet 2) [appPod "shard" "app-1" "old", appPod "shard" "app-10" "old"]).effects =
        [.delete (appPod "shard" "app-10" "old") none] := rfl
  have updated := leaderLast.last none (by simp [deletes]) (appPod "shard" "app-1" "old") (by simp)
    (fun same => absurd (congrArg Pod.name same) (by decide))
  cases updated

end CtrlMesh.Rollout
