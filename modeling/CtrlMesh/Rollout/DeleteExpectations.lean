import CtrlMesh.Lib.LastWrite
import CtrlMesh.Rollout.Upgrade

/-!
# Expected deletions over time

The steps of upgrades and the handler of Delete events share the expectations: a Record enters the
pod, its Delete event drops the entry, and an upgrade that finds an entry for one of its pods
deletes none. The entry is made after the deletion it is for, and not at all when the leader is
deleted. So a second upgrade on an old list of pods can delete again where only the leader was
left, and an event that comes before its Record leaves an entry that no event drops.
-/

namespace CtrlMesh.Rollout

open Labels Lib Api

/-- A step of an upgrade, or `podEventHandler.Delete`. -/
inductive Step where
  | upgrade (effect : Effect)
  | podDeleted (po : Pod)

/-- The effect of a step of the upgrade. -/
def Step.effect? : Step → Option Effect
  | .upgrade effect => some effect
  | .podDeleted _ => none

/-- What a step makes of the expectations. -/
def Expectations.step (e : Expectations) : Step → Expectations
  | .upgrade effect => e.apply effect
  | .podDeleted po => e.deleteExpectation (expectationKey po)

/-- The expectations after some steps. -/
def Expectations.after (e : Expectations) (steps : List Step) : Expectations :=
  steps.foldl Expectations.step e

variable {e : Expectations} {o : Outcomes} {holder : Option String} {sts : StatefulSet}
  {pods : List Pod} {po : Pod} {key : String} {steps : List Step}

/-- What a step makes of the entry under a key, if it touches it. -/
def written (key : String) : Step → Option (Option Expectation)
  | .upgrade (.record key' now) => if key = key' then some (some ⟨now, now⟩) else none
  | .podDeleted po => if key = expectationKey po then some none else none
  | .upgrade (.delete _ _) => none

/-- A step writes the entry or leaves it. -/
theorem lookup_step (e : Expectations) (step : Step) :
    (e.step step).lookup key = (written key step).getD (e.lookup key) := by
  cases step with
  | podDeleted po =>
    simp only [Expectations.step, Expectations.deleteExpectation, lookup_erase_ite, written]
    split <;> rfl
  | upgrade effect =>
    cases effect with
    | delete po error => rfl
    | record key' now =>
      simp only [Expectations.step, Expectations.apply, Expectations.record, lookup_insert_ite,
        written]
      split <;> rfl

/-- The entry under a key is what the last step that touched it made of it. -/
theorem lookup_after (e : Expectations) (steps : List Step) :
    (e.after steps).lookup key = lastWrite (written key) (e.lookup key) steps := by
  induction steps generalizing e with
  | nil => rfl
  | cons step steps ih =>
    rw [lastWrite_cons, ← lookup_step]
    exact ih (e.step step)

/-- A record is there as long as no event for it comes. -/
theorem isSome_after (e : Expectations) {now : Int} (recorded : .upgrade (.record key now) ∈ steps)
    (unheard : ∀ po, .podDeleted po ∈ steps → expectationKey po ≠ key) :
    ((e.after steps).lookup key).isSome = true := by
  rw [lookup_after]
  apply lastWrite_of_forall fun entry : Option Expectation => entry.isSome = true
  · intro step member entry writes
    cases step with
    | podDeleted po => simp [written, (unheard po member).symm] at writes
    | upgrade effect =>
      cases effect with
      | delete po error => cases writes
      | record key' now =>
        simp only [written] at writes
        split at writes
        · cases writes
          rfl
        · cases writes
  · exact .inr ⟨_, recorded, by simp [written]⟩

/-- The second loop records a deletion right after it. -/
theorem record_of_split {done left : List Effect}
    (split : pods.flatMap (removeEffects o) = done ++ .delete po none :: left) :
    .record (expectationKey po) o.now ∈ left := by
  induction pods generalizing done with
  | nil => simp at split
  | cons head pods ih =>
    rw [List.flatMap_cons] at split
    cases fails : o.delete head.key with
    | some error =>
      rw [removeEffects, fails] at split
      cases done with
      | nil => simp at split
      | cons effect done =>
        injection split with _ split
        exact ih split
    | none =>
      rw [removeEffects, fails] at split
      cases done with
      | nil =>
        injection split with same split
        cases same
        rw [← split]
        exact List.mem_cons_self
      | cons effect done =>
        injection split with _ split
        cases done with
        | nil => cases split
        | cons effect done =>
          injection split with _ split
          exact ih split

/-- Until the Delete event of the deleted pod is handled, an upgrade on the same pods deletes none.
-/
def NoSecondDelete (e : Expectations) (o : Outcomes) (holder : Option String) (sts : StatefulSet)
    (pods : List Pod) (po : Pod) : Prop :=
  ∀ done left before after,
    (upgrade e o holder sts pods).effects = done ++ .delete po none :: left →
    (done.map Step.upgrade).Sublist before → (left.map Step.upgrade).Sublist after →
    (∀ other, .podDeleted other ∈ after → expectationKey other ≠ expectationKey po) →
    ∀ o' holder' sts' other error, .delete other error ∉
      (upgrade (e.after (before ++ .upgrade (.delete po none) :: after)) o' holder' sts'
        pods).effects

/-- A pod that is expected to go holds up its shard. -/
theorem effects_eq_nil_of_expected (member : po ∈ pods)
    (expected : (e.lookup (expectationKey po)).isSome = true) :
    (upgrade e o holder sts pods).effects = [] := by
  rw [upgrade_waits]
  intro rest
  have stays := List.any_eq_false.mp rest.stay po member
  simp [isTerminating, expected] at stays

/-- Steps are taken one after the other. -/
theorem after_append (before : List Step) (step : Step) (after : List Step) :
    e.after (before ++ step :: after) = ((e.after before).step step).after after := by
  simp [Expectations.after]

/-- There is no second deletion exactly if the first upgrade had an outdated pod that it did not
take for the leader. -/
theorem noSecondDelete_iff (e : Expectations) (o : Outcomes) (holder : Option String)
    (sts : StatefulSet) (pods : List Pod) (po : Pod)
    (deletes : .delete po none ∈ (upgrade e o holder sts pods).effects) :
    NoSecondDelete e o holder sts pods po ↔
      ∃ identity ∈ holder, ∃ other, LastOutdated sts pods other ∧
        isLeader other identity = false := by
  have upgraded := upgraded_of_upgrade e o holder sts pods
  have inPods := (outdated_of_delete deletes).1
  unfold NoSecondDelete
  generalize (upgrade e o holder sts pods).finish = finish,
    effects_eq : (upgrade e o holder sts pods).effects = effects at upgraded deletes
  cases upgraded with
  | finishes => cases deletes
  | waits => cases deletes
  | replaces identity held rest some =>
    obtain ⟨follower, member⟩ := List.exists_mem_of_ne_nil _ some
    obtain ⟨inMap, follows⟩ := List.mem_filter.mp member
    refine iff_of_true ?_ ⟨identity, held, follower, mem_podsToDelete_iff_last.mp inMap,
      by simpa using follows⟩
    intro done left before after split _ interleaved unheard o' holder' sts' other error
    have recorded := interleaved.mem (List.mem_map_of_mem (record_of_split split))
    rw [effects_eq_nil_of_expected inPods]
    · exact List.not_mem_nil
    · rw [after_append]
      exact isSome_after _ recorded unheard
  | replacesLeader identity last held rest none isLast =>
    obtain ⟨rfl, succeeds⟩ : po = last ∧ Option.none = o.delete last.key := by simpa using deletes
    refine iff_of_false ?_ ?_
    · intro safe
      -- The store is as it was, so the same call deletes again.
      refine safe [] [] [] [] (by rw [succeeds]; rfl) (.refl _) (.refl _) (by simp) o holder sts po
        Option.none ?_
      have same : e.after ([] ++ .upgrade (.delete po Option.none) :: []) = e := rfl
      rw [same, effects_eq]
      exact deletes
    · rintro ⟨identity', held', other, outdated, follows⟩
      rw [Option.mem_def, held] at held'
      cases held'
      have leads := List.filter_eq_nil_iff.mp none other (mem_podsToDelete_iff_last.mpr outdated)
      simp [follows] at leads

/-- `app-0` is deleted while `app-1` leads. -/
theorem noSecondDelete_app_zero :
    NoSecondDelete ∅ calm (some "app-1_4f2c") (appSet 2)
      [appPod "shard" "app-0" "old", appPod "shard" "app-1" "old"]
      (appPod "shard" "app-0" "old") := by
  have effects : (upgrade ∅ calm (some "app-1_4f2c") (appSet 2)
      [appPod "shard" "app-0" "old", appPod "shard" "app-1" "old"]).effects =
        [.delete (appPod "shard" "app-0" "old") none, .record "ns/app-0" 0] := rfl
  refine (noSecondDelete_iff _ _ _ _ _ _ (by simp [effects])).mpr ?_
  refine ⟨"app-1_4f2c", rfl, appPod "shard" "app-0" "old", ⟨rfl, [], _, rfl, ?_⟩, rfl⟩
  intro later member _
  rw [List.mem_singleton.mp member]
  decide

/-- The leader is the last pod of its shard to go, and is deleted twice. -/
theorem leader_deleted_twice :
    ¬∀ (e : Expectations) (o : Outcomes) (holder : Option String) (sts : StatefulSet)
      (pods : List Pod) (po : Pod), .delete po none ∈ (upgrade e o holder sts pods).effects →
      NoSecondDelete e o holder sts pods po := by
  intro always
  have effects : (upgrade ∅ calm (some "app-0_4f2c") (appSet 1)
      [appPod "shard" "app-0" "old"]).effects =
        [.delete (appPod "shard" "app-0" "old") none] := rfl
  have safe := always ∅ calm (some "app-0_4f2c") (appSet 1) [appPod "shard" "app-0" "old"]
    (appPod "shard" "app-0" "old") (by simp [effects])
  refine safe [] [] [] [] effects (.refl _) (.refl _) (by simp) calm (some "app-0_4f2c") (appSet 1)
    (appPod "shard" "app-0" "old") none ?_
  rw [show Expectations.after ∅ ([] ++ .upgrade (.delete (appPod "shard" "app-0" "old") none) :: [])
    = ∅ from rfl, effects]
  exact List.mem_singleton_self _

/-- The steps of an upgrade that deletes the pod, among Delete events: the last event for the pod
comes between `before` and `after`, once the pod has been deleted. -/
structure Interleaved (e : Expectations) (o : Outcomes) (holder : Option String)
    (sts : StatefulSet) (pods : List Pod) (po : Pod) (before after : List Step) : Prop where
  steps : (before ++ after).filterMap Step.effect? = (upgrade e o holder sts pods).effects
  deleted : .upgrade (.delete po none) ∈ before
  last : ∀ other, .podDeleted other ∈ after → expectationKey other ≠ expectationKey po

/-- The expectation is released exactly if the event does not come before its Record. -/
theorem released_iff (e : Expectations) (o : Outcomes) (holder : Option String) (sts : StatefulSet)
    (pods : List Pod) (po : Pod) (before after : List Step)
    (interleaved : Interleaved e o holder sts pods po before after) :
    (e.after (before ++ .podDeleted po :: after)).lookup (expectationKey po) = none ↔
      ∀ now, .upgrade (.record (expectationKey po) now) ∉ after := by
  constructor
  · intro released now recorded
    have kept := isSome_after ((e.after before).step (.podDeleted po)) recorded interleaved.last
    rw [← after_append, released] at kept
    cases kept
  · intro unrecorded
    rw [after_append, lookup_after, lastWrite_of_none]
    · rw [lookup_step]
      simp [written]
    · intro step member
      cases step with
      | podDeleted other => simp [written, (interleaved.last other member).symm]
      | upgrade effect =>
        cases effect with
        | delete other error => rfl
        | record key now =>
          have different : expectationKey po ≠ key := by
            rintro rfl
            exact unrecorded now member
          simp [written, different]

/-- The event comes after the Record. -/
theorem released_app_zero :
    (Expectations.after ∅ ([.upgrade (.delete (appPod "shard" "app-0" "old") none),
      .upgrade (.record "ns/app-0" 0)] ++ .podDeleted (appPod "shard" "app-0" "old") :: [])).lookup
        (expectationKey (appPod "shard" "app-0" "old")) = none := by
  refine (released_iff ∅ calm (some "app-1_4f2c") (appSet 2)
    [appPod "shard" "app-0" "old", appPod "shard" "app-1" "old"] _ _ _ ⟨rfl, ?_, ?_⟩).mpr ?_
  · exact List.mem_cons_self
  · simp
  · simp

/-- The event comes between the deletion and the Record, and the entry stays. -/
theorem record_after_event :
    ¬∀ (e : Expectations) (o : Outcomes) (holder : Option String) (sts : StatefulSet)
      (pods : List Pod) (po : Pod) (before after : List Step),
      Interleaved e o holder sts pods po before after →
      (e.after (before ++ .podDeleted po :: after)).lookup (expectationKey po) = none := by
  intro always
  have released := always ∅ calm (some "app-1_4f2c") (appSet 2)
    [appPod "shard" "app-0" "old", appPod "shard" "app-1" "old"] (appPod "shard" "app-0" "old")
    [.upgrade (.delete (appPod "shard" "app-0" "old") none)] [.upgrade (.record "ns/app-0" 0)]
    ⟨rfl, List.mem_cons_self, by simp⟩
  cases released

end CtrlMesh.Rollout
