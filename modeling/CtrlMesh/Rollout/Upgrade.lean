import CtrlMesh.Lib.Assoc
import CtrlMesh.Rollout.Controller

/-!
# What an upgrade of a shard does

An upgrade finishes when every pod of the shard stands at the new revision, waits while one is on
its way, and otherwise deletes outdated pods: those that are not taken for the leader, or, if all of
them are, the one the loop came to last.
-/

namespace CtrlMesh.Rollout

open Labels Lib Api

variable {e : Expectations} {o : Outcomes} {holder : Option String} {identity : String}
  {sts : StatefulSet} {pods : List Pod} {po : Pod}

/-- The pod is at the update revision, ready, and neither going nor expected to go. -/
structure Stands (e : Expectations) (sts : StatefulSet) (po : Pod) : Prop where
  updated : isUpdatedRevision sts po = true
  ready : isPodReady po = true
  stays : isTerminating e po = false

/-- `expectDeletePods` after the first loop. -/
def expectDeletePods (sts : StatefulSet) (pods : List Pod) : StringMap Pod :=
  (pods.filter fun po => !isUpdatedRevision sts po).foldl (fun map po => map.insert po.name po) ∅

/-- The pods of this map, in the order the second loop goes over them. -/
def podsToDelete (o : Outcomes) (sts : StatefulSet) (pods : List Pod) : List Pod :=
  o.order.order ((expectDeletePods sts pods).entries.map (·.2))

theorem examine_eq (hasTerminatingPod : Bool) (map : StringMap Pod) :
    examine e sts pods hasTerminatingPod map =
      if pods.all (fun po => !isUpdatedRevision sts po || isPodReady po) then
        some (hasTerminatingPod || pods.any (isTerminating e),
          (pods.filter fun po => !isUpdatedRevision sts po).foldl
            (fun map po => map.insert po.name po) map)
      else none := by
  induction pods generalizing hasTerminatingPod map with
  | nil => simp [examine]
  | cons po pods ih =>
    rw [examine]
    cases updated : isUpdatedRevision sts po with
    | false => simp [ih, updated, Bool.or_assoc]
    | true =>
      cases ready : isPodReady po with
      | false => simp [updated, ready]
      | true => simp [ih, updated, ready, Bool.or_assoc]

theorem lookup_expectDeletePods (name : String) : (expectDeletePods sts pods).lookup name =
    (pods.filter fun po => !isUpdatedRevision sts po).reverse.find? fun po => po.name = name := by
  rw [expectDeletePods, lookup_foldl_insert]
  simp

theorem mem_podsToDelete : po ∈ podsToDelete o sts pods ↔
    ∃ name, (expectDeletePods sts pods).lookup name = some po := by
  rw [podsToDelete, (o.order.perm _).mem_iff, List.mem_map]
  constructor
  · rintro ⟨⟨name, po'⟩, member, rfl⟩
    exact ⟨name, AList.mem_lookup_iff.mpr member⟩
  · rintro ⟨name, found⟩
    exact ⟨⟨name, po⟩, AList.mem_lookup_iff.mp found, rfl⟩

/-- The pod is outdated, and no outdated pod after it has its name. -/
def LastOutdated (sts : StatefulSet) (pods : List Pod) (po : Pod) : Prop :=
  isUpdatedRevision sts po = false ∧ ∃ before after, pods = before ++ po :: after ∧
    ∀ later ∈ after, isUpdatedRevision sts later = false → later.name ≠ po.name

/-- Of the outdated pods of a name the map has the last. -/
theorem mem_podsToDelete_iff_last : po ∈ podsToDelete o sts pods ↔ LastOutdated sts pods po := by
  rw [mem_podsToDelete]
  simp only [lookup_expectDeletePods, List.find?_eq_some_iff_append, decide_eq_true_eq]
  constructor
  · rintro ⟨name, rfl, later, earlier, split, others⟩
    rw [List.reverse_eq_iff, List.reverse_append, List.reverse_cons, List.append_assoc,
      List.singleton_append, List.filter_eq_append_iff] at split
    obtain ⟨before, rest, rfl, -, split⟩ := split
    obtain ⟨skipped, after, rfl, -, outdated, kept⟩ := List.filter_eq_cons_iff.mp split
    refine ⟨by simpa using outdated, before ++ skipped, after, by simp, ?_⟩
    intro po' member outdated' same
    have inside : po' ∈ later := by
      rw [← List.mem_reverse, ← kept]
      exact List.mem_filter.mpr ⟨member, by simp [outdated']⟩
    simpa [same] using others po' inside
  · rintro ⟨outdated, before, after, rfl, others⟩
    refine ⟨po.name, rfl, (after.filter fun po => !isUpdatedRevision sts po).reverse,
      (before.filter fun po => !isUpdatedRevision sts po).reverse, by simp [outdated], ?_⟩
    intro po' member
    simp only [List.mem_reverse, List.mem_filter, Bool.not_eq_true'] at member
    simpa using others po' member.1 member.2

theorem outdated_of_mem (member : po ∈ podsToDelete o sts pods) :
    po ∈ pods ∧ isUpdatedRevision sts po = false := by
  obtain ⟨name, found⟩ := mem_podsToDelete.mp member
  rw [lookup_expectDeletePods] at found
  simpa using List.mem_of_find?_eq_some found

/-- The map has a pod for the name of every outdated one. -/
theorem exists_mem_podsToDelete (member : po ∈ pods) (outdated : isUpdatedRevision sts po = false) :
    ∃ po' ∈ podsToDelete o sts pods, po'.name = po.name := by
  have listed : po ∈ (pods.filter fun po => !isUpdatedRevision sts po).reverse := by
    simp [member, outdated]
  obtain ⟨po', found⟩ := Option.isSome_iff_exists.mp
    (List.find?_isSome.mpr ⟨po, listed, by simp⟩ :
      ((pods.filter fun po => !isUpdatedRevision sts po).reverse.find?
        fun po' => po'.name = po.name).isSome = true)
  refine ⟨po', mem_podsToDelete.mpr ⟨po.name, ?_⟩, by simpa using List.find?_some found⟩
  rw [lookup_expectDeletePods, found]

/-- Pods with different names do not displace each other. -/
theorem mem_podsToDelete_iff (distinct : (pods.map (·.name)).Nodup) :
    po ∈ podsToDelete o sts pods ↔ po ∈ pods ∧ isUpdatedRevision sts po = false := by
  constructor
  · exact outdated_of_mem
  · rintro ⟨member, outdated⟩
    obtain ⟨po', member', sameName⟩ := exists_mem_podsToDelete member outdated
    have same : po' = po :=
      List.inj_on_of_nodup_map distinct (outdated_of_mem member').1 member sameName
    rwa [same] at member'

theorem podsToDelete_eq_nil :
    podsToDelete o sts pods = [] ↔ ∀ po ∈ pods, isUpdatedRevision sts po = true := by
  constructor
  · intro none po member
    by_contra outdated
    obtain ⟨po', member', -⟩ := exists_mem_podsToDelete member (by simpa using outdated)
    rw [none] at member'
    cases member'
  · intro updated
    rw [List.eq_nil_iff_forall_not_mem]
    intro po member
    obtain ⟨inPods, outdated⟩ := outdated_of_mem member
    rw [updated po inPods] at outdated
    cases outdated

theorem entries_isEmpty :
    (expectDeletePods sts pods).entries.isEmpty = true ↔ podsToDelete o sts pods = [] := by
  rw [podsToDelete, List.isEmpty_iff]
  constructor
  · intro none
    rw [none]
    exact (o.order.perm _).eq_nil
  · intro none
    have perm := o.order.perm ((expectDeletePods sts pods).entries.map (·.2))
    rw [none] at perm
    exact List.map_eq_nil_iff.mp perm.symm.eq_nil

/-- What the second loop does to a pod that is not taken for the leader. -/
def removeEffects (o : Outcomes) (po : Pod) : List Effect :=
  match o.delete po.key with
  | some error => [.delete po (some error)]
  | none => [.delete po none, .record (expectationKey po) o.now]

variable {error : Option ApiError}

theorem mem_removeEffects {po' : Pod} (member : .delete po error ∈ removeEffects o po') :
    po = po' := by
  unfold removeEffects at member
  split at member
  · simp at member
    exact member.1
  · simp at member
    exact member.1

/-- The pods that are not taken for the leader. -/
def followers (identity : String) (pods : List Pod) : List Pod :=
  pods.filter fun po => !isLeader po identity

theorem foldl_removeOne (r : Removal) :
    (pods.foldl (removeOne o identity) r).effects =
        r.effects ++ (followers identity pods).flatMap (removeEffects o) ∧
      ((pods.foldl (removeOne o identity) r).deleteSize > 0 ∨
          (pods.foldl (removeOne o identity) r).upgradeErr.isSome = true ↔
        (r.deleteSize > 0 ∨ r.upgradeErr.isSome = true) ∨ followers identity pods ≠ []) := by
  induction pods generalizing r with
  | nil => simp [followers]
  | cons po pods ih =>
    rw [List.foldl_cons]
    obtain ⟨effects, stops⟩ := ih (removeOne o identity r po)
    rw [effects, stops]
    cases leads : isLeader po identity with
    | true =>
      have same : followers identity (po :: pods) = followers identity pods := by
        simp [followers, leads]
      rw [same]
      exact ⟨by simp [removeOne, leads], by simp [removeOne, leads]⟩
    | false =>
      have same : followers identity (po :: pods) = po :: followers identity pods := by
        simp [followers, leads]
      rw [same]
      cases fails : o.delete po.key with
      | none => simp [removeOne, leads, fails, removeEffects]
      | some error => simp [removeOne, leads, fails, removeEffects]

/-- The variable keeps the last pod that was taken for the leader. -/
theorem leaderPo_foldl (r : Removal) : (pods.foldl (removeOne o identity) r).leaderPo =
    (pods.filter (isLeader · identity)).getLast?.or r.leaderPo := by
  induction pods generalizing r with
  | nil => simp
  | cons po pods ih =>
    rw [List.foldl_cons, ih]
    cases leads : isLeader po identity with
    | true =>
      simp only [List.filter_cons, leads, if_true, List.getLast?_cons]
      cases (pods.filter (isLeader · identity)).getLast? <;> simp [removeOne, leads]
    | false =>
      simp only [List.filter_cons, leads, Bool.false_eq_true, if_false]
      cases fails : o.delete po.key <;> simp [removeOne, leads, fails]

theorem leaderPo_removeAll : (removeAll o identity pods).leaderPo =
    (pods.filter (isLeader · identity)).getLast? := by
  rw [removeAll, leaderPo_foldl, Option.or_none]

/-- Where a pod is not taken for the leader, those that are stay. -/
theorem replacePods_followers (some : followers identity pods ≠ []) :
    (replacePods o identity pods).finish = false ∧ (replacePods o identity pods).effects =
      (followers identity pods).flatMap (removeEffects o) := by
  obtain ⟨effects, stops⟩ := @foldl_removeOne o identity pods ⟨0, none, none, []⟩
  have stopped := stops.mpr (.inr some)
  unfold replacePods removeAll
  dsimp only
  rw [if_pos stopped]
  exact ⟨rfl, by simpa using effects⟩

/-- Where all pods are taken for the leader, the last one goes. -/
theorem replacePods_leader {last : Pod} (none : followers identity pods = [])
    (isLast : pods.getLast? = some last) :
    (replacePods o identity pods).finish = false ∧ (replacePods o identity pods).effects =
      [.delete last (o.delete last.key)] := by
  obtain ⟨effects, stops⟩ := @foldl_removeOne o identity pods ⟨0, Option.none, Option.none, []⟩
  have goesOn := mt stops.mp (by simp [none])
  have leaders : pods.filter (isLeader · identity) = pods := by
    simpa [followers] using none
  have leader := @leaderPo_removeAll o identity pods
  rw [leaders, isLast] at leader
  rw [none] at effects
  unfold replacePods
  dsimp only
  rw [leader]
  unfold removeAll
  rw [if_neg goesOn]
  exact ⟨rfl, by simpa using effects⟩

/-- Every pod at the update revision is ready. -/
def updatedReady (sts : StatefulSet) (pods : List Pod) : Bool :=
  pods.all fun po => !isUpdatedRevision sts po || isPodReady po

/-- No pod of the shard is on its way. -/
structure AtRest (e : Expectations) (sts : StatefulSet) (pods : List Pod) : Prop where
  ready : updatedReady sts pods = true
  stay : pods.any (isTerminating e) = false

/-- A shard whose pods stand is at rest. -/
theorem AtRest.of_stand (stand : ∀ po ∈ pods, Stands e sts po) : AtRest e sts pods := by
  refine ⟨List.all_eq_true.mpr fun po member => ?_, List.any_eq_false.mpr fun po member => ?_⟩
  · simp [(stand po member).ready]
  · simp [(stand po member).stays]

/-- The ways an upgrade can end, by whether it finishes and what it has done. -/
inductive Upgraded (e : Expectations) (o : Outcomes) (holder : Option String) (sts : StatefulSet)
    (pods : List Pod) : Bool → List Effect → Prop where
  | finishes (stand : ∀ po ∈ pods, Stands e sts po) : Upgraded e o holder sts pods true []
  | waits (unfinished : ¬∀ po ∈ pods, Stands e sts po) : Upgraded e o holder sts pods false []
  | replaces (identity : String) (held : holder = some identity)
      (rest : AtRest e sts pods)
      (some : followers identity (podsToDelete o sts pods) ≠ []) :
      Upgraded e o holder sts pods false
        ((followers identity (podsToDelete o sts pods)).flatMap (removeEffects o))
  | replacesLeader (identity : String) (last : Pod) (held : holder = some identity)
      (rest : AtRest e sts pods)
      (none : followers identity (podsToDelete o sts pods) = [])
      (isLast : (podsToDelete o sts pods).getLast? = some last) :
      Upgraded e o holder sts pods false [.delete last (o.delete last.key)]

theorem upgrade_waits (busy : ¬AtRest e sts pods) :
    upgrade e o holder sts pods = ⟨false, false, none, []⟩ := by
  rw [upgrade, examine_eq, ← updatedReady]
  cases ready : updatedReady sts pods with
  | false => simp
  | true =>
    cases terminating : pods.any (isTerminating e) with
    | false => exact absurd ⟨ready, terminating⟩ busy
    | true => simp

theorem upgrade_eq (rest : AtRest e sts pods) :
    upgrade e o holder sts pods =
      if podsToDelete o sts pods = [] then ⟨true, false, none, []⟩
      else match holder with
        | none => ⟨false, true, none, []⟩
        | some identity => replacePods o identity (podsToDelete o sts pods) := by
  rw [upgrade, examine_eq, ← updatedReady, if_pos rest.ready, rest.stay, ← expectDeletePods]
  by_cases none : podsToDelete o sts pods = []
  · rw [if_pos none]
    simp [entries_isEmpty.mpr none]
  · rw [if_neg none]
    have some := mt entries_isEmpty.mp none
    simp only [Bool.or_false, Bool.false_eq_true, if_false, some]
    rfl

theorem upgraded_of_upgrade (e : Expectations) (o : Outcomes) (holder : Option String)
    (sts : StatefulSet) (pods : List Pod) :
    Upgraded e o holder sts pods (upgrade e o holder sts pods).finish
      (upgrade e o holder sts pods).effects := by
  by_cases rest : AtRest e sts pods
  · rw [upgrade_eq rest]
    by_cases none : podsToDelete o sts pods = []
    · rw [if_pos none]
      have updated := podsToDelete_eq_nil.mp none
      refine .finishes fun po member => ⟨updated po member, ?_, ?_⟩
      · simpa [updated po member] using List.all_eq_true.mp rest.ready po member
      · simpa using List.any_eq_false.mp rest.stay po member
    · rw [if_neg none]
      cases holder with
      | none =>
        refine .waits fun stand => none (podsToDelete_eq_nil.mpr ?_)
        exact fun po member => (stand po member).updated
      | some identity =>
        dsimp only
        by_cases leaders : followers identity (podsToDelete o sts pods) = []
        · have isLast := List.getLast?_eq_some_getLast none
          obtain ⟨unfinished, effects⟩ := @replacePods_leader o identity _ _ leaders isLast
          rw [unfinished, effects]
          exact .replacesLeader identity _ rfl rest leaders isLast
        · obtain ⟨unfinished, effects⟩ := @replacePods_followers o identity _ leaders
          rw [unfinished, effects]
          exact .replaces identity rfl rest leaders
  · rw [upgrade_waits rest]
    exact .waits fun stand => rest (.of_stand stand)

/-- An upgrade deletes outdated pods of its shard only. -/
theorem outdated_of_delete (deletes : .delete po error ∈ (upgrade e o holder sts pods).effects) :
    po ∈ pods ∧ isUpdatedRevision sts po = false := by
  have upgraded := upgraded_of_upgrade e o holder sts pods
  generalize (upgrade e o holder sts pods).finish = finish,
    (upgrade e o holder sts pods).effects = effects at upgraded deletes
  cases upgraded with
  | finishes => cases deletes
  | waits => cases deletes
  | replaces identity =>
    obtain ⟨po', follower, member⟩ := List.mem_flatMap.mp deletes
    rw [mem_removeEffects member]
    exact outdated_of_mem (List.mem_of_mem_filter follower)
  | replacesLeader identity last held rest none isLast =>
    obtain ⟨rfl, -⟩ : po = last ∧ error = o.delete last.key := by simpa using deletes
    exact outdated_of_mem (List.mem_of_getLast? isLast)

/-- An upgrade deletes a pod exactly if the shard is at rest, a pod of it is outdated, and the
holder of the lease is known. -/
theorem exists_delete_iff :
    (∃ po error, .delete po error ∈ (upgrade e o holder sts pods).effects) ↔
      AtRest e sts pods ∧ (∃ po ∈ pods, isUpdatedRevision sts po = false) ∧
        holder.isSome = true := by
  constructor
  · rintro ⟨po, error, deletes⟩
    have rest : AtRest e sts pods := by
      by_contra busy
      rw [upgrade_waits busy] at deletes
      cases deletes
    refine ⟨rest, ⟨po, outdated_of_delete deletes⟩, ?_⟩
    cases holder with
    | some identity => rfl
    | none =>
      rw [upgrade_eq rest] at deletes
      split at deletes <;> cases deletes
  · rintro ⟨rest, ⟨po, member, outdated⟩, held⟩
    obtain ⟨identity, rfl⟩ := Option.isSome_iff_exists.mp held
    have some : podsToDelete o sts pods ≠ [] := fun none => by
      rw [podsToDelete_eq_nil.mp none po member] at outdated
      cases outdated
    rw [upgrade_eq rest, if_neg some]
    dsimp only
    by_cases leaders : followers identity (podsToDelete o sts pods) = []
    · rw [(replacePods_leader leaders (List.getLast?_eq_some_getLast some)).2]
      exact ⟨_, _, List.mem_singleton_self _⟩
    · rw [(replacePods_followers leaders).2]
      obtain ⟨follower, follows⟩ := List.exists_mem_of_ne_nil _ leaders
      refine ⟨follower, o.delete follower.key, List.mem_flatMap.mpr ⟨follower, follows, ?_⟩⟩
      unfold removeEffects
      cases o.delete follower.key <;> exact List.mem_cons_self

/-- An upgrade of a shard that stands finishes, and has done nothing. -/
theorem upgrade_of_stand (stand : ∀ po ∈ pods, Stands e sts po) :
    upgrade e o holder sts pods = ⟨true, false, none, []⟩ := by
  rw [upgrade_eq (.of_stand stand), if_pos]
  exact podsToDelete_eq_nil.mpr fun po member => (stand po member).updated

/-- An upgrade finishes exactly if it finds the shard standing. -/
theorem finish_iff :
    (upgrade e o holder sts pods).finish = true ↔ ∀ po ∈ pods, Stands e sts po := by
  constructor
  · intro finished
    have upgraded := upgraded_of_upgrade e o holder sts pods
    rw [finished] at upgraded
    generalize (upgrade e o holder sts pods).effects = effects at upgraded
    cases upgraded with
    | finishes stand => exact stand
  · intro stand
    rw [upgrade_of_stand stand]

/-- A ready pod of the StatefulSet `app` in a shard. -/
def appPod (shard name revision : String) : Pod where
  namespace_ := "ns"
  name := name
  labels := (AList.singleton shardingConfigInjectedKey shard).insert revisionLabel revision
  ownerReferences := [⟨"app", true⟩]
  deleting := false
  conditions := [⟨"Ready", "True"⟩]

/-- The StatefulSet, on its way to revision `new`. -/
def appSet (replicas : Int) : StatefulSet where
  namespace_ := "ns"
  name := "app"
  labels := AList.singleton inRollingLabel "all"
  annotations := some ∅
  deleting := false
  replicas := some replicas
  selector := some ⟨∅, []⟩
  updateStrategy := .onDelete
  currentReplicas := replicas
  updateRevision := "new"
  currentRevision := "old"

/-- No call fails, and maps are gone through as they were filled. -/
def calm : Outcomes where
  getStatefulSet := none
  listConfigs := none
  listPods := none
  nilItems := false
  getLease := fun _ => none
  delete := fun _ => none
  update := none
  updateAtEnd := none
  order := ⟨List.reverse, List.reverse_perm⟩
  now := 0

end CtrlMesh.Rollout
