import CtrlMesh.Sharding.ReconcileErrors

/-!
# Pods that are left over

`clearOldPods` deletes the pods of a namespace whose ShardingConfig is gone or does not select them
any more. After a Delete it goes on only if the answer was not-found, and it returns the answer of
any other one. So the first Delete that succeeds ends the loop, with no error, and the pods after it
are left for another pass.
-/

namespace CtrlMesh.Sharding.Dispatch

open Labels Lib Api Proxy

/-- What the loop does at a pod: it leaves the pod alone, it deletes it, or it stops. -/
inductive Visit where
  | keep
  | delete
  | stop (ending : Ending)
  deriving DecidableEq

/-- One round of `clearOldPods`. -/
def visit (w : World) (r : Results) (po : Pod) : Visit :=
  if po.deleting || po.shardName = "" then .keep
  else match r.getShard po.uid with
    | some error => if error = .notFound then .delete else .stop (.returned (some (.api error)))
    | none =>
      match w.configs.find (po.namespace_, po.shardName) with
      | none => .delete
      | some shard =>
        match labelSelectorMatches shard.spec.selector po.labels with
        | none => .stop .panicked
        | some true => .keep
        | some false => .delete

/-- A Delete, and the error it ended with. -/
structure Removal where
  pod : Pod
  error : Option ApiError
  deriving DecidableEq

/-- The Delete succeeded, or found the pod gone. -/
def Removal.Gone (removal : Removal) : Prop :=
  removal.error = none ∨ removal.error = some .notFound

/-- The Deletes that `clearPods` makes. -/
def removals (w : World) (r : Results) : List Pod → List Removal
  | [] => []
  | po :: pods =>
    match visit w r po with
    | .keep => removals w r pods
    | .stop _ => []
    | .delete =>
      ⟨po, r.delete po.uid⟩ ::
        if r.delete po.uid = some .notFound then removals w r pods else []

/-- The pods of the namespace that have the label. -/
def labelledPods (w : World) (ns : String) : List Pod :=
  w.pods.items.filter fun po =>
    po.namespace_ = ns && (po.labels.lookup shardingConfigInjectedKey).isSome

/-- `clearOldPods`, with the Deletes it makes. -/
def clearNamespace (w : World) (r : Results) (ns : String) :
    List Removal × Except Ending World :=
  match r.listLabelled with
  | some error => ([], .error (.returned (some (.api error))))
  | none => (removals w r (labelledPods w ns), clearPods w r (labelledPods w ns))

section

variable {enc : Encoder} {w w' : World}
  {r : Results} {ns : String} {key : NamespacedName} {po : Pod} {before pods : List Pod}

/-- A pass over a ShardingConfig that is no root begins with it. -/
theorem prepare_clears {cfg : ShardingConfig} (got : r.getConfig = none)
    (stored : w.configs.find key = some cfg) (plain : cfg.spec.root = none) :
    prepare enc w key r =
      match (clearNamespace w r key.1).2 with
      | .error ending => (w, .error ending)
      | .ok w =>
        match r.listPods with
        | some error => (w, .error (.returned (some (.api error))))
        | none =>
          match collect w (getPodsForShardingConfig w cfg.key) with
          | (w, none) => (w, .error (.returned none))
          | (w, some syncPods) => (w, .ok (generateProtoConfig enc cfg, syncPods)) := by
  unfold prepare clearNamespace
  rw [got, stored]
  dsimp only
  rw [plain]
  cases r.listLabelled with
  | some error => rfl
  | none => rfl

theorem clearPods_cons :
    clearPods w r (po :: pods) =
      match visit w r po with
      | .keep => clearPods w r pods
      | .stop ending => .error ending
      | .delete => clearPod w r po (clearPods w r pods) := by
  unfold visit
  rw [clearPods]
  by_cases skipped : (po.deleting || decide (po.shardName = "")) = true
  · rw [if_pos skipped, if_pos skipped]
  · rw [if_neg skipped, if_neg skipped]
    cases r.getShard po.uid with
    | some error =>
      dsimp only
      by_cases gone : error = .notFound
      · rw [if_pos gone, if_pos gone]
      · rw [if_neg gone, if_neg gone]
    | none =>
      dsimp only
      cases w.configs.find (po.namespace_, po.shardName) with
      | none => rfl
      | some shard =>
        dsimp only
        cases labelSelectorMatches shard.spec.selector po.labels with
        | none => rfl
        | some selected => cases selected <;> rfl

/-- The loop goes on after the pod. -/
def Passes (w : World) (r : Results) (po : Pod) : Prop :=
  visit w r po = .keep ∨ visit w r po = .delete ∧ r.delete po.uid = some .notFound

/-- The pod is deleted. -/
def Deletes (w : World) (r : Results) (po : Pod) : Prop :=
  visit w r po = .delete ∧ r.delete po.uid = none

theorem clearPods_of_passes (passes : Passes w r po) :
    clearPods w r (po :: pods) = clearPods w r pods := by
  rw [clearPods_cons]
  rcases passes with kept | ⟨deleted, gone⟩
  · rw [kept]
  · rw [deleted]
    simp [clearPod, gone]

theorem clearPods_of_deletes (deletes : Deletes w r po) :
    clearPods w r (po :: pods) = .ok (w.deletePod po.key) := by
  rw [clearPods_cons, deletes.1]
  simp [clearPod, deletes.2]

theorem mem_removals_of_passes (passes : Passes w r po) {removal : Removal} :
    removal ∈ removals w r (po :: pods) ↔
      (visit w r po = .delete ∧ removal = ⟨po, some .notFound⟩) ∨ removal ∈ removals w r pods := by
  rw [removals]
  rcases passes with kept | ⟨deleted, gone⟩
  · simp [kept]
  · simp [deleted, gone]

theorem removals_of_deletes (deletes : Deletes w r po) :
    removals w r (po :: pods) = [⟨po, none⟩] := by
  rw [removals, deletes.1]
  simp [deletes.2]

/-- The loop either comes to its end or stops at the first pod that it deletes. -/
theorem ends_of_ok (returned : clearPods w r pods = .ok w') :
    (∀ po ∈ pods, Passes w r po) ∨
      ∃ before po after, pods = before ++ po :: after ∧ (∀ po ∈ before, Passes w r po) ∧
        Deletes w r po := by
  induction pods with
  | nil => exact .inl (by simp)
  | cons po pods ih =>
    have goesOn (passes : Passes w r po) : (∀ po' ∈ po :: pods, Passes w r po') ∨
        ∃ before po' after, po :: pods = before ++ po' :: after ∧
          (∀ po ∈ before, Passes w r po) ∧ Deletes w r po' := by
      rw [clearPods_of_passes passes] at returned
      rcases ih returned with all | ⟨before, po', after, split, passed, deletes⟩
      · exact .inl (List.forall_mem_cons.mpr ⟨passes, all⟩)
      · refine .inr ⟨po :: before, po', after, by rw [split]; rfl, ?_, deletes⟩
        exact List.forall_mem_cons.mpr ⟨passes, passed⟩
    cases visited : visit w r po with
    | keep => exact goesOn (.inl visited)
    | stop ending =>
      rw [clearPods_cons, visited] at returned
      cases returned
    | delete =>
      cases answer : r.delete po.uid with
      | none => exact .inr ⟨[], po, pods, rfl, by simp, visited, answer⟩
      | some error =>
        by_cases gone : error = .notFound
        · exact goesOn (.inr ⟨visited, by rw [answer, gone]⟩)
        · rw [clearPods_cons, visited] at returned
          simp [clearPod, answer, gone] at returned

theorem clearPods_append (passed : ∀ po ∈ before, Passes w r po) :
    clearPods w r (before ++ pods) = clearPods w r pods := by
  induction before with
  | nil => rfl
  | cons po before ih =>
    obtain ⟨first, later⟩ := List.forall_mem_cons.mp passed
    rw [List.cons_append, clearPods_of_passes first, ih later]

theorem mem_removals_append (passed : ∀ po ∈ before, Passes w r po) {removal : Removal} :
    removal ∈ removals w r (before ++ pods) ↔
      (removal.pod ∈ before ∧ visit w r removal.pod = .delete ∧
        removal.error = some .notFound) ∨ removal ∈ removals w r pods := by
  induction before with
  | nil => simp
  | cons po before ih =>
    obtain ⟨first, later⟩ := List.forall_mem_cons.mp passed
    rw [List.cons_append, mem_removals_of_passes first, ih later, ← or_assoc]
    refine or_congr_left ?_
    obtain ⟨pod, error⟩ := removal
    simp only [Removal.mk.injEq, List.mem_cons]
    constructor
    · rintro (⟨deleted, rfl, rfl⟩ | ⟨inside, rest⟩)
      · exact ⟨.inl rfl, deleted, rfl⟩
      · exact ⟨.inr inside, rest⟩
    · rintro ⟨rfl | inside, deleted, rfl⟩
      · exact .inl ⟨deleted, rfl, rfl⟩
      · exact .inr ⟨inside, deleted, rfl⟩

end

/-- The pod is to be deleted: it is not terminating, and the ShardingConfig it is labelled with does
not exist or does not select it. -/
structure Stale (w : World) (ns : String) (po : Pod) : Prop where
  stored : po ∈ w.pods.items
  inNamespace : po.namespace_ = ns
  remains : po.deleting = false
  labelled : po.shardName ≠ ""
  unselected : ∀ shard, w.configs.find (ns, po.shardName) = some shard →
    labelSelectorMatches shard.spec.selector po.labels ≠ some true

/-- If `clearOldPods` returns no error, all such pods are gone. -/
def Finishes (w : World) (r : Results) (ns : String) : Prop :=
  ∀ w', (clearNamespace w r ns).2 = .ok w' → ∀ po, Stale w ns po →
    ∃ removal ∈ (clearNamespace w r ns).1, removal.pod = po ∧ removal.Gone

section

variable {w : World} {r : Results} {ns : String} {po : Pod}

theorem Stale.mem_labelledPods (stale : Stale w ns po) : po ∈ labelledPods w ns := by
  refine List.mem_filter.mpr ⟨stale.stored, ?_⟩
  have named : (po.labels.lookup shardingConfigInjectedKey).isSome = true := by
    rw [Option.isSome_iff_ne_none]
    intro unlabelled
    exact stale.labelled (by simp [Pod.shardName, unlabelled])
  simp [stale.inNamespace, named]

/-- The loop does not leave such a pod alone. -/
theorem Stale.visit_ne_keep (stale : Stale w ns po) : visit w r po ≠ .keep := by
  unfold visit
  rw [if_neg (by simp [stale.remains, stale.labelled])]
  cases r.getShard po.uid with
  | some error =>
    dsimp only
    split <;> simp
  | none =>
    dsimp only
    rw [stale.inNamespace]
    cases found : w.configs.find (ns, po.shardName) with
    | none => simp
    | some shard =>
      have unselected := stale.unselected shard found
      dsimp only
      cases selected : labelSelectorMatches shard.spec.selector po.labels with
      | none => simp
      | some accepts =>
        cases accepts with
        | false => simp
        | true => exact absurd selected unselected

theorem Stale.visit_of_passes (stale : Stale w ns po) (passes : Passes w r po) :
    visit w r po = .delete := by
  rcases passes with kept | deleted
  · exact absurd kept stale.visit_ne_keep
  · exact deleted.1

theorem nodup_labelledPods (w : World) (ns : String) : (labelledPods w ns).Nodup :=
  (List.Nodup.of_map _ w.pods.distinct).filter _

end

/-- `clearOldPods` finishes its job exactly if no pod to be deleted comes after the first one whose
Delete succeeds, unless the List fails. -/
theorem clearOldPods_finishes_iff (w : World) (r : Results) (ns : String) :
    Finishes w r ns ↔ (r.listLabelled = none → ∀ before po after,
      labelledPods w ns = before ++ po :: after → (∀ po ∈ before, Passes w r po) →
      Deletes w r po → ∀ other ∈ after, ¬Stale w ns other) := by
  unfold Finishes clearNamespace
  cases listed : r.listLabelled with
  | some error => simp
  | none =>
    simp only [forall_const]
    constructor
    · intro finishes before po after split passed deletes other inside stale
      rw [split, clearPods_append passed, clearPods_of_deletes deletes] at finishes
      obtain ⟨removal, made, isOther, -⟩ := finishes _ rfl other stale
      -- what is deleted comes before what is left
      have distinct := nodup_labelledPods w ns
      rw [split] at distinct
      rw [mem_removals_append passed, removals_of_deletes deletes, List.mem_singleton] at made
      rcases made with ⟨early, -⟩ | rfl
      · rw [isOther] at early
        exact (List.nodup_append.mp distinct).2.2 other early other (.tail _ inside) rfl
      · have fresh := (List.nodup_cons.mp (List.nodup_append.mp distinct).2.1).1
        have same : po = other := isOther
        rw [same] at fresh
        exact fresh inside
    · intro nothingLeft w' returned po stale
      have member := stale.mem_labelledPods
      rcases ends_of_ok returned with all | ⟨before, last, after, split, passed, deletes⟩
      · have deleted := stale.visit_of_passes (all po member)
        refine ⟨⟨po, some .notFound⟩, ?_, rfl, .inr rfl⟩
        rw [← List.append_nil (labelledPods w ns)]
        exact (mem_removals_append all).mpr (.inl ⟨member, deleted, rfl⟩)
      · rw [split, List.mem_append, List.mem_cons] at member
        rw [split]
        rcases member with early | rfl | late
        · have deleted := stale.visit_of_passes (passed po early)
          refine ⟨⟨po, some .notFound⟩, ?_, rfl, .inr rfl⟩
          exact (mem_removals_append passed).mpr (.inl ⟨early, deleted, rfl⟩)
        · refine ⟨⟨po, none⟩, ?_, rfl, .inl rfl⟩
          rw [mem_removals_append passed, removals_of_deletes deletes]
          exact .inr List.mem_cons_self
        · exact absurd stale (nothingLeft before last after split passed deletes po late)

/-- No ShardingConfig is left. -/
def orphanedWorld : World := { freshWorld with configs := .empty _ }

/-- All calls succeed. -/
def allSucceed : Results := { firstFails with send := fun _ => none }

/-- The second pod is left, and no error is returned. -/
theorem second_orphan_is_left : ¬∀ (w : World) (r : Results) (ns : String), Finishes w r ns := by
  intro always
  have stale : Stale orphanedWorld "ns" (freshPod "app-1" 1) :=
    { stored := .tail _ List.mem_cons_self
      inNamespace := rfl
      remains := rfl
      labelled := by decide
      unselected := fun shard found => by cases found }
  have made : (clearNamespace orphanedWorld allSucceed "ns").1 = [⟨freshPod "app-0" 0, none⟩] := rfl
  obtain ⟨removal, member, isLeft, -⟩ := always orphanedWorld allSucceed "ns" _ rfl _ stale
  rw [made, List.mem_singleton] at member
  rw [member] at isLeft
  have names := congrArg Pod.name isLeft
  exact absurd names (by decide)

end CtrlMesh.Sharding.Dispatch
