import CtrlMesh.Sharding.Dispatch

/-!
# What a pass over a shard returns

`Dispatch.reconcile` says what a pass does to the world. Here the same pass is followed with the
errors of its calls and what it returns. The loops over the pods to delete, to update and to
dispatch share one variable for the error, and each call overwrites it: the pass returns what the
last call returned.
-/

namespace CtrlMesh.Sharding.Dispatch

open Labels Lib Api Proxy

/-- An error of a call. -/
inductive Error where
  | api (error : ApiError)
  | send (message : String)
  deriving DecidableEq

/-- The errors that the calls of a pass end with; those for one pod are told apart by its UID. -/
structure Results where
  getConfig : Option ApiError
  autoSharding : Option Failure
  listLabelled : Option ApiError
  getShard : UID → Option ApiError
  listPods : Option ApiError
  delete : UID → Option ApiError
  send : UID → Option String

/-- Which calls succeed. -/
def Results.outcomes (r : Results) : Outcomes where
  getConfig := r.getConfig.isNone
  listLabelled := r.listLabelled.isNone
  getShard uid := (r.getShard uid).isNone
  listPods := r.listPods.isNone
  delete uid := (r.delete uid).isNone
  send uid := (r.send uid).isNone

/-- How `Reconcile` ends. -/
inductive Ending where
  | returned (err : Option Error)
  | panicked
  deriving DecidableEq

/-- A Delete or a send of the last loops. -/
structure Made where
  uid : UID
  error : Option Error
  deriving DecidableEq

/-- The world after a pass, the calls of its last loops, and its end. -/
structure Pass where
  world : World
  made : List Made
  ending : Ending

/-- The Delete of `clearOldPods`. It ends the loop unless it ends with a not-found error. -/
def clearPod (w : World) (r : Results) (po : Pod) (continue_ : Except Ending World) :
    Except Ending World :=
  match r.delete po.uid with
  | none => .ok (w.deletePod po.key)
  | some error =>
    if error = .notFound then continue_ else .error (.returned (some (.api error)))

/-- `clearOldPods`. -/
def clearPods (w : World) (r : Results) : List Pod → Except Ending World
  | [] => .ok w
  | po :: pods =>
    if po.deleting || po.shardName = "" then clearPods w r pods
    else match r.getShard po.uid with
      | some error =>
        if error = .notFound then clearPod w r po (clearPods w r pods)
        else .error (.returned (some (.api error)))
      | none =>
        match w.configs.find (po.namespace_, po.shardName) with
        | none => clearPod w r po (clearPods w r pods)
        | some shard =>
          match labelSelectorMatches shard.spec.selector po.labels with
          | none => .error .panicked
          | some true => clearPods w r pods
          | some false => clearPod w r po (clearPods w r pods)

/-- The variables of the last loops, and the calls they have made. -/
structure Loop where
  world : World
  made : List Made
  err : Option Error

/-- One of the last loops: every call sets `err`. -/
def callAll (call : World → SyncPod → World) (error : UID → Option Error) (w : World)
    (syncPods : List SyncPod) : Loop :=
  syncPods.foldl (fun loop sp =>
    ⟨call loop.world sp, loop.made ++ [⟨sp.pod.uid, error sp.pod.uid⟩], error sp.pod.uid⟩)
    ⟨w, [], none⟩

/-- The error of a Delete. -/
def Results.deleteError (r : Results) (uid : UID) : Option Error := (r.delete uid).map .api

/-- The error of a send. -/
def Results.sendError (r : Results) (uid : UID) : Option Error := (r.send uid).map .send

/-- `Reconcile` from the second loop on. -/
def callPods (r : Results) (newSpec : ProxySpec) (w : World) (syncPods : List SyncPod) : Loop :=
  let podsToDelete := podsToDelete newSpec.hash syncPods
  let podsProtoToUpdate := withAction newSpec.hash .update syncPods
  let podsProtoToDispatch := withAction newSpec.hash .dispatch syncPods
  if !podsToDelete.isEmpty then callAll (deleteOne r.outcomes) r.deleteError w podsToDelete
  else if !podsProtoToUpdate.isEmpty then
    callAll (sendOne r.outcomes newSpec) r.sendError w podsProtoToUpdate
  else callAll (sendOne r.outcomes newSpec) r.sendError w podsProtoToDispatch

section Pass

variable (enc : Encoder)

/-- `Reconcile` up to the second loop: the specification and the pods it goes on with. -/
def prepare (w : World) (key : NamespacedName) (r : Results) :
    World × Except Ending (ProxySpec × List SyncPod) :=
  match r.getConfig, w.configs.find key with
  | some .notFound, _ => (w, .error (.returned none))
  | some error, _ => (w, .error (.returned (some (.api error))))
  | none, none => (w, .error (.returned none))
  | none, some cfg =>
    if cfg.spec.root.isSome then
      match r.autoSharding with
      | none => (w, .error (.returned none))
      | some (.api error) => (w, .error (.returned (some (.api error))))
      | some .panicked => (w, .error .panicked)
    else match r.listLabelled with
      | some error => (w, .error (.returned (some (.api error))))
      | none =>
        let labelled := w.pods.items.filter fun po =>
          po.namespace_ = key.1 && (po.labels.lookup shardingConfigInjectedKey).isSome
        match clearPods w r labelled with
        | .error ending => (w, .error ending)
        | .ok w =>
          match r.listPods with
          | some error => (w, .error (.returned (some (.api error))))
          | none =>
            match collect w (getPodsForShardingConfig w cfg.key) with
            | (w, none) => (w, .error (.returned none))
            | (w, some syncPods) => (w, .ok (generateProtoConfig enc cfg, syncPods))

/-- `Reconcile`, with what it returns. -/
def reconcilePass (w : World) (key : NamespacedName) (r : Results) : Pass :=
  match prepare enc w key r with
  | (w, .error ending) => ⟨w, [], ending⟩
  | (w, .ok (newSpec, syncPods)) =>
    let loop := callPods r newSpec w syncPods
    ⟨loop.world, loop.made, .returned loop.err⟩

end Pass

variable {enc : Encoder} {w : World}
  {key : NamespacedName} {r : Results} {call : World → SyncPod → World}
  {error : UID → Option Error} {syncPods : List SyncPod} {newSpec : ProxySpec}

theorem callAll_concat (sp : SyncPod) : callAll call error w (syncPods ++ [sp]) =
    ⟨call (callAll call error w syncPods).world sp,
      (callAll call error w syncPods).made ++ [⟨sp.pod.uid, error sp.pod.uid⟩],
      error sp.pod.uid⟩ := by
  simp [callAll]

theorem world_callAll : (callAll call error w syncPods).world = syncPods.foldl call w := by
  induction syncPods using List.reverseRecOn with
  | nil => rfl
  | append_singleton syncPods sp ih => rw [callAll_concat, List.foldl_concat, ih]

theorem world_callPods :
    (callPods r newSpec w syncPods).world = syncAll r.outcomes newSpec w syncPods := by
  unfold callPods syncAll
  dsimp only
  split
  · exact world_callAll
  split
  · exact world_callAll
  · exact world_callAll

/-- No call on a pod ends with a not-found error of its own. -/
structure Results.Plain (r : Results) : Prop where
  getShard : ∀ uid, r.getShard uid ≠ some .notFound
  delete : ∀ uid, r.delete uid ≠ some .notFound

theorem clearPod_eq (plain : r.Plain) {po : Pod} {continue_ : Except Ending World} :
    (clearPod w r po continue_).toOption =
      if r.outcomes.delete po.uid then some (w.deletePod po.key) else none := by
  have found := plain.delete po.uid
  cases fails : r.delete po.uid with
  | none => simp [clearPod, Results.outcomes, fails, Except.toOption]
  | some error =>
    rw [fails] at found
    have other : error ≠ .notFound := fun same => found (congrArg some same)
    simp [clearPod, Results.outcomes, fails, other, Except.toOption]

theorem clearOldPods_eq (plain : r.Plain) (pods : List Pod) :
    clearOldPods w r.outcomes pods = (clearPods w r pods).toOption := by
  induction pods with
  | nil => rfl
  | cons po pods ih =>
    rw [clearOldPods, clearPods, ih]
    split
    · rfl
    · have found := plain.getShard po.uid
      cases asked : r.getShard po.uid with
      | some error =>
        rw [asked] at found
        have other : error ≠ .notFound := fun same => found (congrArg some same)
        simp [Results.outcomes, asked, other, Except.toOption]
      | none =>
        have gets : r.outcomes.getShard po.uid = true := by simp [Results.outcomes, asked]
        simp only [gets, Bool.not_true, Bool.false_eq_true, if_false]
        cases w.configs.find (po.namespace_, po.shardName) with
        | none => exact (clearPod_eq plain).symm
        | some shard =>
          dsimp only
          cases labelSelectorMatches shard.spec.selector po.labels with
          | none => rfl
          | some selected =>
            cases selected with
            | true => rfl
            | false => exact (clearPod_eq plain).symm

/-- The pass does to the world what `reconcile` says. -/
theorem world_reconcilePass (plain : r.Plain) :
    (reconcilePass enc w key r).world = reconcile enc w key r.outcomes := by
  unfold reconcilePass prepare reconcile
  cases got : r.getConfig with
  | some error => cases error <;> simp [Results.outcomes, got]
  | none =>
    have gets : r.outcomes.getConfig = true := by simp [Results.outcomes, got]
    rw [gets]
    cases w.configs.find key with
    | none => rfl
    | some cfg =>
      by_cases root : cfg.spec.root.isSome = true
      · simp only [root, if_true, Bool.true_or, Bool.not_true, Bool.false_eq_true, if_false]
        cases r.autoSharding with
        | none => rfl
        | some failure => cases failure <;> rfl
      · cases labelled : r.listLabelled with
        | some error => simp [root, Results.outcomes, labelled]
        | none =>
          have lists : r.outcomes.listLabelled = true := by simp [Results.outcomes, labelled]
          simp only [root, lists, clearOldPods_eq plain, Bool.or_false, Bool.not_true,
            Bool.false_eq_true, if_false]
          cases clearPods w r (w.pods.items.filter fun po =>
              po.namespace_ = key.1 && (po.labels.lookup shardingConfigInjectedKey).isSome) with
          | error ending => rfl
          | ok cleared =>
            cases listed : r.listPods with
            | some error => simp [Results.outcomes, listed, Except.toOption]
            | none =>
              have lists : r.outcomes.listPods = true := by simp [Results.outcomes, listed]
              simp only [Except.toOption, lists, Bool.not_true, Bool.false_eq_true, if_false,
                syncShard]
              obtain ⟨w', none | syncPods⟩ := collect cleared
                (getPodsForShardingConfig cleared cfg.key)
              · rfl
              · exact world_callPods

/-- The errors of the calls on the pods, in their order. -/
def callErrors (r : Results) (newHash : String) (syncPods : List SyncPod) : List (Option Error) :=
  let podsToDelete := podsToDelete newHash syncPods
  let podsProtoToUpdate := withAction newHash .update syncPods
  let podsProtoToDispatch := withAction newHash .dispatch syncPods
  if !podsToDelete.isEmpty then podsToDelete.map fun sp => r.deleteError sp.pod.uid
  else if !podsProtoToUpdate.isEmpty then podsProtoToUpdate.map fun sp => r.sendError sp.pod.uid
  else podsProtoToDispatch.map fun sp => r.sendError sp.pod.uid

theorem errors_callAll : (callAll call error w syncPods).made.map (·.error) =
    syncPods.map fun sp => error sp.pod.uid := by
  induction syncPods using List.reverseRecOn with
  | nil => rfl
  | append_singleton syncPods sp ih => simp [callAll_concat, ih]

/-- The loop leaves the error of its last call. -/
theorem err_callAll : (callAll call error w syncPods).err =
    (syncPods.map fun sp => error sp.pod.uid).getLast?.join := by
  cases syncPods using List.reverseRecOn with
  | nil => rfl
  | append_singleton syncPods sp => simp [callAll_concat]

theorem callPods_spec : (callPods r newSpec w syncPods).made.map (·.error) =
      callErrors r newSpec.hash syncPods ∧
    (callPods r newSpec w syncPods).err = (callErrors r newSpec.hash syncPods).getLast?.join := by
  unfold callPods callErrors
  dsimp only
  split
  · exact ⟨errors_callAll, err_callAll⟩
  split
  · exact ⟨errors_callAll, err_callAll⟩
  · exact ⟨errors_callAll, err_callAll⟩

/-- If a call of the last loops failed, the pass returns an error. -/
def NoneSwallowed (pass : Pass) : Prop :=
  (∃ made ∈ pass.made, made.error.isSome = true) → ∃ error, pass.ending = .returned (some error)

/-- The calls of the pass succeed, or the last of them fails. -/
def LastSpeaks (errors : List (Option Error)) : Prop :=
  (∃ error ∈ errors, error.isSome = true) → ∃ error, errors.getLast? = some (some error)

/-- A pass swallows no error exactly if the last call fails where any does. -/
theorem noneSwallowed_iff (enc : Encoder) (w : World) (key : NamespacedName) (r : Results) :
    NoneSwallowed (reconcilePass enc w key r) ↔
      ∀ w' newSpec syncPods, prepare enc w key r = (w', .ok (newSpec, syncPods)) →
        LastSpeaks (callErrors r newSpec.hash syncPods) := by
  unfold reconcilePass
  obtain ⟨w', ending | ⟨newSpec, syncPods⟩⟩ := prepare enc w key r
  · simp [NoneSwallowed]
  · obtain ⟨errors, err⟩ := @callPods_spec w' r syncPods newSpec
    have failed : (∃ made ∈ (callPods r newSpec w' syncPods).made, made.error.isSome = true) ↔
        ∃ error ∈ callErrors r newSpec.hash syncPods, error.isSome = true := by
      rw [← errors]
      simp
    have returned : (∃ error, Ending.returned (callPods r newSpec w' syncPods).err =
          .returned (some error)) ↔
        ∃ error, (callErrors r newSpec.hash syncPods).getLast? = some (some error) := by
      rw [err]
      simp [Option.join_eq_some_iff]
    constructor
    · rintro holds _ _ _ ⟨⟩
      exact fun fails => returned.mp (holds (failed.mpr fails))
    · intro speaks fails
      exact returned.mpr (speaks w' newSpec syncPods rfl (failed.mp fails))

/-- A pod whose proxy has connected and has no specification yet. -/
def freshPod (name : String) (uid : UID) : Pod where
  namespace_ := "ns"
  name := name
  uid := uid
  labels := AList.singleton shardingConfigInjectedKey "shard"
  phase := .running
  ready := false
  deleting := false
  running := true
  young := true
  specManager := .new
  stream := some uid
  prevStatus := none

/-- A stream that has not reported. -/
def freshStream (uid : UID) : Stream :=
  ⟨uid, [], [], false, some ⟨uid, ⟨none, none, none⟩, 0, false, .serving⟩⟩

/-- A shard with two such pods. -/
def freshWorld : World where
  configs := ⟨[{ metadata := { name := "shard", namespace_ := "ns" }
                 spec := ⟨some ⟨∅, []⟩, none, none, none, none⟩ }], by decide⟩
  pods := ⟨[freshPod "app-0" 0, freshPod "app-1" 1], by decide⟩
  nextUID := 2
  streams := [freshStream 0, freshStream 1]
  cachedGrpcSrvConnection := (AList.singleton 0 0).insert 1 1
  podHashExpectation := ∅
  podDeletionExpectation := ∅

/-- The send to the first pod fails. -/
def firstFails : Results where
  getConfig := none
  autoSharding := none
  listLabelled := none
  getShard _ := none
  listPods := none
  delete _ := none
  send uid := if uid = 0 then some "transport is closing" else none

/-- The send to the second pod succeeds, and the pass returns no error. -/
theorem failed_send_is_swallowed :
    ¬∀ (enc : Encoder) (w : World)
      (key : NamespacedName) (r : Results),
      NoneSwallowed (reconcilePass enc w key r) := by
  intro always
  have swallowed := always (.fixed "") freshWorld ("ns", "shard") firstFails
  have made : (reconcilePass (.fixed "") freshWorld ("ns", "shard")
      firstFails).made = [⟨0, some (.send "transport is closing")⟩, ⟨1, none⟩] := rfl
  have ending : (reconcilePass (.fixed "") freshWorld ("ns", "shard")
      firstFails).ending = .returned none := rfl
  rw [NoneSwallowed, made, ending] at swallowed
  obtain ⟨error, returned⟩ := swallowed ⟨_, List.mem_cons_self, rfl⟩
  cases returned

end CtrlMesh.Sharding.Dispatch
