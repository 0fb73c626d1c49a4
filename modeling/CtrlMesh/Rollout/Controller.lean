import CtrlMesh.Api.Server
import CtrlMesh.Labels.Text
import CtrlMesh.LeaderElection.Handler
import Mathlib.Data.List.Infix

/-!
# The rollout controller

`pkg/manager/controllers/rollout`: a StatefulSet whose pods are replaced only once they are deleted
is rolled out shard by shard. A pass deletes outdated pods of the first shard that is not up to
date, its leader last, and records the deletions it expects to hear of; the handler of pod events
drops a record when the pod has gone. The world is what a pass reads, and how its calls end and how
a Go map is gone through is an input.
-/

namespace CtrlMesh.Rollout

open Labels Lib Api

/-- `metav1.OwnerReference`. -/
structure OwnerReference where
  name : String
  controller : Bool
  deriving DecidableEq

/-- `v1.PodCondition`. -/
structure PodCondition where
  type : String
  status : String
  deriving DecidableEq

/-- A pod, as the rollout reads it. -/
structure Pod where
  namespace_ : String
  name : String
  labels : LabelSet
  ownerReferences : List OwnerReference
  deleting : Bool
  conditions : List PodCondition
  deriving DecidableEq

/-- Namespace and name. -/
def Pod.key (po : Pod) : NamespacedName := (po.namespace_, po.name)

/-- `GetControllerOf`. -/
def getControllerOf (po : Pod) : Option OwnerReference := po.ownerReferences.find? (·.controller)

/-- `IsPodReady`. -/
def isPodReady (po : Pod) : Bool :=
  (po.conditions.find? (·.type = "Ready")).any (·.status = "True")

/-- `StatefulSetUpdateStrategyType`. -/
inductive UpdateStrategy where
  | onDelete
  | rollingUpdate
  deriving DecidableEq

/-- The code writes into the annotations, so a nil map is told from an empty one. -/
structure StatefulSet where
  namespace_ : String
  name : String
  labels : StringMap String
  annotations : Option (StringMap String)
  deleting : Bool
  replicas : Option Int
  selector : Option LabelSelector
  updateStrategy : UpdateStrategy
  currentReplicas : Int
  updateRevision : String
  currentRevision : String
  deriving DecidableEq

/-- Namespace and name. -/
def StatefulSet.key (sts : StatefulSet) : NamespacedName := (sts.namespace_, sts.name)

/-- `ctrlmesh.CtrlmeshInRollingLabel`. -/
def inRollingLabel : String := "ctrlmesh.kusionstack.io/rolling"

/-- `ctrlmesh.CtrlmeshRollingStatusAnno`. -/
def rollingStatusAnno : String := "ctrlmesh.kusionstack.io/roll-status"

/-- `ctrlmesh.CtrlmeshRollingExpectedAnno`. -/
def rollingExpectedAnno : String := "ctrlmesh.kusionstack.io/roll-expected"

/-- `v1alpha1.ShardingConfigInjectedKey`. -/
def shardingConfigInjectedKey : String := "ctrlmesh.kusionstack.io/sharding-config-injected"

/-- `appsv1.StatefulSetRevisionLabel` and `appsv1.ControllerRevisionHashLabelKey`. -/
def revisionLabel : String := "controller-revision-hash"

/-- `recentRevision`. -/
def recentRevision (sts : StatefulSet) : String :=
  if sts.updateRevision ≠ "" then sts.updateRevision else sts.currentRevision

/-- The revision in the labels. -/
def Pod.revision (po : Pod) : String := (po.labels.lookup revisionLabel).getD ""

/-- `isUpdatedRevision`. -/
def isUpdatedRevision (sts : StatefulSet) (po : Pod) : Bool := po.revision = recentRevision sts

/-- `deleteLabel`: the object without the label, and whether it had it. -/
def deleteLabel (sts : StatefulSet) (key : String) : StatefulSet × Bool :=
  ({ sts with labels := sts.labels.erase key }, (sts.labels.lookup key).isSome)

/-- An expected deletion. -/
structure Expectation where
  value : Int
  timestamp : Int
  deriving DecidableEq

/-- `expectation.Expectations`, by namespace and name of a pod. -/
abbrev Expectations := StringMap Expectation

/-- The key of an expectation. -/
def expectationKey (po : Pod) : String := po.namespace_ ++ "/" ++ po.name

/-- `Record` at a time. -/
def Expectations.record (e : Expectations) (key : String) (now : Int) : Expectations :=
  e.insert key ⟨now, now⟩

/-- `DeleteExpectation`. -/
def Expectations.deleteExpectation (e : Expectations) (key : String) : Expectations := e.erase key

/-- What `upgrade` does to the outside, in its order: a Delete of a pod with the error it ends with,
and a Record. -/
inductive Effect where
  | delete (po : Pod) (error : Option ApiError)
  | record (key : String) (now : Int)
  deriving DecidableEq

/-- What an effect records. -/
def Expectations.apply (e : Expectations) : Effect → Expectations
  | .delete _ _ => e
  | .record key now => e.record key now

/-- What a pass reads. -/
structure World where
  statefulSets : Registry StatefulSet.key
  configs : Registry ShardingConfig.key
  pods : Registry Pod.key
  leases : NamespacedName → Option (Option String)
  rollingDeleteExpectation : Expectations

/-- An order in which the pods of a map are gone through. -/
structure MapOrder where
  order : List Pod → List Pod
  perm : ∀ pods, (order pods).Perm pods

/-- How the calls of a pass end; one without an error does what it is for. Deletes are told apart by
the pod. With `nilItems` a list without pods is a nil slice. -/
structure Outcomes where
  getStatefulSet : Option ApiError
  listConfigs : Option ApiError
  listPods : Option ApiError
  nilItems : Bool
  getLease : NamespacedName → Option ApiError
  delete : NamespacedName → Option ApiError
  update : Option ApiError
  updateAtEnd : Option ApiError
  order : MapOrder
  now : Int

/-- `getHolderIdentity`, where a lease cannot be read if the call fails. -/
def getHolderIdentity (w : World) (o : Outcomes) (cfg : ShardingConfig) : Option String :=
  LeaderElection.getHolderIdentity
    (fun key => if (o.getLease key).isNone then w.leases key else none) cfg

/-- The pod has a host name of its own in this label. -/
def hostnameLabel : String := "meta.k8s.alipay.com/hostname"

/-- `isLeader`. -/
def isLeader (po : Pod) (identity : String) : Bool :=
  po.name.toList.isPrefixOf identity.toList ||
    match po.labels.lookup hostnameLabel with
    | some host => host.toList.isPrefixOf identity.toList
    | none => false

/-- The pod is going or expected to go. -/
def isTerminating (e : Expectations) (po : Pod) : Bool :=
  po.deleting || (e.lookup (expectationKey po)).isSome

/-- The first loop of `upgrade`: whether a pod is terminating, and the names of the pods to delete;
no result if it returns at an updated pod that is not ready. -/
def examine (e : Expectations) (sts : StatefulSet) :
    List Pod → Bool → StringMap Pod → Option (Bool × StringMap Pod)
  | [], hasTerminatingPod, expectDeletePods => some (hasTerminatingPod, expectDeletePods)
  | po :: pods, hasTerminatingPod, expectDeletePods =>
    let hasTerminatingPod := hasTerminatingPod || isTerminating e po
    if isUpdatedRevision sts po then
      if !isPodReady po then none else examine e sts pods hasTerminatingPod expectDeletePods
    else examine e sts pods hasTerminatingPod (expectDeletePods.insert po.name po)

/-- The variables of the second loop of `upgrade`, and what it has done. -/
structure Removal where
  deleteSize : Nat
  upgradeErr : Option ApiError
  leaderPo : Option Pod
  effects : List Effect

/-- The second loop of `upgrade`, for one pod. -/
def removeOne (o : Outcomes) (holderIdentity : String) (r : Removal) (po : Pod) : Removal :=
  if isLeader po holderIdentity then { r with leaderPo := some po }
  else match o.delete po.key with
    | some error =>
      { r with upgradeErr := some error, effects := r.effects ++ [.delete po (some error)] }
    | none =>
      { r with
        deleteSize := r.deleteSize + 1
        effects := r.effects ++ [.delete po none, .record (expectationKey po) o.now] }

/-- The second loop of `upgrade`. -/
def removeAll (o : Outcomes) (holderIdentity : String) (pods : List Pod) : Removal :=
  pods.foldl (removeOne o holderIdentity) ⟨0, none, none, []⟩

/-- What `upgrade` returns, and what it has done. -/
structure Upgrade where
  finish : Bool
  requeue : Bool
  upgradeErr : Option ApiError
  effects : List Effect

/-- `upgrade` from the second loop on, over the pods to delete in the order of the map. -/
def replacePods (o : Outcomes) (holderIdentity : String) (pods : List Pod) : Upgrade :=
  let r := removeAll o holderIdentity pods
  if r.deleteSize > 0 ∨ r.upgradeErr.isSome then
    ⟨false, r.upgradeErr.isSome, r.upgradeErr, r.effects⟩
  else match r.leaderPo with
    | some leaderPo =>
      let error := o.delete leaderPo.key
      ⟨false, true, error, r.effects ++ [.delete leaderPo error]⟩
    | none => ⟨true, false, none, r.effects⟩

/-- `upgrade`, for the holder identity that `getHolderIdentity` returns. -/
def upgrade (e : Expectations) (o : Outcomes) (holder : Option String) (sts : StatefulSet)
    (pods : List Pod) : Upgrade :=
  match examine e sts pods false ∅ with
  | none => ⟨false, false, none, []⟩
  | some (hasTerminatingPod, expectDeletePods) =>
    if hasTerminatingPod then ⟨false, false, none, []⟩
    else if expectDeletePods.entries.isEmpty then ⟨true, false, none, []⟩
    else match holder with
      | none => ⟨false, true, none, []⟩
      | some holderIdentity =>
        replacePods o holderIdentity (o.order.order (expectDeletePods.entries.map (·.2)))

/-- The pods by the selector of the StatefulSet. A selector that is not valid does not restrict the
list. -/
def listed (w : World) (sts : StatefulSet) (ns : String) : List Pod :=
  w.pods.items.filter fun po =>
    po.namespace_ = ns && (labelSelectorMatches sts.selector po.labels).getD true

/-- The pods of the StatefulSet. -/
def stsPods (w : World) (sts : StatefulSet) (ns : String) : List Pod :=
  (listed w sts ns).filter fun po => (getControllerOf po).any (·.name = sts.name)

/-- The pods that `shardingPods` has under the name of a ShardingConfig. -/
def shardingPods (w : World) (sts : StatefulSet) (ns configName : String) : List Pod :=
  (stsPods w sts ns).filter fun po =>
    po.ownerReferences.head?.any (·.name = sts.name) &&
      po.labels.lookup shardingConfigInjectedKey = some configName

/-- `allConfigs`: the ShardingConfigs with pods, by their names. -/
def allConfigs (w : World) (sts : StatefulSet) (ns : String) : List ShardingConfig :=
  (w.configs.items.filter fun cfg =>
    cfg.metadata.namespace_ = ns &&
      !(shardingPods w sts ns cfg.metadata.name).isEmpty).insertionSort
        (·.metadata.name ≤ ·.metadata.name)

/-- The roll type asks for the shard. -/
def inScope (rollType configName : String) : Bool :=
  rollType = "all" || rollType = "" || decide (rollType.toList <:+: configName.toList)

/-- The names of the updated pods. -/
def upgradedPods (w : World) (sts : StatefulSet) (ns : String) : List String :=
  (allConfigs w sts ns).flatMap fun cfg =>
    ((shardingPods w sts ns cfg.metadata.name).filter (isUpdatedRevision sts)).map (·.name)

/-- `expectedPodRevision`. -/
def expectedPodRevision (w : World) (sts : StatefulSet) (ns rollType : String) :
    StringMap String :=
  (allConfigs w sts ns).foldl (fun revisions cfg =>
    (shardingPods w sts ns cfg.metadata.name).foldl (fun revisions po =>
      revisions.insert po.name
        (if inScope rollType cfg.metadata.name then recentRevision sts else po.revision))
      revisions) ∅

/-- The last loop of `Reconcile`. -/
def rollShards (w : World) (o : Outcomes) (sts : StatefulSet) (ns rollType : String) :
    Expectations → List ShardingConfig → Upgrade
  | _, [] => ⟨true, false, none, []⟩
  | e, cfg :: configs =>
    if !inScope rollType cfg.metadata.name then rollShards w o sts ns rollType e configs
    else
      let up := upgrade e o (getHolderIdentity w o cfg) sts
        (shardingPods w sts ns cfg.metadata.name)
      if up.finish then
        let rest := rollShards w o sts ns rollType (up.effects.foldl Expectations.apply e) configs
        { rest with effects := up.effects ++ rest.effects }
      else up

/-- What a pass can return. -/
inductive Error where
  | api (error : ApiError)
  | waits (message : String)
  deriving DecidableEq

/-- What a pass returns and has done: the effects of the upgrades, the objects of its Updates in
order, and whether it panicked. -/
structure Pass where
  effects : List Effect := []
  updates : List StatefulSet := []
  requeueAfter : Bool := false
  error : Option Error := none
  panicked : Bool := false

section Pass

/-- The JSON texts that the annotations hold. -/
structure Dump where
  names : List String → String
  expectedRevision : String → StringMap String → String

variable (dump : Dump)

/-- `updateRolloutAnno`: the object, and whether it changed. -/
def updateRolloutAnno (sts : StatefulSet) (upgradedPods : List String) : StatefulSet × Bool :=
  let val := if upgradedPods = [] then "" else dump.names upgradedPods
  match sts.annotations with
  | none => ({ sts with annotations := some (AList.singleton rollingStatusAnno val) }, true)
  | some annotations =>
    if (annotations.lookup rollingStatusAnno).getD "" ≠ val then
      ({ sts with annotations := some (annotations.insert rollingStatusAnno val) }, true)
    else (sts, false)

/-- `SetExpectedRevision`: the object, and whether it changed. There is no result when it writes
into a nil map. -/
def setExpectedRevision (sts : StatefulSet) (podRevision : StringMap String) :
    Option (StatefulSet × Bool) :=
  let text := dump.expectedRevision (recentRevision sts) podRevision
  if text = ((sts.annotations.bind (·.lookup rollingExpectedAnno)).getD "") then some (sts, false)
  else sts.annotations.map fun annotations =>
    ({ sts with annotations := some (annotations.insert rollingExpectedAnno text) }, true)

/-- The deferred function of `Reconcile`. -/
def atEnd (o : Outcomes) (sts : StatefulSet) (upgradedPods : List String) (finishRollout : Bool)
    (pass : Pass) : Pass :=
  let (sts, updateAnno) := updateRolloutAnno dump sts upgradedPods
  let (sts, deleted) := if finishRollout then deleteLabel sts inRollingLabel else (sts, false)
  if updateAnno || deleted then
    { pass with
      updates := pass.updates ++ [sts]
      error := match o.updateAtEnd with
        | some error => some (.api error)
        | none => pass.error }
  else pass

/-- `Reconcile` once the pods have been listed. -/
def rollOut (w : World) (o : Outcomes) (sts : StatefulSet) (ns rollType : String) : Pass :=
  let upgraded := upgradedPods w sts ns
  match setExpectedRevision dump sts (expectedPodRevision w sts ns rollType) with
  | none => atEnd dump o sts upgraded false { panicked := true }
  | some (sts, changed) =>
    let updates := if changed then [sts] else []
    let updateErr := if changed then o.update else none
    match updateErr with
    | some error => atEnd dump o sts upgraded false { updates, error := some (.api error) }
    | none =>
      let up := rollShards w o sts ns rollType w.rollingDeleteExpectation (allConfigs w sts ns)
      atEnd dump o sts upgraded up.finish
        { effects := up.effects
          updates
          requeueAfter := up.requeue
          error := up.upgradeErr.map .api }

/-- `Reconcile`. -/
def reconcile (w : World) (key : NamespacedName) (o : Outcomes) : Pass :=
  match o.getStatefulSet, w.statefulSets.find key with
  | some .notFound, _ => {}
  | some error, _ => { error := some (.api error) }
  | none, none => {}
  | none, some sts =>
    match sts.replicas with
    | none => {}
    | some replicas =>
      if sts.deleting then {}
      else if sts.currentReplicas ≠ replicas then
        { requeueAfter := true
          error := some (.waits ("wait sts create pods, expected replicas " ++ toString replicas ++
            ", current replicas " ++ toString sts.currentReplicas)) }
      else match sts.labels.lookup inRollingLabel with
        | none => {}
        | some rollType =>
          if sts.updateStrategy ≠ .onDelete then
            { updates := [(deleteLabel sts inRollingLabel).1], error := o.update.map .api }
          else match o.listConfigs, o.listPods with
            | some error, _ => { error := some (.api error) }
            | none, some error => { error := some (.api error) }
            | none, none =>
              if (listed w sts key.1).isEmpty && o.nilItems then {}
              else if (stsPods w sts key.1).length ≠ replicas then
                { error := some (.waits ("wait sts " ++ sts.name ++ " create pods")) }
              else rollOut dump w o sts key.1 rollType

end Pass

end CtrlMesh.Rollout
