import CtrlMesh.CircuitBreaker.Controller

/-!
# Configurations for the proxies of selected pods

The controllers of CircuitBreakers and of FaultInjections are one program twice: a pass sends the
configuration of an object to the proxies of the pods it selects, lists them in its status,
withdraws it from listed pods it no longer selects, and withdraws it from all listed pods before it
gives up the finalizer. Here the program is written once, for a `Kind` that says what differs, and
with the messages it sends. `CircuitBreaker.Controller` is the kind of the CircuitBreakers without
the messages.
-/

namespace CtrlMesh.Targets

open Labels Lib Api
open CircuitBreaker.Controller (PodCache Write Rpc selects)

/-- The answer of a proxy to a message. -/
structure Response (R : Type) where
  success : Bool
  message : String
  report : R

/-- What tells one controller from the other: the specification of its objects, the configuration it
converts them to, the manager in the proxies, and what a proxy reports. -/
structure Kind where
  Spec : Type
  Config : Type
  Manager : Type
  Report : Type
  decEqReport : DecidableEq Report
  noReport : Report
  /-- What names the API server admits. -/
  Named : String → Prop
  disableKey : String
  updateNoun : String
  disableNoun : String
  selector : Spec → Option LabelSelector
  convert : (name : String) → Named name → Spec → Config
  configHash : Config → String
  /-- The configuration as an UPDATE. -/
  update : Config → Config
  /-- The DELETE of a name. -/
  withdraw : String → Config
  configName : Config → String
  /-- `Sync`: the manager after it, and its answer. -/
  sync : Manager → Int → Config → Manager × Except String (Response Report)
  holds : Manager → String → Bool
  /-- A DELETE always succeeds. -/
  withdrawn : ∀ m now name, ∃ answer, (sync m now (withdraw name)).2 = .ok answer ∧
    answer.success = true

instance (K : Kind) : DecidableEq K.Report := K.decEqReport

/-- The entry of one pod in a status. -/
structure TargetStatus (R : Type) where
  podName : String
  podIP : String
  configHash : String
  message : String
  report : R
  deriving DecidableEq

/-- The status of an object. -/
structure Status (R : Type) where
  observedGeneration : Int
  lastUpdatedTime : Option Int
  currentSpecHash : String
  targetStatus : List (TargetStatus R)

/-- An object of the kind. -/
structure Object (K : Kind) where
  metadata : ObjectMeta
  named : K.Named metadata.name
  generation : Int
  spec : K.Spec
  status : Status K.Report

/-- What the controller reads of a pod. -/
structure PodMeta where
  namespace_ : String
  name : String
  labels : LabelSet
  hasProxyContainer : Bool
  deleting : Bool
  podIP : String
  proxyReady : Bool
  deriving DecidableEq

/-- A pod and the manager of the proxy process that listens on its address. -/
structure Pod (K : Kind) where
  meta_ : PodMeta
  proxy : K.Manager

/-- Namespace and name. -/
def PodMeta.key (po : PodMeta) : NamespacedName := (po.namespace_, po.name)

/-- `isProxyAvailable`. -/
def PodMeta.isProxyAvailable (po : PodMeta) : Bool :=
  !po.deleting && po.podIP != "" && po.proxyReady

section

variable {K : Kind}

/-- Namespace and name. -/
def Object.key (obj : Object K) : NamespacedName := (obj.metadata.namespace_, obj.metadata.name)

/-- The name of the object. -/
def Object.name (obj : Object K) : String := obj.metadata.name

/-- Namespace and name. -/
def Pod.key (po : Pod K) : NamespacedName := po.meta_.key

/-- The configuration of the object. -/
def Object.config (obj : Object K) : K.Config := K.convert obj.metadata.name obj.named obj.spec

end

/-- What a pass sends to a proxy. -/
inductive Message (K : Kind) where
  | update (config : K.Config)
  | withdraw (name : String)

/-- The configuration of a message. -/
def Message.config {K : Kind} : Message K → K.Config
  | .update config => K.update config
  | .withdraw name => K.withdraw name

/-- A message that was sent: the pod whose proxy listens on the address, if any, and whether the
proxy acknowledged it. -/
structure Sent (K : Kind) where
  receiver : Option NamespacedName
  message : Message K
  acknowledged : Bool

/-- The objects, the pods and the cache. -/
structure World (K : Kind) where
  objects : Registry (@Object.key K)
  pods : Registry (@Pod.key K)
  cache : PodCache

/-- How the calls of one pass end. Calls of proxies and reads of pods are told apart by the name of
the pod. -/
structure Outcomes where
  getObject : Bool
  addFinalizer : Write
  listPods : Bool
  sync : String → Rpc
  getPod : String → Bool
  disable : String → Rpc
  updateStatus : Write
  removeFinalizer : Write
  now : Int

section Pass

variable {K : Kind}

/-- The pod whose proxy listens on an address. -/
def World.podAt (w : World K) (ip : String) : Option (Pod K) :=
  w.pods.items.find? fun po => po.meta_.hasProxyContainer ∧ po.meta_.podIP = ip ∧ ip ≠ ""

/-- Put another manager into the proxy of a pod. -/
def World.setProxy (w : World K) (po : Pod K) (proxy : K.Manager) : World K :=
  { w with pods := w.pods.put { po with proxy } }

/-- `SendConfig` to an address. -/
def World.sendConfig (w : World K) (ip : String) (config : K.Config) (rpc : Rpc) :
    World K × Except String (Response K.Report) :=
  match w.podAt ip with
  | none => (w, .error "connection refused")
  | some po =>
    match rpc with
    | .lost error => (w, .error error)
    | .unanswered now error => (w.setProxy po (K.sync po.proxy now config).1, .error error)
    | .answered now =>
      (w.setProxy po (K.sync po.proxy now config).1, (K.sync po.proxy now config).2)

/-- What the pass makes of a response. -/
def accepted (verb noun ip name : String) (response : Except String (Response K.Report)) :
    Except String K.Report := do
  let resp ← response
  if resp.success then .ok resp.report
  else .error ("fail to " ++ verb ++ " pod [" ++ ip ++ ", " ++ name ++ "] " ++ noun ++
    " config, " ++ resp.message)

/-- The variables of the loops of a pass, and the messages it has sent. -/
structure Loop (K : Kind) where
  world : World K
  sent : List (Sent K)
  entries : List (TargetStatus K.Report)
  failed : Bool

/-- Go on with another cache. -/
def Loop.forget (loop : Loop K) (cache : PodCache) : Loop K :=
  { loop with world := { loop.world with cache } }

/-- A message to an address, with its result. -/
def Loop.send (loop : Loop K) (ip : String) (message : Message K) (rpc : Rpc)
    (result : Except String (Response K.Report) → Except String K.Report) :
    Loop K × Except String K.Report :=
  let (w, response) := loop.world.sendConfig ip message.config rpc
  let answer := result response
  ({ loop with
      world := w
      sent := loop.sent ++ [⟨(loop.world.podAt ip).map Pod.key, message, answer.toBool⟩] }, answer)

/-- `syncPodConfig`. -/
def Loop.syncPodConfig (loop : Loop K) (config : K.Config) (podIP : String) (rpc : Rpc) :
    Loop K × Except String K.Report :=
  loop.send podIP (.update config) rpc
    (accepted "update" K.updateNoun podIP (K.configName config))

/-- `disableConfig`. -/
def Loop.disableConfig (loop : Loop K) (podIP name : String) (rpc : Rpc) :
    Loop K × Except String K.Report :=
  loop.send podIP (.withdraw name) rpc (accepted "disable" K.disableNoun podIP name)

/-- `currentPodStatus`. -/
def currentPodStatus (obj : Object K) (podName : String) : Option (TargetStatus K.Report) :=
  obj.status.targetStatus.find? (·.podName = podName)

/-- One selected pod. -/
def syncTarget (obj : Object K) (o : Outcomes) (loop : Loop K) (po : Pod K) : Loop K :=
  let po := po.meta_
  let currentHash := ((currentPodStatus obj po.name).map (·.configHash)).getD ""
  if !po.isProxyAvailable then
    let loop := loop.forget (loop.world.cache.deletePod po.namespace_ po.name)
    { loop with
      entries := loop.entries ++ [⟨po.name, po.podIP, currentHash, "pod " ++ po.namespace_ ++ "/" ++
        po.name ++ " is not available to sync circuit breaker proto", K.noReport⟩] }
  else match loop.syncPodConfig obj.config po.podIP (o.sync po.name) with
    | (loop, .error msg) =>
      { loop with
        entries := loop.entries ++ [⟨po.name, po.podIP, currentHash, msg, K.noReport⟩]
        failed := true }
    | (loop, .ok report) =>
      let loop := loop.forget (loop.world.cache.add po.namespace_ po.name obj.name)
      { loop with
        entries := loop.entries ++ [⟨po.name, po.podIP, K.configHash obj.config, "", report⟩] }

/-- One pod of the old status that is no longer selected; its entry is kept if the withdrawal
fails. -/
def dropTarget (obj : Object K) (o : Outcomes) (loop : Loop K) (st : TargetStatus K.Report) :
    Loop K :=
  if !o.getPod st.podName then { loop with entries := loop.entries ++ [st], failed := true }
  else match loop.world.pods.find (obj.metadata.namespace_, st.podName) with
    | none => loop
    | some po =>
      if !po.meta_.isProxyAvailable then
        loop.forget (loop.world.cache.deletePod po.meta_.namespace_ po.meta_.name)
      else match loop.disableConfig st.podIP obj.name (o.disable st.podName) with
        | (loop, .error _) => { loop with entries := loop.entries ++ [st], failed := true }
        | (loop, .ok _) =>
          loop.forget (loop.world.cache.deleteName obj.metadata.namespace_ po.meta_.name obj.name)

/-- One pod of `clear`. -/
def clearTarget (obj : Object K) (o : Outcomes) (loop : Loop K) (state : TargetStatus K.Report) :
    Loop K :=
  if !loop.world.cache.has obj.metadata.namespace_ state.podName obj.name then loop
  else if !o.getPod state.podName then { loop with failed := true }
  else match loop.world.pods.find (obj.metadata.namespace_, state.podName) with
    | none =>
      loop.forget (loop.world.cache.deleteName obj.metadata.namespace_ state.podName obj.name)
    | some po =>
      if !po.meta_.isProxyAvailable then loop
      else match loop.disableConfig state.podIP obj.name (o.disable state.podName) with
        | (loop, .error _) => { loop with failed := true }
        | (loop, .ok _) =>
          loop.forget (loop.world.cache.deleteName obj.metadata.namespace_ state.podName obj.name)

/-- `clear`. -/
def clear (w : World K) (obj : Object K) (o : Outcomes) : Loop K :=
  obj.status.targetStatus.foldl (clearTarget obj o) ⟨w, [], [], false⟩

/-- What an update stores: an object goes once it is marked and its last finalizer is gone. -/
def World.stored (w : World K) (obj : Object K) : World K :=
  if obj.metadata.deletionTimestamp.isSome ∧ obj.metadata.finalizers = [] then
    { w with objects := w.objects.erase obj.key }
  else { w with objects := w.objects.put obj }

/-- `Update` of an object. The flag tells an error. -/
def World.update (w : World K) (obj : Object K) (write : Write) : World K × Bool :=
  match write with
  | .lost => (w, true)
  | _ => (w.stored obj, decide (write ≠ .done))

/-- `Status().Update` of an object. The flag tells an error. -/
def World.updateStatus (w : World K) (obj : Object K) (write : Write) : World K × Bool :=
  match write with
  | .lost => (w, true)
  | _ => ({ w with objects := w.objects.put obj }, decide (write ≠ .done))

/-- The object is disabled or being deleted. -/
def Object.shouldClear (obj : Object K) : Bool :=
  (obj.metadata.labels.lookup K.disableKey).isSome || obj.metadata.deletionTimestamp.isSome

/-- Whether the object is protected. -/
def Object.hasFinalizer (obj : Object K) : Bool :=
  obj.metadata.finalizers.contains protectFinalizer

/-- Protect the object. -/
def Object.addFinalizer (obj : Object K) : Object K :=
  { obj with metadata := { obj.metadata with
    finalizers := obj.metadata.finalizers ++ [protectFinalizer] } }

/-- Unprotect the object. -/
def Object.removeFinalizer (obj : Object K) : Object K :=
  { obj with metadata := { obj.metadata with
    finalizers := obj.metadata.finalizers.filter (· ≠ protectFinalizer) } }

/-- What follows `clear` in `tryClearOrAddFinalizer`. -/
def release (w : World K) (obj : Object K) (o : Outcomes) : World K × Bool :=
  if obj.status.targetStatus = [] then w.update obj.removeFinalizer o.removeFinalizer
  else
    let obj := { obj with status := ⟨obj.generation, some o.now, "", []⟩ }
    match w.updateStatus obj o.updateStatus with
    | (w, true) => (w, true)
    | (w, false) => w.update obj.removeFinalizer o.removeFinalizer

/-- The world after a pass, the pods it selected, the messages it sent, and whether it returns an
error. -/
structure Pass (K : Kind) where
  world : World K
  selected : List PodMeta
  sent : List (Sent K)
  failed : Bool

/-- The pods of a list, as the first loop of `Reconcile` goes over them. -/
def World.podList (w : World K) (obj : Object K) : List (Pod K) :=
  w.pods.items.filter fun po =>
    po.meta_.namespace_ = obj.metadata.namespace_ &&
      selects (K.selector obj.spec) po.meta_.labels && po.meta_.hasProxyContainer

/-- The status entries of pods that have no new one. -/
def unselected (obj : Object K) (targetStatus : List (TargetStatus K.Report)) :
    List (TargetStatus K.Report) :=
  obj.status.targetStatus.filter fun st => st.podName ∉ targetStatus.map (·.podName)

/-- The end of `Reconcile`. The status is written unless its hash and its entries are the stored
ones. -/
def writeStatus (w : World K) (obj : Object K) (o : Outcomes)
    (targetStatus : List (TargetStatus K.Report)) : World K × Bool :=
  if K.configHash obj.config = obj.status.currentSpecHash ∧
      targetStatus = obj.status.targetStatus then (w, false)
  else w.updateStatus { obj with
    status := ⟨obj.generation, none, K.configHash obj.config, targetStatus⟩ } o.updateStatus

/-- `Reconcile` from the list of the pods on. -/
def syncTargets (w : World K) (obj : Object K) (o : Outcomes) : Pass K :=
  if !o.listPods then ⟨w, [], [], true⟩
  else
    let synced := (w.podList obj).foldl (syncTarget obj o) ⟨w, [], [], false⟩
    let dropped := (unselected obj synced.entries).foldl (dropTarget obj o)
      { synced with entries := [] }
    let (w', unwritten) := writeStatus dropped.world obj o (synced.entries ++ dropped.entries)
    ⟨w', (w.podList obj).map (·.meta_), dropped.sent, dropped.failed || unwritten⟩

/-- `Reconcile` of an object that has been read, with `tryClearOrAddFinalizer`. -/
def reconcileObject (w : World K) (obj : Object K) (o : Outcomes) : Pass K :=
  if obj.shouldClear then
    if !obj.hasFinalizer then ⟨w, [], [], false⟩
    else
      let cleared := clear w obj o
      if cleared.failed then ⟨cleared.world, [], cleared.sent, true⟩
      else
        let (w, failed) := release cleared.world obj o
        ⟨w, [], cleared.sent, failed⟩
  else if obj.hasFinalizer then syncTargets w obj o
  else match w.update obj.addFinalizer o.addFinalizer with
    | (w, true) => ⟨w, [], [], true⟩
    | (w, false) => syncTargets w obj.addFinalizer o

/-- `Reconcile`. -/
def reconcile (w : World K) (key : NamespacedName) (o : Outcomes) : Pass K :=
  if !o.getObject then ⟨w, [], [], true⟩
  else match w.objects.find key with
    | none => ⟨w, [], [], false⟩
    | some obj => reconcileObject w obj o

end Pass

end CtrlMesh.Targets
