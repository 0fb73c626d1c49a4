import CtrlMesh.Api.Server
import CtrlMesh.CircuitBreaker.Manager
import CtrlMesh.Labels.Text

/-!
# The CircuitBreaker controller

`circuitbreaker_controller.go` and `cache.go`: a pass of the reconciler sends the configuration of
a CircuitBreaker to the proxies of the pods it selects, withdraws it from pods it no longer selects,
and withdraws it from all of them before it gives up the finalizer that protects the object. The
world is what the passes act on: the stored objects, the pods with the circuit-breaker manager of
their proxy, and the in-memory cache. A pass is one step; how its calls end is an input.
-/

namespace CtrlMesh.CircuitBreaker.Controller

open Labels Lib Api

/-- `LimitingSnapshot` of the API, which has no time of recovery. -/
structure StatusSnapshot where
  name : String
  state : BreakerState
  lastTransitionTime : Option Int
  deriving DecidableEq

/-- `ConvertSnapshots`. -/
def convertSnapshots (snapshots : List LimitingSnapshot) : List StatusSnapshot :=
  snapshots.map fun s => ⟨s.limitingName, s.state, s.lastTransitionTime⟩

/-- `TargetStatus`: the entry of one pod. -/
structure TargetStatus where
  podName : String
  podIP : String
  configHash : String
  message : String
  limitingSnapshots : List StatusSnapshot
  deriving DecidableEq

/-- `CircuitBreakerStatus`. -/
structure CircuitBreakerStatus where
  observedGeneration : Int
  lastUpdatedTime : Option Int
  currentSpecHash : String
  targetStatus : List TargetStatus
  deriving DecidableEq

/-- The rules stand as `ConvertCircuitBreaker` writes them. -/
structure CircuitBreakerSpec where
  selector : Option LabelSelector
  trafficInterceptRules : List TrafficInterceptRule
  rateLimitings : List RateLimiting

/-- A `CircuitBreaker`. -/
structure Breaker where
  metadata : ObjectMeta
  generation : Int
  spec : CircuitBreakerSpec
  status : CircuitBreakerStatus

/-- Namespace and name. -/
def Breaker.key (cb : Breaker) : NamespacedName :=
  (cb.metadata.namespace_, cb.metadata.name)

/-- A pod and the manager of the proxy process that listens on its address. -/
structure Pod where
  namespace_ : String
  name : String
  labels : LabelSet
  hasProxyContainer : Bool
  deleting : Bool
  podIP : String
  proxyReady : Bool
  proxy : Manager

/-- Namespace and name. -/
def Pod.key (po : Pod) : NamespacedName := (po.namespace_, po.name)

/-- `isProxyAvailable`. -/
def isProxyAvailable (po : Pod) : Bool := !po.deleting && po.podIP != "" && po.proxyReady

/-- `podCache`: the names of the configurations each pod is believed to have. -/
abbrev PodCache := StringMap (Finset String)

/-- The key of a pod in the cache. -/
def cacheKey (ns podName : String) : String := ns ++ "/" ++ podName

namespace PodCache

/-- `Has`. -/
def has (c : PodCache) (ns podName cbName : String) : Bool :=
  match c.lookup (cacheKey ns podName) with
  | none => false
  | some configs => decide (cbName ∈ configs)

/-- `Add`. -/
def add (c : PodCache) (ns podName cbName : String) : PodCache :=
  c.insert (cacheKey ns podName)
    (insert cbName ((c.lookup (cacheKey ns podName)).getD ∅))

/-- `Delete` without names. -/
def deletePod (c : PodCache) (ns podName : String) : PodCache := c.erase (cacheKey ns podName)

/-- `Delete` of one name. -/
def deleteName (c : PodCache) (ns podName cbName : String) : PodCache :=
  match c.lookup (cacheKey ns podName) with
  | none => c
  | some configs => c.insert (cacheKey ns podName) (configs.erase cbName)

variable {c : PodCache} {ns podName cbName ns' podName' cbName' : String}

/-- What is known stays known. -/
theorem has_add (known : c.has ns podName cbName = true) :
    (c.add ns' podName' cbName').has ns podName cbName = true := by
  unfold has add at *
  generalize cacheKey ns podName = key at *
  generalize cacheKey ns' podName' = key'
  by_cases same : key = key'
  · subst same
    cases found : c.lookup key with
    | none => simp [found] at known
    | some configs =>
      have member : cbName ∈ configs := by simpa [found] using known
      simp [member]
  · simpa [AList.lookup_insert_ne same] using known

/-- What is added is known. -/
theorem has_add_self : (c.add ns podName cbName).has ns podName cbName = true := by
  simp [has, add]

/-- Other pods are kept. -/
theorem has_deletePod (other : cacheKey ns podName ≠ cacheKey ns' podName') :
    (c.deletePod ns' podName').has ns podName cbName = c.has ns podName cbName := by
  simp [has, deletePod, AList.lookup_erase_ne other]

/-- Other pods and names are kept. -/
theorem has_deleteName (other : cacheKey ns podName ≠ cacheKey ns' podName' ∨ cbName ≠ cbName') :
    (c.deleteName ns' podName' cbName').has ns podName cbName = c.has ns podName cbName := by
  unfold has deleteName
  generalize cacheKey ns podName = key at *
  generalize cacheKey ns' podName' = key' at *
  cases found : c.lookup key' with
  | none => rfl
  | some configs =>
    by_cases same : key = key'
    · subst same
      have different : cbName ≠ cbName' := other.resolve_left (· rfl)
      simp [found, different]
    · simp [AList.lookup_insert_ne same]

end PodCache

/-- Keys of the cache are those of the pods, as no namespace has a slash. -/
theorem cacheKey_inj {ns podName ns' podName' : String} (plain : '/' ∉ ns.toList)
    (plain' : '/' ∉ ns'.toList) (same : cacheKey ns podName = cacheKey ns' podName') :
    ns = ns' ∧ podName = podName' := by
  have characters : ns.toList ++ '/' :: podName.toList = ns'.toList ++ '/' :: podName'.toList := by
    simpa [cacheKey] using congrArg String.toList same
  obtain ⟨left, right⟩ := append_mark_inj plain plain' characters
  exact ⟨String.toList_inj.mp left, String.toList_inj.mp right⟩

/-- The objects, the pods and the cache. -/
structure World where
  breakers : Registry Breaker.key
  pods : Registry Pod.key
  cache : PodCache

/-- How a write to the API server ends: acknowledged; not applied; applied without an answer. -/
inductive Write where
  | done
  | lost
  | unanswered
  deriving DecidableEq

/-- How a call of a proxy ends, with the time the proxy handles it at. -/
inductive Rpc where
  | answered (now : Int)
  | lost (error : String)
  | unanswered (now : Int) (error : String)
  deriving DecidableEq

/-- How the calls of one pass end. Calls of proxies and reads of pods are told apart by the name of
the pod. -/
structure Outcomes where
  getBreaker : Bool
  addFinalizer : Write
  listPods : Bool
  sync : String → Rpc
  getPod : String → Bool
  disable : String → Rpc
  updateStatus : Write
  removeFinalizer : Write
  now : Int

/-- A list of pods by the selector of a CircuitBreaker. A selector that is not valid does not
restrict it. -/
def selects (selector : Option LabelSelector) (labels : LabelSet) : Bool :=
  (labelSelectorMatches selector labels).getD true

section Pass

variable (compile : Compile) (hash : Config → String)

/-- `ConvertCircuitBreaker`. -/
def convertCircuitBreaker (cb : Breaker) : Config :=
  let protoBreaker : Config :=
    { option := .delete
      name := cb.metadata.name
      configHash := ""
      trafficInterceptRules := cb.spec.trafficInterceptRules
      rateLimitings := cb.spec.rateLimitings }
  { protoBreaker with configHash := hash protoBreaker }

/-- The pod whose proxy listens on an address. -/
def World.podAt (w : World) (ip : String) : Option Pod :=
  w.pods.items.find? fun po => po.hasProxyContainer ∧ po.podIP = ip ∧ ip ≠ ""

/-- Put another manager into the proxy of a pod. -/
def World.setProxy (w : World) (po : Pod) (proxy : Manager) : World :=
  { w with pods := w.pods.put { po with proxy := proxy } }

/-- `SendConfig` to an address. -/
def World.sendConfig (w : World) (ip : String) (config : Config) (rpc : Rpc) :
    World × Except String ConfigResp :=
  match w.podAt ip with
  | none => (w, .error "connection refused")
  | some po =>
    match rpc with
    | .lost error => (w, .error error)
    | .unanswered now error => (w.setProxy po (po.proxy.synced compile now config), .error error)
    | .answered now => (w.setProxy po (po.proxy.synced compile now config),
        match po.proxy.syncAnswer compile now config with
        | .returned (resp, none) => .ok resp
        | .returned (_, some error) => .error error
        | .panicked => .error "panic")

/-- `syncPodConfig`. -/
def syncPodConfig (w : World) (cb : Config) (podIP : String) (rpc : Rpc) :
    World × Except String (List LimitingSnapshot) :=
  match w.sendConfig compile podIP { cb with option := .update } rpc with
  | (w, .error error) => (w, .error error)
  | (w, .ok resp) =>
    if resp.success then (w, .ok resp.limitingSnapshot)
    else (w, .error ("fail to update pod [" ++ podIP ++ ", " ++ cb.name ++
      "] circuit breaker config, " ++ resp.message))

/-- `disableConfig`. -/
def disableConfig (w : World) (podIP name : String) (rpc : Rpc) : World × Except String Unit :=
  match w.sendConfig compile podIP ⟨.delete, name, "", [], []⟩ rpc with
  | (w, .error error) => (w, .error error)
  | (w, .ok resp) =>
    if resp.success then (w, .ok ())
    else (w, .error ("fail to disable pod [" ++ podIP ++ ", " ++ name ++
      "] circuit breaker config, " ++ resp.message))

/-- `currentPodStatus`. -/
def currentPodStatus (cb : Breaker) (podName : String) : Option TargetStatus :=
  cb.status.targetStatus.find? (·.podName = podName)

/-- One selected pod: the world, the entries written so far, and whether an error was met. -/
def syncTarget (cb : Breaker) (o : Outcomes) (acc : World × List TargetStatus × Bool)
    (po : Pod) : World × List TargetStatus × Bool :=
  let (w, targetStatus, failed) := acc
  let protoCb := convertCircuitBreaker hash cb
  let currentHash := ((currentPodStatus cb po.name).map (·.configHash)).getD ""
  if !isProxyAvailable po then
    ({ w with cache := w.cache.deletePod po.namespace_ po.name },
      targetStatus ++ [⟨po.name, po.podIP, currentHash, "pod " ++ po.namespace_ ++ "/" ++ po.name ++
        " is not available to sync circuit breaker proto", []⟩], failed)
  else match syncPodConfig compile w protoCb po.podIP (o.sync po.name) with
    | (w, .error msg) =>
      (w, targetStatus ++ [⟨po.name, po.podIP, currentHash, msg, []⟩], true)
    | (w, .ok snapshots) =>
      ({ w with cache := w.cache.add po.namespace_ po.name cb.metadata.name },
        targetStatus ++ [⟨po.name, po.podIP, protoCb.configHash, "", convertSnapshots snapshots⟩],
        failed)

/-- A pod of the old status that is no longer selected: the world, the entries kept after failed
withdrawals, and whether an error was met. -/
def dropTarget (cb : Breaker) (o : Outcomes) (acc : World × List TargetStatus × Bool)
    (st : TargetStatus) : World × List TargetStatus × Bool :=
  let (w, failedStatus, failed) := acc
  if !o.getPod st.podName then (w, failedStatus ++ [st], true)
  else match w.pods.find (cb.metadata.namespace_, st.podName) with
    | none => acc
    | some po =>
      if !isProxyAvailable po then
        ({ w with cache := w.cache.deletePod po.namespace_ po.name }, failedStatus, failed)
      else match disableConfig compile w st.podIP cb.metadata.name (o.disable st.podName) with
        | (w, .error _) => (w, failedStatus ++ [st], true)
        | (w, .ok _) =>
          ({ w with cache := w.cache.deleteName cb.metadata.namespace_ po.name cb.metadata.name },
            failedStatus, failed)

/-- One pod of `clear`: the world, and whether an error was met. -/
def clearTarget (cb : Breaker) (o : Outcomes) (acc : World × Bool) (state : TargetStatus) :
    World × Bool :=
  let (w, failed) := acc
  let forget (w : World) : World :=
    { w with cache :=
        w.cache.deleteName cb.metadata.namespace_ state.podName cb.metadata.name }
  if !w.cache.has cb.metadata.namespace_ state.podName cb.metadata.name then acc
  else if !o.getPod state.podName then (w, true)
  else match w.pods.find (cb.metadata.namespace_, state.podName) with
    | none => (forget w, failed)
    | some po =>
      if !isProxyAvailable po then acc
      else match disableConfig compile w state.podIP cb.metadata.name (o.disable state.podName) with
        | (w, .error _) => (w, true)
        | (w, .ok _) => (forget w, failed)

/-- `clear`. -/
def clear (w : World) (cb : Breaker) (o : Outcomes) : World × Bool :=
  cb.status.targetStatus.foldl (clearTarget compile cb o) (w, false)

/-- What an update stores: an object goes once it is marked and its last finalizer is gone. -/
def World.stored (w : World) (cb : Breaker) : World :=
  if cb.metadata.deletionTimestamp.isSome ∧ cb.metadata.finalizers = [] then
    { w with breakers := w.breakers.erase cb.key }
  else { w with breakers := w.breakers.put cb }

/-- `Update` of an object. The flag tells an error. -/
def World.update (w : World) (cb : Breaker) (write : Write) : World × Bool :=
  match write with
  | .lost => (w, true)
  | _ => (w.stored cb, decide (write ≠ .done))

/-- `Status().Update` of an object. The flag tells an error. -/
def World.updateStatus (w : World) (cb : Breaker) (write : Write) : World × Bool :=
  match write with
  | .lost => (w, true)
  | _ => ({ w with breakers := w.breakers.put cb }, decide (write ≠ .done))

/-- `CtrlmeshCircuitBreakerDisableKey`. -/
def ctrlmeshCircuitBreakerDisableKey : String := "circuitbreaker.ctrlmesh.kusionstack.io/disable"

/-- The object is disabled or being deleted. -/
def Breaker.shouldClear (cb : Breaker) : Bool :=
  (cb.metadata.labels.lookup ctrlmeshCircuitBreakerDisableKey).isSome ||
    cb.metadata.deletionTimestamp.isSome

/-- Whether the object is protected. -/
def Breaker.hasFinalizer (cb : Breaker) : Bool :=
  cb.metadata.finalizers.contains protectFinalizer

/-- Protect the object. -/
def Breaker.addFinalizer (cb : Breaker) : Breaker :=
  { cb with metadata := { cb.metadata with
    finalizers := cb.metadata.finalizers ++ [protectFinalizer] } }

/-- Unprotect the object. -/
def Breaker.removeFinalizer (cb : Breaker) : Breaker :=
  { cb with metadata := { cb.metadata with
    finalizers := cb.metadata.finalizers.filter (· ≠ protectFinalizer) } }

/-- What follows `clear` in `tryClearOrAddFinalizer`. -/
def release (w : World) (cb : Breaker) (o : Outcomes) : World × Bool :=
  if cb.status.targetStatus = [] then w.update cb.removeFinalizer o.removeFinalizer
  else
    let cb := { cb with status := ⟨cb.generation, some o.now, "", []⟩ }
    match w.updateStatus cb o.updateStatus with
    | (w, true) => (w, true)
    | (w, false) => w.update cb.removeFinalizer o.removeFinalizer

/-- The result is the object the pass goes on with, or how the pass ends: with an error or not. -/
def tryClearOrAddFinalizer (w : World) (cb : Breaker) (o : Outcomes) :
    World × Except Bool Breaker :=
  if cb.shouldClear then
    if !cb.hasFinalizer then (w, .error false)
    else match clear compile w cb o with
      | (w, true) => (w, .error true)
      | (w, false) =>
        let (w, failed) := release w cb o
        (w, .error failed)
  else if cb.hasFinalizer then (w, .ok cb)
  else match w.update cb.addFinalizer o.addFinalizer with
    | (w, true) => (w, .error true)
    | (w, false) => (w, .ok cb.addFinalizer)

/-- The pods of a list, as the first loop of `Reconcile` goes over them. -/
def World.podList (w : World) (cb : Breaker) : List Pod :=
  w.pods.items.filter fun po =>
    po.namespace_ = cb.metadata.namespace_ && selects cb.spec.selector po.labels &&
      po.hasProxyContainer

/-- `Reconcile` from the list of the pods on. The status is written unless its hash and its entries
are the stored ones. -/
def syncTargets (w : World) (cb : Breaker) (o : Outcomes) : World × Bool :=
  if !o.listPods then (w, true)
  else
    let (w, targetStatus, failed) :=
      (w.podList cb).foldl (syncTarget compile hash cb o) (w, [], false)
    let unselected := cb.status.targetStatus.filter fun st =>
      st.podName ∉ targetStatus.map (·.podName)
    let (w, failedStatus, failed) := unselected.foldl (dropTarget compile cb o) (w, [], failed)
    let currentSpecHash := (convertCircuitBreaker hash cb).configHash
    if currentSpecHash = cb.status.currentSpecHash ∧
        targetStatus ++ failedStatus = cb.status.targetStatus then (w, failed)
    else
      let status := ⟨cb.generation, none, currentSpecHash, targetStatus ++ failedStatus⟩
      let (w, unwritten) := w.updateStatus { cb with status := status } o.updateStatus
      (w, failed || unwritten)

/-- `Reconcile`: the world after it and whether it returns an error. -/
def reconcile (w : World) (key : NamespacedName) (o : Outcomes) : World × Bool :=
  if !o.getBreaker then (w, true)
  else match w.breakers.find key with
    | none => (w, false)
    | some cb =>
      match tryClearOrAddFinalizer compile w cb o with
      | (w, .error failed) => (w, failed)
      | (w, .ok cb) => syncTargets compile hash w cb o

/-- Passes, the life of the pods, and edits of the objects. The handler hears of a pod that has gone
(`podDeleted`) at some later time; the API server sets generations. -/
inductive Event where
  | reconcile (key : NamespacedName) (o : Outcomes)
  | addPod (po : Pod)
  | setReady (key : NamespacedName) (ready : Bool)
  | relabel (key : NamespacedName) (labels : LabelSet)
  | terminate (key : NamespacedName)
  | restartProxy (key : NamespacedName) (podIP : String)
  | removePod (key : NamespacedName)
  | podDeleted (key : NamespacedName)
  | createBreaker (cb : Breaker)
  | editBreaker (key : NamespacedName) (labels : StringMap String) (generation : Int)
      (spec : CircuitBreakerSpec)
  | deleteBreaker (key : NamespacedName) (now : Int)
  | restartManager

/-- No pod but this one has the address. -/
def World.addressFree (w : World) (key : NamespacedName) (ip : String) : Bool :=
  ip = "" || w.pods.items.all fun po => po.podIP ≠ ip || po.key = key

/-- Change a pod that exists. -/
def World.modifyPod (w : World) (key : NamespacedName) (change : Pod → Pod) : Option World :=
  (w.pods.find key).map fun po => { w with pods := w.pods.put (change po) }

/-- A namespace has no slash. A pod starts with an empty manager, and addresses are not shared; a
new CircuitBreaker has no status. -/
def step (w : World) : Event → Option World
  | .reconcile key o => some (CtrlMesh.CircuitBreaker.Controller.reconcile compile hash w key o).1
  | .addPod po =>
    if (w.pods.find po.key).isNone ∧ '/' ∉ po.namespace_.toList ∧ w.addressFree po.key po.podIP then
      some { w with pods := w.pods.put { po with proxy := .new } }
    else none
  | .setReady key ready => w.modifyPod key ({ · with proxyReady := ready })
  | .relabel key labels => w.modifyPod key ({ · with labels := labels })
  | .terminate key => w.modifyPod key ({ · with deleting := true })
  | .restartProxy key podIP =>
    if w.addressFree key podIP then
      w.modifyPod key ({ · with proxy := .new, podIP := podIP })
    else none
  | .removePod key => some { w with pods := w.pods.erase key }
  | .podDeleted key =>
    if '/' ∉ key.1.toList then some { w with cache := w.cache.deletePod key.1 key.2 } else none
  | .createBreaker cb =>
    if (w.breakers.find cb.key).isNone ∧ '/' ∉ cb.metadata.namespace_.toList then
      some { w with breakers := w.breakers.put { cb with
        metadata := { cb.metadata with deletionTimestamp := none }
        status := ⟨0, none, "", []⟩ } }
    else none
  | .editBreaker key labels generation spec =>
    (w.breakers.find key).map fun cb => { w with breakers := w.breakers.put { cb with
      metadata := { cb.metadata with labels := labels }
      generation := generation
      spec := spec } }
  | .deleteBreaker key now =>
    (w.breakers.find key).map fun cb =>
      if cb.metadata.finalizers = [] then { w with breakers := w.breakers.erase key }
      else { w with breakers := w.breakers.put { cb with metadata := { cb.metadata with
        deletionTimestamp := some (cb.metadata.deletionTimestamp.getD now) } } }
  | .restartManager => some { w with cache := ∅ }

end Pass

end CtrlMesh.CircuitBreaker.Controller
