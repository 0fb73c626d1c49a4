import Mathlib.Data.Finset.Basic
import Mathlib.Data.List.AList
import Mathlib.Data.List.Sort
import CtrlMesh.Labels.Text
import CtrlMesh.Proxy.SpecManager

/-!
# Dispatching specifications to proxies

The protocol between the ShardingConfig controller (`shardingconfig_controller.go`, `grpc_server.go`
and `event_handler.go` of `shardingconfigserver`) and the proxies (`grpc.go`). A proxy opens a
stream, sends its status, and receives specifications on it; the manager keeps the connection of
every pod, the hash it expects a pod to report, and the pods it expects to go. A pass of the
reconciler is one step; the handler of a stream takes a step for each of its accesses to the maps,
since passes run in between. The messages on a stream arrive in order, or not at all once an end has
left it.
-/

namespace CtrlMesh.Sharding.Dispatch

open Labels Lib Api Proxy

/-- The UID of a pod. -/
abbrev UID := Nat

/-- A stream is known by its number. -/
abbrev StreamID := Nat

/-- `v1.PodPhase`. -/
inductive Phase where
  | pending
  | running
  | succeeded
  | failed
  | unknown
  deriving DecidableEq

/-- A pod with its proxy: the specification manager, the stream its client reads (`stream`) and the
last status sent on it. A `young` pod is less than a minute old. -/
structure Pod where
  namespace_ : String
  name : String
  uid : UID
  labels : LabelSet
  phase : Phase
  ready : Bool
  deleting : Bool
  running : Bool
  young : Bool
  specManager : SpecManager
  stream : Option StreamID
  prevStatus : Option ProxyStatus
  deriving DecidableEq

/-- Namespace and name. -/
def Pod.key (po : Pod) : NamespacedName := (po.namespace_, po.name)

/-- `ShardingConfigInjectedKey`. -/
def shardingConfigInjectedKey : String := "ctrlmesh.kusionstack.io/sharding-config-injected"

/-- The name of the ShardingConfig in the labels of the pod. -/
def Pod.shardName (po : Pod) : String := (po.labels.lookup shardingConfigInjectedKey).getD ""

/-- `IsPodActive`. -/
def isPodActive (po : Pod) : Bool := po.phase ≠ .succeeded && po.phase ≠ .failed && !po.deleting

/-- How far the handler of a stream is: the connection is stored; the old expectation is dropped and
the stream served; the stream has ended and the expectation is dropped again; the connection is
marked. -/
inductive Stage where
  | stored
  | serving
  | forgotten
  | ended
  deriving DecidableEq

/-- `grpcSrvConnection`, with the pod it was stored for. -/
structure Conn where
  uid : UID
  status : ProxyStatus
  sendTimes : Nat
  disconnected : Bool
  stage : Stage
  deriving DecidableEq

/-- A stream with the messages on their way: specifications to its pod, statuses to the manager. A
severed one has lost its manager. -/
structure Stream where
  opener : UID
  specs : List ProxySpec
  statuses : List ProxyStatus
  severed : Bool
  conn : Option Conn
  deriving DecidableEq

/-- The API server, the streams and the manager. -/
structure World where
  configs : Registry ShardingConfig.key
  pods : Registry Pod.key
  nextUID : UID
  streams : List Stream
  cachedGrpcSrvConnection : AList (fun _ : UID => StreamID)
  podHashExpectation : AList (fun _ : UID => String)
  podDeletionExpectation : Finset UID

/-- Nothing has happened yet. -/
def World.start : World := ⟨.empty _, .empty _, 0, [], ∅, ∅, ∅⟩

namespace World

variable (w : World)

/-- The connection of a stream. -/
def conn (sid : StreamID) : Option Conn := w.streams[sid]?.bind (·.conn)

/-- The cached connection of a pod, with its stream. -/
def cached (uid : UID) : Option (StreamID × Conn) := do
  let sid ← w.cachedGrpcSrvConnection.lookup uid
  let conn ← w.conn sid
  some (sid, conn)

/-- Change a stream. -/
def modifyStream (sid : StreamID) (f : Stream → Stream) : World :=
  { w with streams := w.streams.modify sid f }

/-- Change the connection of a stream. -/
def modifyConn (sid : StreamID) (f : Conn → Conn) : World :=
  w.modifyStream sid fun s => { s with conn := s.conn.map f }

/-- `podHashExpectation.Delete`. -/
def forget (uid : UID) : World :=
  { w with podHashExpectation := w.podHashExpectation.erase uid }

/-- Change a pod that exists. -/
def modifyPod (key : NamespacedName) (f : Pod → Pod) : World :=
  match w.pods.find key with
  | none => w
  | some po => { w with pods := w.pods.put (f po) }

/-- `Delete` of a pod: its containers are stopped in their time. -/
def deletePod (key : NamespacedName) : World := w.modifyPod key ({ · with deleting := true })

/-- `conn.send`: the specification is on its way unless the call fails. -/
def send (sid : StreamID) (spec : ProxySpec) (ok : Bool) : World :=
  let w := w.modifyConn sid fun conn => { conn with sendTimes := conn.sendTimes + 1 }
  if ok then w.modifyStream sid fun s => { s with specs := s.specs ++ [spec] } else w

end World

/-- The pod that `Register` finds for a first status. -/
def registers (w : World) (pStatus : ProxyStatus) : Option Pod := do
  let selfInfo ← pStatus.selfInfo
  if selfInfo.1 = "" || selfInfo.2 = "" then none
  else
    let po ← w.pods.find selfInfo
    if !isPodActive po || po.shardName = "" then none else some po

/-- `Register` up to the store of the connection; it closes the stream if it refuses the status. -/
def registerStore (w : World) (sid : StreamID) : Option World := do
  let s ← w.streams[sid]?
  if s.severed || s.conn.isSome then none
  else match s.statuses with
    | [] => none
    | pStatus :: statuses =>
      match registers w pStatus with
      | none => some (w.modifyStream sid ({ · with statuses := [], severed := true }))
      | some po =>
        let w := w.modifyStream sid fun s =>
          { s with statuses := statuses, conn := some ⟨po.uid, pStatus, 0, false, .stored⟩ }
        some { w with
          cachedGrpcSrvConnection := w.cachedGrpcSrvConnection.insert po.uid sid }

/-- The handler goes from one stage to the next and drops the expectation of its pod. -/
def forgetAt (w : World) (sid : StreamID) (stage next : Stage) : Option World := do
  let conn ← w.conn sid
  if conn.stage = stage then
    some ((w.modifyConn sid ({ · with stage := next })).forget conn.uid)
  else none

/-- The rest of the registration. -/
def registerForget (w : World) (sid : StreamID) : Option World := forgetAt w sid .stored .serving

/-- The first half of the end of a connection. -/
def cleanupForget (w : World) (sid : StreamID) : Option World := forgetAt w sid .serving .forgotten

/-- The second half. -/
def cleanupMark (w : World) (sid : StreamID) : Option World := do
  let conn ← w.conn sid
  if conn.stage = .forgotten then
    some (w.modifyConn sid ({ · with stage := .ended, disconnected := true }))
  else none

/-- The goroutine that receives the later statuses of a stream. -/
def receiveStatus (w : World) (sid : StreamID) : Option World := do
  let s ← w.streams[sid]?
  let conn ← s.conn
  if conn.stage = .stored then none
  else match s.statuses with
    | [] => none
    | pStatus :: statuses =>
      some (w.modifyStream sid ({ · with
        statuses := statuses, conn := some { conn with status := pStatus } }))

/-- The client opens a stream and sends its first status. -/
def connect (w : World) (key : NamespacedName) : Option World := do
  let po ← w.pods.find key
  if po.running then
    some { w with
      pods := w.pods.put { po with stream := some w.streams.length, prevStatus := none }
      streams := w.streams ++ [⟨po.uid, [], [po.specManager.firstStatus po.key], false, none⟩] }
  else none

/-- The client leaves its stream. A restarted proxy has left it too, and reads its specifications
back from its files. -/
def disconnect (w : World) (key : NamespacedName) : Option World := do
  let po ← w.pods.find key
  some { w with pods := w.pods.put { po with stream := none } }

/-- The client receives the next specification of its stream. -/
def receiveSpec (w : World) (key : NamespacedName) : Option World := do
  let po ← w.pods.find key
  let sid ← po.stream
  let s ← w.streams[sid]?
  if !po.running then none
  else match s.specs with
    | [] => none
    | spec :: specs =>
      let w := w.modifyStream sid ({ · with specs := specs })
      some { w with pods := w.pods.put { po with specManager := po.specManager.recv spec } }

/-- The client reports its status if it has one and it is a new one. -/
def report (w : World) (key : NamespacedName) : Option World := do
  let po ← w.pods.find key
  let sid ← po.stream
  let newStatus ← po.specManager.getStatus
  if !po.running || some newStatus = po.prevStatus then none
  else
    let w := w.modifyStream sid fun s => { s with statuses := s.statuses ++ [newStatus] }
    some { w with pods := w.pods.put { po with prevStatus := some newStatus } }

/-- Which calls of a pass succeed; those for one pod are told apart by its UID. -/
structure Outcomes where
  getConfig : Bool
  listLabelled : Bool
  getShard : UID → Bool
  listPods : Bool
  delete : UID → Bool
  send : UID → Bool

/-- `clearOldPods` over the labelled pods of the namespace. A delete that succeeds ends the loop,
since its error is not a not-found one. There is no result when the pass stops: with an error, or at
the nil selector of an API selector that is not valid. -/
def clearOldPods (w : World) (o : Outcomes) : List Pod → Option World
  | [] => some w
  | po :: pods =>
    if po.deleting || po.shardName = "" then clearOldPods w o pods
    else if !o.getShard po.uid then none
    else
      let delete := if o.delete po.uid then some (w.deletePod po.key) else none
      match w.configs.find (po.namespace_, po.shardName) with
      | none => delete
      | some shard =>
        match labelSelectorMatches shard.spec.selector po.labels with
        | none => none
        | some true => clearOldPods w o pods
        | some false => delete

/-- The pod has the label of the ShardingConfig. -/
def Pod.labelled (po : Pod) (key : NamespacedName) : Bool :=
  po.namespace_ = key.1 && po.labels.lookup shardingConfigInjectedKey = some key.2

/-- `getPodsForShardingConfig`. -/
def getPodsForShardingConfig (w : World) (key : NamespacedName) : List Pod :=
  (w.pods.items.filter (·.labelled key)).insertionSort (·.name ≤ ·.name)

/-- What the first loop does about a pod: the pass stops; the pod is left out; it takes part. -/
inductive Admission where
  | wait
  | ignore
  | sync (sid : StreamID) (conn : Conn)
  deriving DecidableEq

/-- One pod in the first loop of a pass. -/
def admitPod (w : World) (po : Pod) : Admission :=
  if !isPodActive po then if po.running then .wait else .ignore
  else if po.uid ∈ w.podDeletionExpectation then .wait
  else match w.cached po.uid with
    | none =>
      if po.phase = .running && po.ready then .wait
      else if po.phase = .pending && po.young then .wait
      else .ignore
    | some (sid, conn) =>
      if conn.disconnected then .wait
      else match w.podHashExpectation.lookup po.uid with
        | none => .sync sid conn
        | some expectHash =>
          if conn.status.metaState.map (·.expectedHash) = some expectHash then .sync sid conn
          else .wait

/-- A pod with its connection. -/
structure SyncPod where
  pod : Pod
  sid : StreamID
  conn : Conn
  deriving DecidableEq

/-- The first loop. The expectations met on the way are dropped, even if the pass stops later. -/
def collect (w : World) : List Pod → World × Option (List SyncPod)
  | [] => (w, some [])
  | po :: pods =>
    match admitPod w po with
    | .wait => (w, none)
    | .ignore => collect w pods
    | .sync sid conn =>
      let (w, syncPods) := collect (w.forget po.uid) pods
      (w, syncPods.map (⟨po, sid, conn⟩ :: ·))

/-- What a pass does with a pod. -/
inductive Action where
  | dispatch
  | delete (isLeader : Bool)
  | update
  | keep
  deriving DecidableEq

/-- The second loop, for one pod. -/
def SyncPod.action (newHash : String) (sp : SyncPod) : Action :=
  match sp.conn.status.metaState with
  | none => .dispatch
  | some metaState =>
    if metaState.expectedHash ≠ metaState.currentHash then
      .delete ((sp.conn.status.leaderElectionState.map (·.isLeader)).getD false)
    else if newHash ≠ metaState.expectedHash then .update
    else if sp.conn.sendTimes > 0 then .keep
    else .dispatch

/-- The deletion of a pod. -/
def deleteOne (o : Outcomes) (w : World) (sp : SyncPod) : World :=
  if o.delete sp.pod.uid then
    { w.deletePod sp.pod.key with
      podDeletionExpectation := insert sp.pod.uid w.podDeletionExpectation }
  else w

/-- The update of a pod. -/
def sendOne (o : Outcomes) (newSpec : ProxySpec) (w : World) (sp : SyncPod) : World :=
  if o.send sp.pod.uid then
    { w.send sp.sid newSpec true with
      podHashExpectation := w.podHashExpectation.insert sp.pod.uid newSpec.hash }
  else w.send sp.sid newSpec false

/-- The lists that the second loop makes. -/
def withAction (newHash : String) (action : Action) (syncPods : List SyncPod) : List SyncPod :=
  syncPods.filter fun sp => sp.action newHash = action

/-- The leaders are deleted last. -/
def podsToDelete (newHash : String) (syncPods : List SyncPod) : List SyncPod :=
  let nonLeaderPodsToDelete := withAction newHash (.delete false) syncPods
  if nonLeaderPodsToDelete.isEmpty then withAction newHash (.delete true) syncPods
  else nonLeaderPodsToDelete

/-- `Reconcile` from the second loop on: deletions first, then updates, then dispatches. -/
def syncAll (o : Outcomes) (newSpec : ProxySpec) (w : World) (syncPods : List SyncPod) : World :=
  let podsToDelete := podsToDelete newSpec.hash syncPods
  let podsProtoToUpdate := withAction newSpec.hash .update syncPods
  let podsProtoToDispatch := withAction newSpec.hash .dispatch syncPods
  if !podsToDelete.isEmpty then podsToDelete.foldl (deleteOne o) w
  else if !podsProtoToUpdate.isEmpty then podsProtoToUpdate.foldl (sendOne o newSpec) w
  else podsProtoToDispatch.foldl (sendOne o newSpec) w

section Step

variable (enc : Encoder)

/-- `Reconcile` for the pods of a ShardingConfig. -/
def syncShard (w : World) (cfg : ShardingConfig) (o : Outcomes) : World :=
  match collect w (getPodsForShardingConfig w cfg.key) with
  | (w, none) => w
  | (w, some syncPods) => syncAll o (generateProtoConfig enc cfg) w syncPods

/-- `Reconcile`. The pass for a root generates other ShardingConfigs and leaves the pods alone. -/
def reconcile (w : World) (key : NamespacedName) (o : Outcomes) : World :=
  if !o.getConfig then w
  else match w.configs.find key with
    | none => w
    | some cfg =>
      if cfg.spec.root.isSome || !o.listLabelled then w
      else
        let labelled := w.pods.items.filter fun po =>
          po.namespace_ = key.1 && (po.labels.lookup shardingConfigInjectedKey).isSome
        match clearOldPods w o labelled with
        | none => w
        | some w => if !o.listPods then w else syncShard enc w cfg o

/-- What can happen to the world. -/
inductive Event where
  | reconcile (key : NamespacedName) (o : Outcomes)
  | registerStore (sid : StreamID)
  | registerForget (sid : StreamID)
  | receiveStatus (sid : StreamID)
  | cleanupForget (sid : StreamID)
  | cleanupMark (sid : StreamID)
  | connect (key : NamespacedName)
  | disconnect (key : NamespacedName)
  | receiveSpec (key : NamespacedName)
  | report (key : NamespacedName)
  | updateLeaderElection (key : NamespacedName) (le : Option LeaderElectionState)
  | createPod (key : NamespacedName) (labels : LabelSet)
  | podStatus (key : NamespacedName) (phase : Phase) (ready running : Bool)
  | age (key : NamespacedName)
  | deletePod (key : NamespacedName)
  | removePod (key : NamespacedName)
  | podDeleted (uid : UID)
  | putConfig (cfg : ShardingConfig)
  | removeConfig (key : NamespacedName)
  | restartManager

/-- A pod that is no longer active stays so, and no container is started in it. -/
def podStatus (w : World) (key : NamespacedName) (phase : Phase) (ready running : Bool) :
    Option World := do
  let po ← w.pods.find key
  let final := po.phase = .succeeded ∨ po.phase = .failed
  if (final → phase = po.phase) ∧ (!isPodActive po → running → po.running) then
    some { w with
      pods := w.pods.put { po with phase := phase, ready := ready, running := running } }
  else none

/-- A new manager has empty maps, and the streams of the old one are of no more use to it. -/
def restartManager (w : World) : World :=
  { w with
    streams := w.streams.map ({ · with statuses := [], severed := true, conn := none })
    cachedGrpcSrvConnection := ∅
    podHashExpectation := ∅
    podDeletionExpectation := ∅ }

/-- Others edit pods and ShardingConfigs at any time. A pod goes once its containers have stopped,
and the handler of pod events (`podDeleted`) hears of it later. -/
def step (w : World) : Event → Option World
  | .reconcile key o => some (Dispatch.reconcile enc w key o)
  | .registerStore sid => Dispatch.registerStore w sid
  | .registerForget sid => Dispatch.registerForget w sid
  | .receiveStatus sid => Dispatch.receiveStatus w sid
  | .cleanupForget sid => Dispatch.cleanupForget w sid
  | .cleanupMark sid => Dispatch.cleanupMark w sid
  | .connect key => Dispatch.connect w key
  | .disconnect key => Dispatch.disconnect w key
  | .receiveSpec key => Dispatch.receiveSpec w key
  | .report key => Dispatch.report w key
  | .updateLeaderElection key le =>
    some (w.modifyPod key fun po =>
      { po with specManager := { po.specManager with leaderElectionState := le } })
  | .createPod key labels =>
    if (w.pods.find key).isSome then none
    else some { w with
      pods := w.pods.put ⟨key.1, key.2, w.nextUID, labels, .pending, false, false, false, true,
        .new, none, none⟩
      nextUID := w.nextUID + 1 }
  | .podStatus key phase ready running => Dispatch.podStatus w key phase ready running
  | .age key => some (w.modifyPod key ({ · with young := false }))
  | .deletePod key => some (w.deletePod key)
  | .removePod key =>
    match w.pods.find key with
    | none => none
    | some po => if po.running then none else some { w with pods := w.pods.erase key }
  | .podDeleted uid =>
    if w.pods.items.any (·.uid = uid) then none
    else some { w.forget uid with podDeletionExpectation := w.podDeletionExpectation.erase uid }
  | .putConfig cfg => some { w with configs := w.configs.put cfg }
  | .removeConfig key => some { w with configs := w.configs.erase key }
  | .restartManager => some (Dispatch.restartManager w)

end Step

end CtrlMesh.Sharding.Dispatch
