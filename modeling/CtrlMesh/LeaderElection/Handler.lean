import CtrlMesh.Api.Proto

/-!
# Leader-election locks

The proxy gives every shard a leader lock of its own: `leaderelection.handler` renames the lock in
the requests that create and read it. The rollout controller of the manager reads the lock to find
the leading pod. A request body is given as the adapter of its resource decodes it.
-/

namespace CtrlMesh.LeaderElection

open Labels Api

/-- `request.RequestInfo`, the fields the handler reads. -/
structure RequestInfo where
  isResourceRequest : Bool
  verb : String
  apiGroup : String
  apiVersion : String
  namespace_ : String
  resource : String
  subresource : String
  name : String

/-- A decoded lock: its name and the holder, if the lock names one. -/
structure Lock where
  name : String
  holdIdentity : Option String
  deriving DecidableEq

/-- The path and the decoded body. -/
structure Request where
  path : List Char
  lock : Except String Lock

/-- What `Handle` returns, with the request as it left it. The identity is the one reported as
leading once the request has succeeded. -/
structure Outcome where
  handled : Bool
  leads : Option String := none
  error : Option String := none
  request : Request

/-- `handler` of the leader election. -/
structure Handler where
  namespace_ : String
  lockName : String
  shardingConfig : String
  deriving DecidableEq

/-- `leaderelection.New`; the specification's meta is dereferenced. -/
def new (podNamespace : String) (spec : ProxySpec) (lockName : String) : Option Handler :=
  spec.specMeta.map fun specMeta =>
    { namespace_ := podNamespace, lockName := lockName, shardingConfig := specMeta.shardName }

/-- `setSubsetIntoName`. -/
def setSubsetIntoName (name subset : String) : String := name ++ "---" ++ subset

/-- The last occurrence of `old` that starts below `n`. -/
def lastIndexBelow (s old : List Char) : Nat → Option Nat
  | 0 => none
  | i + 1 => if old.isPrefixOf (s.drop i) then some i else lastIndexBelow s old i

/-- `strings.LastIndex`. -/
def lastIndex (s old : List Char) : Option Nat := lastIndexBelow s old (s.length + 1)

/-- `utils.LastReplace`. -/
def lastReplace (s old new : List Char) : List Char :=
  match lastIndex s old with
  | none => s
  | some i => s.take i ++ new ++ s.drop (i + old.length)

/-- The resources a lock can be kept in. -/
def isLockResource (req : RequestInfo) : Bool :=
  (req.apiGroup, req.apiVersion, req.resource) ∈
    [("", "v1", "configmaps"), ("", "v1", "endpoints"), ("coordination.k8s.io", "v1", "leases")]

/-- The lock of the handler's shard. -/
def Handler.shardLock (h : Handler) : String :=
  if h.shardingConfig ≠ "" then setSubsetIntoName h.lockName h.shardingConfig else h.lockName

/-- The `create` case of `Handle`. -/
def Handler.handleCreate (h : Handler) (r : Request) : Outcome :=
  match r.lock with
  | .error err => { handled := true, error := some err, request := r }
  | .ok lock =>
    if lock.name ≠ h.lockName then { handled := false, request := r }
    else match lock.holdIdentity with
      | none =>
        { handled := true, error := some "find no hold identity resource lock", request := r }
      | some identity =>
        { handled := true, leads := some identity
          request := { r with lock := .ok { lock with name := h.shardLock } } }

/-- The `update` case of `Handle`: the name is kept. -/
def Handler.handleUpdate (r : Request) : Outcome :=
  match r.lock with
  | .error err => { handled := true, error := some err, request := r }
  | .ok lock => match lock.holdIdentity with
    | none => { handled := true, error := some "find no hold identity resource lock", request := r }
    | some identity => { handled := true, leads := some identity, request := r }

/-- The `get` case of `Handle`. -/
def Handler.handleGet (h : Handler) (r : Request) : Outcome :=
  let shardName := (setSubsetIntoName h.lockName h.shardingConfig).toList
  let path := lastReplace r.path h.lockName.toList shardName
  { handled := true, request := if h.shardingConfig ≠ "" then { r with path := path } else r }

/-- `handler.Handle`. -/
def Handler.handle (h : Handler) (req : RequestInfo) (r : Request) : Outcome :=
  if ¬req.isResourceRequest ∨ req.subresource ≠ "" then { handled := false, request := r }
  else if req.namespace_ ≠ h.namespace_ then { handled := false, request := r }
  else if req.verb ≠ "create" ∧ req.name ≠ h.lockName ∧
      ¬(h.lockName ++ "---").toList.isPrefixOf req.name.toList then
    { handled := false, request := r }
  else if ¬isLockResource req then { handled := false, request := r }
  else if req.verb = "create" then h.handleCreate r
  else if req.verb = "update" then Handler.handleUpdate r
  else if req.verb = "get" then h.handleGet r
  else { handled := false, request := r }

/-- The Lease `RolloutReconciler.getHolderIdentity` asks for. -/
def rolloutLease (cfg : ShardingConfig) : Option (String × String) :=
  cfg.spec.controller.map fun controller =>
    (cfg.metadata.namespace_, controller.leaderElectionName ++ "---default-" ++ cfg.metadata.name)

/-- `RolloutReconciler.getHolderIdentity`, for the stored leases and their holders. -/
def getHolderIdentity (leases : String × String → Option (Option String)) (cfg : ShardingConfig) :
    Option String := do
  let holder ← leases (← rolloutLease cfg)
  holder

/-- An occurrence with none after it is the last one. -/
theorem lastIndexBelow_eq {s old : List Char} {i n : Nat} (below : i < n)
    (occurs : old.isPrefixOf (s.drop i) = true)
    (last : ∀ j, i < j → j < n → old.isPrefixOf (s.drop j) = false) :
    lastIndexBelow s old n = some i := by
  induction n with
  | zero => omega
  | succ n ih =>
    by_cases here : i = n
    · subst here
      simp [lastIndexBelow, occurs]
    · have earlier : i < n := by omega
      have later := last n earlier (by omega)
      rw [lastIndexBelow, later]
      exact ih earlier fun j after before => last j after (by omega)

/-- A name at the end of a path is its last occurrence. -/
theorem lastIndex_append (path old : List Char) :
    lastIndex (path ++ old) old = some path.length := by
  have length : (path ++ old).length = path.length + old.length := List.length_append
  apply lastIndexBelow_eq
  · omega
  · simp
  · intro j after inside
    rw [Bool.eq_false_iff]
    intro occurs
    have short := (List.isPrefixOf_iff_prefix.mp occurs).length_le
    rw [List.length_drop] at short
    omega

/-- The end of a path is replaced. -/
theorem lastReplace_append (path old new : List Char) :
    lastReplace (path ++ old) old new = path ++ new := by
  unfold lastReplace
  rw [lastIndex_append]
  simp

section Shard

variable {h : Handler} {req : RequestInfo} {r : Request}

/-- The requests a handler looks at: the lock resources of its own namespace. -/
structure Handler.Watches (h : Handler) (req : RequestInfo) : Prop where
  isResource : req.isResourceRequest = true
  whole : req.subresource = ""
  here : req.namespace_ = h.namespace_
  lockResource : isLockResource req = true

/-- A created lock gets the shard's name. -/
theorem Handler.handle_create (watched : h.Watches req) (create : req.verb = "create") {lock : Lock}
    {identity : String} (decoded : r.lock = .ok lock) (named : lock.name = h.lockName)
    (held : lock.holdIdentity = some identity) :
    h.handle req r = { handled := true, leads := some identity,
                       request := { r with lock := .ok { lock with name := h.shardLock } } } := by
  simp [handle, handleCreate, watched.isResource, watched.whole, watched.here,
    watched.lockResource, create, decoded, named, held]

end Shard

section Rollout

variable (enc : Encoder)

/-- A request of the pod to create its Lease. -/
def createLease (podNamespace : String) : RequestInfo where
  isResourceRequest := true
  verb := "create"
  apiGroup := "coordination.k8s.io"
  apiVersion := "v1"
  namespace_ := podNamespace
  resource := "leases"
  subresource := ""
  name := ""

/-- The name `getHolderIdentity` asks for is never the name of the shard's lock. -/
theorem rolloutName_ne_shardLock {lockName shardName podNamespace : String} :
    lockName ++ "---default-" ++ shardName ≠
      Handler.shardLock ⟨podNamespace, lockName, shardName⟩ := by
  intro same
  have lengths := congrArg String.length same
  by_cases unnamed : shardName = ""
  · simp [Handler.shardLock, unnamed] at lengths
  · simp [Handler.shardLock, setSubsetIntoName, unnamed] at lengths
    have tag : "---default-".length = 11 := by decide
    have short : "---".length = 3 := by decide
    omega

/-- The proxy of a shard creates its lease under a name the rollout controller does not read. -/
theorem rolloutLease_ne_created {cfg : ShardingConfig} {controller : ControllerConfiguration}
    (controlled : cfg.spec.controller = some controller) (podNamespace : String) {handler : Handler}
    (loaded : new podNamespace (generateProtoConfig enc cfg)
      controller.leaderElectionName = some handler) (path : List Char) (identity : String) :
    ∃ created read, (handler.handle (createLease podNamespace)
        ⟨path, .ok ⟨controller.leaderElectionName, some identity⟩⟩).request.lock = .ok created ∧
      rolloutLease cfg = some read ∧ read.2 ≠ created.name := by
  have isHandler : handler = ⟨podNamespace, controller.leaderElectionName, cfg.metadata.name⟩ := by
    simpa [new, generateProtoConfig] using loaded.symm
  subst isHandler
  have watched : Handler.Watches ⟨podNamespace, controller.leaderElectionName, cfg.metadata.name⟩
      (createLease podNamespace) := ⟨rfl, rfl, rfl, rfl⟩
  have handled := Handler.handle_create watched rfl
    (show (⟨path, .ok ⟨controller.leaderElectionName, some identity⟩⟩ : Request).lock = .ok _
      from rfl) rfl rfl
  have asked : rolloutLease cfg = some (cfg.metadata.namespace_,
      controller.leaderElectionName ++ "---default-" ++ cfg.metadata.name) := by
    simp [rolloutLease, controlled]
  refine ⟨_, _, congrArg (·.request.lock) handled, asked, ?_⟩
  exact rolloutName_ne_shardLock

/-- A shard of a controller with the lock `lock`. -/
def sampleShard : ShardingConfig where
  metadata := { name := "shard", namespace_ := "ns" }
  spec := {
    selector := none, controller := some ⟨"lock"⟩, webhook := none, limits := none, root := none }

/-- The names differ for a sample shard. -/
theorem rolloutLease_ne_created_sample :
    ∃ created read, (Handler.handle ⟨"ns", "lock", "shard"⟩ (createLease "ns")
        ⟨[], .ok ⟨"lock", some "pod-0"⟩⟩).request.lock = .ok created ∧
      rolloutLease sampleShard = some read ∧ read.2 ≠ created.name :=
  rolloutLease_ne_created (.fixed "hash")
    (show sampleShard.spec.controller = some ⟨"lock"⟩ from rfl) "ns" rfl [] "pod-0"

/-- The proxy of the sample shard creates the lease `lock---shard`; a rollout reads
`lock---default-shard`. -/
theorem rollout_reads_another_lease :
    ¬∀ (enc : Encoder) (cfg : ShardingConfig) (controller : ControllerConfiguration)
      (podNamespace : String) (handler : Handler) (path : List Char) (identity : String)
      (created : Lock) (read : String × String), cfg.spec.controller = some controller →
      new podNamespace (generateProtoConfig enc cfg) controller.leaderElectionName = some handler →
      (handler.handle (createLease podNamespace)
        ⟨path, .ok ⟨controller.leaderElectionName, some identity⟩⟩).request.lock = .ok created →
      rolloutLease cfg = some read → read.2 = created.name := by
  intro agree
  have same := agree (.fixed "hash") sampleShard ⟨"lock"⟩ "ns"
    ⟨"ns", "lock", "shard"⟩ [] "pod-0" ⟨"lock---shard", some "pod-0"⟩
    ("ns", "lock---default-shard") rfl rfl rfl rfl
  revert same
  decide

end Rollout

end CtrlMesh.LeaderElection
