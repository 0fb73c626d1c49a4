import CtrlMesh.Api.Proto
import CtrlMesh.Api.Server

/-!
# The specification a proxy holds

`SpecManager` of `proto_manager.go` and the two ends of a message in `grpc.go`. A proxy takes over
the first specification it receives; later ones only become the expected specification, unless they
have the same shard and hash.
-/

namespace CtrlMesh.Api

/-- `Meta.Hash`; the code reads it only where `Meta` is not nil. -/
def ProxySpec.hash (spec : ProxySpec) : String := (spec.specMeta.map (·.hash)).getD ""

/-- `Meta.ShardName`. -/
def ProxySpec.shardName (spec : ProxySpec) : String := (spec.specMeta.map (·.shardName)).getD ""

/-- `MetaState` of a status. -/
structure MetaState where
  expectedHash : String
  currentHash : String
  hashUnloadReason : String
  deriving DecidableEq

/-- `LeaderElectionState` of a status. -/
structure LeaderElectionState where
  identity : String
  isLeader : Bool
  deriving DecidableEq

/-- `SelfInfo` is set in the first status of a stream only. -/
structure ProxyStatus where
  selfInfo : Option NamespacedName
  metaState : Option MetaState
  leaderElectionState : Option LeaderElectionState
  deriving DecidableEq

end CtrlMesh.Api

namespace CtrlMesh.Proxy

open Api

/-- The files behind the two specifications are modelled in `Proxy.Storage`. -/
structure SpecManager where
  expectedSpec : Option ProxySpec
  currentSpec : Option ProxySpec
  unloadReason : String
  leaderElectionState : Option LeaderElectionState
  deriving DecidableEq

variable {sm : SpecManager}

namespace SpecManager

/-- A manager without a specification. -/
def new : SpecManager := ⟨none, none, "", none⟩

/-- `checkLoadable`, for the specifications it compares. -/
def checkLoadable (currentSpec : Option ProxySpec) (expectedSpec : ProxySpec) :
    Except String Unit :=
  match currentSpec with
  | none => .ok ()
  | some current =>
    if current.shardName ≠ expectedSpec.shardName then
      .error ("ShardingConfig changed from " ++ current.shardName ++ " to " ++
        expectedSpec.shardName)
    else if current.hash ≠ expectedSpec.hash then
      .error ("SpecHase changed from " ++ current.hash ++ " to " ++ expectedSpec.hash)
    else .ok ()

/-- `UpdateSpec`. -/
def updateSpec (sm : SpecManager) (spec : ProxySpec) : SpecManager :=
  match checkLoadable sm.currentSpec spec with
  | .error reason => { sm with expectedSpec := some spec, unloadReason := reason }
  | .ok _ => { sm with expectedSpec := some spec, currentSpec := some spec }

/-- `GetStatus`. -/
def getStatus (sm : SpecManager) : Option ProxyStatus :=
  sm.currentSpec.map fun current =>
    { selfInfo := none
      metaState := some ⟨(sm.expectedSpec.map (·.hash)).getD "", current.hash, sm.unloadReason⟩
      leaderElectionState := sm.leaderElectionState }

/-- The first status that `syncing` sends. -/
def firstStatus (sm : SpecManager) (selfInfo : NamespacedName) : ProxyStatus :=
  { sm.getStatus.getD ⟨none, none, none⟩ with selfInfo := some selfInfo }

/-- `recv`: a specification without meta or limits is only logged. -/
def recv (sm : SpecManager) (spec : ProxySpec) : SpecManager :=
  if spec.specMeta.isNone || spec.limits.isEmpty then sm else sm.updateSpec spec

/-- The hash of the specification in use. -/
def currentHash (sm : SpecManager) : Option String := sm.currentSpec.map (·.hash)

/-- The hash in use never changes once there is one. -/
theorem currentHash_updateSpec (spec : ProxySpec) :
    (sm.updateSpec spec).currentHash = some (sm.currentHash.getD spec.hash) := by
  unfold updateSpec checkLoadable currentHash
  cases sm.currentSpec with
  | none => rfl
  | some current =>
    dsimp only
    split
    · next unloadable =>
      split at unloadable
      · rfl
      · split at unloadable
        · rfl
        · cases unloadable
    · next loadable =>
      split at loadable
      · cases loadable
      · split at loadable
        · cases loadable
        · next same =>
          have hashes : current.hash = spec.hash := by simpa using same
          simp [hashes]

variable {spec : ProxySpec} {hash : String}

/-- The hash in use was there or came with the spec. -/
theorem currentHash_recv (taken : (sm.recv spec).currentHash = some hash) :
    sm.currentHash = some hash ∨ sm.currentHash = none ∧ spec.hash = hash := by
  unfold recv at taken
  split at taken
  · exact .inl taken
  · rw [currentHash_updateSpec, Option.some.injEq] at taken
    cases held : sm.currentHash with
    | none =>
      rw [held] at taken
      exact .inr ⟨rfl, taken⟩
    | some current =>
      rw [held] at taken
      exact .inl (congrArg some taken)

/-- A reported hash stays. -/
theorem currentHash_recv_of_some (held : sm.currentHash = some hash) :
    (sm.recv spec).currentHash = some hash := by
  unfold recv
  split
  · exact held
  · rw [currentHash_updateSpec, held]
    rfl

/-- A status tells the hash in use. -/
theorem currentHash_of_getStatus {status : ProxyStatus} (reported : sm.getStatus = some status) :
    ∃ state, status.metaState = some state ∧ sm.currentHash = some state.currentHash := by
  obtain ⟨current, found, rfl⟩ := Option.map_eq_some_iff.mp reported
  exact ⟨_, rfl, by rw [currentHash, found]; rfl⟩

/-- The first status reports the hash. -/
theorem currentHash_of_firstStatus (sm : SpecManager) (selfInfo : NamespacedName) :
    sm.currentHash = (sm.firstStatus selfInfo).metaState.map (·.currentHash) := by
  unfold firstStatus getStatus currentHash
  cases sm.currentSpec <;> rfl

end SpecManager

end CtrlMesh.Proxy
