import CtrlMesh.Api.Server
import CtrlMesh.Labels.Selector
import Mathlib.Data.List.Sort

/-!
# The state of the managers

`pkg/manager/controllers/managerstate`: the leader of the managers writes who they are into the
status of one object, with the time of the pass. It compares the status it reads with the one it
would write, to write only what has changed, but the time is part of the comparison. A time read
back has whole seconds and no reading of the monotonic clock, and the time of a pass has one, so the
two are never equal and every pass writes.
-/

namespace CtrlMesh.ManagerState

open Labels Lib Api

/-- `v1alpha1.NameOfManager`. -/
def nameOfManager : String := "ctrlmesh-manager"

/-- A pod, as the controller lists it. -/
structure Pod where
  namespace_ : String
  name : String
  labels : LabelSet
  podIP : String
  /-- The phase is Succeeded or Failed. -/
  finished : Bool
  deleting : Bool
  deriving DecidableEq

/-- `IsPodActive`. -/
def isPodActive (pod : Pod) : Bool := !pod.finished && !pod.deleting

/-- `ManagerStateEndpoint`. -/
structure Endpoint where
  name : String
  podIP : String
  leader : Bool
  deriving DecidableEq

/-- `ManagerStatePorts`. -/
structure Ports where
  grpcLeaderElectionPort : Int
  grpcNonLeaderElectionPort : Int
  deriving DecidableEq

/-- A `time.Time` as `DeepEqual` compares it: seconds since the year one, nanoseconds, and the
monotonic clock if it was read. -/
structure Time where
  seconds : Int
  nanos : Nat
  monotonic : Option Int
  deriving DecidableEq

/-- What `time.Now` reads. -/
structure Reading where
  seconds : Int
  nanos : Nat
  monotonic : Int
  deriving DecidableEq

/-- A reading as a `time.Time`. -/
def Reading.time (now : Reading) : Time := ⟨now.seconds, now.nanos, some now.monotonic⟩

/-- A time in JSON: whole seconds, and null for the zero time. -/
def Time.marshal (t : Time) : Option Int :=
  if t.seconds = 0 ∧ t.nanos = 0 then none else some t.seconds

/-- The time that is read back. -/
def Time.unmarshal (seconds : Int) : Time := ⟨seconds, 0, none⟩

/-- `ManagerStateStatus`. -/
structure Status where
  namespace_ : String
  endpoints : List Endpoint
  ports : Option Ports
  updateTimestamp : Option Time
  deriving DecidableEq

/-- The status as the API server has it. -/
structure StoredStatus where
  namespace_ : String
  endpoints : List Endpoint
  ports : Option Ports
  updateTimestamp : Option Int
  deriving DecidableEq

/-- The status as it is stored. -/
def Status.stored (status : Status) : StoredStatus :=
  ⟨status.namespace_, status.endpoints, status.ports, status.updateTimestamp.bind Time.marshal⟩

/-- The status as it is read back. -/
def StoredStatus.read (status : StoredStatus) : Status :=
  ⟨status.namespace_, status.endpoints, status.ports, status.updateTimestamp.map Time.unmarshal⟩

/-- The status of an object that was just created: it is a subresource, and Create drops it. -/
def StoredStatus.empty : StoredStatus := ⟨"", [], none, none⟩

/-- The variables of the package. -/
structure Env where
  podSelector : Selector
  namespace_ : String
  localName : String

/-- How the calls of a pass end; a call without an error does what it is for. -/
structure Outcomes where
  list : Option ApiError
  get : Option ApiError
  create : Option ApiError
  updateStatus : Option ApiError

/-- What `Reconcile` can return. -/
inductive Error where
  | listPods (error : ApiError)
  | noLeader (endpoints : List Endpoint)
  | getState (error : ApiError)
  | createState (error : ApiError)
  | updateState (error : ApiError)
  | api (error : ApiError)
  deriving DecidableEq

/-- A write to the API server. -/
inductive Write where
  | create (status : Status)
  | updateStatus (status : Status)
  deriving DecidableEq

/-- The stored status after a pass, the writes it sent, and its error. -/
structure Pass where
  stored : Option StoredStatus
  writes : List Write := []
  error : Option Error := none

variable (env : Env) (ports : Ports) (pods : List Pod)

/-- The pods listed. -/
def listed : List Pod :=
  pods.filter fun pod =>
    pod.namespace_ = env.namespace_ && env.podSelector.matchesLabels pod.labels

/-- The endpoints, sorted by name. -/
def endpoints : List Endpoint :=
  (((listed env pods).filter isPodActive).map fun pod =>
    ⟨pod.name, pod.podIP, decide (pod.name = env.localName)⟩).insertionSort (·.name ≤ ·.name)

/-- Whether the local pod is listed. -/
def hasLeader : Bool :=
  (listed env pods).any fun pod => isPodActive pod && pod.name = env.localName

/-- The status of this pass. -/
def newStatus (start : Reading) : Status :=
  ⟨env.namespace_, endpoints env pods, some ports, some start.time⟩

/-- `Reconcile` where the object is not found; the reader may not have seen it yet. -/
def createState (stored : Option StoredStatus) (o : Outcomes) (status : Status) : Pass :=
  match o.create.or (stored.map fun _ => .alreadyExists) with
  | none => { stored := some .empty, writes := [.create status] }
  | some .alreadyExists =>
    { stored, writes := [.create status], error := some (.api .alreadyExists) }
  | some error => { stored, writes := [.create status], error := some (.createState error) }

/-- `Reconcile` where the object has been read. -/
def updateState (old : StoredStatus) (o : Outcomes) (status : Status) : Pass :=
  if old.read = status then { stored := some old }
  else match o.updateStatus with
    | none => { stored := some status.stored, writes := [.updateStatus status] }
    | some error =>
      { stored := some old, writes := [.updateStatus status], error := some (.updateState error) }

/-- `Reconcile`. -/
def reconcile (name : String) (stored : Option StoredStatus) (o : Outcomes) (start : Reading) :
    Pass :=
  if name ≠ nameOfManager then { stored }
  else match o.list with
    | some error => { stored, error := some (.listPods error) }
    | none =>
      if !hasLeader env pods then { stored, error := some (.noLeader (endpoints env pods)) }
      else
        let status := newStatus env ports pods start
        match o.get, stored with
        | some .notFound, _ => createState stored o status
        | some error, _ => { stored, error := some (.getState error) }
        | none, none => createState stored o status
        | none, some old => updateState old o status

variable {env ports pods} {name : String} {stored : Option StoredStatus} {o o' : Outcomes}
  {start start' : Reading}

/-- No status that was read back is the status of a pass. -/
theorem read_ne_newStatus {old : StoredStatus} : old.read ≠ newStatus env ports pods start := by
  intro same
  have times := congrArg Status.updateTimestamp same
  cases stamp : old.updateTimestamp with
  | none => simp [StoredStatus.read, newStatus, stamp] at times
  | some seconds =>
    simp [StoredStatus.read, newStatus, stamp, Time.unmarshal, Reading.time] at times

/-- A creation is a write. -/
theorem writes_createState {status : Status} : (createState stored o status).writes ≠ [] := by
  unfold createState
  split <;> simp

/-- So is an update. -/
theorem writes_updateState {old : StoredStatus} :
    (updateState old o (newStatus env ports pods start)).writes ≠ [] := by
  unfold updateState
  rw [if_neg read_ne_newStatus]
  split <;> simp

/-- The pass cannot read what it needs. -/
def Blind (o : Outcomes) : Prop :=
  o.list.isSome = true ∨ ∃ error, o.get = some error ∧ error ≠ .notFound

/-- A pass with a leader writes unless it is blind. -/
theorem writes_reconcile (leads : hasLeader env pods = true) :
    (reconcile env ports pods nameOfManager stored o start).writes = [] ↔ Blind o := by
  unfold reconcile
  rw [if_neg (not_not_intro rfl)]
  cases lists : o.list with
  | some error => exact iff_of_true rfl (.inl (by simp [lists]))
  | none =>
    simp only [leads, Bool.not_true, Bool.false_eq_true, if_false]
    cases gets : o.get with
    | none =>
      have sees : ¬Blind o := by simp [Blind, lists, gets]
      cases stored with
      | none => exact iff_of_false writes_createState sees
      | some old => exact iff_of_false writes_updateState sees
    | some error =>
      by_cases missing : error = .notFound
      · subst missing
        exact iff_of_false writes_createState (by simp [Blind, lists, gets])
      · refine iff_of_true ?_ (.inr ⟨error, gets, missing⟩)
        cases error with
        | notFound => exact absurd rfl missing
        | alreadyExists => rfl
        | other reason => rfl

/-- A pass for the managers that succeeds has found the leader. -/
theorem leads_of_success
    (succeeds : (reconcile env ports pods nameOfManager stored o start).error = none) :
    hasLeader env pods = true := by
  by_contra leaderless
  rw [Bool.not_eq_true] at leaderless
  unfold reconcile at succeeds
  rw [if_neg (not_not_intro rfl)] at succeeds
  cases lists : o.list with
  | some error => simp [lists] at succeeds
  | none => simp [lists, leaderless] at succeeds

/-- A pass after one that has succeeded keeps from writing exactly if it is for another object or
cannot read. -/
theorem second_writes_nothing_iff (env : Env) (ports : Ports) (pods : List Pod) (name : String)
    (stored : Option StoredStatus) (o o' : Outcomes) (start start' : Reading)
    (succeeds : (reconcile env ports pods name stored o start).error = none) :
    (reconcile env ports pods name (reconcile env ports pods name stored o start).stored o'
        start').writes = [] ↔
      name ≠ nameOfManager ∨ Blind o' := by
  by_cases managed : name = nameOfManager
  · subst managed
    rw [writes_reconcile (leads_of_success succeeds)]
    simp
  · refine iff_of_true ?_ (.inl managed)
    unfold reconcile
    rw [if_pos managed]

/-- One manager, which leads. -/
def managerPod : Pod := ⟨"ctrlmesh", "manager-0", ∅, "10.0.0.1", false, false⟩

/-- The environment of a manager. -/
def managerEnv : Env := ⟨.everything, "ctrlmesh", "manager-0"⟩

/-- No call fails. -/
def calm : Outcomes := ⟨none, none, none, none⟩

/-- A second pass whose list call fails. -/
theorem second_writes_nothing_unlisted :
    (reconcile managerEnv ⟨5445, 5446⟩ [managerPod] nameOfManager
      (reconcile managerEnv ⟨5445, 5446⟩ [managerPod] nameOfManager none calm ⟨10, 5, 1⟩).stored
      { calm with list := some (.other "timeout") } ⟨12, 7, 2⟩).writes = [] :=
  (second_writes_nothing_iff managerEnv ⟨5445, 5446⟩ [managerPod] nameOfManager none calm _
    ⟨10, 5, 1⟩ ⟨12, 7, 2⟩ rfl).mpr (.inr (.inl rfl))

/-- The second of two passes over the same managers updates the status again. -/
theorem second_pass_writes :
    ¬∀ (env : Env) (ports : Ports) (pods : List Pod) (name : String)
      (stored : Option StoredStatus) (o o' : Outcomes) (start start' : Reading),
      (reconcile env ports pods name stored o start).error = none →
      (reconcile env ports pods name (reconcile env ports pods name stored o start).stored o'
        start').writes = [] := by
  intro always
  have quiet := always managerEnv ⟨5445, 5446⟩ [managerPod] nameOfManager (some .empty) calm calm
    ⟨10, 5, 1⟩ ⟨12, 7, 2⟩ rfl
  cases quiet

end CtrlMesh.ManagerState
