import CtrlMesh.CircuitBreaker.InterceptStore

/-!
# The store of rate limitings and its lease

`store` and `state` of `store.go` and the `lease` of `lease.go`, which closes a breaker again when
its sleeping window is over. A breaker state is an object shared between the store and the lease:
objects live in a heap and are referred to by their position. A limiter is the bucket it was made
from; whether it lets a request pass is an input of the validation.

The delaying queue is the set of objects it will hand out at some time. Its loop takes one object
and goes through the stages of `Stage` with it, with other calls in between.
-/

namespace CtrlMesh.CircuitBreaker

open Labels Lib

/-- `state`. -/
structure State where
  key : String
  state : BreakerState
  lastTransitionTime : Option Int
  recoverAt : Option Int
  deriving DecidableEq

namespace State

/-- `transitionTo`: the new object and whether it changed. -/
def transitionTo (s : State) (newStatus : BreakerState) (t : Int) : State × Bool :=
  if s.state ≠ newStatus then ({ s with state := newStatus, lastTransitionTime := some t }, true)
  else (s, false)

/-- A transition that sets `recoverAt` if the state changed. -/
def transition (s : State) (newStatus : BreakerState) (now : Int) (recoverAt : Option Int) :
    State :=
  let (s', changed) := s.transitionTo newStatus now
  if changed then { s' with recoverAt := recoverAt } else s'

/-- `triggerBreaker`. -/
def triggerBreaker (s : State) (now : Int) : State := s.transition .opened now none

/-- `triggerBreakerWithTimeWindow`. -/
def triggerBreakerWithTimeWindow (s : State) (now windowSize : Int) : State :=
  s.transition .opened now (some (now + windowSize))

/-- `recoverBreaker`. -/
def recoverBreaker (s : State) (now : Int) : State := s.transition .closed now none

end State

/-- A pointer to a state object. -/
abbrev StateRef := Nat

/-- How far `processingLoop` is with its object: taken; its window is over; removed from the state
set; only `Done` left. -/
inductive Stage where
  | taken
  | due
  | removed
  | finished
  deriving DecidableEq

/-- `lease`. -/
structure Lease where
  stateQueue : Finset StateRef
  stateSet : StringMap StateRef
  processing : Option (StateRef × Stage)

/-- The two indices of the store. -/
structure Indices where
  resource : MultiIndex String String
  rest : MultiIndex String String

/-- `store`, with its state objects. -/
structure LimiterStore where
  limiters : StringMap Bucket
  rules : StringMap RateLimiting
  states : StringMap StateRef
  indices : Indices
  breakerLease : Lease
  heap : List State

/-- `newLimiterStore`. -/
def LimiterStore.new : LimiterStore where
  limiters := ∅
  rules := ∅
  states := ∅
  indices := ⟨∅, ∅⟩
  breakerLease := ⟨∅, ∅, none⟩
  heap := []

/-- `indexForResource`. -/
def indexForResource (ns apiGroup resource verb : String) : String :=
  ns ++ ":" ++ apiGroup ++ ":" ++ resource ++ ":" ++ verb

/-- `indexFuncForResource`. -/
def indexFuncForResource (limiting : RateLimiting) : List String :=
  limiting.resourceRules.flatMap fun rule =>
    rule.namespaces.flatMap fun ns =>
      rule.apiGroups.flatMap fun apiGroup =>
        rule.resources.flatMap fun resource =>
          rule.verbs.map fun verb => indexForResource ns apiGroup resource verb

/-- `indexFuncForRest`. -/
def indexFuncForRest (limiting : RateLimiting) : List String :=
  limiting.restRules.map fun rest => indexForRest rest.url rest.method

/-- The names of the indices: `IndexResource` and `IndexRest`. -/
inductive IndexKind where
  | resource
  | rest
  deriving DecidableEq

/-- `indexFunctions`. -/
def IndexKind.indexFunc : IndexKind → RateLimiting → List String
  | .resource => indexFuncForResource
  | .rest => indexFuncForRest

/-- The index of a name. -/
def Indices.byName (indices : Indices) : IndexKind → MultiIndex String String
  | .resource => indices.resource
  | .rest => indices.rest

namespace LimiterStore

/-- `deleteFromIndices`. -/
def deleteFromIndices (indices : Indices) (oldOne : RateLimiting) (key : String) : Indices where
  resource := indices.resource.removeAll (indexFuncForResource oldOne) key
  rest := indices.rest.removeAll (indexFuncForRest oldOne) key

/-- `updateIndices`. -/
def updateIndices (indices : Indices) (oldOne : Option RateLimiting) (newOne : RateLimiting)
    (key : String) : Indices :=
  let indices := match oldOne with
    | none => indices
    | some oldOne => deleteFromIndices indices oldOne key
  { resource := indices.resource.addAll (indexFuncForResource newOne) key
    rest := indices.rest.addAll (indexFuncForRest newOne) key }

/-- `createOrUpdateRule`, with the closed snapshot of `registerRules`. A new rule gets a new state
object; a known key keeps it and, for an equal bucket, its limiter. -/
def createOrUpdateRule (s : LimiterStore) (key : String) (limiting : RateLimiting) :
    LimiterStore :=
  match s.rules.lookup key with
  | none =>
    { s with
      rules := s.rules.insert key limiting
      limiters := s.limiters.insert key limiting.bucket
      states := s.states.insert key s.heap.length
      heap := s.heap ++ [⟨key, .closed, none, none⟩]
      indices := updateIndices s.indices none limiting key }
  | some oldOne =>
    { s with
      rules := s.rules.insert key limiting
      indices := updateIndices s.indices (some oldOne) limiting key
      limiters := if oldOne.bucket ≠ limiting.bucket then s.limiters.insert key limiting.bucket
        else s.limiters }

/-- `deleteRule`. The object stays in the heap: the lease may still refer to it. -/
def deleteRule (s : LimiterStore) (key : String) : LimiterStore :=
  match s.rules.lookup key with
  | none => s
  | some obj =>
    { s with
      indices := deleteFromIndices s.indices obj key
      rules := s.rules.erase key
      limiters := s.limiters.erase key
      states := s.states.erase key }

/-- `byIndex`, for the keys of the set in the order they are met: the rules, the limiters and the
states, each as its map has it. -/
def byIndex (s : LimiterStore) (order : List String) :
    List (Option RateLimiting) × List (Option Bucket) × List (Option StateRef) :=
  (order.map fun key => s.rules.lookup key, order.map fun key => s.limiters.lookup key,
    order.map fun key => s.states.lookup key)

/-- Write through a pointer. -/
def modifyState (s : LimiterStore) (ref : StateRef) (f : State → State) : LimiterStore :=
  { s with heap := s.heap.modify ref f }

/-- `lease.registerState`: an object is queued once, and only while its key is not in the set. -/
def registerState (s : LimiterStore) (ref : StateRef) : LimiterStore :=
  match s.heap[ref]? with
  | none => s
  | some st =>
    if st.state = .opened ∧ s.breakerLease.stateSet.lookup st.key = none ∧ st.recoverAt.isSome then
      { s with breakerLease := { s.breakerLease with
          stateSet := s.breakerLease.stateSet.insert st.key ref
          stateQueue := insert ref s.breakerLease.stateQueue } }
    else s

/-- `stateQueue.Get`: one of the queued objects is handed out. -/
def take (s : LimiterStore) (ref : StateRef) : Option LimiterStore :=
  if ref ∈ s.breakerLease.stateQueue ∧ s.breakerLease.processing = none then
    some { s with breakerLease := { s.breakerLease with
      stateQueue := s.breakerLease.stateQueue.erase ref
      processing := some (ref, .taken) } }
  else none

/-- The rest of the loop's body, by stages. An object whose window was moved is queued again; any
other one is removed and closed. -/
def process (s : LimiterStore) (now : Int) : Option LimiterStore := do
  let (ref, stage) ← s.breakerLease.processing
  let st ← s.heap[ref]?
  match stage with
  | .taken =>
    if st.recoverAt.any (now < ·) then
      some { s with breakerLease := { s.breakerLease with
        stateQueue := insert ref s.breakerLease.stateQueue
        processing := some (ref, .finished) } }
    else
      some { s with breakerLease := { s.breakerLease with processing := some (ref, .due) } }
  | .due =>
    some { s with breakerLease := { s.breakerLease with
      stateSet := s.breakerLease.stateSet.erase st.key
      processing := some (ref, .removed) } }
  | .removed =>
    let s := s.modifyState ref (·.recoverBreaker now)
    some { s with breakerLease := { s.breakerLease with processing := some (ref, .finished) } }
  | .finished =>
    some { s with breakerLease := { s.breakerLease with processing := none } }

/-- What one stage of the loop does with the object it has. -/
inductive Stepped (s : LimiterStore) (now : Int) (ref : StateRef) (st : State) :
    LimiterStore → Prop where
  | requeues (current : s.breakerLease.processing = some (ref, .taken))
      (early : st.recoverAt.any (now < ·) = true) :
      Stepped s now ref st { s with breakerLease := { s.breakerLease with
        stateQueue := insert ref s.breakerLease.stateQueue
        processing := some (ref, .finished) } }
  | reads (current : s.breakerLease.processing = some (ref, .taken))
      (expired : ¬st.recoverAt.any (now < ·) = true) :
      Stepped s now ref st { s with breakerLease := { s.breakerLease with
        processing := some (ref, .due) } }
  | removes (current : s.breakerLease.processing = some (ref, .due)) :
      Stepped s now ref st { s with breakerLease := { s.breakerLease with
        stateSet := s.breakerLease.stateSet.erase st.key
        processing := some (ref, .removed) } }
  | closes (current : s.breakerLease.processing = some (ref, .removed)) :
      Stepped s now ref st { s.modifyState ref (·.recoverBreaker now) with
        breakerLease := { s.breakerLease with processing := some (ref, .finished) } }
  | finishes (current : s.breakerLease.processing = some (ref, .finished)) :
      Stepped s now ref st { s with breakerLease := { s.breakerLease with processing := none } }

/-- A pass of the loop takes one of these steps. -/
theorem stepped_of_process {s s' : LimiterStore} {now : Int} (processed : s.process now = some s') :
    ∃ ref st, s.heap[ref]? = some st ∧ Stepped s now ref st s' := by
  simp only [process, Option.bind_eq_bind, Option.bind_eq_some_iff] at processed
  obtain ⟨⟨ref, stage⟩, current, st, object, processed⟩ := processed
  refine ⟨ref, st, object, ?_⟩
  cases stage with
  | taken =>
    dsimp only at processed
    split at processed
    · next early =>
      cases processed
      exact .requeues current early
    · next expired =>
      cases processed
      exact .reads current expired
  | due =>
    cases processed
    exact .removes current
  | removed =>
    cases processed
    exact .closes current
  | finished =>
    cases processed
    exact .finishes current

end LimiterStore

end CtrlMesh.CircuitBreaker
