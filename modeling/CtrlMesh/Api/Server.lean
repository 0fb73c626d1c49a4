import CtrlMesh.Api.ShardingConfig
import CtrlMesh.Lib.Effect
import CtrlMesh.Lib.Registry

/-!
# The API server as a controller sees it

The stored ShardingConfigs and the calls of the controller-runtime client on them. An object with
finalizers is only marked when it is deleted, and goes once its last finalizer does. The status is
a subresource: `update` leaves it alone, `updateStatus` changes nothing else. Every call may also
fail for a reason of its own (a conflict, a webhook, the network): `faults` lists how the coming
calls fail, and no fault is left when it is empty.
-/

namespace CtrlMesh.Api

open Labels Lib

/-- The identity of a namespaced object. -/
abbrev NamespacedName := String × String

/-- Namespace and name of a ShardingConfig. -/
def ShardingConfig.key (cfg : ShardingConfig) : NamespacedName :=
  (cfg.metadata.namespace_, cfg.metadata.name)

/-- What a call can end with. -/
inductive ApiError where
  | notFound
  | alreadyExists
  | other (reason : String)
  deriving DecidableEq

/-- How a controller's pass can stop early. -/
inductive Failure where
  | api (error : ApiError)
  | panicked
  deriving DecidableEq

/-- The stored objects and the faults to come. -/
structure Server where
  configs : Registry ShardingConfig.key
  clock : Int
  faults : List (Option ApiError)

/-- What a call returns, with the objects stored after it. -/
abbrev Reply (α : Type) := α × Registry ShardingConfig.key

namespace Server

/-- The stored object under a key, or a not-found error. -/
def stored (server : Server) (key : NamespacedName) : Except ApiError ShardingConfig :=
  match server.configs.find key with
  | none => throw .notFound
  | some cfg => pure cfg

/-- What a deletion leaves of an object. -/
def deleted (now : Int) (cfg : ShardingConfig) : Option ShardingConfig :=
  if cfg.metadata.finalizers = [] then none
  else some { cfg with metadata := { cfg.metadata with
    deletionTimestamp := some (cfg.metadata.deletionTimestamp.getD now) } }

/-- Deletion of the stored object `old`. -/
def remove (server : Server) (old : ShardingConfig) : Registry ShardingConfig.key :=
  match deleted server.clock old with
  | none => server.configs.erase old.key
  | some marked => server.configs.put marked

/-- `Delete` of the stored object. -/
def delete (cfg : ShardingConfig) (server : Server) : Except ApiError (Reply Unit) := do
  let old ← server.stored cfg.key
  return ((), server.remove old)

/-- `Create`, which drops the status. -/
def create (cfg : ShardingConfig) (server : Server) : Except ApiError (Reply Unit) :=
  if (server.configs.find cfg.key).isSome then throw .alreadyExists
  else pure ((), server.configs.put { cfg with child := [] })

/-- An update of the stored object `old`: its status stays, and so does the mark of a deletion. -/
def updated (old cfg : ShardingConfig) : ShardingConfig :=
  { cfg with
    metadata := { cfg.metadata with deletionTimestamp := old.metadata.deletionTimestamp }
    child := old.child }

/-- An update returns the object as the server now has it. -/
def update (cfg : ShardingConfig) (server : Server) : Except ApiError (Reply ShardingConfig) := do
  let old ← server.stored cfg.key
  let new := updated old cfg
  if new.metadata.deletionTimestamp.isSome ∧ new.metadata.finalizers = [] then
    return (new, server.configs.erase new.key)
  else
    return (new, server.configs.put new)

/-- `Status().Update`: only the status is written. -/
def updateStatus (cfg : ShardingConfig) (server : Server) :
    Except ApiError (Reply ShardingConfig) := do
  let old ← server.stored cfg.key
  let new := { old with child := cfg.child }
  return (new, server.configs.put new)

end Server

/-- A computation that calls the API server; calls that went through stay after a failure. -/
abbrev Client := EStateM Failure Server

variable {key value : String}

namespace Client

/-- Every call first meets the next fault. -/
def meetFault : Client Unit := do
  match (← get).faults with
  | [] => pure ()
  | fault :: rest =>
    modify fun server => { server with faults := rest }
    if let some error := fault then throw (.api error)

/-- The server's answer to a request. -/
def respond {α : Type} (request : Server → Except ApiError (Reply α)) : Client α := do
  match request (← get) with
  | .error error => throw (.api error)
  | .ok (result, configs) =>
    modify fun server => { server with configs := configs }
    return result

/-- One call. -/
def call {α : Type} (request : Server → Except ApiError (Reply α)) : Client α := do
  meetFault
  respond request

/-- `client.List` with `client.MatchingLabels{key: value}`. -/
def listLabelled (key value : String) : Client (List ShardingConfig) :=
  call fun server => .ok
    (server.configs.items.filter fun cfg => cfg.metadata.labels.lookup key = some value,
      server.configs)

/-- `client.Delete`. -/
def delete (cfg : ShardingConfig) : Client Unit := call (Server.delete cfg)

/-- `client.Create`. -/
def create (cfg : ShardingConfig) : Client Unit := call (Server.create cfg)

/-- `client.Update`. -/
def update (cfg : ShardingConfig) : Client ShardingConfig := call (Server.update cfg)

/-- `client.Status().Update`. -/
def updateStatus (cfg : ShardingConfig) : Client ShardingConfig := call (Server.updateStatus cfg)

/-- A call whose not-found error the code ignores. -/
def ignoreNotFound {α : Type} (m : Client α) (otherwise : α) : Client α :=
  tryCatch m fun failure =>
    if failure = .api .notFound then pure otherwise else throw failure

open Effect

variable {α : Type} {k : NamespacedName} {server : Server} {old cfg : ShardingConfig}
  {inv : Server → Prop} {request : Server → Except ApiError (Reply α)}

theorem run_respond (request : Server → Except ApiError (Reply α)) (server : Server) :
    (respond request).run server = match request server with
      | .error error => .error (.api error) server
      | .ok (result, configs) => .ok result { server with configs := configs } := by
  simp only [respond, EStateM.run_bind, EStateM.run_get]
  cases request server <;> rfl

theorem stored_ok (found : server.stored k = .ok cfg) : server.configs.find k = some cfg := by
  unfold Server.stored at found
  split at found
  · cases found
  · next lookup =>
    cases found
    exact lookup

theorem key_deleted {now : Int} {marked : ShardingConfig}
    (marks : Server.deleted now cfg = some marked) : marked.key = cfg.key := by
  unfold Server.deleted at marks
  split at marks
  · cases marks
  · cases marks
    rfl

theorem find_remove (other : k ≠ old.key) : (server.remove old).find k = server.configs.find k := by
  unfold Server.remove
  split
  · exact Registry.find_erase_of_ne other
  · next marked marks =>
    exact Registry.find_put_of_ne _ (by rwa [key_deleted marks])

/-- After a deletion the key holds what is left of the object. -/
theorem find_remove_self : (server.remove old).find old.key = Server.deleted server.clock old := by
  unfold Server.remove
  split
  · next gone => rw [Registry.find_erase_self, gone]
  · next marked marks => rw [← key_deleted marks, Registry.find_put_self, marks]

/-- The watched keys hold what they held before. -/
structure Agrees (watched : NamespacedName → Prop) (before server : Server) : Prop where
  clock : server.clock = before.clock
  find : ∀ k, watched k → server.configs.find k = before.configs.find k

/-- The faults to come do not matter to an invariant. -/
def FaultBlind (inv : Server → Prop) : Prop :=
  ∀ server faults, inv server → inv { server with faults := faults }

theorem upholds_meetFault (blind : FaultBlind inv) : Upholds inv meetFault fun _ => True := by
  refine upholds_bind upholds_get fun server _ => ?_
  split
  · exact upholds_pure trivial
  · refine upholds_bind (upholds_modify fun server holds => blind server _ holds) fun _ _ => ?_
    split
    · exact upholds_throw
    · exact upholds_pure trivial

/-- A call upholds what its request keeps. -/
theorem upholds_request {post : α → Prop} (blind : FaultBlind inv)
    (kept : ∀ server result configs, inv server → request server = .ok (result, configs) →
      inv { server with configs := configs } ∧ post result) : Upholds inv (call request) post := by
  refine upholds_bind (upholds_meetFault blind) fun _ _ server holds => ?_
  have ran := run_respond request server
  cases reply : request server with
  | error error =>
    rw [reply] at ran
    rw [after_of_error ran]
    exact ⟨holds, fun a s' ran' => by rw [ran] at ran'; cases ran'⟩
  | ok answer =>
    obtain ⟨holds', met⟩ := kept server answer.1 answer.2 holds reply
    rw [reply] at ran
    rw [after_of_ok ran]
    refine ⟨holds', fun a s' ran' => ?_⟩
    rw [ran] at ran'
    cases ran'
    exact met

section Agreement

variable {watched : NamespacedName → Prop} {before : Server} {post : α → Prop}

/-- A call upholds the agreement its request keeps. -/
theorem upholds_call (kept : ∀ server result configs, Agrees watched before server →
      request server = .ok (result, configs) →
      (∀ k, watched k → configs.find k = server.configs.find k) ∧ post result) :
    Upholds (Agrees watched before) (call request) post := by
  refine upholds_request (fun _ _ agrees => ⟨agrees.clock, agrees.find⟩) ?_
  intro server result configs agrees reply
  obtain ⟨same, met⟩ := kept server result configs agrees reply
  exact ⟨⟨agrees.clock, fun k holds => (same k holds).trans (agrees.find k holds)⟩, met⟩

/-- A request on the stored object under a key. -/
theorem upholds_onStored {key : NamespacedName}
    {answer : ShardingConfig → Server → Except ApiError (Reply α)}
    (kept : ∀ old server result configs, Agrees watched before server → old.key = key →
      server.configs.find key = some old → answer old server = .ok (result, configs) →
      (∀ k, watched k → configs.find k = server.configs.find k) ∧ post result) :
    Upholds (Agrees watched before)
      (call fun server => server.stored key >>= (answer · server)) post := by
  refine upholds_call fun server result configs agrees reply => ?_
  cases found : server.stored key with
  | error error => rw [found] at reply; cases reply
  | ok old =>
    rw [found] at reply
    have present := stored_ok found
    exact kept old server result configs agrees (Registry.find_some present).2 present reply

/-- Everything listed under a watched key was there before. -/
theorem upholds_listLabelled :
    Upholds (Agrees watched before) (listLabelled key value) fun cfgs => ∀ cfg ∈ cfgs,
      cfg.metadata.labels.lookup key = some value ∧
        (watched cfg.key → before.configs.find cfg.key = some cfg) := by
  refine upholds_call fun server result configs agrees reply => ?_
  cases reply
  refine ⟨fun _ _ => rfl, fun cfg member => ?_⟩
  obtain ⟨listed, labelled⟩ := List.mem_filter.mp member
  refine ⟨by simpa using labelled, fun holds => ?_⟩
  rw [← agrees.find _ holds]
  exact Registry.mem_iff_find.mp listed

/-- Deleting a watched object is harmless only if it is already marked. -/
theorem upholds_delete (harmless : watched cfg.key → before.configs.find cfg.key = some cfg ∧
      Server.deleted before.clock cfg = some cfg) :
    Upholds (Agrees watched before) (delete cfg) fun _ => True := by
  refine upholds_onStored fun old server result configs agrees same present reply => ?_
  cases reply
  refine ⟨fun k holds => ?_, trivial⟩
  by_cases hit : k = old.key
  · subst hit
    obtain ⟨was, marked⟩ := harmless (same ▸ holds)
    rw [← same, agrees.find _ holds, same, was] at present
    cases present
    rw [find_remove_self, agrees.clock, marked, agrees.find _ holds, was]
  · exact find_remove hit

theorem upholds_create (unwatched : ¬watched cfg.key) :
    Upholds (Agrees watched before) (create cfg) fun _ => True := by
  refine upholds_call fun server result configs _ reply => ?_
  unfold Server.create at reply
  split at reply
  · cases reply
  · cases reply
    refine ⟨fun k holds => Registry.find_put_of_ne _ ?_, trivial⟩
    exact fun same => unwatched (same ▸ holds)

theorem upholds_update (unwatched : ¬watched cfg.key) :
    Upholds (Agrees watched before) (update cfg) fun new =>
      new.key = cfg.key ∧ new.spec = cfg.spec := by
  refine upholds_onStored fun old server result configs _ _ _ reply => ?_
  dsimp only at reply
  split at reply
  · cases reply
    refine ⟨fun k holds => Registry.find_erase_of_ne ?_, rfl, rfl⟩
    exact fun same => unwatched (same ▸ holds)
  · cases reply
    refine ⟨fun k holds => Registry.find_put_of_ne _ ?_, rfl, rfl⟩
    exact fun same => unwatched (same ▸ holds)

theorem upholds_updateStatus (unwatched : ¬watched cfg.key) :
    Upholds (Agrees watched before) (updateStatus cfg) fun new => new.key = cfg.key := by
  refine upholds_onStored fun old server result configs _ same _ reply => ?_
  cases reply
  refine ⟨fun k holds => Registry.find_put_of_ne _ ?_, same⟩
  exact fun hit => unwatched (same ▸ hit ▸ holds)

theorem upholds_ignoreNotFound {m : Client α} {otherwise : α} (upheld : Upholds inv m post)
    (met : post otherwise) : Upholds inv (ignoreNotFound m otherwise) post :=
  upholds_tryCatch upheld fun _ => upholds_ite (fun _ => upholds_pure met) fun _ => upholds_throw

end Agreement

section

variable (clear : server.faults = [])

include clear

/-- Without a fault the request decides. -/
theorem run_call :
    (call request).run server = match request server with
      | .error error => .error (.api error) server
      | .ok (result, configs) => .ok result { server with configs := configs } := by
  have met : meetFault.run server = .ok () server := by
    simp [meetFault, EStateM.run_bind, clear]
  rw [← run_respond, call, EStateM.run_bind, met]

theorem run_listLabelled (key value : String) :
    (listLabelled key value).run server = .ok
      (server.configs.items.filter fun cfg => cfg.metadata.labels.lookup key = some value)
      server := by
  rw [listLabelled, run_call clear]

theorem run_delete (found : server.configs.find cfg.key = some old) :
    (delete cfg).run server = .ok () { server with configs := server.remove old } := by
  rw [delete, run_call clear]
  simp [Server.delete, Server.stored, found]
  rfl

/-- An update that keeps a finalizer keeps the object. -/
theorem run_update (found : server.configs.find cfg.key = some old)
    (held : cfg.metadata.finalizers ≠ []) :
    (update cfg).run server = .ok (Server.updated old cfg)
      { server with configs := server.configs.put (Server.updated old cfg) } := by
  have stays : ¬((Server.updated old cfg).metadata.deletionTimestamp.isSome ∧
      (Server.updated old cfg).metadata.finalizers = []) := fun last => held last.2
  rw [update, run_call clear]
  simp only [Server.update, Server.stored, found]
  simp [pure_bind, stays]
  rfl

end

section Success

variable {post : α → Server → Prop}

/-- A fault is met once, and ends the call. -/
theorem run_meetFault : meetFault.run server =
    match server.faults.head? with
    | some (some error) => .error (.api error) { server with faults := server.faults.tail }
    | _ => .ok () { server with faults := server.faults.tail } := by
  obtain ⟨configs, clock, faults⟩ := server
  cases faults with
  | nil => rfl
  | cons fault rest => cases fault <;> rfl

/-- A successful call reached its request. -/
theorem yields_call (met : ∀ result configs, request { server with faults := server.faults.tail } =
        .ok (result, configs) →
      post result { server with faults := server.faults.tail, configs := configs }) :
    Yields (call request) server post := by
  have faced : Yields meetFault server fun _ s =>
      s = { server with faults := server.faults.tail } := by
    intro a s ran
    rw [run_meetFault] at ran
    split at ran
    · cases ran
    · cases ran
      rfl
  refine yields_bind faced fun _ s same => ?_
  subst same
  intro a s' ran
  rw [run_respond] at ran
  cases reply : request { server with faults := server.faults.tail } with
  | error error =>
    rw [reply] at ran
    cases ran
  | ok answer =>
    rw [reply] at ran
    cases ran
    exact met answer.1 answer.2 reply

/-- A successful request on the stored object under a key found it. -/
theorem yields_onStored {key : NamespacedName}
    {answer : ShardingConfig → Server → Except ApiError (Reply α)}
    (met : ∀ old result configs, server.configs.find key = some old →
      answer old { server with faults := server.faults.tail } = .ok (result, configs) →
      post result { server with faults := server.faults.tail, configs := configs }) :
    Yields (call fun server => server.stored key >>= (answer · server)) server post := by
  refine yields_call fun result configs reply => ?_
  cases found : ({ server with faults := server.faults.tail } : Server).stored key with
  | error error =>
    rw [found] at reply
    cases reply
  | ok old =>
    rw [found] at reply
    exact met old result configs (stored_ok found) reply

/-- A successful deletion of an object without finalizers takes exactly this object. -/
theorem yields_delete (present : cfg ∈ server.configs.items) (bare : cfg.metadata.finalizers = []) :
    Yields (delete cfg) server fun _ server' =>
      ∀ x, x ∈ server'.configs.items ↔ x ∈ server.configs.items ∧ x ≠ cfg := by
  refine yields_onStored fun old result configs found reply => ?_
  rw [Registry.mem_iff_find.mp present, Option.some.injEq] at found
  subst found
  cases reply
  intro x
  have gone : Server.deleted server.clock cfg = none := by simp [Server.deleted, bare]
  have erased : ({ server with faults := server.faults.tail } : Server).remove cfg =
      server.configs.erase cfg.key := by
    unfold Server.remove
    dsimp only
    rw [gone]
  change x ∈ (Server.remove _ cfg).items ↔ _
  rw [erased, Registry.mem_erase]
  refine and_congr_right fun member => not_congr ⟨fun same => ?_, fun same => by rw [same]⟩
  exact Registry.eq_of_key_eq member present same

/-- A successful creation adds the object under a free key. -/
theorem yields_create : Yields (create cfg) server fun _ server' =>
    (∀ x ∈ server.configs.items, x.key ≠ cfg.key) ∧
      ∀ x, x ∈ server'.configs.items ↔ x = { cfg with child := [] } ∨ x ∈ server.configs.items := by
  refine yields_call fun result configs reply => ?_
  unfold Server.create at reply
  split at reply
  · cases reply
  · next free =>
    cases reply
    have fresh : ∀ x ∈ server.configs.items, x.key ≠ cfg.key := by
      intro x member same
      apply free
      change (server.configs.find cfg.key).isSome
      rw [← same, Registry.mem_iff_find.mp member]
      rfl
    refine ⟨fresh, fun x => ?_⟩
    change x ∈ (server.configs.put { cfg with child := [] }).items ↔ _
    rw [Registry.mem_put]
    exact or_congr_right ⟨And.left, fun member => ⟨member, fresh x member⟩⟩

/-- A successful update of an object with finalizers writes it under its key. -/
theorem yields_update (held : cfg.metadata.finalizers ≠ []) :
    Yields (update cfg) server fun new server' => ∃ old, server.configs.find cfg.key = some old ∧
      new = Server.updated old cfg ∧ server'.configs = server.configs.put new := by
  refine yields_onStored fun old result configs found reply => ?_
  dsimp only at reply
  rw [if_neg fun last => held last.2] at reply
  cases reply
  exact ⟨old, found, rfl, rfl⟩

theorem yields_updateStatus : Yields (updateStatus cfg) server fun _ server' =>
    ∃ old, server.configs.find cfg.key = some old ∧
      server'.configs = server.configs.put { old with child := cfg.child } := by
  refine yields_onStored fun old result configs found reply => ?_
  cases reply
  exact ⟨old, found, rfl⟩

/-- A listing that is not answered by not-found returns the objects with the label. -/
theorem yields_listLabelled (answered : server.faults.head? ≠ some (some .notFound)) :
    Yields (ignoreNotFound (listLabelled key value) []) server fun cfgs server' =>
      server'.configs = server.configs ∧ cfgs = server.configs.items.filter fun cfg =>
        cfg.metadata.labels.lookup key = some value := by
  have direct : Yields (listLabelled key value) server fun cfgs server' =>
      server'.configs = server.configs ∧ cfgs = server.configs.items.filter fun cfg =>
        cfg.metadata.labels.lookup key = some value := by
    refine yields_call fun result configs reply => ?_
    cases reply
    exact ⟨rfl, rfl⟩
  intro cfgs server' ran
  cases ran' : (listLabelled key value).run server with
  | ok cfgs' server'' =>
    rw [ignoreNotFound, run_tryCatch_ok ran'] at ran
    cases ran
    exact direct _ _ ran'
  | error failure server'' =>
    have other : failure ≠ .api .notFound := by
      rintro rfl
      rw [listLabelled, call, EStateM.run_bind, run_meetFault] at ran'
      cases head : server.faults.head? with
      | none =>
        rw [head] at ran'
        cases ran'
      | some fault =>
        rw [head] at ran'
        cases fault with
        | none => cases ran'
        | some error =>
          cases ran'
          exact answered head
    rw [ignoreNotFound, run_tryCatch_error ran', if_neg other] at ran
    cases ran

end Success

end Client

end CtrlMesh.Api
