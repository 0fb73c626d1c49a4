import CtrlMesh.Sharding.ShardAgreement

/-!
# Expected hashes

A pass that sends a specification expects its hash to be reported, and later passes wait for it. The
entry belongs to the connection it was sent on, yet it is kept by pod: the handler of any stream of
the pod drops it, at its registration and again when the stream ends. An entry outlives all but its
own connection when these steps come in order (`Orderly`): a stream is cleaned up before the next
one of its pod is sent anything, and no pass sends in the middle of a registration.
-/

namespace CtrlMesh.Sharding.Dispatch

open Labels Lib Api Proxy

/-- A pass from `w` to `w'` sends to the pod on the stream `c` and expects the hash. -/
structure Recorded (w w' : World) (uid : UID) (c : StreamID) (hash : String) : Prop where
  entry : w'.podHashExpectation.lookup uid = some hash
  sent : ∃ conn conn', w.cached uid = some (c, conn) ∧ w'.conn c = some conn' ∧
    conn.sendTimes < conn'.sendTimes

/-- The status that a pass finds for the pod has the hash. -/
def Met (w : World) (uid : UID) (hash : String) : Prop :=
  ∃ found ∈ w.cached uid, found.2.status.metaState.map (·.expectedHash) = some hash

/-- The steps that may end an entry recorded for the stream `c` in the state `w₀`: a pass that finds
the hash reported, the end of `c` (or of the manager), the registration of a stream without a
connection then, and the deletion of the pod. -/
def MayEnd (w₀ : World) (uid : UID) (c : StreamID) (hash : String) (w : World) : Event → Prop
  | .reconcile _ _ => Met w uid hash
  | .cleanupForget sid => sid = c
  | .registerForget sid => w₀.conn sid = none ∧ ∃ conn ∈ w.conn sid, conn.uid = uid
  | .podDeleted uid' => uid' = uid
  | .restartManager => True
  | _ => False

/-- Every entry that a pass of the run records lasts until a step that may end it. -/
def KeepsExpectations (enc : Encoder)
    (events : List Event) : Prop :=
  ∀ before key o after w₀ w₁ uid c hash, events = before ++ .reconcile key o :: after →
    run (step enc) .start before = some w₀ →
    step enc w₀ (.reconcile key o) = some w₁ → Recorded w₀ w₁ uid c hash →
      Until (step enc) (·.podHashExpectation.lookup uid = some hash)
        (MayEnd w₀ uid c hash) w₁ after

/-- The pod of the stream has no entry, or its last connection is that of the stream; nothing was
sent on it if it is being registered. -/
def Latest (w : World) (sid : StreamID) : Prop :=
  ∀ conn ∈ w.conn sid, w.podHashExpectation.lookup conn.uid = none ∨
    w.cachedGrpcSrvConnection.lookup conn.uid = some sid ∧
      (conn.stage = .stored → conn.sendTimes = 0)

/-- The condition on a step. -/
def Orderly (w : World) : Event → Prop
  | .registerForget sid | .cleanupForget sid => Latest w sid
  | _ => True

/-- A connection later on: no send is undone, and one that is being registered is still so. -/
structure Conn.Later (conn conn' : Conn) : Prop where
  uid : conn'.uid = conn.uid
  sends : conn.sendTimes ≤ conn'.sendTimes
  stored : conn.stage = .stored → conn'.stage = .stored

/-- No connection is stored or lost. -/
structure Onward (w w' : World) : Prop where
  cache : w'.cachedGrpcSrvConnection = w.cachedGrpcSrvConnection
  later : ∀ sid conn, w.conn sid = some conn → ∃ conn', w'.conn sid = some conn' ∧ conn.Later conn'

variable {key : NamespacedName} {f : Pod → Pod}

section

variable {w w' w'' : World} {uid : UID} {sid : StreamID} {hash : String} {o : Outcomes}
  {spec : ProxySpec} {syncPods : List SyncPod}

theorem Onward.of_streams (streams : w'.streams = w.streams)
    (cache : w'.cachedGrpcSrvConnection = w.cachedGrpcSrvConnection) : Onward w w' := by
  refine ⟨cache, fun sid conn connection => ⟨conn, ?_, rfl, le_rfl, id⟩⟩
  rw [World.conn, streams]
  exact connection

theorem Onward.trans (first : Onward w w') (second : Onward w' w'') : Onward w w'' := by
  refine ⟨second.cache.trans first.cache, fun sid conn connection => ?_⟩
  obtain ⟨conn', connection', later⟩ := first.later sid conn connection
  obtain ⟨conn'', connection'', later'⟩ := second.later sid conn' connection'
  refine ⟨conn'', connection'', later'.uid.trans later.uid, later.sends.trans later'.sends, ?_⟩
  exact fun stored => later'.stored (later.stored stored)

theorem onward_modifyStream {f : Stream → Stream}
    (later : ∀ s conn, w.streams[sid]? = some s → s.conn = some conn →
      ∃ conn', (f s).conn = some conn' ∧ conn.Later conn') : Onward w (w.modifyStream sid f) := by
  refine ⟨rfl, fun sid' conn connection => ?_⟩
  by_cases same : sid' = sid
  · subst same
    obtain ⟨s, found, registered⟩ := conn_eq_some.mp connection
    rw [conn_modifyStream found]
    exact later s conn found registered
  · rw [conn_modifyStream_of_ne same]
    exact ⟨conn, connection, rfl, le_rfl, id⟩

/-- Steps that leave the connection of the stream as it is. -/
theorem onward_of_conn {f : Stream → Stream} (same : ∀ s, (f s).conn = s.conn) :
    Onward w (w.modifyStream sid f) :=
  onward_modifyStream fun s conn _ registered => ⟨conn, (same s).trans registered, rfl, le_rfl, id⟩

theorem onward_modifyPod : Onward w (w.modifyPod key f) := by
  unfold World.modifyPod
  split
  · exact .of_streams rfl rfl
  · exact .of_streams rfl rfl

theorem onward_sendOne (w : World) (sp : SyncPod) : Onward w (sendOne o spec w sp) := by
  have counted : Onward w (w.bump sp.sid) := by
    refine onward_modifyStream fun s conn _ registered => ?_
    exact ⟨{ conn with sendTimes := conn.sendTimes + 1 }, by rw [registered]; rfl, rfl,
      Nat.le_succ _, id⟩
  unfold sendOne
  split
  · have pushed : Onward w ((w.bump sp.sid).push sp.sid spec) :=
      counted.trans (onward_of_conn fun _ => rfl)
    exact pushed.trans (.of_streams rfl rfl)
  · exact counted

theorem onward_deleteOne (w : World) (sp : SyncPod) : Onward w (deleteOne o w sp) := by
  unfold deleteOne
  split
  · exact onward_modifyPod.trans (.of_streams rfl rfl)
  · exact .of_streams rfl rfl

theorem onward_foldl {f : World → SyncPod → World} (each : ∀ w sp, Onward w (f w sp)) (w : World)
    (syncPods : List SyncPod) : Onward w (syncPods.foldl f w) := by
  induction syncPods generalizing w with
  | nil => exact .of_streams rfl rfl
  | cons sp syncPods ih => exact (each w sp).trans (ih (f w sp))

theorem onward_collect (w : World) (pods : List Pod) : Onward w (collect w pods).1 := by
  induction pods generalizing w with
  | nil => exact .of_streams rfl rfl
  | cons po pods ih =>
    unfold collect
    split
    · exact .of_streams rfl rfl
    · exact ih w
    · have dropped : Onward w (w.forget po.uid) := .of_streams rfl rfl
      exact dropped.trans (ih _)

theorem onward_syncAll : Onward w (syncAll o spec w syncPods) := by
  unfold syncAll
  dsimp only
  split
  · exact onward_foldl onward_deleteOne w _
  split
  · exact onward_foldl onward_sendOne w _
  · exact onward_foldl onward_sendOne w _

theorem lookup_modifyPod : (w.modifyPod key f).podHashExpectation = w.podHashExpectation := by
  unfold World.modifyPod
  split <;> rfl

theorem cached_modifyPod : (w.modifyPod key f).cached uid = w.cached uid := by
  unfold World.modifyPod
  split <;> rfl

variable {sp : SyncPod} {conn : Conn} {cfg : ShardingConfig} {next : Stage}

theorem lookup_sendOne (other : sp.pod.uid ≠ uid) :
    (sendOne o spec w sp).podHashExpectation.lookup uid = w.podHashExpectation.lookup uid := by
  unfold sendOne
  split
  · exact AList.lookup_insert_ne other.symm
  · rfl

theorem lookup_deleteOne :
    (deleteOne o w sp).podHashExpectation.lookup uid = w.podHashExpectation.lookup uid := by
  unfold deleteOne
  split
  · exact congrArg (·.lookup uid) lookup_modifyPod
  · rfl

theorem lookup_foldl {f : World → SyncPod → World} (each : ∀ w, ∀ sp ∈ syncPods,
      (f w sp).podHashExpectation.lookup uid = w.podHashExpectation.lookup uid) :
    (syncPods.foldl f w).podHashExpectation.lookup uid = w.podHashExpectation.lookup uid := by
  induction syncPods generalizing w with
  | nil => rfl
  | cons sp syncPods ih =>
    have first := each w sp List.mem_cons_self
    exact (ih fun w sp' member => each w sp' (List.mem_cons_of_mem _ member)).trans first

theorem lookup_syncAll (others : ∀ sp ∈ syncPods, sp.pod.uid ≠ uid) :
    (syncAll o spec w syncPods).podHashExpectation.lookup uid =
      w.podHashExpectation.lookup uid := by
  have sends (action : Action) : ((withAction spec.hash action syncPods).foldl (sendOne o spec)
      w).podHashExpectation.lookup uid = w.podHashExpectation.lookup uid :=
    lookup_foldl fun w sp member => lookup_sendOne (others sp (mem_withAction.mp member).1)
  unfold syncAll
  dsimp only
  split
  · exact lookup_foldl fun w sp _ => lookup_deleteOne
  split
  · exact sends .update
  · exact sends .dispatch

theorem met_of_admitPod {po : Pod} (admitted : admitPod w po = .sync sid conn)
    (entry : w.podHashExpectation.lookup po.uid = some hash) : Met w po.uid hash := by
  have cached : w.cached po.uid = some (sid, conn) := (admitted_of_admitPod admitted).cached
  by_contra unmet
  have different : conn.status.metaState.map (·.expectedHash) ≠ some hash :=
    fun met => unmet ⟨(sid, conn), cached, met⟩
  simp only [admitPod, cached, entry, if_neg different, ite_self] at admitted
  split at admitted
  · split at admitted <;> cases admitted
  · cases admitted

/-- A pod whose entry is not met takes no part in the pass. -/
theorem collect_of_unmet (w : World) {pods : List Pod}
    (entry : w.podHashExpectation.lookup uid = some hash) (unmet : ¬Met w uid hash) :
    (collect w pods).1.podHashExpectation.lookup uid = some hash ∧
      ∀ syncPods, (collect w pods).2 = some syncPods → ∀ sp ∈ syncPods, sp.pod.uid ≠ uid := by
  induction pods generalizing w with
  | nil =>
    refine ⟨entry, fun syncPods done sp member => ?_⟩
    cases done
    cases member
  | cons po pods ih =>
    unfold collect
    split
    · exact ⟨entry, nofun⟩
    · exact ih w entry unmet
    next sid conn admitted =>
    have other : po.uid ≠ uid := by
      rintro rfl
      exact unmet (met_of_admitPod admitted entry)
    have entry' : (w.forget po.uid).podHashExpectation.lookup uid = some hash :=
      (AList.lookup_erase_ne other.symm).trans entry
    obtain ⟨kept, others⟩ := ih (w.forget po.uid) entry' unmet
    refine ⟨kept, fun syncPods done sp member => ?_⟩
    obtain ⟨rest, collected, rfl⟩ := Option.map_eq_some_iff.mp done
    obtain rfl | member := List.mem_cons.mp member
    · exact other
    · exact others rest collected sp member

variable {enc : Encoder}

theorem onward_syncShard : Onward w (syncShard enc w cfg o) := by
  have collected := onward_collect w (getPodsForShardingConfig w cfg.key)
  unfold syncShard
  split
  · next stopped =>
    rw [stopped] at collected
    exact collected
  · next w' syncPods through =>
    rw [through] at collected
    exact collected.trans onward_syncAll

theorem onward_reconcile : Onward w (reconcile enc w key o) := by
  obtain ⟨w', cleared, done⟩ := reconcile_cases enc w key o
  have first : Onward w w' := by
    obtain rfl | ⟨key', rfl⟩ := cleared
    · exact .of_streams rfl rfl
    · exact onward_modifyPod
  obtain same | ⟨cfg, -, same⟩ := done
  · rw [same]
    exact first
  · rw [same]
    exact first.trans onward_syncShard

theorem lookup_syncShard (entry : w.podHashExpectation.lookup uid = some hash)
    (unmet : ¬Met w uid hash) :
    (syncShard enc w cfg o).podHashExpectation.lookup uid = some hash := by
  obtain ⟨kept, others⟩ := collect_of_unmet w entry unmet
  unfold syncShard
  split
  · next stopped =>
    rw [stopped] at kept
    exact kept
  · next w' syncPods through =>
    rw [through] at kept others
    exact (lookup_syncAll (others syncPods rfl)).trans kept

/-- A pass drops no entry that is not met. -/
theorem lookup_reconcile (entry : w.podHashExpectation.lookup uid = some hash)
    (unmet : ¬Met w uid hash) :
    (reconcile enc w key o).podHashExpectation.lookup uid = some hash := by
  obtain ⟨w', cleared, done⟩ := reconcile_cases enc w key o
  obtain ⟨entry', unmet'⟩ : w'.podHashExpectation.lookup uid = some hash ∧ ¬Met w' uid hash := by
    obtain rfl | ⟨key', rfl⟩ := cleared
    · exact ⟨entry, unmet⟩
    · rw [World.deletePod, lookup_modifyPod, Met, cached_modifyPod]
      exact ⟨entry, unmet⟩
  obtain same | ⟨cfg, -, same⟩ := done
  · rw [same]
    exact entry'
  · rw [same]
    exact lookup_syncShard entry' unmet'

/-- The connection of the stream is the one that the entry was sent on, or a newer one that is about
to drop the entry. -/
def Heir (w₀ : World) (uid : UID) (c sid : StreamID) (conn : Conn) : Prop :=
  sid = c ∧ 0 < conn.sendTimes ∨ w₀.conn sid = none ∧ conn.uid = uid ∧ conn.stage = .stored

/-- The entry stands, and the pod has no connection later than these. -/
structure Standing (w₀ : World) (uid : UID) (c : StreamID) (hash : String) (w : World) : Prop where
  entry : w.podHashExpectation.lookup uid = some hash
  older : ∀ sid, w.conn sid = none → w₀.conn sid = none
  last : ∃ sid conn, w.cached uid = some (sid, conn) ∧ Heir w₀ uid c sid conn

variable {w₀ : World} {c : StreamID}

theorem Onward.none_of_none (onward : Onward w w') (absent : w'.conn sid = none) :
    w.conn sid = none := by
  cases connection : w.conn sid with
  | none => rfl
  | some conn =>
    obtain ⟨conn', connection', -⟩ := onward.later sid conn connection
    rw [absent] at connection'
    cases connection'

theorem Standing.onward (standing : Standing w₀ uid c hash w) (onward : Onward w w')
    (entry : w'.podHashExpectation.lookup uid = some hash) : Standing w₀ uid c hash w' := by
  refine ⟨entry, fun sid absent => standing.older sid (onward.none_of_none absent), ?_⟩
  obtain ⟨sid, conn, cached, which⟩ := standing.last
  obtain ⟨lookup, connection⟩ := cached_eq_some.mp cached
  obtain ⟨conn', connection', later⟩ := onward.later sid conn connection
  refine ⟨sid, conn', cached_eq_some.mpr ⟨onward.cache ▸ lookup, connection'⟩, ?_⟩
  obtain ⟨own, sent⟩ | ⟨new, of, registering⟩ := which
  · exact .inl ⟨own, sent.trans_le later.sends⟩
  · exact .inr ⟨new, later.uid.trans of, later.stored registering⟩

theorem Recorded.standing (recorded : Recorded w (reconcile enc w key o) uid c hash) :
    Standing w uid c hash (reconcile enc w key o) := by
  have onward : Onward w (reconcile enc w key o) := onward_reconcile
  obtain ⟨conn, conn', cached, connection', sent⟩ := recorded.sent
  refine ⟨recorded.entry, fun sid => onward.none_of_none, c, conn', ?_, .inl ⟨rfl, ?_⟩⟩
  · exact cached_eq_some.mpr ⟨onward.cache ▸ (cached_eq_some.mp cached).1, connection'⟩
  · omega

theorem Standing.registerStore (standing : Standing w₀ uid c hash w)
    (stepped : registerStore w sid = some w') : Standing w₀ uid c hash w' := by
  obtain ⟨s, found, stepped⟩ := Option.bind_eq_some_iff.mp stepped
  split at stepped
  · cases stepped
  next unregistered =>
  have unregistered : s.conn = none := by
    simp only [Bool.or_eq_true, not_or] at unregistered
    simpa using unregistered.2
  have unconnected : w.conn sid = none := by
    rw [World.conn, found]
    exact unregistered
  split at stepped
  · cases stepped
  split at stepped
  · cases stepped
    exact standing.onward (onward_of_conn fun _ => rfl) standing.entry
  next po _ =>
  cases stepped
  refine ⟨standing.entry, fun sid' absent => standing.older sid' ?_, ?_⟩
  · by_cases same : sid' = sid
    · rw [same]
      exact unconnected
    · exact (conn_modifyStream_of_ne same).symm.trans absent
  by_cases same : po.uid = uid
  · subst same
    -- The new connection is the last one of the pod now.
    refine ⟨sid, _, cached_eq_some.mpr ⟨AList.lookup_insert _, conn_modifyStream found⟩, .inr ?_⟩
    exact ⟨standing.older sid unconnected, rfl, rfl⟩
  · obtain ⟨last, conn, cached, which⟩ := standing.last
    obtain ⟨lookup, connection⟩ := cached_eq_some.mp cached
    have different : last ≠ sid := by
      rintro rfl
      rw [unconnected] at connection
      cases connection
    refine ⟨last, conn, cached_eq_some.mpr ⟨?_, ?_⟩, which⟩
    · exact (AList.lookup_insert_ne (Ne.symm same)).trans lookup
    · exact (conn_modifyStream_of_ne different).trans connection

/-- The handler of a stream of another pod. -/
theorem Standing.forget_other (standing : Standing w₀ uid c hash w)
    (connection : w.conn sid = some conn) (other : conn.uid ≠ uid) :
    Standing w₀ uid c hash ((w.modifyConn sid ({ · with stage := next })).forget conn.uid) := by
  obtain ⟨s, found, registered⟩ := conn_eq_some.mp connection
  have own : (w.modifyConn sid ({ · with stage := next })).conn sid =
      some { conn with stage := next } := by
    rw [World.modifyConn, conn_modifyStream found, registered]
    rfl
  refine ⟨(AList.lookup_erase_ne other.symm).trans standing.entry,
    fun sid' absent => standing.older sid' ?_, ?_⟩
  · by_cases same : sid' = sid
    · subst same
      cases own.symm.trans absent
    · exact (conn_modifyStream_of_ne same).symm.trans absent
  obtain ⟨last, conn', cached, which⟩ := standing.last
  obtain ⟨lookup, connection'⟩ := cached_eq_some.mp cached
  by_cases same : last = sid
  · subst same
    obtain rfl := Option.some.inj (connection.symm.trans connection')
    obtain sent | ⟨-, of, -⟩ := which
    · exact ⟨last, _, cached_eq_some.mpr ⟨lookup, own⟩, .inl sent⟩
    · exact absurd of other
  · have connection'' : (w.modifyConn sid ({ · with stage := next })).conn last = some conn' :=
      (conn_modifyStream_of_ne same).trans connection'
    exact ⟨last, conn', cached_eq_some.mpr ⟨lookup, connection''⟩, which⟩

/-- The handler of a stream of the pod drops the entry only if the stream is the last one. -/
theorem Standing.forgetAt {stage : Stage} (standing : Standing w₀ uid c hash w)
    (stepped : forgetAt w sid stage next = some w') (latest : Latest w sid) :
    Standing w₀ uid c hash w' ∨ w'.podHashExpectation.lookup uid ≠ some hash ∧
      ∃ conn, w.conn sid = some conn ∧ conn.uid = uid ∧ conn.stage = stage ∧
        (conn.stage = .stored → conn.sendTimes = 0) ∧ Heir w₀ uid c sid conn := by
  obtain ⟨conn, connection, stepped⟩ := Option.bind_eq_some_iff.mp stepped
  split at stepped
  · next atStage =>
    cases stepped
    by_cases same : conn.uid = uid
    · subst same
      have dropped : (w.podHashExpectation.erase conn.uid).lookup conn.uid ≠ some hash := by
        rw [AList.lookup_erase]
        exact nofun
      obtain absent | ⟨newest, unsent⟩ := latest conn connection
      · cases absent.symm.trans standing.entry
      obtain ⟨last, conn', cached, heir⟩ := standing.last
      obtain ⟨lookup, connection'⟩ := cached_eq_some.mp cached
      obtain rfl : sid = last := Option.some.inj (newest.symm.trans lookup)
      obtain rfl : conn = conn' := Option.some.inj (connection.symm.trans connection')
      exact .inr ⟨dropped, conn, connection, rfl, atStage, unsent, heir⟩
    · exact .inl (standing.forget_other connection same)
  · cases stepped

/-- No connection is stored or lost, and no entry is touched. -/
structure Quiet (w w' : World) : Prop extends Onward w w' where
  expected : w'.podHashExpectation = w.podHashExpectation

theorem Standing.quiet (standing : Standing w₀ uid c hash w) (quiet : Quiet w w') :
    Standing w₀ uid c hash w' :=
  standing.onward quiet.toOnward (quiet.expected ▸ standing.entry)

theorem quiet_modifyPod : Quiet w (w.modifyPod key f) :=
  ⟨onward_modifyPod, lookup_modifyPod⟩

theorem quiet_connect (stepped : connect w key = some w') : Quiet w w' := by
  obtain ⟨po, -, stepped⟩ := Option.bind_eq_some_iff.mp stepped
  split at stepped
  · cases stepped
    refine ⟨⟨rfl, fun sid conn connection => ⟨conn, ?_, rfl, le_rfl, id⟩⟩, rfl⟩
    obtain ⟨s, found, registered⟩ := conn_eq_some.mp connection
    have inside : sid < w.streams.length := (List.getElem?_eq_some_iff.mp found).1
    exact conn_eq_some.mpr ⟨s, (List.getElem?_append_left inside).trans found, registered⟩
  · cases stepped

theorem quiet_disconnect (stepped : disconnect w key = some w') : Quiet w w' := by
  obtain ⟨po, -, stepped⟩ := Option.bind_eq_some_iff.mp stepped
  cases stepped
  exact ⟨.of_streams rfl rfl, rfl⟩

theorem quiet_receiveStatus (stepped : receiveStatus w sid = some w') : Quiet w w' := by
  simp only [receiveStatus, Option.bind_eq_bind, Option.bind_eq_some_iff] at stepped
  obtain ⟨s, found, conn, registered, stepped⟩ := stepped
  split at stepped
  · cases stepped
  split at stepped
  · cases stepped
  cases stepped
  refine ⟨onward_modifyStream fun s' conn' found' registered' => ⟨_, rfl, ?_⟩, rfl⟩
  obtain rfl : s = s' := Option.some.inj (found.symm.trans found')
  obtain rfl : conn = conn' := Option.some.inj (registered.symm.trans registered')
  exact ⟨rfl, le_rfl, id⟩

theorem quiet_cleanupMark (stepped : cleanupMark w sid = some w') : Quiet w w' := by
  obtain ⟨conn, connection, stepped⟩ := Option.bind_eq_some_iff.mp stepped
  split at stepped
  · next forgotten =>
    cases stepped
    refine ⟨onward_modifyStream fun s conn' found registered => ?_, rfl⟩
    have same : conn = conn' := by
      rw [World.conn, found] at connection
      exact Option.some.inj (connection.symm.trans registered)
    subst same
    refine ⟨{ conn with stage := .ended, disconnected := true }, ?_, rfl, le_rfl, fun stored => ?_⟩
    · rw [registered]
      rfl
    · rw [forgotten] at stored
      cases stored
  · cases stepped

theorem quiet_receiveSpec (stepped : receiveSpec w key = some w') : Quiet w w' := by
  simp only [receiveSpec, Option.bind_eq_bind, Option.bind_eq_some_iff] at stepped
  obtain ⟨po, -, sid, -, s, -, stepped⟩ := stepped
  split at stepped
  · cases stepped
  split at stepped
  · cases stepped
  next specs _ =>
  cases stepped
  have read : Onward w (w.modifyStream sid ({ · with specs := specs })) :=
    onward_of_conn fun _ => rfl
  exact ⟨read.trans (.of_streams rfl rfl), rfl⟩

theorem quiet_report (stepped : report w key = some w') : Quiet w w' := by
  simp only [report, Option.bind_eq_bind, Option.bind_eq_some_iff] at stepped
  obtain ⟨po, -, sid, -, newStatus, -, stepped⟩ := stepped
  split at stepped
  · cases stepped
  cases stepped
  have written : Onward w (w.modifyStream sid fun s =>
      { s with statuses := s.statuses ++ [newStatus] }) := onward_of_conn fun _ => rfl
  exact ⟨written.trans (.of_streams rfl rfl), rfl⟩

theorem quiet_podStatus {phase : Phase} {ready running : Bool}
    (stepped : podStatus w key phase ready running = some w') : Quiet w w' := by
  obtain ⟨po, -, stepped⟩ := Option.bind_eq_some_iff.mp stepped
  dsimp only at stepped
  split at stepped
  · cases stepped
    exact ⟨.of_streams rfl rfl, rfl⟩
  · cases stepped

theorem Standing.step {event : Event} (standing : Standing w₀ uid c hash w)
    (orderly : Orderly w event) (stepped : step enc w event = some w') :
    Standing w₀ uid c hash w' ∨
      w'.podHashExpectation.lookup uid ≠ some hash ∧ MayEnd w₀ uid c hash w event := by
  cases event with
  | reconcile key o =>
    cases stepped
    have onward : Onward w (reconcile enc w key o) := onward_reconcile
    by_cases met : Met w uid hash
    · by_cases entry : (reconcile enc w key o).podHashExpectation.lookup uid = some hash
      · exact .inl (standing.onward onward entry)
      · exact .inr ⟨entry, met⟩
    · exact .inl (standing.onward onward (lookup_reconcile standing.entry met))
  | registerStore sid => exact .inl (standing.registerStore stepped)
  | registerForget sid =>
    obtain stands | ⟨dropped, conn, connection, of, atStage, unsent, heir⟩ :=
      standing.forgetAt stepped orderly
    · exact .inl stands
    · obtain ⟨-, sent⟩ | ⟨new, -, -⟩ := heir
      · have := unsent atStage
        omega
      · exact .inr ⟨dropped, new, conn, connection, of⟩
  | cleanupForget sid =>
    obtain stands | ⟨dropped, conn, -, -, atStage, -, heir⟩ := standing.forgetAt stepped orderly
    · exact .inl stands
    · obtain ⟨own, -⟩ | ⟨-, -, registering⟩ := heir
      · exact .inr ⟨dropped, own⟩
      · cases atStage.symm.trans registering
  | podDeleted uid' =>
    simp only [Dispatch.step] at stepped
    split at stepped
    · cases stepped
    cases stepped
    by_cases same : uid' = uid
    · subst same
      refine .inr ⟨?_, rfl⟩
      have dropped : (w.podHashExpectation.erase uid').lookup uid' = none :=
        AList.lookup_erase uid' w.podHashExpectation
      exact fun entry => by cases dropped.symm.trans entry
    · have entry : (w.podHashExpectation.erase uid').lookup uid = some hash :=
        (AList.lookup_erase_ne (Ne.symm same)).trans standing.entry
      exact .inl (standing.onward (.of_streams rfl rfl) entry)
  | restartManager =>
    cases stepped
    exact .inr ⟨by simp [restartManager], trivial⟩
  | receiveStatus sid => exact .inl (standing.quiet (quiet_receiveStatus stepped))
  | cleanupMark sid => exact .inl (standing.quiet (quiet_cleanupMark stepped))
  | connect key => exact .inl (standing.quiet (quiet_connect stepped))
  | disconnect key => exact .inl (standing.quiet (quiet_disconnect stepped))
  | receiveSpec key => exact .inl (standing.quiet (quiet_receiveSpec stepped))
  | report key => exact .inl (standing.quiet (quiet_report stepped))
  | podStatus key phase ready running =>
    exact .inl (standing.quiet (quiet_podStatus stepped))
  | updateLeaderElection key le | age key | deletePod key =>
    cases stepped
    exact .inl (standing.quiet quiet_modifyPod)
  | createPod key labels =>
    simp only [Dispatch.step] at stepped
    split at stepped
    · cases stepped
    · cases stepped
      exact .inl (standing.quiet ⟨.of_streams rfl rfl, rfl⟩)
  | removePod key =>
    simp only [Dispatch.step] at stepped
    split at stepped
    · cases stepped
    split at stepped
    · cases stepped
    · cases stepped
      exact .inl (standing.quiet ⟨.of_streams rfl rfl, rfl⟩)
  | putConfig cfg | removeConfig key =>
    cases stepped
    exact .inl (standing.quiet ⟨.of_streams rfl rfl, rfl⟩)

end

/-- In a run of orderly steps an entry is dropped only for its own connection, a newer one, a report
of its hash or the deletion of its pod. -/
theorem keepsExpectations_of_orderly (enc : Encoder) (events : List Event)
    (orderly : EachStep (step enc) Orderly .start events) : KeepsExpectations enc events := by
  intro before key o after w₀ w₁ uid c hash split ran stepped recorded
  subst split
  have later : EachStep (step enc) Orderly w₁ after :=
    (eachStep_cons.mp (orderly.after ran) w₁ stepped).2
  cases stepped
  exact until_of_eachStep (fun _ standing => standing.entry)
    (fun _ _ _ standing orderly stepped => standing.step orderly stepped) recorded.standing later

instance (w : World) (sid : StreamID) : Decidable (Latest w sid) :=
  inferInstanceAs (Decidable (∀ conn ∈ w.conn sid, _ ∨ _ ∧ (_ → _)))

instance (w : World) : (event : Event) → Decidable (Orderly w event)
  | .registerForget sid | .cleanupForget sid => inferInstanceAs (Decidable (Latest w sid))
  | .reconcile _ _ | .registerStore _ | .receiveStatus _ | .cleanupMark _ | .connect _
  | .disconnect _ | .receiveSpec _ | .report _ | .updateLeaderElection _ _ | .createPod _ _
  | .podStatus _ _ _ _ | .age _ | .deletePod _ | .removePod _ | .podDeleted _ | .putConfig _
  | .removeConfig _ | .restartManager => isTrue trivial

/-- A pod is sent its specification, and its stream ends before it registers again. -/
def reconnectedRun : List Event :=
  .putConfig (sampleConfig [⟨∅, []⟩]) :: joins ("ns", "a") 0 ++
  [ .reconcile ("ns", "shard") allDone, .disconnect ("ns", "a"), .cleanupForget 0, .cleanupMark 0,
    .connect ("ns", "a"), .registerStore 1, .registerForget 1, .reconcile ("ns", "shard") allDone ]

theorem keepsExpectations_reconnected :
    (run (step sampleEncoder) .start reconnectedRun).map
        (·.podHashExpectation.lookup 0) = some (some "a") ∧
      EachStep (step sampleEncoder) Orderly .start reconnectedRun ∧
      KeepsExpectations sampleEncoder reconnectedRun := by
  have orderly : EachStep (step sampleEncoder) Orderly .start reconnectedRun := by
    decide
  exact ⟨by decide, orderly, keepsExpectations_of_orderly _ _ orderly⟩

/-- The pod opens a second stream before the manager has seen the end of the first. -/
def twoStreams : List Event :=
  .putConfig (sampleConfig [⟨∅, []⟩]) :: joins ("ns", "a") 0 ++
  [ .connect ("ns", "a"), .registerStore 1, .registerForget 1 ]

/-- The world after that run. -/
def withTwoStreams : World := (run (step sampleEncoder) .start twoStreams).getD .start

/-- The end of the first stream takes away what the pass recorded for the second. -/
theorem entry_lost_to_old_stream : ¬∀ events, KeepsExpectations sampleEncoder events := by
  intro keeps
  have ran : run (step sampleEncoder) .start twoStreams = some withTwoStreams := rfl
  have recorded : Recorded withTwoStreams
      (reconcile sampleEncoder withTwoStreams ("ns", "shard") allDone) 0 1 "a" :=
    ⟨by decide, _, _, rfl, rfl, by decide⟩
  have kept := keeps (twoStreams ++ [.reconcile ("ns", "shard") allDone, .cleanupForget 0])
    twoStreams _ _ _ _ _ _ _ _ rfl ran rfl recorded
  have own : (0 : StreamID) = 1 := kept [] (.cleanupForget 0) [] _ _ rfl rfl
    (along_nil.mpr recorded.entry) rfl (by decide)
  cases own

end CtrlMesh.Sharding.Dispatch
