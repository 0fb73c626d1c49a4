import CtrlMesh.Lib.Run
import CtrlMesh.Sharding.Dispatch

/-!
# What the manager knows of its proxies

The invariant behind the agreement of a shard. A proxy keeps the first specification it takes over,
so everything rests on what is on its way to proxies that have none yet. The manager's picture of
such a proxy is right: if the cached connection has reported nothing, what the proxy can still take
over is the hash expected of it. This module has the invariant and the steps of the proxies, the
handlers and the API server; the passes of the reconciler follow in `ShardAgreement`.
-/

namespace CtrlMesh.Sharding.Dispatch

open Labels Lib Api Proxy

/-- The hash of the specification the proxy of the pod uses. -/
def Pod.currentHash (po : Pod) : Option String := po.specManager.currentHash

/-- The pod runs, or may come to run. -/
def Pod.alive (po : Pod) : Bool := isPodActive po || po.running

/-- The specifications on their way to the proxy of a pod. -/
def World.incoming (w : World) (po : Pod) : List ProxySpec :=
  ((po.stream.bind (w.streams[·]?)).map (·.specs)).getD []

/-- The proxy of the pod uses the hash, or uses none and can come to use this one. -/
def Pending (w : World) (po : Pod) (hash : String) : Prop :=
  po.currentHash = some hash ∨
    po.currentHash = none ∧ ∃ spec ∈ w.incoming po, spec.hash = hash

/-- The proxy of the pod uses no specification, and none is on its way. -/
def Blank (w : World) (po : Pod) : Prop := po.currentHash = none ∧ w.incoming po = []

/-- The hash is the only one that the pods of a shard use or can come to use. -/
def Uniform (w : World) (key : NamespacedName) (hash : String) : Prop :=
  ∀ po ∈ w.pods.items, po.labelled key = true → po.alive = true → ∀ hash', Pending w po hash' →
    hash' = hash

/-- Running pods of one ShardingConfig use one hash. -/
def Agree (w : World) : Prop :=
  ∀ po ∈ w.pods.items, ∀ po' ∈ w.pods.items, ∀ key, po.labelled key = true →
    po'.labelled key = true → po.running = true → po'.running = true →
      ∀ hash hash', po.currentHash = some hash → po'.currentHash = some hash' → hash = hash'

/-- A status tells the hash that the pod of the UID uses. -/
def Tells (w : World) (uid : UID) (status : ProxyStatus) : Prop :=
  ∀ metaState, status.metaState = some metaState → ∀ po ∈ w.pods.items, po.uid = uid →
    po.currentHash = some metaState.currentHash

/-- What holds of every stream. Only its first status can have no meta state. -/
structure StreamOK (w : World) (s : Stream) : Prop where
  opener : s.opener < w.nextUID
  tells : ∀ status ∈ s.statuses, Tells w s.opener status
  later : ∀ status ∈ if s.conn.isSome then s.statuses else s.statuses.tail,
    status.metaState ≠ none
  uid : ∀ conn, s.conn = some conn → conn.uid = s.opener
  reported : ∀ conn, s.conn = some conn → Tells w s.opener conn.status
  ended : ∀ conn, s.conn = some conn → conn.stage = .ended → conn.disconnected = true

/-- A stream that can still be registered: nothing was sent on it, and its first status tells
whether the pod uses a specification. -/
def Fresh (po : Pod) (s : Stream) : Prop :=
  s.specs = [] ∧ ∃ first, s.statuses.head? = some first ∧
    (first.metaState = none → po.currentHash = none)

/-- The manager's picture of a pod that has not reported a meta state. -/
def Viewed (w : World) (po : Pod) : Prop :=
  ∀ sid conn, w.cached po.uid = some (sid, conn) → conn.status.metaState = none →
    (conn.stage = .serving → ∀ hash, Pending w po hash →
      w.podHashExpectation.lookup po.uid = some hash) ∧
    (conn.stage = .stored → ∀ hash, ¬Pending w po hash)

/-- What holds of every pod. -/
structure PodOK (w : World) (po : Pod) : Prop where
  uid : po.uid < w.nextUID
  stream : ∀ sid, po.stream = some sid → ∃ s, w.streams[sid]? = some s ∧ s.opener = po.uid ∧
    (s.severed = false → s.conn = none → Fresh po s)
  viewed : Viewed w po

/-- The invariant. -/
structure Sound (w : World) : Prop where
  pods : ∀ po ∈ w.pods.items, PodOK w po
  distinct : ∀ po ∈ w.pods.items, ∀ po' ∈ w.pods.items, po.uid = po'.uid → po = po'
  streams : ∀ (sid : StreamID) s, w.streams[sid]? = some s → StreamOK w s
  cached : ∀ uid sid, w.cachedGrpcSrvConnection.lookup uid = some sid →
    ∃ conn, w.conn sid = some conn ∧ conn.uid = uid
  united : ∀ key, ∃ hash, Uniform w key hash

theorem Sound.agree {w : World} (sound : Sound w) : Agree w := by
  intro po member po' member' key labelled labelled' running running' hash hash' held held'
  obtain ⟨one, uniform⟩ := sound.united key
  have alive {po : Pod} (running : po.running = true) : po.alive = true := by
    simp [Pod.alive, running]
  have first : hash = one := uniform po member labelled (alive running) hash (.inl held)
  have second : hash' = one := uniform po' member' labelled' (alive running') hash' (.inl held')
  rw [first, second]

theorem sound_start : Sound .start := by
  have none (po : Pod) : po ∉ World.start.pods.items := List.not_mem_nil
  refine ⟨fun po member => absurd member (none po), fun po member => absurd member (none po),
    fun sid s found => ?_, fun uid sid found => ?_, fun key => ⟨"", fun po member => ?_⟩⟩
  · simp [World.start] at found
  · simp [World.start] at found
  · exact absurd member (none po)

section

variable {w w' : World} {po po' : Pod} {key : NamespacedName} {sid : StreamID} {s : Stream}
  {hash : String} {uid : UID} {conn : Conn}

theorem Blank.not_pending (blank : Blank w po) : ¬Pending w po hash := by
  rintro (held | ⟨-, spec, member, -⟩)
  · rw [blank.1] at held
    cases held
  · rw [blank.2] at member
    cases member

theorem Fresh.blank (fresh : Fresh po s) (found : w.streams[sid]? = some s)
    (reads : po.stream = some sid) {first : ProxyStatus} (head : s.statuses.head? = some first)
    (unreported : first.metaState = none) : Blank w po := by
  obtain ⟨nothing, first', head', unheld⟩ := fresh
  obtain rfl := Option.some.inj (head.symm.trans head')
  refine ⟨unheld unreported, ?_⟩
  simp [World.incoming, reads, found, nothing]

theorem Pending.mono (pending : Pending w' po' hash)
    (held : po'.currentHash = some hash → Pending w po hash)
    (unheld : po'.currentHash = none → po.currentHash = none)
    (within : ∀ spec ∈ w'.incoming po', spec ∈ w.incoming po) : Pending w po hash := by
  obtain used | ⟨unused, spec, member, same⟩ := pending
  · exact held used
  · exact .inr ⟨unheld unused, spec, within spec member, same⟩

/-- What is pending for a pod depends on the hash it uses and on its stream. -/
theorem Pending.of_within (pending : Pending w' po' hash) (same : po'.currentHash = po.currentHash)
    (within : ∀ spec ∈ w'.incoming po', spec ∈ w.incoming po) : Pending w po hash :=
  pending.mono (fun held => .inl (same ▸ held)) (fun unheld => same ▸ unheld) within

theorem Viewed.mono (viewed : Viewed w po) (sameUID : po'.uid = po.uid)
    (cached : w'.cached po.uid = w.cached po.uid)
    (expected : w'.podHashExpectation.lookup po.uid = w.podHashExpectation.lookup po.uid)
    (pending : ∀ hash, Pending w' po' hash → Pending w po hash) : Viewed w' po' := by
  intro sid conn found unreported
  rw [sameUID, cached] at found
  obtain ⟨serving, stored⟩ := viewed sid conn found unreported
  rw [sameUID, expected]
  exact ⟨fun stage hash later => serving stage hash (pending hash later),
    fun stage hash later => stored stage hash (pending hash later)⟩

theorem cached_eq_some : w.cached uid = some (sid, conn) ↔
    w.cachedGrpcSrvConnection.lookup uid = some sid ∧ w.conn sid = some conn := by
  simp [World.cached, Option.bind_eq_some_iff]

theorem conn_eq_some : w.conn sid = some conn ↔
    ∃ s, w.streams[sid]? = some s ∧ s.conn = some conn := by
  simp [World.conn, Option.bind_eq_some_iff]

theorem mem_incoming {spec : ProxySpec} : spec ∈ w.incoming po ↔
    ∃ sid s, po.stream = some sid ∧ w.streams[sid]? = some s ∧ spec ∈ s.specs := by
  unfold World.incoming
  cases po.stream with
  | none => simp
  | some sid =>
    cases found : w.streams[sid]? with
    | none => simp [found]
    | some s => simp [found]

/-- The cached connection of a pod was made for it. -/
theorem Sound.uid_eq (sound : Sound w) (found : w.cached uid = some (sid, conn)) :
    conn.uid = uid := by
  obtain ⟨cached, connection⟩ := cached_eq_some.mp found
  obtain ⟨conn', connection', same⟩ := sound.cached uid sid cached
  rw [connection] at connection'
  cases connection'
  exact same

/-- What holds of a stream does not depend on the other streams or the maps. -/
theorem StreamOK.congr (ok : StreamOK w s) (pods : w'.pods = w.pods)
    (next : w'.nextUID = w.nextUID) : StreamOK w' s := by
  have tells {uid : UID} {status : ProxyStatus} (told : Tells w uid status) :
      Tells w' uid status := by
    rw [Tells, pods]
    exact told
  exact ⟨next ▸ ok.opener, fun status member => tells (ok.tells status member), ok.later, ok.uid,
    fun conn has => tells (ok.reported conn has), ok.ended⟩

end

/-- The pod after changes that keep its identity and its labels. It may have taken over a pending
specification or left its stream, for a fresh one or for none, and it is not brought back to life.
-/
structure Descends (w : World) (po' po : Pod) : Prop where
  uid : po'.uid = po.uid
  key : po'.key = po.key
  labels : po'.labels = po.labels
  hash : ∀ hash, po'.currentHash = some hash → Pending w po hash
  held : ∀ hash, po.currentHash = some hash → po'.currentHash = some hash
  stream : po'.stream = po.stream ∨ ∀ sid, po'.stream = some sid → ∃ s, w.streams[sid]? = some s ∧
    s.opener = po.uid ∧ Fresh po' s
  alive : po'.alive = true → po.alive = true

section

variable {w w' : World} {po po' : Pod} {key : NamespacedName}

/-- Changes that also leave the hash and the stream alone. -/
theorem Descends.same (uid : po'.uid = po.uid) (key : po'.key = po.key)
    (labels : po'.labels = po.labels) (hash : po'.currentHash = po.currentHash)
    (stream : po'.stream = po.stream) (alive : po'.alive = true → po.alive = true) :
    Descends w po' po :=
  ⟨uid, key, labels, fun _ held => .inl (hash ▸ held), fun _ held => hash ▸ held,
    .inl stream, alive⟩

theorem Descends.refl (po : Pod) : Descends w po po := .same rfl rfl rfl rfl rfl id

theorem Descends.labelled (descends : Descends w po' po) : po'.labelled key = po.labelled key := by
  have space : po'.namespace_ = po.namespace_ := congrArg Prod.fst descends.key
  rw [Pod.labelled, Pod.labelled, space, descends.labels]

theorem Descends.pending {hash : String} (descends : Descends w po' po)
    (streams : w'.streams = w.streams) (pending : Pending w' po' hash) : Pending w po hash := by
  refine pending.mono (descends.hash hash) (fun unheld => ?_) fun spec member => ?_
  · cases held : po.currentHash with
    | none => rfl
    | some hash =>
      rw [descends.held hash held] at unheld
      cases unheld
  obtain ⟨sid, s, reads, found, inside⟩ := mem_incoming.mp member
  rw [streams] at found
  obtain same | fresh := descends.stream
  · exact mem_incoming.mpr ⟨sid, s, same ▸ reads, found, inside⟩
  · obtain ⟨s', found', -, nothing, -⟩ := fresh sid reads
    rw [found, Option.some.injEq] at found'
    rw [found', nothing] at inside
    cases inside

theorem Sound.of_pods {pods : Registry Pod.key} (sound : Sound w)
    (origin : ∀ po' ∈ pods.items, ∃ po ∈ w.pods.items, Descends w po' po) :
    Sound { w with pods := pods } := by
  have tells {uid : UID} {status : ProxyStatus} (told : Tells w uid status) :
      Tells { w with pods := pods } uid status := by
    intro metaState reported po' member' same
    obtain ⟨po, member, descends⟩ := origin po' member'
    exact descends.held _ (told metaState reported po member (descends.uid.symm.trans same))
  refine ⟨fun po' member' => ?_, fun po member po' member' same => ?_, fun sid s found => ?_,
    sound.cached, fun key => ?_⟩
  · obtain ⟨po, member, descends⟩ := origin po' member'
    have ok := sound.pods po member
    refine ⟨descends.uid ▸ ok.uid, fun sid reads => ?_, ok.viewed.mono descends.uid rfl rfl
      fun hash => descends.pending rfl⟩
    obtain same | fresh := descends.stream
    · obtain ⟨s, found, opener, fresh⟩ := ok.stream sid (same ▸ reads)
      refine ⟨s, found, opener.trans descends.uid.symm, fun open_ unregistered => ?_⟩
      have before := fresh open_ unregistered
      have ⟨nothing, first, head, _⟩ := before
      refine ⟨nothing, first, head, fun unreported => ?_⟩
      have blank : Blank w po := before.blank found (same ▸ reads) head unreported
      cases held : po'.currentHash with
      | none => rfl
      | some hash => exact absurd (descends.hash hash held) blank.not_pending
    · obtain ⟨s, found, opener, fresh⟩ := fresh sid reads
      exact ⟨s, found, opener.trans descends.uid.symm, fun _ _ => fresh⟩
  · obtain ⟨before, inside, descends⟩ := origin po member
    obtain ⟨before', inside', descends'⟩ := origin po' member'
    have uids : before.uid = before'.uid := by rw [← descends.uid, same, descends'.uid]
    obtain rfl := sound.distinct before inside before' inside' uids
    exact Registry.eq_of_key_eq member member' (descends.key.trans descends'.key.symm)
  · have ok := sound.streams sid s found
    exact ⟨ok.opener, fun status inside => tells (ok.tells status inside), ok.later, ok.uid,
      fun conn has => tells (ok.reported conn has), ok.ended⟩
  · obtain ⟨hash, uniform⟩ := sound.united key
    refine ⟨hash, fun po' member' labelled alive hash' pending => ?_⟩
    obtain ⟨po, member, descends⟩ := origin po' member'
    exact uniform po member (descends.labelled ▸ labelled) (descends.alive alive) hash'
      (descends.pending rfl pending)

/-- One pod changes. -/
theorem Sound.putPod (sound : Sound w) (member : po ∈ w.pods.items) (descends : Descends w po' po) :
    Sound { w with pods := w.pods.put po' } := by
  refine sound.of_pods fun other inside => ?_
  obtain rfl | ⟨inside, -⟩ := Registry.mem_put.mp inside
  · exact ⟨po, member, descends⟩
  · exact ⟨other, inside, .refl other⟩

theorem Sound.modifyPod {f : Pod → Pod} (sound : Sound w) (descends : ∀ po, Descends w (f po) po) :
    Sound (w.modifyPod key f) := by
  unfold World.modifyPod
  split
  · exact sound
  · next po found => exact sound.putPod (Registry.find_some found).1 (descends po)

theorem descends_deleting (po : Pod) : Descends w { po with deleting := true } po := by
  refine .same rfl rfl rfl rfl rfl fun alive => ?_
  simp only [Pod.alive, isPodActive, Bool.not_true, Bool.and_false, Bool.false_or] at alive
  simp [Pod.alive, alive]

theorem Sound.deletePod (sound : Sound w) (key : NamespacedName) : Sound (w.deletePod key) :=
  sound.modifyPod descends_deleting

theorem Sound.disconnect (sound : Sound w) (stepped : disconnect w key = some w') : Sound w' := by
  obtain ⟨po, found, stepped⟩ := Option.bind_eq_some_iff.mp stepped
  cases stepped
  exact sound.putPod (Registry.find_some found).1
    ⟨rfl, rfl, rfl, fun _ => .inl, fun _ => id, .inr nofun, id⟩

/-- The kubelet does not start containers in a pod that is over. -/
theorem Sound.podStatus {phase : Phase} {ready running : Bool} (sound : Sound w)
    (stepped : podStatus w key phase ready running = some w') : Sound w' := by
  simp only [Dispatch.podStatus, Option.bind_eq_bind, Option.bind_eq_some_iff] at stepped
  obtain ⟨po, found, stepped⟩ := stepped
  split at stepped
  · next enabled =>
    cases stepped
    refine sound.putPod (Registry.find_some found).1 (.same rfl rfl rfl rfl rfl fun alive => ?_)
    obtain ⟨final, stopped⟩ := enabled
    by_contra dead
    rw [Bool.not_eq_true, Pod.alive, Bool.or_eq_false_iff] at dead
    obtain ⟨inactive, still⟩ := dead
    rw [Pod.alive, Bool.or_eq_true] at alive
    obtain active | started := alive
    · simp only [isPodActive, ne_eq, Bool.and_eq_true, decide_eq_true_eq, Bool.not_eq_true']
        at active
      have finished : po.phase = .succeeded ∨ po.phase = .failed := by
        simp only [isPodActive, active.2, ne_eq, Bool.not_false, Bool.and_true,
          Bool.and_eq_false_iff, decide_eq_false_iff_not, not_not] at inactive
        exact inactive
      have same : phase = po.phase := final finished
      rw [← same] at finished
      exact finished.elim active.1.1 active.1.2
    · have running : po.running = true := stopped (by rw [inactive]; rfl) started
      rw [running] at still
      cases still
  · cases stepped

end

section

variable {w w' : World} {po : Pod} {sid : StreamID} {s : Stream} {f : Stream → Stream} {conn : Conn}
  {hash : String}

theorem streams_modifyStream (found : w.streams[sid]? = some s) :
    (w.modifyStream sid f).streams[sid]? = some (f s) := by
  simp [World.modifyStream, found]

variable {other : StreamID} {pStatus : ProxyStatus}

theorem streams_modifyStream_of_ne (different : other ≠ sid) :
    (w.modifyStream sid f).streams[other]? = w.streams[other]? := by
  simp [World.modifyStream, different.symm]

theorem conn_modifyStream (found : w.streams[sid]? = some s) :
    (w.modifyStream sid f).conn sid = (f s).conn := by
  rw [World.conn, streams_modifyStream found]
  rfl

theorem conn_modifyStream_of_ne (different : other ≠ sid) :
    (w.modifyStream sid f).conn other = w.conn other := by
  rw [World.conn, World.conn, streams_modifyStream_of_ne different]

/-- Nothing becomes pending when a stream gets no new specification. -/
theorem Pending.of_modifyStream (found : w.streams[sid]? = some s)
    (specs : ∀ spec ∈ (f s).specs, spec ∈ s.specs)
    (pending : Pending (w.modifyStream sid f) po hash) : Pending w po hash := by
  refine pending.of_within rfl fun spec member => ?_
  obtain ⟨sid', s', reads, found', inside⟩ := mem_incoming.mp member
  by_cases same : sid' = sid
  · subst same
    rw [streams_modifyStream found, Option.some.injEq] at found'
    rw [← found'] at inside
    exact mem_incoming.mpr ⟨sid', s, reads, found, specs spec inside⟩
  · rw [streams_modifyStream_of_ne same] at found'
    exact mem_incoming.mpr ⟨sid', s', reads, found', inside⟩

/-- A change of a stream that adds no specification, registers no connection, and does not set the
manager's picture of the pod back. -/
structure Tame (s s' : Stream) : Prop where
  opener : s'.opener = s.opener
  specs : ∀ spec ∈ s'.specs, spec ∈ s.specs
  unregistered : s.conn = none → s'.conn = none
  fresh : s'.severed = false → s'.conn = none → s.severed = false ∧
    ∀ first, s.statuses.head? = some first → s'.statuses.head? = some first
  conn : ∀ conn, s.conn = some conn → ∃ conn', s'.conn = some conn' ∧ conn'.uid = conn.uid ∧
    (conn'.status.metaState = none → conn.status.metaState = none ∧
      (conn'.stage = .serving → conn.stage = .serving ∨ conn.stage = .stored) ∧
      (conn'.stage = .stored → conn.stage = .stored))

theorem Sound.modifyStream (sound : Sound w) (found : w.streams[sid]? = some s)
    (tame : Tame s (f s)) (ok : StreamOK w (f s)) : Sound (w.modifyStream sid f) := by
  have pending {po : Pod} {hash : String} (later : Pending (w.modifyStream sid f) po hash) :
      Pending w po hash := later.of_modifyStream found tame.specs
  refine ⟨fun po member => ⟨(sound.pods po member).uid, fun sid' reads => ?_, ?_⟩, sound.distinct,
    fun sid' s' found' => ?_, fun uid sid' cached => ?_, fun key => ?_⟩
  · obtain ⟨s', found', opener, fresh⟩ := (sound.pods po member).stream sid' reads
    by_cases same : sid' = sid
    · subst same
      obtain rfl := Option.some.inj (found.symm.trans found')
      refine ⟨f s, streams_modifyStream found, tame.opener.trans opener,
        fun open_ unregistered => ?_⟩
      have before : s.conn = none := by
        cases registered : s.conn with
        | none => rfl
        | some conn =>
          obtain ⟨conn', has, -⟩ := tame.conn conn registered
          rw [unregistered] at has
          cases has
      obtain ⟨openBefore, heads⟩ := tame.fresh open_ unregistered
      obtain ⟨nothing, first, head, unheld⟩ := fresh openBefore before
      refine ⟨List.eq_nil_iff_forall_not_mem.mpr fun spec inside => ?_, first, heads first head,
        unheld⟩
      have earlier := tame.specs spec inside
      rw [nothing] at earlier
      cases earlier
    · exact ⟨s', by rw [streams_modifyStream_of_ne same]; exact found', opener, fresh⟩
  · intro sid' conn' cached unreported
    obtain ⟨entry, connection⟩ := cached_eq_some.mp cached
    have viewed := (sound.pods po member).viewed
    by_cases same : sid' = sid
    · subst same
      rw [conn_modifyStream found] at connection
      cases registered : s.conn with
      | none =>
        rw [tame.unregistered registered] at connection
        cases connection
      | some conn =>
        obtain ⟨conn'', has, -, earlier⟩ := tame.conn conn registered
        obtain rfl := Option.some.inj (connection.symm.trans has)
        have before : w.cached po.uid = some (sid', conn) :=
          cached_eq_some.mpr ⟨entry, conn_eq_some.mpr ⟨s, found, registered⟩⟩
        obtain ⟨unreported', serving, stored⟩ := earlier unreported
        obtain ⟨expected, nothing⟩ := viewed sid' conn before unreported'
        refine ⟨fun stage hash later => ?_, fun stage hash later =>
          nothing (stored stage) hash (pending later)⟩
        obtain served | registering := serving stage
        · exact expected served hash (pending later)
        · exact absurd (pending later) (nothing registering hash)
    · rw [conn_modifyStream_of_ne same] at connection
      obtain ⟨serving, stored⟩ :=
        viewed sid' conn' (cached_eq_some.mpr ⟨entry, connection⟩) unreported
      exact ⟨fun stage hash later => serving stage hash (pending later),
        fun stage hash later => stored stage hash (pending later)⟩
  · by_cases same : sid' = sid
    · subst same
      rw [streams_modifyStream found, Option.some.injEq] at found'
      subst found'
      exact ok.congr rfl rfl
    · rw [streams_modifyStream_of_ne same] at found'
      exact (sound.streams sid' s' found').congr rfl rfl
  · obtain ⟨conn, connection, uid⟩ := sound.cached uid sid' cached
    by_cases same : sid' = sid
    · subst same
      obtain ⟨s', found', registered⟩ := conn_eq_some.mp connection
      obtain rfl := Option.some.inj (found.symm.trans found')
      obtain ⟨conn', has, sameUID, -⟩ := tame.conn conn registered
      exact ⟨conn', by rw [conn_modifyStream found]; exact has, sameUID.trans uid⟩
    · exact ⟨conn, by rw [conn_modifyStream_of_ne same]; exact connection, uid⟩
  · obtain ⟨hash, uniform⟩ := sound.united key
    exact ⟨hash, fun po member labelled alive hash' later =>
      uniform po member labelled alive hash' (pending later)⟩

/-- A later status of a stream reaches the manager. -/
theorem Sound.receiveStatus (sound : Sound w) (stepped : receiveStatus w sid = some w') :
    Sound w' := by
  simp only [Dispatch.receiveStatus, Option.bind_eq_bind, Option.bind_eq_some_iff] at stepped
  obtain ⟨s, found, conn, registered, stepped⟩ := stepped
  split at stepped
  · cases stepped
  split at stepped
  · cases stepped
  next pStatus statuses arriving =>
  cases stepped
  have ok := sound.streams sid s found
  have told : Tells w s.opener pStatus := ok.tells pStatus (arriving ▸ List.mem_cons_self)
  have later : ∀ status ∈ s.statuses, status.metaState ≠ none := by
    have all := ok.later
    rwa [registered] at all
  refine sound.modifyStream found ⟨rfl, fun _ => id, fun none => ?_, nofun, fun conn' has => ?_⟩
    ⟨ok.opener, fun status member => ok.tells status ?_, fun status member => later status ?_,
      fun conn' has => ?_, fun conn' has => ?_, fun conn' has ended => ?_⟩
  · rw [none] at registered
    cases registered
  · obtain rfl := Option.some.inj (registered.symm.trans has)
    refine ⟨_, rfl, rfl, fun unreported => absurd unreported ?_⟩
    exact later pStatus (arriving ▸ List.mem_cons_self)
  · exact arriving ▸ List.mem_cons_of_mem _ member
  · exact arriving ▸ List.mem_cons_of_mem _ member
  · cases has
    exact ok.uid conn registered
  · cases has
    exact told
  · cases has
    exact ok.ended conn registered ended

/-- A change of a connection that leaves its pod and its status alone. -/
theorem Sound.modifyConn {f : Conn → Conn} (sound : Sound w) (connection : w.conn sid = some conn)
    (uid : (f conn).uid = conn.uid) (status : (f conn).status = conn.status)
    (ended : (f conn).stage = .ended → (f conn).disconnected = true)
    (serving : (f conn).stage = .serving → conn.stage = .serving ∨ conn.stage = .stored)
    (stored : (f conn).stage = .stored → conn.stage = .stored) : Sound (w.modifyConn sid f) := by
  obtain ⟨s, found, registered⟩ := conn_eq_some.mp connection
  have ok := sound.streams sid s found
  have changed : ({ s with conn := s.conn.map f } : Stream).conn = some (f conn) := by
    rw [registered]
    rfl
  refine sound.modifyStream found ⟨rfl, fun _ => id, fun none => ?_, fun open_ none => ?_,
      fun conn' has => ?_⟩
    ⟨ok.opener, ok.tells, fun status member => ok.later status ?_, fun conn' has => ?_,
      fun conn' has => ?_, fun conn' has => ?_⟩
  · rw [none] at registered
    cases registered
  · rw [changed] at none
    cases none
  · obtain rfl := Option.some.inj (registered.symm.trans has)
    exact ⟨f conn, changed, uid, fun unreported => ⟨status ▸ unreported, serving, stored⟩⟩
  · simpa using member
  · rw [changed, Option.some.injEq] at has
    rw [← has, uid]
    exact ok.uid conn registered
  · rw [changed, Option.some.injEq] at has
    rw [← has, status]
    exact ok.reported conn registered
  · rw [changed, Option.some.injEq] at has
    rw [← has]
    exact ended

/-- The expectation of a pod may be dropped when nothing is pending for a pod that has not reported
yet. -/
theorem Sound.forget {uid : UID} (sound : Sound w)
    (safe : ∀ po ∈ w.pods.items, po.uid = uid → ∀ sid conn, w.cached uid = some (sid, conn) →
      conn.status.metaState = none → conn.stage = .serving → ∀ hash, ¬Pending w po hash) :
    Sound (w.forget uid) := by
  refine ⟨fun po member => ⟨(sound.pods po member).uid, (sound.pods po member).stream,
    fun sid conn found unreported => ?_⟩, sound.distinct,
    fun sid s found => (sound.streams sid s found).congr rfl rfl, sound.cached, sound.united⟩
  obtain ⟨expected, nothing⟩ := (sound.pods po member).viewed sid conn found unreported
  refine ⟨fun serving hash pending => ?_, nothing⟩
  by_cases same : po.uid = uid
  · subst same
    exact absurd pending (safe po member rfl sid conn found unreported serving hash)
  · change (w.podHashExpectation.erase uid).lookup po.uid = some hash
    rw [AList.lookup_erase_ne same]
    exact expected serving hash pending

theorem Sound.cleanupMark (sound : Sound w) (stepped : cleanupMark w sid = some w') : Sound w' := by
  obtain ⟨conn, connection, stepped⟩ := Option.bind_eq_some_iff.mp stepped
  split at stepped
  · cases stepped
    exact sound.modifyConn connection rfl rfl (fun _ => rfl) nofun nofun
  · cases stepped

/-- No newer connection of the pod is still waiting for the first report on what was sent on it. -/
def Superseded (w : World) (sid : StreamID) : Prop :=
  ∀ conn ∈ w.conn sid, ∀ newer ∈ w.cached conn.uid, newer.1 ≠ sid →
    newer.2.stage = .serving → newer.2.status.metaState = none →
      w.podHashExpectation.lookup conn.uid = none

theorem Sound.forgetAt {stage next : Stage} (sound : Sound w)
    (stepped : forgetAt w sid stage next = some w')
    (order : stage = .stored ∧ next = .serving ∨ next = .forgotten) (careful : Superseded w sid) :
    Sound w' := by
  obtain ⟨conn, connection, stepped⟩ := Option.bind_eq_some_iff.mp stepped
  split at stepped
  · next atStage =>
    cases stepped
    obtain ⟨s, found, registered⟩ := conn_eq_some.mp connection
    have advanced : Sound (w.modifyConn sid ({ · with stage := next })) := by
      refine sound.modifyConn connection rfl rfl ?_ ?_ ?_
      · rintro rfl
        exact absurd order (by simp)
      · rintro rfl
        exact .inr (atStage.trans (by simpa using order))
      · rintro rfl
        exact absurd order (by simp)
    refine advanced.forget fun po member uid sid' conn' cached unreported serving hash later => ?_
    have pending : Pending w po hash := later.of_modifyStream found fun _ => id
    obtain ⟨entry, connection'⟩ := cached_eq_some.mp cached
    have viewed := (sound.pods po member).viewed
    rw [Viewed, uid] at viewed
    by_cases same : sid' = sid
    · subst same
      -- The connection itself: it was being registered, so nothing was sent on it.
      have now : conn' = { conn with stage := next } := by
        rw [World.modifyConn, conn_modifyStream found, registered] at connection'
        exact (Option.some.inj connection').symm
      have registering : conn.stage = .stored := by
        rw [now] at serving
        have next_ : next = .serving := serving
        rw [next_] at order
        exact atStage.trans (by simpa using order)
      have status : conn.status.metaState = none := by
        rw [now] at unreported
        exact unreported
      exact (viewed sid' conn (cached_eq_some.mpr ⟨entry, connection⟩) status).2 registering hash
        pending
    · rw [World.modifyConn, conn_modifyStream_of_ne same] at connection'
      have before : w.cached conn.uid = some (sid', conn') :=
        cached_eq_some.mpr ⟨entry, connection'⟩
      have expected := (viewed sid' conn' before unreported).1 serving hash pending
      rw [careful conn connection (sid', conn') before same serving unreported] at expected
      cases expected
  · cases stepped

/-- The stream is the one that the pod found for it reads. -/
def Current (w : World) (sid : StreamID) : Prop :=
  ∀ s ∈ w.streams[sid]?, ∀ pStatus ∈ s.statuses.head?, ∀ po ∈ registers w pStatus,
    po.stream = some sid

theorem mem_of_registers (found : registers w pStatus = some po) : po ∈ w.pods.items := by
  simp only [registers, Option.bind_eq_bind, Option.bind_eq_some_iff] at found
  obtain ⟨selfInfo, -, found⟩ := found
  split at found
  · cases found
  · obtain ⟨po', member, found⟩ := Option.bind_eq_some_iff.mp found
    split at found
    · cases found
    · cases found
      exact (Registry.find_some member).1

/-- A stream is closed that the manager refuses. -/
theorem Sound.refuse (sound : Sound w) (found : w.streams[sid]? = some s)
    (unregistered : s.conn = none) :
    Sound (w.modifyStream sid ({ · with statuses := [], severed := true })) := by
  have ok := sound.streams sid s found
  refine sound.modifyStream found ⟨rfl, fun _ => id, id, nofun, fun conn has => ?_⟩
    ⟨ok.opener, nofun, ?_, ok.uid, ok.reported, ok.ended⟩
  · rw [unregistered] at has
    cases has
  · simp

/-- A connection is stored for the pod that reads its stream. -/
theorem Sound.store {statuses : List ProxyStatus} (sound : Sound w)
    (found : w.streams[sid]? = some s) (open_ : s.severed = false) (unregistered : s.conn = none)
    (arriving : s.statuses = pStatus :: statuses) (member : po ∈ w.pods.items)
    (reads : po.stream = some sid) :
    Sound { w.modifyStream sid (fun s =>
        { s with statuses := statuses, conn := some ⟨po.uid, pStatus, 0, false, .stored⟩ }) with
      cachedGrpcSrvConnection := w.cachedGrpcSrvConnection.insert po.uid sid } := by
  generalize change : (fun s : Stream => { s with
    statuses := statuses, conn := some ⟨po.uid, pStatus, 0, false, .stored⟩ }) = f
  have changed : f s = { s with
      statuses := statuses, conn := some ⟨po.uid, pStatus, 0, false, .stored⟩ } := by rw [← change]
  have ok := sound.streams sid s found
  obtain ⟨s', found', opener, fresh⟩ := (sound.pods po member).stream sid reads
  rw [found, Option.some.injEq] at found'
  subst found'
  have specs : ∀ spec ∈ (f s).specs, spec ∈ s.specs := by rw [changed]; exact fun _ => id
  have pending {q : Pod} {hash : String} (later : Pending (w.modifyStream sid f) q hash) :
      Pending w q hash := later.of_modifyStream found specs
  have blank (unreported : pStatus.metaState = none) : Blank w po :=
    (fresh open_ unregistered).blank found reads (by rw [arriving]; rfl) unreported
  -- The stream was not registered, so no pod had its connection cached.
  have other {uid : UID} {sid' : StreamID}
      (cached : w.cachedGrpcSrvConnection.lookup uid = some sid') : sid' ≠ sid := by
    rintro rfl
    obtain ⟨conn, connection, -⟩ := sound.cached uid sid' cached
    obtain ⟨s', found', registered⟩ := conn_eq_some.mp connection
    rw [found, Option.some.injEq] at found'
    rw [← found', unregistered] at registered
    cases registered
  refine ⟨fun q inside => ⟨(sound.pods q inside).uid, fun sid' reads' => ?_, ?_⟩, sound.distinct,
    fun sid' s' found' => ?_, fun uid sid' cached => ?_, fun key => ?_⟩
  · obtain ⟨s', found', opener', fresh'⟩ := (sound.pods q inside).stream sid' reads'
    by_cases same : sid' = sid
    · subst same
      rw [found, Option.some.injEq] at found'
      subst found'
      refine ⟨f s, streams_modifyStream found, by rw [changed]; exact opener', fun _ none => ?_⟩
      rw [changed] at none
      cases none
    · exact ⟨s', (streams_modifyStream_of_ne same).trans found', opener', fresh'⟩
  · intro sid' conn cached unreported
    obtain ⟨entry, connection⟩ := cached_eq_some.mp cached
    by_cases same : q.uid = po.uid
    · obtain rfl := sound.distinct q inside po member same
      obtain rfl : sid = sid' := by simpa using entry
      obtain rfl : ⟨q.uid, pStatus, 0, false, .stored⟩ = conn := by
        have connection : (w.modifyStream sid f).conn sid = some conn := connection
        rw [conn_modifyStream found, changed] at connection
        exact Option.some.inj connection
      exact ⟨nofun, fun _ hash later => (blank unreported).not_pending (pending later)⟩
    · have entry : w.cachedGrpcSrvConnection.lookup q.uid = some sid' := by
        rw [← AList.lookup_insert_ne same]
        exact entry
      have connection : (w.modifyStream sid f).conn sid' = some conn := connection
      rw [conn_modifyStream_of_ne (other entry)] at connection
      obtain ⟨expected, nothing⟩ := (sound.pods q inside).viewed sid' conn
        (cached_eq_some.mpr ⟨entry, connection⟩) unreported
      exact ⟨fun stage hash later => expected stage hash (pending later),
        fun stage hash later => nothing stage hash (pending later)⟩
  · by_cases same : sid' = sid
    · subst same
      have found'' := (streams_modifyStream found).symm.trans found'
      rw [Option.some.injEq, changed] at found''
      subst found''
      refine StreamOK.congr (w := w) ⟨ok.opener, fun status late => ?_, fun status late => ?_,
        fun conn has => ?_, fun conn has => ?_, fun conn has ended => ?_⟩ rfl rfl
      · exact ok.tells status (arriving ▸ List.mem_cons_of_mem _ late)
      · have later := ok.later status
        rw [unregistered, arriving] at later
        exact later late
      · cases has
        exact opener.symm
      · cases has
        exact ok.tells pStatus (arriving ▸ List.mem_cons_self)
      · cases has
        cases ended
    · have found'' := (streams_modifyStream_of_ne same).symm.trans found'
      exact (sound.streams sid' s' found'').congr rfl rfl
  · by_cases same : uid = po.uid
    · subst same
      obtain rfl : sid = sid' := by simpa using cached
      refine ⟨⟨po.uid, pStatus, 0, false, .stored⟩, ?_, rfl⟩
      change (w.modifyStream sid f).conn sid = _
      rw [conn_modifyStream found, changed]
    · have cached : w.cachedGrpcSrvConnection.lookup uid = some sid' := by
        rw [← AList.lookup_insert_ne same]
        exact cached
      obtain ⟨conn, connection, uid⟩ := sound.cached uid sid' cached
      exact ⟨conn, (conn_modifyStream_of_ne (other cached)).trans connection, uid⟩
  · obtain ⟨hash, uniform⟩ := sound.united key
    exact ⟨hash, fun q inside labelled alive hash' later =>
      uniform q inside labelled alive hash' (pending later)⟩

theorem Sound.registerStore (sound : Sound w) (stepped : registerStore w sid = some w')
    (careful : Current w sid) : Sound w' := by
  obtain ⟨s, found, stepped⟩ := Option.bind_eq_some_iff.mp stepped
  split at stepped
  · cases stepped
  next enabled =>
  simp only [Bool.or_eq_true, not_or, Bool.not_eq_true, Option.isSome_eq_false_iff,
    Option.isNone_iff_eq_none] at enabled
  split at stepped
  · cases stepped
  next pStatus statuses arriving =>
  have head : s.statuses.head? = some pStatus := by rw [arriving]; rfl
  split at stepped
  · cases stepped
    exact sound.refuse found enabled.2
  next po accepted =>
  cases stepped
  exact sound.store found enabled.1 enabled.2 arriving (mem_of_registers accepted)
    (careful s found pStatus head po accepted)

end

section

variable {w w' : World} {po : Pod} {key : NamespacedName} {sid : StreamID} {s : Stream}
  {hash : String}

theorem Sound.report (sound : Sound w) (stepped : report w key = some w') : Sound w' := by
  simp only [Dispatch.report, Option.bind_eq_bind, Option.bind_eq_some_iff] at stepped
  obtain ⟨po, found, sid, reads, newStatus, reported, stepped⟩ := stepped
  split at stepped
  · cases stepped
  cases stepped
  have member := (Registry.find_some found).1
  obtain ⟨s, stream, opener, -⟩ := (sound.pods po member).stream sid reads
  have ok := sound.streams sid s stream
  obtain ⟨state, told, held⟩ := SpecManager.currentHash_of_getStatus reported
  have tells : Tells w s.opener newStatus := by
    intro metaState same po' member' uid
    obtain rfl := sound.distinct po' member' po member (uid.trans opener)
    rw [told, Option.some.injEq] at same
    rw [← same]
    exact held
  have next : Sound (w.modifyStream sid fun s =>
      { s with statuses := s.statuses ++ [newStatus] }) := by
    refine sound.modifyStream stream ⟨rfl, fun _ => id, id,
      fun open_ none => ⟨open_, fun first head => ?_⟩,
      fun conn has => ⟨conn, has, rfl, fun unreported => ⟨unreported, .inl, id⟩⟩⟩
      ⟨ok.opener, fun status inside => ?_, fun status inside => ?_, ok.uid, ok.reported, ok.ended⟩
    · rw [List.head?_append, head]
      rfl
    · obtain before | last := List.mem_append.mp inside
      · exact ok.tells status before
      · rw [List.mem_singleton.mp last]
        exact tells
    · have later := ok.later status
      dsimp only at inside
      split at inside
      · next registered =>
        rw [if_pos registered] at later
        obtain before | last := List.mem_append.mp inside
        · exact later before
        · rw [List.mem_singleton.mp last, told]
          simp
      · next unregistered =>
        rw [if_neg unregistered] at later
        cases statuses : s.statuses with
        | nil => simp [statuses] at inside
        | cons first rest =>
          rw [statuses, List.cons_append, List.tail_cons] at inside
          rw [statuses, List.tail_cons] at later
          obtain before | last := List.mem_append.mp inside
          · exact later before
          · rw [List.mem_singleton.mp last, told]
            simp
  have present : po ∈ (w.modifyStream sid fun s =>
      { s with statuses := s.statuses ++ [newStatus] }).pods.items := member
  exact next.putPod present (.same rfl rfl rfl rfl rfl id)

variable {new : Stream}

theorem streams_append (found : w.streams[sid]? = some s) :
    (w.streams ++ [new])[sid]? = some s := by
  obtain ⟨inside, rfl⟩ := List.getElem?_eq_some_iff.mp found
  rw [List.getElem?_append_left inside]
  exact List.getElem?_eq_getElem inside

theorem streams_of_append (found : (w.streams ++ [new])[sid]? = some s) :
    w.streams[sid]? = some s ∨ sid = w.streams.length ∧ s = new := by
  obtain early | last := Nat.lt_or_ge sid w.streams.length
  · rw [List.getElem?_append_left early] at found
    exact .inl found
  · rw [List.getElem?_append_right last, List.getElem?_singleton] at found
    split at found
    · next first =>
      cases found
      exact .inr ⟨Nat.le_antisymm (Nat.sub_eq_zero_iff_le.mp first) last, rfl⟩
    · cases found

/-- A new stream that no pod reads yet and no connection has. -/
theorem Sound.appendStream (sound : Sound w) (ok : StreamOK w new)
    (unregistered : new.conn = none) : Sound { w with streams := w.streams ++ [new] } := by
  have pending {q : Pod} (member : q ∈ w.pods.items) {hash : String}
      (later : Pending { w with streams := w.streams ++ [new] } q hash) : Pending w q hash := by
    refine later.of_within rfl fun spec inside => ?_
    obtain ⟨sid, s, reads, found, inside⟩ := mem_incoming.mp inside
    obtain ⟨s', found', -⟩ := (sound.pods q member).stream sid reads
    rw [streams_append found', Option.some.injEq] at found
    exact mem_incoming.mpr ⟨sid, s, reads, found ▸ found', inside⟩
  have connection {sid : StreamID} {conn : Conn}
      (has : ({ w with streams := w.streams ++ [new] } : World).conn sid = some conn) :
      w.conn sid = some conn := by
    obtain ⟨s, found, registered⟩ := conn_eq_some.mp has
    obtain before | ⟨-, rfl⟩ := streams_of_append found
    · exact conn_eq_some.mpr ⟨s, before, registered⟩
    · rw [unregistered] at registered
      cases registered
  refine ⟨fun q member => ⟨(sound.pods q member).uid, fun sid reads => ?_,
    fun sid conn cached unreported => ?_⟩, sound.distinct, fun sid s found => ?_,
    fun uid sid cached => ?_, fun key => ?_⟩
  · obtain ⟨s, found, opener, fresh⟩ := (sound.pods q member).stream sid reads
    exact ⟨s, streams_append found, opener, fresh⟩
  · obtain ⟨entry, has⟩ := cached_eq_some.mp cached
    obtain ⟨expected, nothing⟩ := (sound.pods q member).viewed sid conn
      (cached_eq_some.mpr ⟨entry, connection has⟩) unreported
    exact ⟨fun stage hash later => expected stage hash (pending member later),
      fun stage hash later => nothing stage hash (pending member later)⟩
  · obtain before | ⟨-, rfl⟩ := streams_of_append found
    · exact (sound.streams sid s before).congr rfl rfl
    · exact ok.congr rfl rfl
  · obtain ⟨conn, has, uid⟩ := sound.cached uid sid cached
    obtain ⟨s, found, registered⟩ := conn_eq_some.mp has
    exact ⟨conn, conn_eq_some.mpr ⟨s, streams_append found, registered⟩, uid⟩
  · obtain ⟨hash, uniform⟩ := sound.united key
    exact ⟨hash, fun q member labelled alive hash' later =>
      uniform q member labelled alive hash' (pending member later)⟩

theorem Sound.connect (sound : Sound w) (stepped : connect w key = some w') : Sound w' := by
  obtain ⟨po, found, stepped⟩ := Option.bind_eq_some_iff.mp stepped
  split at stepped
  · cases stepped
    have member := (Registry.find_some found).1
    have hash := SpecManager.currentHash_of_firstStatus po.specManager po.key
    generalize fresh :
      (⟨po.uid, [], [po.specManager.firstStatus po.key], false, none⟩ : Stream) = new
    have told : Tells w po.uid (po.specManager.firstStatus po.key) := by
      intro metaState reported po' member' same
      obtain rfl := sound.distinct po' member' po member same
      rw [reported] at hash
      exact hash
    have ok : StreamOK w new := by
      subst fresh
      refine ⟨(sound.pods po member).uid, fun status inside => ?_, nofun, nofun, nofun, nofun⟩
      rw [List.mem_singleton.mp inside]
      exact told
    have unregistered : new.conn = none := by rw [← fresh]
    have next := sound.appendStream ok unregistered
    have present : po ∈ ({ w with streams := w.streams ++ [new] } : World).pods.items := member
    refine next.putPod present
      ⟨rfl, rfl, rfl, fun _ => .inl, fun _ => id, .inr fun sid reads => ?_, id⟩
    obtain rfl : w.streams.length = sid := Option.some.inj reads
    refine ⟨new, List.getElem?_concat_length, by rw [← fresh], by rw [← fresh], ?_⟩
    refine ⟨po.specManager.firstStatus po.key, by rw [← fresh]; rfl, fun unreported => ?_⟩
    rw [unreported] at hash
    exact hash
  · cases stepped

/-- The proxy takes the next specification from its stream. -/
theorem Sound.receiveSpec (sound : Sound w) (stepped : receiveSpec w key = some w') : Sound w' := by
  simp only [Dispatch.receiveSpec, Option.bind_eq_bind, Option.bind_eq_some_iff] at stepped
  obtain ⟨po, found, sid, reads, s, stream, stepped⟩ := stepped
  split at stepped
  · cases stepped
  split at stepped
  · cases stepped
  next spec specs arriving =>
  cases stepped
  have member := (Registry.find_some found).1
  have descends : Descends w { po with specManager := po.specManager.recv spec } po := by
    refine ⟨rfl, rfl, rfl, fun hash held => ?_, fun hash held => ?_, .inl rfl, id⟩
    · obtain before | ⟨unheld, same⟩ := SpecManager.currentHash_recv held
      · exact .inl before
      · have incoming : spec ∈ w.incoming po :=
          mem_incoming.mpr ⟨sid, s, reads, stream, arriving ▸ List.mem_cons_self⟩
        exact .inr ⟨unheld, spec, incoming, same⟩
    · exact SpecManager.currentHash_recv_of_some held
  have next := sound.putPod member descends
  have ok := next.streams sid s stream
  refine next.modifyStream stream ⟨rfl, fun spec' later => ?_, id,
    fun open_ none => ⟨open_, fun _ => id⟩,
    fun conn has => ⟨conn, has, rfl, fun unreported => ⟨unreported, .inl, id⟩⟩⟩
    ⟨ok.opener, ok.tells, ok.later, ok.uid, ok.reported, ok.ended⟩
  exact arriving ▸ List.mem_cons_of_mem _ later

theorem Sound.createPod {labels : LabelSet} (sound : Sound w) :
    Sound { w with
      pods := w.pods.put ⟨key.1, key.2, w.nextUID, labels, .pending, false, false, false, true,
        .new, none, none⟩
      nextUID := w.nextUID + 1 } := by
  generalize created : (⟨key.1, key.2, w.nextUID, labels, .pending, false, false, false, true, .new,
    none, none⟩ : Pod) = new
  have uid : new.uid = w.nextUID := by rw [← created]
  have hash : new.currentHash = none := by rw [← created]; rfl
  have stream : new.stream = none := by rw [← created]
  have blank {w : World} : Blank w new := ⟨hash, by rw [World.incoming, stream]; rfl⟩
  have old {q : Pod} (inside : q ∈ w.pods.items) : q.uid < w.nextUID := (sound.pods q inside).uid
  have tells {uid' : UID} {status : ProxyStatus} (told : Tells w uid' status)
      (bound : uid' < w.nextUID) :
      Tells { w with pods := w.pods.put new, nextUID := w.nextUID + 1 } uid' status := by
    intro metaState reported q member same
    obtain rfl | ⟨inside, -⟩ := Registry.mem_put.mp member
    · exact absurd (uid.symm.trans same) (Nat.ne_of_gt bound)
    · exact told metaState reported q inside same
  refine ⟨fun q member => ?_, fun q member q' member' same => ?_,
    fun sid s found => ?_, sound.cached,
    fun key => ?_⟩
  · obtain rfl | ⟨inside, -⟩ := Registry.mem_put.mp member
    · refine ⟨uid ▸ Nat.lt_succ_self _, fun sid reads => ?_, fun sid conn _ _ => ?_⟩
      · rw [stream] at reads
        cases reads
      · exact ⟨fun _ hash pending => absurd pending blank.not_pending,
          fun _ hash => blank.not_pending⟩
    · have ok := sound.pods q inside
      exact ⟨Nat.lt_succ_of_lt ok.uid, ok.stream, ok.viewed.mono rfl rfl rfl fun _ => id⟩
  · obtain rfl | ⟨inside, -⟩ := Registry.mem_put.mp member
    · obtain rfl | ⟨inside', -⟩ := Registry.mem_put.mp member'
      · rfl
      · exact absurd (uid.symm.trans same) (Nat.ne_of_gt (old inside'))
    · obtain rfl | ⟨inside', -⟩ := Registry.mem_put.mp member'
      · exact absurd (same.trans uid) (Nat.ne_of_lt (old inside))
      · exact sound.distinct q inside q' inside' same
  · have ok := sound.streams sid s found
    exact ⟨Nat.lt_succ_of_lt ok.opener, fun status inside =>
      tells (ok.tells status inside) ok.opener,
      ok.later, ok.uid, fun conn has => tells (ok.reported conn has) ok.opener, ok.ended⟩
  · obtain ⟨hash, uniform⟩ := sound.united key
    refine ⟨hash, fun q member labelled alive hash' pending => ?_⟩
    obtain rfl | ⟨inside, -⟩ := Registry.mem_put.mp member
    · exact absurd pending blank.not_pending
    · exact uniform q inside labelled alive hash' pending

/-- After a restart the manager knows no connection, and no old stream can be registered. -/
theorem Sound.restartManager (sound : Sound w) : Sound (restartManager w) := by
  have stream {sid : StreamID} {s : Stream} (found : w.streams[sid]? = some s) :
      (Dispatch.restartManager w).streams[sid]? =
        some { s with statuses := [], severed := true, conn := none } := by
    simp [Dispatch.restartManager, found]
  have origin {sid : StreamID} {s : Stream}
      (found : (Dispatch.restartManager w).streams[sid]? = some s) :
      ∃ s', w.streams[sid]? = some s' ∧
        s = { s' with statuses := [], severed := true, conn := none } := by
    simp only [Dispatch.restartManager, List.getElem?_map, Option.map_eq_some_iff] at found
    obtain ⟨s', found, same⟩ := found
    exact ⟨s', found, same.symm⟩
  refine ⟨fun q member => ⟨(sound.pods q member).uid, fun sid reads => ?_,
    fun sid conn cached => ?_⟩, sound.distinct, fun sid s found => ?_, fun uid sid cached => ?_,
    fun key => ?_⟩
  · obtain ⟨s, found, opener, -⟩ := (sound.pods q member).stream sid reads
    exact ⟨_, stream found, opener, nofun⟩
  · simp [World.cached, Dispatch.restartManager] at cached
  · obtain ⟨s', found', rfl⟩ := origin found
    exact ⟨(sound.streams sid s' found').opener, nofun, nofun, nofun, nofun, nofun⟩
  · simp [Dispatch.restartManager] at cached
  · obtain ⟨hash, uniform⟩ := sound.united key
    refine ⟨hash, fun q member labelled alive hash' pending => ?_⟩
    refine uniform q member labelled alive hash' (pending.of_within rfl fun spec inside => ?_)
    obtain ⟨sid, s, reads, found, inside⟩ := mem_incoming.mp inside
    obtain ⟨s', found', rfl⟩ := origin found
    exact mem_incoming.mpr ⟨sid, s', reads, found', inside⟩

end

end CtrlMesh.Sharding.Dispatch
