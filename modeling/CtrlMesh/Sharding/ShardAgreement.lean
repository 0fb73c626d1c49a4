import CtrlMesh.Sharding.DispatchInvariant

/-!
# Agreement within a shard

Pods of one ShardingConfig should never run with specifications of different hashes. A pass
dispatches only to proxies that hold nothing and expect nothing, while all others of the shard use
the very hash it dispatches. This needs some care of the steps (`Careful`): a pass must not leave
out a pod that holds a specification, nor run between the halves of a registration or a cleanup, and
a stream that its pod has left must not touch the maps any more.
-/

namespace CtrlMesh.Sharding.Dispatch

open Labels Lib Api Proxy

variable {enc : Encoder}

section

variable {w w' : World} {po : Pod} {key : NamespacedName} {sid : StreamID} {conn : Conn}
  {o : Outcomes} {hash : String} {spec : ProxySpec} {sp : SyncPod} {syncPods : List SyncPod}

/-- Neither the ShardingConfigs nor the expected deletions matter. -/
theorem Sound.frame (sound : Sound w) (configs : Registry ShardingConfig.key)
    (deletions : Finset UID) :
    Sound { w with configs := configs, podDeletionExpectation := deletions } :=
  ⟨fun po member => ⟨(sound.pods po member).uid, (sound.pods po member).stream,
      (sound.pods po member).viewed⟩,
    sound.distinct, fun sid s found => (sound.streams sid s found).congr rfl rfl, sound.cached,
    sound.united⟩

variable {pods : List Pod} {sp' : SyncPod} {key' : NamespacedName} {metaState : MetaState}

/-- At most one pod is deleted. -/
theorem eq_of_clearOldPods (cleared : clearOldPods w o pods = some w') :
    w' = w ∨ ∃ key, w' = w.deletePod key := by
  have deleted {po : Pod} (done : (if o.delete po.uid then some (w.deletePod po.key) else none) =
      some w') : w' = w ∨ ∃ key, w' = w.deletePod key := by
    split at done
    · cases done
      exact .inr ⟨po.key, rfl⟩
    · cases done
  induction pods with
  | nil =>
    cases cleared
    exact .inl rfl
  | cons po pods ih =>
    dsimp only [clearOldPods] at cleared
    split at cleared
    · exact ih cleared
    split at cleared
    · cases cleared
    split at cleared
    · exact deleted cleared
    split at cleared
    · cases cleared
    · exact ih cleared
    · exact deleted cleared

/-- A pod that the pass leaves out although it is active: it has no connection, and is neither ready
nor new. -/
def LeftOut (w : World) (po : Pod) : Prop :=
  isPodActive po = true ∧ w.cached po.uid = none ∧ ¬(po.phase = .running ∧ po.ready = true) ∧
    ¬(po.phase = .pending ∧ po.young = true)

/-- What is known of a pod that takes part in the pass. -/
structure Admitted (w : World) (sp : SyncPod) : Prop where
  active : isPodActive sp.pod = true
  cached : w.cached sp.pod.uid = some (sp.sid, sp.conn)
  live : sp.conn.disconnected = false
  unexpected : sp.conn.status.metaState = none →
    w.podHashExpectation.lookup sp.pod.uid = none

theorem leftOut_of_admitPod (ignored : admitPod w po = .ignore) :
    po.alive = false ∨ LeftOut w po := by
  unfold admitPod at ignored
  split at ignored
  · next inactive =>
    split at ignored
    · cases ignored
    · next stopped =>
      left
      simp only [Bool.not_eq_true'] at inactive
      simp [Pod.alive, inactive, stopped]
  next active =>
  split at ignored
  · cases ignored
  split at ignored
  · next none =>
    split at ignored
    · cases ignored
    next unready =>
    split at ignored
    · cases ignored
    next old =>
    exact .inr ⟨by simpa using active, none, by simpa using unready, by simpa using old⟩
  · split at ignored
    · cases ignored
    split at ignored
    · cases ignored
    · split at ignored <;> cases ignored

theorem admitted_of_admitPod (admitted : admitPod w po = .sync sid conn) :
    Admitted w ⟨po, sid, conn⟩ := by
  unfold admitPod at admitted
  split at admitted
  · split at admitted <;> cases admitted
  next active =>
  have active : isPodActive po = true := by simpa using active
  split at admitted
  · cases admitted
  split at admitted
  · split at admitted
    · cases admitted
    · split at admitted <;> cases admitted
  next sid' conn' found =>
  split at admitted
  · cases admitted
  next live =>
  have live : conn'.disconnected = false := by simpa using live
  split at admitted
  · next none =>
    cases admitted
    exact ⟨active, found, live, fun _ => none⟩
  · next expectHash expected =>
    split at admitted
    · next met =>
      cases admitted
      refine ⟨active, found, live, fun unreported => ?_⟩
      rw [unreported] at met
      cases met
    · cases admitted

/-- The first loop only drops expectations; if it comes through, every living pod of the list takes
part or was left out. -/
structure Collected (w : World) (pods : List Pod) (w' : World) (result : Option (List SyncPod)) :
    Prop where
  sound : Sound w'
  same : w' = { w with podHashExpectation := w'.podHashExpectation }
  dropped : ∀ uid, w.podHashExpectation.lookup uid = none →
    w'.podHashExpectation.lookup uid = none
  complete : ∀ syncPods, result = some syncPods → ∀ po ∈ pods,
    po.alive = false ∨ LeftOut w po ∨ po ∈ syncPods.map (·.pod)
  sublist : ∀ syncPods, result = some syncPods → (syncPods.map (·.pod)).Sublist pods
  admitted : ∀ syncPods, result = some syncPods → ∀ sp ∈ syncPods, Admitted w' sp

/-- The expectation of a pod that takes part is met or absent. -/
theorem Admitted.forget (sound : Sound w) (admitted : Admitted w sp)
    (member : sp.pod ∈ w.pods.items) : Sound (w.forget sp.pod.uid) := by
  refine sound.forget fun po inside uid sid conn found unreported serving hash pending => ?_
  obtain rfl := sound.distinct po inside sp.pod member uid
  have expected := ((sound.pods _ inside).viewed sid conn found unreported).1 serving hash pending
  rw [admitted.cached, Option.some.injEq, Prod.mk.injEq] at found
  rw [← found.2] at unreported
  rw [admitted.unexpected unreported] at expected
  cases expected

theorem Sound.collect (sound : Sound w) (members : ∀ po ∈ pods, po ∈ w.pods.items) :
    Collected w pods (collect w pods).1 (collect w pods).2 := by
  induction pods generalizing w with
  | nil =>
    refine ⟨sound, rfl, fun _ => id, fun _ _ po member => ?_, fun syncPods done => ?_,
      fun syncPods done sp member => ?_⟩
    · cases member
    · cases done
      exact .slnil
    · cases done
      cases member
  | cons po pods ih =>
    have later : ∀ po ∈ pods, po ∈ w.pods.items := fun po inside => members po (.tail _ inside)
    dsimp only [Dispatch.collect]
    cases admission : admitPod w po with
    | wait => exact ⟨sound, rfl, fun _ => id, nofun, nofun, nofun⟩
    | ignore =>
      have rest := ih sound later
      refine ⟨rest.sound, rest.same, rest.dropped, fun syncPods done po' inside => ?_,
        fun syncPods done => (rest.sublist syncPods done).cons po, rest.admitted⟩
      obtain rfl | inside := List.mem_cons.mp inside
      · obtain dead | leftOut := leftOut_of_admitPod admission
        · exact .inl dead
        · exact .inr (.inl leftOut)
      · exact rest.complete syncPods done po' inside
    | sync sid conn =>
      have admitted := admitted_of_admitPod admission
      have forgotten : Sound (w.forget po.uid) :=
        admitted.forget sound (members po List.mem_cons_self)
      have rest := ih forgotten later
      have gone : (w.forget po.uid).podHashExpectation.lookup po.uid = none :=
        AList.lookup_erase po.uid w.podHashExpectation
      dsimp only
      refine ⟨rest.sound, rest.same, fun uid none => rest.dropped uid ?_,
        fun syncPods done po' inside => ?_,
        fun syncPods done => ?_, fun syncPods done sp member => ?_⟩
      · by_cases same : uid = po.uid
        · exact same ▸ gone
        · exact (AList.lookup_erase_ne same).trans none
      all_goals obtain ⟨others, found, rfl⟩ := Option.map_eq_some_iff.mp done
      · obtain rfl | inside := List.mem_cons.mp inside
        · exact .inr (.inr List.mem_cons_self)
        · obtain dead | leftOut | among := rest.complete others found po' inside
          · exact .inl dead
          · exact .inr (.inl leftOut)
          · exact .inr (.inr (.tail _ among))
      · exact (rest.sublist others found).cons_cons po
      · obtain rfl | member := List.mem_cons.mp member
        · refine ⟨admitted.active, ?_, admitted.live, fun _ => rest.dropped po.uid gone⟩
          rw [rest.same]
          exact admitted.cached
        · exact rest.admitted others found sp member

/-- A pod that a specification may be sent to: if it has not reported, nothing is pending for it. -/
structure Ready (w : World) (sp : SyncPod) : Prop where
  member : sp.pod ∈ w.pods.items
  conn : ∃ conn, w.cached sp.pod.uid = some (sp.sid, conn) ∧ conn.status = sp.conn.status ∧
    conn.stage ≠ .stored
  clear : sp.conn.status.metaState = none → ∀ hash, ¬Pending w sp.pod hash

/-- The specification is on its way. -/
def World.push (w : World) (sid : StreamID) (spec : ProxySpec) : World :=
  w.modifyStream sid fun s => { s with specs := s.specs ++ [spec] }

/-- The stream of a cached connection is read by its pod only. -/
theorem Ready.eq_pod (ready : Ready w sp) (sound : Sound w) (inside : po ∈ w.pods.items)
    (reads : po.stream = some sp.sid) : po = sp.pod := by
  obtain ⟨conn, cached, -⟩ := ready.conn
  obtain ⟨s, found, registered⟩ := conn_eq_some.mp (cached_eq_some.mp cached).2
  obtain ⟨s', found', opener, -⟩ := (sound.pods po inside).stream sp.sid reads
  obtain rfl := Option.some.inj (found.symm.trans found')
  have uid : conn.uid = s.opener := (sound.streams sp.sid s found).uid conn registered
  exact sound.distinct po inside sp.pod ready.member
    (opener.symm.trans (uid.symm.trans (sound.uid_eq cached)))

theorem Ready.pending_push (ready : Ready w sp) (sound : Sound w) (inside : po ∈ w.pods.items)
    (later : Pending (w.push sp.sid spec) po hash) :
    Pending w po hash ∨ po = sp.pod ∧ po.currentHash = none ∧ hash = spec.hash := by
  obtain held | ⟨unheld, other, incoming, same⟩ := later
  · exact .inl (.inl held)
  obtain ⟨sid, s, reads, found, member⟩ := mem_incoming.mp incoming
  obtain ⟨s', found', -⟩ := (sound.pods po inside).stream sid reads
  by_cases pushed : sid = sp.sid
  · subst pushed
    rw [World.push, streams_modifyStream found', Option.some.injEq] at found
    subst found
    obtain before | last := List.mem_append.mp member
    · exact .inl (.inr ⟨unheld, other, mem_incoming.mpr ⟨_, s', reads, found', before⟩, same⟩)
    · rw [List.mem_singleton.mp last] at same
      exact .inr ⟨ready.eq_pod sound inside reads, unheld, same.symm⟩
  · rw [World.push, streams_modifyStream_of_ne pushed] at found
    exact .inl (.inr ⟨unheld, other, mem_incoming.mpr ⟨sid, s, reads, found, member⟩, same⟩)

theorem conn_push {sid' : StreamID} : (w.push sid spec).conn sid' = w.conn sid' := by
  by_cases same : sid' = sid
  · subst same
    cases found : w.streams[sid']? with
    | none => simp [World.push, World.modifyStream, World.conn, found]
    | some s => rw [World.push, conn_modifyStream found, World.conn, found]; rfl
  · exact conn_modifyStream_of_ne same

theorem cached_push {uid : UID} : (w.push sid spec).cached uid = w.cached uid := by
  unfold World.cached
  simp only [conn_push]
  rfl

/-- A hash that is the only one of the shard stays so when it is sent. -/
theorem Uniform.push (uniform : Uniform w key hash) (ready : Ready w sp) (sound : Sound w)
    (suits : sp.pod.currentHash = none → sp.pod.labelled key = true → spec.hash = hash) :
    Uniform (w.push sp.sid spec) key hash := by
  intro po member labelled alive hash' later
  obtain pending | ⟨rfl, unheld, rfl⟩ := ready.pending_push sound member later
  · exact uniform po member labelled alive hash' pending
  · exact suits unheld labelled

/-- A specification is sent, and its hash expected of the pod. -/
theorem Sound.push (sound : Sound w) (ready : Ready w sp)
    (suits : sp.pod.currentHash = none → ∀ key, sp.pod.labelled key = true →
      Uniform w key spec.hash) :
    Sound { w.push sp.sid spec with
      podHashExpectation := w.podHashExpectation.insert sp.pod.uid spec.hash } := by
  obtain ⟨conn, cached, status, unstored⟩ := ready.conn
  obtain ⟨s, found, registered⟩ := conn_eq_some.mp (cached_eq_some.mp cached).2
  refine ⟨fun po member => ⟨(sound.pods po member).uid, fun sid reads => ?_,
    fun sid conn' cached' unreported => ?_⟩, sound.distinct, fun sid s' found' => ?_,
    fun uid' sid' entry => ?_, fun key => ?_⟩
  · obtain ⟨s', found', opener, fresh⟩ := (sound.pods po member).stream sid reads
    by_cases pushed : sid = sp.sid
    · subst pushed
      obtain rfl := Option.some.inj (found.symm.trans found')
      refine ⟨_, streams_modifyStream found, opener, fun _ none => ?_⟩
      rw [registered] at none
      cases none
    · exact ⟨s', (streams_modifyStream_of_ne pushed).trans found', opener, fresh⟩
  · have before : w.cached po.uid = some (sid, conn') := cached_push.symm.trans cached'
    by_cases same : po.uid = sp.pod.uid
    · obtain rfl := sound.distinct po member sp.pod ready.member same
      obtain ⟨-, rfl⟩ := Prod.mk.inj (Option.some.inj (cached.symm.trans before))
      refine ⟨fun _ hash later => ?_, fun stored => absurd stored unstored⟩
      rw [AList.lookup_insert]
      obtain pending | ⟨-, -, rfl⟩ := ready.pending_push sound member later
      · exact absurd pending (ready.clear (status ▸ unreported) hash)
      · rfl
    · obtain ⟨expected, nothing⟩ := (sound.pods po member).viewed sid conn' before unreported
      have pending {hash : String} (later : Pending (w.push sp.sid spec) po hash) :
          Pending w po hash :=
        (ready.pending_push sound member later).resolve_right fun ⟨equal, _⟩ => same (by rw [equal])
      refine ⟨fun stage hash later => ?_,
        fun stage hash later => nothing stage hash (pending later)⟩
      rw [AList.lookup_insert_ne same]
      exact expected stage hash (pending later)
  · by_cases pushed : sid = sp.sid
    · subst pushed
      have changed := (streams_modifyStream found).symm.trans found'
      rw [Option.some.injEq] at changed
      have ok := sound.streams sp.sid s found
      rw [← changed]
      exact StreamOK.congr (w := w) ⟨ok.opener, ok.tells, ok.later, ok.uid, ok.reported, ok.ended⟩
        rfl rfl
    · exact (sound.streams sid s' ((streams_modifyStream_of_ne pushed).symm.trans found')).congr
        rfl rfl
  · obtain ⟨conn', connection, uid'⟩ := sound.cached uid' sid' entry
    exact ⟨conn', conn_push.trans connection, uid'⟩
  · obtain ⟨hash, uniform⟩ := sound.united key
    by_cases affected : sp.pod.currentHash = none ∧ sp.pod.labelled key = true
    · exact ⟨spec.hash, (suits affected.1 key affected.2).push ready sound fun _ _ => rfl⟩
    · exact ⟨hash, uniform.push ready sound fun unheld labelled =>
        absurd ⟨unheld, labelled⟩ affected⟩

/-- The count of the sent specifications goes up. -/
def World.bump (w : World) (sid : StreamID) : World :=
  w.modifyConn sid fun conn => { conn with sendTimes := conn.sendTimes + 1 }

theorem pending_bump : Pending (w.bump sid) po hash ↔ Pending w po hash := by
  cases found : w.streams[sid]? with
  | none =>
    have same : w.bump sid = w := by
      have beyond : w.streams.length ≤ sid := List.getElem?_eq_none_iff.mp found
      simp [World.bump, World.modifyConn, World.modifyStream, List.modify_eq_self beyond]
    rw [same]
  | some s =>
    refine ⟨fun later => later.of_modifyStream found fun _ => id, fun pending => ?_⟩
    refine pending.of_within rfl fun spec member => ?_
    obtain ⟨sid', s', reads, found', inside⟩ := mem_incoming.mp member
    by_cases same : sid' = sid
    · subst same
      obtain rfl := Option.some.inj (found.symm.trans found')
      exact mem_incoming.mpr ⟨sid', _, reads, streams_modifyStream found, inside⟩
    · exact mem_incoming.mpr ⟨sid', s', reads, (streams_modifyStream_of_ne same).trans found',
        inside⟩

theorem Ready.bump (ready : Ready w sp) (sid : StreamID) : Ready (w.bump sid) sp := by
  obtain ⟨conn, cached, status, unstored⟩ := ready.conn
  obtain ⟨entry, connection⟩ := cached_eq_some.mp cached
  refine ⟨ready.member, ?_, fun unreported hash later =>
    ready.clear unreported hash (pending_bump.mp later)⟩
  by_cases same : sp.sid = sid
  · subst same
    obtain ⟨s, found, registered⟩ := conn_eq_some.mp connection
    refine ⟨{ conn with sendTimes := conn.sendTimes + 1 }, cached_eq_some.mpr ⟨entry, ?_⟩, status,
      unstored⟩
    rw [World.bump, World.modifyConn, conn_modifyStream found, registered]
    rfl
  · exact ⟨conn, cached_eq_some.mpr ⟨entry, (conn_modifyStream_of_ne same).trans connection⟩,
      status,
      unstored⟩

theorem Ready.sound_bump (ready : Ready w sp) (sound : Sound w) : Sound (w.bump sp.sid) := by
  obtain ⟨conn, cached, -⟩ := ready.conn
  obtain ⟨entry, connection⟩ := cached_eq_some.mp cached
  obtain ⟨s, found, registered⟩ := conn_eq_some.mp connection
  exact sound.modifyConn connection rfl rfl ((sound.streams sp.sid s found).ended conn registered)
    .inl id

theorem Ready.push (spec : ProxySpec) (ready : Ready w sp) (sent : Ready w sp') (sound : Sound w)
    (other : sp.pod ≠ sp'.pod) : Ready (w.push sp'.sid spec) sp := by
  obtain ⟨conn, cached, rest⟩ := ready.conn
  refine ⟨ready.member, ⟨conn, cached_push.trans cached, rest⟩,
    fun unreported hash later => ready.clear unreported hash ?_⟩
  exact (sent.pending_push sound ready.member later).resolve_right fun ⟨equal, _⟩ => other equal

theorem Sound.sendOne (sound : Sound w) (ready : Ready w sp)
    (suits : sp.pod.currentHash = none → ∀ key, sp.pod.labelled key = true →
      Uniform w key spec.hash) : Sound (sendOne o spec w sp) := by
  have bumped := ready.sound_bump sound
  unfold Dispatch.sendOne
  split
  · refine bumped.push (ready.bump sp.sid)
      fun unheld key labelled po member labelled' alive hash later => ?_
    exact suits unheld key labelled po member labelled' alive hash (pending_bump.mp later)
  · exact bumped

theorem Ready.sendOne (ready : Ready w sp) (sent : Ready w sp') (sound : Sound w)
    (other : sp.pod ≠ sp'.pod) : Ready (sendOne o spec w sp') sp := by
  unfold Dispatch.sendOne
  split
  · have next := (ready.bump sp'.sid).push spec (sent.bump sp'.sid) (sent.sound_bump sound) other
    exact ⟨next.member, next.conn, next.clear⟩
  · exact ready.bump sp'.sid

theorem Uniform.sendOne (uniform : Uniform w key hash) (ready : Ready w sp) (sound : Sound w)
    (same : spec.hash = hash) : Uniform (sendOne o spec w sp) key hash := by
  have bumped : Uniform (w.bump sp.sid) key hash := fun po member labelled alive hash' later =>
    uniform po member labelled alive hash' (pending_bump.mp later)
  unfold Dispatch.sendOne
  split
  · exact bumped.push (ready.bump sp.sid) (ready.sound_bump sound) fun _ _ => same
  · exact bumped

theorem labelled_inj (labelled : po.labelled key = true) (labelled' : po.labelled key' = true) :
    key = key' := by
  simp only [Pod.labelled, Bool.and_eq_true, decide_eq_true_eq] at labelled labelled'
  have name : some key.2 = some key'.2 := labelled.2.symm.trans labelled'.2
  exact Prod.ext (labelled.1.symm.trans labelled'.1) (Option.some.inj name)

/-- Specifications are sent to pods that all use one already, so that none is taken over. -/
theorem Sound.sendUpdates (sound : Sound w) (ready : ∀ sp ∈ syncPods, Ready w sp)
    (distinct : (syncPods.map (·.pod)).Nodup) (held : ∀ sp ∈ syncPods, sp.pod.currentHash ≠ none) :
    Sound (syncPods.foldl (Dispatch.sendOne o spec) w) := by
  induction syncPods generalizing w with
  | nil => exact sound
  | cons sp syncPods ih =>
    have first := ready sp List.mem_cons_self
    rw [List.map_cons, List.nodup_cons] at distinct
    refine ih (sound.sendOne first fun unheld => absurd unheld (held sp List.mem_cons_self))
      (fun sp' inside => ?_) distinct.2 fun sp' inside => held sp' (.tail _ inside)
    refine (ready sp' (.tail _ inside)).sendOne first sound fun same => distinct.1 ?_
    exact same ▸ List.mem_map_of_mem inside

/-- The one hash of the shard is sent to some of its pods. -/
theorem Sound.sendDispatches (sound : Sound w) (ready : ∀ sp ∈ syncPods, Ready w sp)
    (distinct : (syncPods.map (·.pod)).Nodup)
    (labelled : ∀ sp ∈ syncPods, sp.pod.labelled key = true) (uniform : Uniform w key spec.hash) :
    Sound (syncPods.foldl (Dispatch.sendOne o spec) w) := by
  induction syncPods generalizing w with
  | nil => exact sound
  | cons sp syncPods ih =>
    have first := ready sp List.mem_cons_self
    rw [List.map_cons, List.nodup_cons] at distinct
    have next : Sound (Dispatch.sendOne o spec w sp) := by
      refine sound.sendOne first fun _ key' labelled' => ?_
      rw [labelled_inj labelled' (labelled sp List.mem_cons_self)]
      exact uniform
    refine ih next (fun sp' inside => ?_) distinct.2
      (fun sp' inside => labelled sp' (.tail _ inside)) (uniform.sendOne first sound rfl)
    refine (ready sp' (.tail _ inside)).sendOne first sound fun same => distinct.1 ?_
    exact same ▸ List.mem_map_of_mem inside

theorem Sound.deleteAll (sound : Sound w) : Sound (syncPods.foldl (deleteOne o) w) := by
  induction syncPods generalizing w with
  | nil => exact sound
  | cons sp syncPods ih =>
    refine ih ?_
    unfold deleteOne
    split
    · exact (sound.deletePod sp.pod.key).frame _ _
    · exact sound

/-- A pod that has reported uses the hash it has reported. -/
theorem Ready.currentHash (ready : Ready w sp) (sound : Sound w)
    (reported : sp.conn.status.metaState = some metaState) :
    sp.pod.currentHash = some metaState.currentHash := by
  obtain ⟨conn, cached, status, -⟩ := ready.conn
  obtain ⟨s, found, registered⟩ := conn_eq_some.mp (cached_eq_some.mp cached).2
  have ok := sound.streams sp.sid s found
  have uid : sp.pod.uid = s.opener := (sound.uid_eq cached).symm.trans (ok.uid conn registered)
  exact ok.reported conn registered metaState (status ▸ reported) sp.pod ready.member uid

theorem reported_of_update (update : sp.action hash = .update) :
    ∃ metaState, sp.conn.status.metaState = some metaState := by
  cases reported : sp.conn.status.metaState with
  | none => simp [SyncPod.action, reported] at update
  | some metaState => exact ⟨metaState, rfl⟩

theorem currentHash_of_action (reported : sp.conn.status.metaState = some metaState)
    (stays : ∀ isLeader, sp.action hash ≠ .delete isLeader) (unchanged : sp.action hash ≠ .update) :
    metaState.currentHash = hash := by
  simp only [SyncPod.action, reported] at stays unchanged
  by_cases loaded : metaState.expectedHash = metaState.currentHash
  · rw [if_neg (not_not.mpr loaded)] at unchanged
    by_cases same : hash = metaState.expectedHash
    · rw [← loaded, same]
    · rw [if_pos same] at unchanged
      exact absurd rfl unchanged
  · rw [if_pos loaded] at stays
    exact absurd rfl (stays _)

theorem mem_withAction {action : Action} : sp ∈ withAction hash action syncPods ↔
    sp ∈ syncPods ∧ sp.action hash = action := by
  simp [withAction]

theorem action_ne_delete (none : (podsToDelete hash syncPods).isEmpty = true)
    (member : sp ∈ syncPods) (isLeader : Bool) : sp.action hash ≠ .delete isLeader := by
  intro deleted
  have inside : sp ∈ withAction hash (.delete isLeader) syncPods :=
    mem_withAction.mpr ⟨member, deleted⟩
  unfold podsToDelete at none
  dsimp only at none
  split at none
  · next nonLeaders =>
    rw [List.isEmpty_iff] at none nonLeaders
    cases isLeader with
    | false => exact List.ne_nil_of_mem inside nonLeaders
    | true => exact List.ne_nil_of_mem inside none
  · next some => exact some none

/-- Everything after the first loop. -/
theorem Sound.syncAll (sound : Sound w) (ready : ∀ sp ∈ syncPods, Ready w sp)
    (distinct : (syncPods.map (·.pod)).Nodup)
    (labelled : ∀ sp ∈ syncPods, sp.pod.labelled key = true)
    (complete : ∀ po ∈ w.pods.items, po.labelled key = true → po.alive = true →
      po ∈ syncPods.map (·.pod) ∨ ∀ hash, ¬Pending w po hash) :
    Sound (syncAll o spec w syncPods) := by
  have nodup (action : Action) : ((withAction spec.hash action syncPods).map (·.pod)).Nodup :=
    distinct.sublist (List.filter_sublist.map _)
  have readyFor (action : Action) : ∀ sp ∈ withAction spec.hash action syncPods, Ready w sp :=
    fun sp inside => ready sp (mem_withAction.mp inside).1
  dsimp only [Dispatch.syncAll]
  split
  · exact sound.deleteAll
  next undeleted =>
  split
  · refine sound.sendUpdates (readyFor .update) (nodup .update) fun sp inside => ?_
    obtain ⟨metaState, reported⟩ := reported_of_update (mem_withAction.mp inside).2
    rw [(readyFor .update sp inside).currentHash sound reported]
    simp
  next unchanged =>
  -- Nothing to delete or update: every pod that has reported uses the hash that is dispatched.
  refine sound.sendDispatches (readyFor .dispatch) (nodup .dispatch)
    (fun sp inside => labelled sp (mem_withAction.mp inside).1)
    fun po member labelled alive hash pending => ?_
  obtain among | nothing := complete po member labelled alive
  · obtain ⟨sp, inside, rfl⟩ := List.mem_map.mp among
    cases reported : sp.conn.status.metaState with
    | none => exact absurd pending ((ready sp inside).clear reported hash)
    | some metaState =>
      have held := (ready sp inside).currentHash sound reported
      have current : metaState.currentHash = spec.hash := by
        refine currentHash_of_action reported (action_ne_delete (by simpa using undeleted) inside)
          fun update => ?_
        have none : withAction spec.hash .update syncPods = [] := by simpa using unchanged
        exact List.ne_nil_of_mem (mem_withAction.mpr ⟨inside, update⟩) none
      obtain same | ⟨unheld, -⟩ := pending
      · rw [held, Option.some.injEq] at same
        rw [← same, current]
      · rw [held] at unheld
        cases unheld
  · exact absurd pending (nothing hash)

/-- A pass for the ShardingConfig is safe: no pod it leaves out uses a specification or has one on
its way, and no handler is between its two accesses to the maps. -/
structure SafePass (w : World) (key : NamespacedName) : Prop where
  leftOut : ∀ po ∈ w.pods.items, po.labelled key = true → LeftOut w po → Blank w po
  halves : ∀ po ∈ w.pods.items, po.labelled key = true → isPodActive po = true →
    ∀ entry ∈ w.cached po.uid, entry.2.stage ≠ .stored ∧ entry.2.stage ≠ .forgotten

/-- A deletion takes a pod out of the pass. -/
theorem SafePass.deletePod (safe : SafePass w key) : SafePass (w.deletePod key') key := by
  have before {po : Pod} (member : po ∈ (w.deletePod key').pods.items)
      (active : isPodActive po = true) : po ∈ w.pods.items := by
    unfold World.deletePod World.modifyPod at member
    split at member
    · exact member
    · obtain rfl | ⟨inside, -⟩ := Registry.mem_put.mp member
      · simp [isPodActive] at active
      · exact inside
  have streams : (w.deletePod key').streams = w.streams := by
    unfold World.deletePod World.modifyPod
    split <;> rfl
  have cache : (w.deletePod key').cachedGrpcSrvConnection = w.cachedGrpcSrvConnection := by
    unfold World.deletePod World.modifyPod
    split <;> rfl
  have cached (uid : UID) : (w.deletePod key').cached uid = w.cached uid := by
    unfold World.cached World.conn
    rw [streams, cache]
  refine ⟨fun po member labelled leftOut => ?_, fun po member labelled active => ?_⟩
  · rw [LeftOut, cached] at leftOut
    rw [Blank, World.incoming, streams]
    exact safe.leftOut po (before member leftOut.1) labelled leftOut
  · rw [cached]
    exact safe.halves po (before member active) labelled active

/-- A live connection that is not between two halves serves its stream. -/
theorem Admitted.serving (admitted : Admitted w sp) (sound : Sound w)
    (halves : sp.conn.stage ≠ .stored ∧ sp.conn.stage ≠ .forgotten) : sp.conn.stage = .serving := by
  obtain ⟨s, found, registered⟩ := conn_eq_some.mp (cached_eq_some.mp admitted.cached).2
  cases stage : sp.conn.stage with
  | stored => exact absurd stage halves.1
  | serving => rfl
  | forgotten => exact absurd stage halves.2
  | ended =>
    have disconnected := (sound.streams sp.sid s found).ended sp.conn registered stage
    rw [admitted.live] at disconnected
    cases disconnected

theorem mem_getPods : po ∈ getPodsForShardingConfig w key ↔
    po ∈ w.pods.items ∧ po.labelled key = true := by
  simp [getPodsForShardingConfig, List.mem_insertionSort]

theorem nodup_getPods : (getPodsForShardingConfig w key).Nodup := by
  have items : w.pods.items.Nodup := w.pods.distinct.of_map
  exact (List.perm_insertionSort _ _).nodup_iff.mpr (items.filter _)

theorem Admitted.ready (admitted : Admitted w sp) (sound : Sound w) (member : sp.pod ∈ w.pods.items)
    (halves : sp.conn.stage ≠ .stored ∧ sp.conn.stage ≠ .forgotten) : Ready w sp := by
  refine ⟨member, ⟨sp.conn, admitted.cached, rfl, halves.1⟩, fun unreported hash pending => ?_⟩
  have serving := admitted.serving sound halves
  have viewed := (sound.pods sp.pod member).viewed sp.sid sp.conn admitted.cached unreported
  have expected := viewed.1 serving hash pending
  rw [admitted.unexpected unreported] at expected
  cases expected

theorem Sound.syncShard {cfg : ShardingConfig} (sound : Sound w) (safe : SafePass w cfg.key) :
    Sound (syncShard enc w cfg o) := by
  have members : ∀ po ∈ getPodsForShardingConfig w cfg.key, po ∈ w.pods.items :=
    fun po inside => (mem_getPods.mp inside).1
  have collected := sound.collect members
  unfold Dispatch.syncShard
  generalize Dispatch.collect w (getPodsForShardingConfig w cfg.key) = walked at collected ⊢
  obtain ⟨w', result⟩ := walked
  cases result with
  | none => exact collected.sound
  | some syncPods =>
    have same : w' = { w with podHashExpectation := w'.podHashExpectation } := collected.same
    have pods : w'.pods = w.pods := by rw [same]
    have streams : w'.streams = w.streams := by rw [same]
    have cached (uid : UID) : w'.cached uid = w.cached uid := by rw [same]; rfl
    have listed (sp : SyncPod) (inside : sp ∈ syncPods) :
        sp.pod ∈ w.pods.items ∧ sp.pod.labelled cfg.key = true :=
      mem_getPods.mp ((collected.sublist syncPods rfl).subset (List.mem_map_of_mem inside))
    have labelled (sp : SyncPod) (inside : sp ∈ syncPods) : sp.pod.labelled cfg.key = true :=
      (listed sp inside).2
    refine collected.sound.syncAll (fun sp inside => ?_)
      ((nodup_getPods).sublist (collected.sublist syncPods rfl)) labelled
      fun po member labelled alive => ?_
    · have admitted := collected.admitted syncPods rfl sp inside
      obtain ⟨member, labelled⟩ := listed sp inside
      have found : w.cached sp.pod.uid = some (sp.sid, sp.conn) :=
        (cached sp.pod.uid).symm.trans admitted.cached
      exact admitted.ready collected.sound (pods ▸ member)
        (safe.halves sp.pod member labelled admitted.active _ found)
    · rw [pods] at member
      obtain dead | leftOut | inside :=
        collected.complete syncPods rfl po (mem_getPods.mpr ⟨member, labelled⟩)
      · rw [dead] at alive
        cases alive
      · have blank : Blank w' po := by
          rw [Blank, World.incoming, streams]
          exact safe.leftOut po member labelled leftOut
        exact .inr fun hash => blank.not_pending
      · exact .inl inside

/-- A pass deletes at most one pod that no longer belongs to its shard. It stops there, or goes on
with the pods of the ShardingConfig. -/
theorem reconcile_cases (enc : Encoder) (w : World) (key : NamespacedName) (o : Outcomes) :
    ∃ w', (w' = w ∨ ∃ key', w' = w.deletePod key') ∧
      (reconcile enc w key o = w' ∨ ∃ cfg, cfg.key = key ∧
        reconcile enc w key o = syncShard enc w' cfg o) := by
  unfold reconcile
  split
  · exact ⟨w, .inl rfl, .inl rfl⟩
  split
  · exact ⟨w, .inl rfl, .inl rfl⟩
  next cfg found =>
  split
  · exact ⟨w, .inl rfl, .inl rfl⟩
  dsimp only
  split
  · exact ⟨w, .inl rfl, .inl rfl⟩
  next w' cleared =>
  refine ⟨w', eq_of_clearOldPods cleared, ?_⟩
  split
  · exact .inl rfl
  · exact .inr ⟨cfg, (Registry.find_some found).2, rfl⟩

theorem Sound.reconcile (sound : Sound w) (safe : SafePass w key) :
    Sound (reconcile enc w key o) := by
  obtain ⟨w', cleared, done⟩ := reconcile_cases enc w key o
  obtain ⟨sound', safe'⟩ : Sound w' ∧ SafePass w' key := by
    obtain rfl | ⟨key', rfl⟩ := cleared
    · exact ⟨sound, safe⟩
    · exact ⟨sound.deletePod key', safe.deletePod⟩
  obtain same | ⟨cfg, rfl, same⟩ := done
  · rw [same]
    exact sound'
  · rw [same]
    exact sound'.syncShard safe'

/-- A pass is safe, a stream is stored only while its pod reads it, and one that was replaced takes
no expectation from its successor. -/
def Careful (w : World) : Event → Prop
  | .reconcile key _ => SafePass w key
  | .registerStore sid => Current w sid
  | .registerForget sid => Superseded w sid
  | .cleanupForget sid => Superseded w sid
  | _ => True

theorem Sound.step {event : Event} (sound : Sound w) (careful : Careful w event)
    (stepped : step enc w event = some w') : Sound w' := by
  cases event with
  | reconcile key o =>
    cases stepped
    exact sound.reconcile careful
  | registerStore sid => exact sound.registerStore stepped careful
  | registerForget sid => exact sound.forgetAt stepped (.inl ⟨rfl, rfl⟩) careful
  | receiveStatus sid => exact sound.receiveStatus stepped
  | cleanupForget sid => exact sound.forgetAt stepped (.inr rfl) careful
  | cleanupMark sid => exact sound.cleanupMark stepped
  | connect key => exact sound.connect stepped
  | disconnect key => exact sound.disconnect stepped
  | receiveSpec key => exact sound.receiveSpec stepped
  | report key => exact sound.report stepped
  | updateLeaderElection key le =>
    cases stepped
    exact sound.modifyPod fun po => .same rfl rfl rfl rfl rfl id
  | createPod key labels =>
    simp only [Dispatch.step] at stepped
    split at stepped
    · cases stepped
    · cases stepped
      exact sound.createPod
  | podStatus key phase ready running => exact sound.podStatus stepped
  | age key =>
    cases stepped
    exact sound.modifyPod fun po => .same rfl rfl rfl rfl rfl id
  | deletePod key =>
    cases stepped
    exact sound.deletePod key
  | removePod key =>
    simp only [Dispatch.step] at stepped
    split at stepped
    · cases stepped
    split at stepped
    · cases stepped
    · cases stepped
      exact sound.of_pods fun po member => ⟨po, (Registry.mem_erase.mp member).1, .refl po⟩
  | podDeleted uid =>
    simp only [Dispatch.step] at stepped
    split at stepped
    · cases stepped
    next gone =>
    cases stepped
    have forgotten : Sound (w.forget uid) := sound.forget fun po member same =>
      absurd (List.any_eq_true.mpr ⟨po, member, decide_eq_true same⟩) gone
    exact forgotten.frame _ _
  | putConfig cfg =>
    cases stepped
    exact sound.frame _ _
  | removeConfig key =>
    cases stepped
    exact sound.frame _ _
  | restartManager =>
    cases stepped
    exact sound.restartManager

end

/-- In a run of careful steps the running pods of one ShardingConfig use one hash at all times. -/
theorem agree_of_careful (enc : Encoder) (events : List Event)
    (careful : EachStep (step enc) Careful .start events) :
    Along (step enc) Agree .start events := by
  have sound : Along (step enc) Sound .start events :=
    along_of_eachStep (fun _ _ _ sound careful stepped => sound.step careful stepped) sound_start
      careful
  exact fun before after w split ran => (sound before after w split ran).agree

instance (w : World) (po : Pod) : Decidable (Blank w po) :=
  inferInstanceAs (Decidable (_ ∧ _))

instance (w : World) (po : Pod) : Decidable (LeftOut w po) :=
  inferInstanceAs (Decidable (_ ∧ _ ∧ _ ∧ _))

instance (w : World) (key : NamespacedName) : Decidable (SafePass w key) :=
  decidable_of_iff
    ((∀ po ∈ w.pods.items, po.labelled key = true → LeftOut w po → Blank w po) ∧
      ∀ po ∈ w.pods.items, po.labelled key = true → isPodActive po = true →
        ∀ entry ∈ w.cached po.uid, entry.2.stage ≠ .stored ∧ entry.2.stage ≠ .forgotten)
    ⟨fun ⟨leftOut, halves⟩ => ⟨leftOut, halves⟩, fun safe => ⟨safe.leftOut, safe.halves⟩⟩

instance (w : World) (sid : StreamID) : Decidable (Current w sid) :=
  inferInstanceAs (Decidable (∀ s ∈ w.streams[sid]?, ∀ pStatus ∈ s.statuses.head?,
    ∀ po ∈ registers w pStatus, po.stream = some sid))

instance (w : World) (sid : StreamID) : Decidable (Superseded w sid) :=
  inferInstanceAs (Decidable (∀ conn ∈ w.conn sid, ∀ newer ∈ w.cached conn.uid, newer.1 ≠ sid →
    newer.2.stage = .serving → newer.2.status.metaState = none →
      w.podHashExpectation.lookup conn.uid = none))

instance (w : World) : (event : Event) → Decidable (Careful w event)
  | .reconcile key _ => inferInstanceAs (Decidable (SafePass w key))
  | .registerStore sid => inferInstanceAs (Decidable (Current w sid))
  | .registerForget sid | .cleanupForget sid => inferInstanceAs (Decidable (Superseded w sid))
  | .receiveStatus _ | .cleanupMark _ | .connect _ | .disconnect _ | .receiveSpec _ | .report _
  | .updateLeaderElection _ _ | .createPod _ _ | .podStatus _ _ _ _ | .age _ | .deletePod _
  | .removePod _ | .podDeleted _ | .putConfig _ | .removeConfig _ | .restartManager =>
    isTrue trivial

/-- A ShardingConfig for every pod, with a limit on pods for each of the selectors. -/
def sampleConfig (selectors : List LabelSelector) : ShardingConfig where
  metadata := { name := "shard", namespace_ := "ns" }
  spec := ⟨some ⟨∅, []⟩, none, none,
    some (selectors.map fun selector => ⟨[⟨["pods"], [""]⟩], some selector⟩), none⟩

/-- Every call of a pass succeeds. -/
def allDone : Outcomes := ⟨true, true, fun _ => true, true, fun _ => true, fun _ => true⟩

/-- A pod of the shard starts and its proxy registers; the stream is the next free one. -/
def joins (key : NamespacedName) (sid : StreamID) : List Event :=
  [ .createPod key ((∅ : LabelSet).insert shardingConfigInjectedKey "shard"),
    .podStatus key .running false true, .connect key, .registerStore sid, .registerForget sid ]

/-- A hash that tells lists of different lengths apart. -/
def sampleEncoder : Encoder := ⟨fun _ => "", fun limits => .ofList (limits.map fun _ => 'a')⟩

/-- Two pods join one after the other, and each gets its specification from the pass that
follows. -/
def sampleRun : List Event :=
  .putConfig (sampleConfig [⟨∅, []⟩]) :: joins ("ns", "a") 0 ++
  [ .reconcile ("ns", "shard") allDone, .receiveSpec ("ns", "a"), .report ("ns", "a"),
    .receiveStatus 0 ] ++ joins ("ns", "b") 1 ++
  [ .reconcile ("ns", "shard") allDone, .receiveSpec ("ns", "b") ]

/-- The run is careful, and its pods agree. -/
theorem agree_sampleRun : EachStep (step sampleEncoder) Careful .start sampleRun ∧
    Along (step sampleEncoder) Agree .start sampleRun := by
  have careful : EachStep (step sampleEncoder) Careful .start sampleRun := by decide
  exact ⟨careful, agree_of_careful _ _ careful⟩

/-- The manager restarts after the first pod has its specification, and a limit is added before the
second pod joins. The first pod is not ready and has not come back to the new manager. -/
def restartedRun : List Event :=
  .putConfig (sampleConfig [⟨∅, []⟩]) :: joins ("ns", "a") 0 ++
  [ .reconcile ("ns", "shard") allDone, .receiveSpec ("ns", "a"), .restartManager,
    .putConfig (sampleConfig [⟨∅, []⟩, ⟨∅, []⟩]) ] ++ joins ("ns", "b") 1 ++
  [ .reconcile ("ns", "shard") allDone, .receiveSpec ("ns", "b") ]

/-- The world after that run. -/
def afterRestarted : World := (run (step sampleEncoder) .start restartedRun).getD .start

/-- The pass leaves the first pod out and sends the new specification to the second one. -/
theorem disagree_after_restart : ¬∀ events, Along (step sampleEncoder) Agree .start events := by
  intro agree
  have ran : run (step sampleEncoder) .start restartedRun = some afterRestarted := rfl
  have both : Agree afterRestarted := agree _ restartedRun [] _ rfl ran
  have pods : ∃ po ∈ afterRestarted.pods.items, ∃ po' ∈ afterRestarted.pods.items,
      po.labelled ("ns", "shard") = true ∧ po'.labelled ("ns", "shard") = true ∧
        po.running = true ∧ po'.running = true ∧
          po.currentHash = some "a" ∧ po'.currentHash = some "aa" := by
    decide
  obtain ⟨po, member, po', member', labelled, labelled', running, running', old, new⟩ := pods
  have same : "a" = "aa" :=
    both po member po' member' _ labelled labelled' running running' _ _ old new
  exact absurd same (by decide)

end CtrlMesh.Sharding.Dispatch
