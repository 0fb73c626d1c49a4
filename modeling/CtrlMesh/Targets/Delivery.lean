import CtrlMesh.Targets.Departure

/-!
# What a pass does to the proxies

A pass writes no pod. If it ends without an error every message it sent was acknowledged, and each
proxy is where the messages to it take it, one after the other.
-/

namespace CtrlMesh.Targets

open Labels Lib Api
open CircuitBreaker.Controller (PodCache Write Rpc)

section Writes

variable {K : Kind} (w : World K) (obj : Object K)

theorem pods_stored : (w.stored obj).pods = w.pods := by
  unfold World.stored
  split <;> rfl

theorem pods_update (write : Write) : (w.update obj write).1.pods = w.pods := by
  cases write with
  | lost => rfl
  | unanswered => exact pods_stored w obj
  | done => exact pods_stored w obj

theorem pods_updateStatus (write : Write) : (w.updateStatus obj write).1.pods = w.pods := by
  cases write with
  | lost => rfl
  | unanswered => rfl
  | done => rfl

theorem pods_writeStatus {o : Outcomes} {targetStatus : List (TargetStatus K.Report)} :
    (writeStatus w obj o targetStatus).1.pods = w.pods := by
  unfold writeStatus
  split
  · rfl
  · exact pods_updateStatus w _ o.updateStatus

theorem pods_release {o : Outcomes} : (release w obj o).1.pods = w.pods := by
  unfold release
  split
  · exact pods_update w _ o.removeFinalizer
  · have status := pods_updateStatus w { obj with status := ⟨obj.generation, some o.now, "", []⟩ }
      o.updateStatus
    dsimp only
    split
    · next isWritten =>
      rw [isWritten] at status
      exact status
    · next isWritten =>
      rw [isWritten] at status
      rw [pods_update]
      exact status

end Writes

variable {key : NamespacedName}

section

variable {K : Kind}

theorem metas_syncTargets (w : World K) (obj : Object K) (o : Outcomes) :
    (syncTargets w obj o).world.metas = w.metas := by
  cases lists : o.listPods with
  | false => simp [syncTargets, lists]
  | true =>
    obtain ⟨synced, dropped, spec⟩ := syncTargets_spec w obj lists
    rw [spec.pass]
    unfold World.metas
    rw [pods_writeStatus]
    exact spec.frame.metas

theorem metas_reconcileObject (w : World K) (obj : Object K) (o : Outcomes) :
    (reconcileObject w obj o).world.metas = w.metas := by
  cases clears : obj.shouldClear with
  | true =>
    obtain ⟨frame, -⟩ := @clearLoop_frame K obj o ⟨w, [], [], false⟩ obj.status.targetStatus
    unfold reconcileObject
    rw [clears]
    simp only [reduceIte]
    split
    · rfl
    · split
      · exact frame.metas
      · unfold World.metas
        rw [pods_release]
        exact frame.metas
  | false =>
    have ensured : (w.ensured obj).metas = w.metas :=
      congrArg (fun pods => pods.items.map (·.meta_)) (pods_ensured w obj)
    obtain ⟨-, pass⟩ | ⟨-, w', kept, pass⟩ := reconcileObject_active w o clears
    · rw [pass, metas_syncTargets, ensured]
    · rw [pass]
      obtain rfl | rfl := kept
      · rfl
      · exact ensured

/-- `Sync` does not read the clock. -/
def Timeless (K : Kind) : Prop :=
  ∀ (m : K.Manager) (now : Int) (config : K.Config), K.sync m now config = K.sync m 0 config

/-- The manager in the proxy of a pod. -/
def World.proxyAt (w : World K) (key : NamespacedName) : Option K.Manager :=
  (w.pods.find key).map (·.proxy)

theorem isSome_proxyAt (w : World K) :
    (w.proxyAt key).isSome = (w.metas.find? (·.key = key)).isSome := by
  unfold World.proxyAt
  rw [← find_metas, Option.isSome_map, Option.isSome_map]

theorem proxyAt_congr {w w' : World K} (pods : w.pods = w'.pods) (key : NamespacedName) :
    w.proxyAt key = w'.proxyAt key := by
  unfold World.proxyAt
  rw [pods]

/-- A manager after a message, if it answers with success. -/
def Message.taken (message : Message K) (m : K.Manager) : Option K.Manager :=
  match K.sync m 0 message.config with
  | (after, .ok resp) => if resp.success then some after else none
  | (_, .error _) => none

/-- The manager of a pod after the messages to it, if it answers all of them with success. -/
def received (key : NamespacedName) (sent : List (Sent K)) (m : K.Manager) : Option K.Manager :=
  sent.foldlM (fun m s => if s.receiver = some key then s.message.taken m else some m) m

theorem received_append (first second : List (Sent K)) :
    received key (first ++ second) = fun m => (received key first m).bind (received key second) :=
  funext fun _ => List.foldlM_append

variable {w : World K} {loop loop' : Loop K} {obj : Object K} {o : Outcomes} {rpc : Rpc}
  {ip verb noun name : String} {message : Message K}

/-- A call that ends well was answered by a proxy, which took the message. -/
theorem sendConfig_of_accepted (timeless : Timeless K)
    (accepts : (accepted verb noun ip name (w.sendConfig ip message.config rpc).2 :
      Except String K.Report).toBool = true) :
    ∃ po after, w.podAt ip = some po ∧ message.taken po.proxy = some after ∧
      (w.sendConfig ip message.config rpc).1 = w.setProxy po after := by
  unfold World.sendConfig at accepts ⊢
  cases found : w.podAt ip with
  | none =>
    rw [found] at accepts
    cases accepts
  | some po =>
    rw [found] at accepts
    cases rpc with
    | lost error => cases accepts
    | unanswered now error => cases accepts
    | answered now =>
      dsimp only at accepts ⊢
      rw [timeless] at accepts ⊢
      refine ⟨po, (K.sync po.proxy 0 message.config).1, rfl, ?_, rfl⟩
      unfold Message.taken
      generalize K.sync po.proxy 0 message.config = answered at accepts ⊢
      obtain ⟨after, response⟩ := answered
      cases response with
      | error error => cases accepts
      | ok resp =>
        cases success : resp.success with
        | true => exact if_pos success
        | false => simp [accepted, bind, Except.bind, success, Except.toBool] at accepts

/-- The pod that a message reaches takes it in. -/
theorem proxyAt_sendConfig (timeless : Timeless K)
    (accepts : (accepted verb noun ip name (w.sendConfig ip message.config rpc).2 :
      Except String K.Report).toBool = true) :
    (w.sendConfig ip message.config rpc).1.proxyAt key = (w.proxyAt key).bind fun m =>
      if w.reaches ip = some key then message.taken m else some m := by
  obtain ⟨po, after, found, taken, sends⟩ := sendConfig_of_accepted timeless accepts
  have stored := Registry.mem_iff_find.mp (podAt_mem found)
  unfold World.reaches
  rw [sends, found, Option.map_some]
  unfold World.proxyAt World.setProxy
  by_cases here : po.key = key
  · subst here
    have put : (w.pods.put { po with proxy := after }).find po.key =
      some { po with proxy := after } := w.pods.find_put_self
    rw [put, stored]
    simp [taken]
  · have put : (w.pods.put { po with proxy := after }).find key = w.pods.find key :=
      w.pods.find_put_of_ne (Ne.symm here)
    rw [put]
    simp [here]

/-- The proxies are where the messages sent so far take them, provided that all of them were
acknowledged. If nothing has failed they were. -/
structure Delivered (w : World K) (loop : Loop K) : Prop where
  acknowledged : loop.failed = false → ∀ s ∈ loop.sent, s.acknowledged = true
  proxies : (∀ s ∈ loop.sent, s.acknowledged = true) → ∀ key,
    loop.world.proxyAt key = (w.proxyAt key).bind (received key loop.sent)

theorem delivered_start : Delivered w ⟨w, [], [], false⟩ := by
  refine ⟨by simp, ?_⟩
  intro _ key
  exact (Option.bind_fun_some _).symm

/-- One more message, and what it comes to. -/
theorem Delivered.send (timeless : Timeless K) (delivered : Delivered w loop)
    {answer : Except String K.Report}
    (sends : loop.send ip message rpc (accepted verb noun ip name) = (loop', answer)) :
    (answer.toBool = true → loop'.failed = false →
        ∀ s ∈ loop'.sent, s.acknowledged = true) ∧
      ((∀ s ∈ loop'.sent, s.acknowledged = true) → ∀ key,
        loop'.world.proxyAt key = (w.proxyAt key).bind (received key loop'.sent)) := by
  unfold Loop.send at sends
  simp only [Prod.mk.injEq] at sends
  obtain ⟨isLoop, isAnswer⟩ := sends
  subst isLoop
  constructor
  · intro accepts unfailed
    refine List.forall_mem_append.mpr ⟨delivered.acknowledged unfailed, ?_⟩
    intro s isLast
    rw [List.mem_singleton.mp isLast]
    dsimp only
    rw [isAnswer]
    exact accepts
  · intro acknowledged key
    obtain ⟨earlier, last⟩ := List.forall_mem_append.mp acknowledged
    dsimp only
    rw [received_append, proxyAt_sendConfig timeless (last _ List.mem_cons_self),
      delivered.proxies earlier key, Option.bind_assoc]
    refine Option.bind_congr ?_
    intro m _
    refine Option.bind_congr ?_
    intro m' _
    exact (bind_pure _).symm

theorem Delivered.answered (timeless : Timeless K) (delivered : Delivered w loop)
    {report : K.Report}
    (sends : loop.send ip message rpc (accepted verb noun ip name) = (loop', .ok report)) :
    Delivered w loop' := by
  obtain ⟨acknowledged, proxies⟩ := delivered.send timeless sends
  exact ⟨acknowledged rfl, proxies⟩

theorem Delivered.refused (timeless : Timeless K) (delivered : Delivered w loop) {error : String}
    (sends : loop.send ip message rpc (accepted verb noun ip name) = (loop', .error error))
    {entries : List (TargetStatus K.Report)} : Delivered w { loop' with entries, failed := true } :=
  ⟨by simp, (delivered.send timeless sends).2⟩

/-- What a step leaves of the cache and of the entries does not matter. -/
theorem Delivered.congr (delivered : Delivered w loop) (pods : loop'.world.pods = loop.world.pods)
    (sent : loop'.sent = loop.sent) (failed : loop'.failed = loop.failed) : Delivered w loop' := by
  constructor
  · rw [sent, failed]
    exact delivered.acknowledged
  · intro acknowledged key
    rw [sent] at acknowledged ⊢
    rw [proxyAt_congr pods]
    exact delivered.proxies acknowledged key

theorem Delivered.syncTarget (timeless : Timeless K) (delivered : Delivered w loop) (obj : Object K)
    (o : Outcomes) (po : Pod K) : Delivered w (syncTarget obj o loop po) := by
  unfold Targets.syncTarget
  dsimp only
  split
  · exact delivered.congr rfl rfl rfl
  · split
    · next sends => exact delivered.refused timeless sends
    · next sends => exact (delivered.answered timeless sends).congr rfl rfl rfl

theorem Delivered.dropTarget (timeless : Timeless K) (delivered : Delivered w loop) (obj : Object K)
    (o : Outcomes) (st : TargetStatus K.Report) : Delivered w (dropTarget obj o loop st) := by
  unfold Targets.dropTarget
  split
  · exact ⟨by simp, delivered.proxies⟩
  · split
    · exact delivered
    · split
      · exact delivered.congr rfl rfl rfl
      · split
        · next sends => exact delivered.refused timeless sends
        · next sends => exact (delivered.answered timeless sends).congr rfl rfl rfl

theorem Delivered.clearTarget (timeless : Timeless K) (delivered : Delivered w loop)
    (obj : Object K) (o : Outcomes) (st : TargetStatus K.Report) :
    Delivered w (clearTarget obj o loop st) := by
  unfold Targets.clearTarget
  split
  · exact delivered
  · split
    · exact ⟨by simp, delivered.proxies⟩
    · split
      · exact delivered.congr rfl rfl rfl
      · split
        · exact delivered
        · split
          · next sends => exact delivered.refused timeless sends
          · next sends => exact (delivered.answered timeless sends).congr rfl rfl rfl

/-- All messages were acknowledged, and the proxies are where they take them. -/
structure Pass.Delivered (w : World K) (pass : Pass K) : Prop where
  acknowledged : ∀ s ∈ pass.sent, s.acknowledged = true
  proxies : ∀ key, pass.world.proxyAt key = (w.proxyAt key).bind (received key pass.sent)

theorem Delivered.pass (delivered : Targets.Delivered w loop) (succeeds : loop.failed = false)
    {pass : Pass K} (pods : pass.world.pods = loop.world.pods) (sent : pass.sent = loop.sent) :
    pass.Delivered w := by
  have acknowledged := delivered.acknowledged succeeds
  refine ⟨sent ▸ acknowledged, ?_⟩
  intro key
  rw [sent, ← delivered.proxies acknowledged key]
  exact proxyAt_congr pods key

/-- Such a pass has read the object. -/
theorem reconcile_of_succeeds (stored : w.objects.find key = some obj)
    (succeeds : (reconcile w key o).failed = false) :
    o.getObject = true ∧ reconcile w key o = reconcileObject w obj o := by
  cases read : o.getObject with
  | false => simp [reconcile, read] at succeeds
  | true => exact ⟨rfl, reconcile_of_read read stored⟩

/-- Such a pass over an object in use gets to the pods. -/
theorem reconcileObject_of_succeeds (active : obj.shouldClear = false)
    (succeeds : (reconcileObject w obj o).failed = false) :
    reconcileObject w obj o = syncTargets (w.ensured obj) obj.ensured o := by
  obtain ⟨-, pass⟩ | ⟨-, w', -, pass⟩ := reconcileObject_active w o active
  · exact pass
  · rw [pass] at succeeds
    cases succeeds

theorem lists_of_succeeds (succeeds : (syncTargets w obj o).failed = false) :
    o.listPods = true := by
  cases lists : o.listPods with
  | true => rfl
  | false => simp [syncTargets, lists] at succeeds

theorem delivered_syncTargets (timeless : Timeless K)
    (succeeds : (syncTargets w obj o).failed = false) : (syncTargets w obj o).Delivered w := by
  obtain ⟨loop, dropped, spec⟩ := syncTargets_spec w obj (lists_of_succeeds succeeds)
  rw [spec.pass] at succeeds ⊢
  have synced : Targets.Delivered w loop := by
    rw [spec.isSynced]
    exact List.foldlRecOn _ _ delivered_start fun _ delivered po _ =>
      delivered.syncTarget timeless obj o po
  have delivered : Targets.Delivered w dropped := by
    rw [spec.isDropped]
    exact List.foldlRecOn _ _ (synced.congr rfl rfl rfl) fun _ delivered st _ =>
      delivered.dropTarget timeless obj o st
  exact delivered.pass (Bool.or_eq_false_iff.mp succeeds).1 (pods_writeStatus _ obj) rfl

theorem delivered_clear (timeless : Timeless K) : Targets.Delivered w (clear w obj o) :=
  List.foldlRecOn _ _ delivered_start fun _ delivered st _ =>
    delivered.clearTarget timeless obj o st

theorem delivered_reconcileObject (timeless : Timeless K)
    (succeeds : (reconcileObject w obj o).failed = false) :
    (reconcileObject w obj o).Delivered w := by
  cases clears : obj.shouldClear with
  | true =>
    unfold reconcileObject at succeeds ⊢
    simp only [clears, reduceIte] at succeeds ⊢
    cases finalizer : obj.hasFinalizer with
    | false => exact (delivered_start).pass rfl rfl rfl
    | true =>
      simp only [finalizer, Bool.not_true, Bool.false_eq_true, if_false] at succeeds ⊢
      cases failed : (clear w obj o).failed with
      | true => simp [failed] at succeeds
      | false =>
        exact (delivered_clear timeless).pass failed (pods_release _ obj) rfl
  | false =>
    have isSync := reconcileObject_of_succeeds clears succeeds
    rw [isSync] at succeeds ⊢
    have delivered := delivered_syncTargets timeless succeeds
    refine ⟨delivered.acknowledged, ?_⟩
    intro key
    rw [← proxyAt_congr (pods_ensured w obj) key]
    exact delivered.proxies key

/-- The messages are all the same, and these are the pods they reach. -/
structure Addressed (message : Message K) (reached : NamespacedName → Prop)
    (sent : List (Sent K)) : Prop where
  message : ∀ s ∈ sent, s.message = message
  receivers : ∀ key, (∃ s ∈ sent, s.receiver = some key) ↔ reached key

section Receivers

variable {message : Message K} {reached reached' : NamespacedName → Prop}
  {sent sent' : List (Sent K)}

theorem addressed_nil : Addressed message (fun _ => False) [] :=
  ⟨by simp, by simp⟩

theorem Addressed.append (first : Addressed message reached sent)
    (second : Addressed message reached' sent') :
    Addressed message (fun key => reached key ∨ reached' key) (sent ++ sent') := by
  refine ⟨List.forall_mem_append.mpr ⟨first.message, second.message⟩, ?_⟩
  intro key
  rw [← first.receivers key, ← second.receivers key]
  simp [or_and_right, exists_or]

theorem Addressed.congr (addressed : Addressed message reached sent)
    (same : ∀ key, reached key ↔ reached' key) : Addressed message reached' sent :=
  ⟨addressed.message, fun key => (addressed.receivers key).trans (same key)⟩

/-- A message that changes nothing the second time is taken once. -/
theorem Addressed.received (addressed : Addressed message reached sent) {m : K.Manager}
    (settles : ∀ after, message.taken m = some after → message.taken after = some after)
    (key : NamespacedName) :
    (reached key → received key sent m = message.taken m) ∧
      (¬reached key → received key sent m = some m) := by
  rw [← addressed.receivers key]
  have same := addressed.message
  clear addressed
  induction sent generalizing m with
  | nil => simp [Targets.received]
  | cons s sent ih =>
    obtain ⟨here, later⟩ := List.forall_mem_cons.mp same
    have step : Targets.received key (s :: sent) m =
        (if s.receiver = some key then s.message.taken m else some m).bind
          (Targets.received key sent) := List.foldlM_cons
    rw [step, here]
    by_cases hit : s.receiver = some key
    · rw [if_pos hit]
      refine ⟨fun _ => ?_, fun unreached => absurd ⟨s, List.mem_cons_self, hit⟩ unreached⟩
      cases taken : message.taken m with
      | none => rfl
      | some after =>
        have again := settles after taken
        obtain ⟨reached, unreached⟩ := @ih after (fun _ same => by
          rw [again] at same
          cases same
          exact again) later
        by_cases more : ∃ s ∈ sent, s.receiver = some key
        · exact (reached more).trans again
        · exact unreached more
    · rw [if_neg hit]
      have rest : (∃ t ∈ s :: sent, t.receiver = some key) ↔ ∃ t ∈ sent, t.receiver = some key := by
        simp [hit]
      rw [rest]
      exact ih settles later

end Receivers

/-- The selected pods with an available proxy reach the pod. -/
def World.Updates (w : World K) (obj : Object K) (key : NamespacedName) : Prop :=
  ∃ po ∈ w.podList obj, po.meta_.isProxyAvailable = true ∧
    w.reaches po.meta_.podIP = some key

/-- The entry of a pod that is not selected reaches the pod. -/
def World.Drops (w : World K) (obj : Object K) (o : Outcomes) (key : NamespacedName) : Prop :=
  ∃ st ∈ obj.status.targetStatus, st.podName ∉ w.selectedNames obj ∧ w.asks obj o st = true ∧
    w.reaches st.podIP = some key

theorem addressed_syncLoop (frame : Frame w loop.world) {reached : NamespacedName → Prop}
    (addressed : Addressed (.update obj.config) reached loop.sent) (pods : List (Pod K)) :
    Addressed (.update obj.config) (fun key => reached key ∨ ∃ po ∈ pods,
        po.meta_.isProxyAvailable = true ∧ w.reaches po.meta_.podIP = some key)
      (pods.foldl (syncTarget obj o) loop).sent := by
  induction pods generalizing loop reached with
  | nil => exact addressed.congr (by simp)
  | cons po pods ih =>
    have frame' := frame.trans (@syncTarget_spec K obj o loop po).1
    cases available : po.meta_.isProxyAvailable with
    | false =>
      have sent : (syncTarget obj o loop po).sent = loop.sent := by
        simp [syncTarget, available, Loop.forget]
      rw [List.foldl_cons]
      refine (ih frame' (sent ▸ addressed)).congr ?_
      simp [available]
    | true =>
      obtain ⟨acknowledged, sent⟩ := @sent_syncTarget K obj o po available loop
      have last : Addressed (.update obj.config)
          (fun key => w.reaches po.meta_.podIP = some key)
          [⟨loop.world.reaches po.meta_.podIP, .update obj.config, acknowledged⟩] :=
        ⟨by simp, by simp [frame.reaches]⟩
      rw [List.foldl_cons]
      refine (ih frame' (sent ▸ addressed.append last)).congr ?_
      simp [available, or_assoc]

theorem sent_syncTargets (lists : o.listPods = true) :
    ∃ updates withdrawals, (syncTargets w obj o).sent = updates ++ withdrawals ∧
      Addressed (.update obj.config) (w.Updates obj) updates ∧
      Addressed (.withdraw obj.name) (w.Drops obj o) withdrawals := by
  obtain ⟨synced, dropped, spec⟩ := syncTargets_spec w obj lists
  have updates := @addressed_syncLoop K w ⟨w, [], [], false⟩ obj o (Frame.refl w) _
    addressed_nil (w.podList obj)
  rw [← spec.isSynced] at updates
  rw [spec.pass]
  refine ⟨_, _, spec.sent, updates.congr (by simp [World.Updates]), ?_, ?_⟩
  · intro s inside
    obtain ⟨st, -, rfl⟩ := List.mem_map.mp inside
    rfl
  · intro key
    have member (st : TargetStatus K.Report) := @mem_unselected K obj st synced.entries
      (w.selectedNames obj) spec.names
    simp only [List.mem_map, List.mem_filter, member, World.Drops]
    constructor
    · rintro ⟨_, ⟨st, ⟨⟨listed, unselected⟩, asks⟩, rfl⟩, reaches⟩
      exact ⟨st, listed, unselected, asks, reaches⟩
    · rintro ⟨st, listed, unselected, asks, reaches⟩
      exact ⟨_, ⟨st, ⟨⟨listed, unselected⟩, asks⟩, rfl⟩, reaches⟩

/-- The messages of a pass without an error over an object in use. -/
theorem sent_active (active : obj.shouldClear = false)
    (succeeds : (reconcileObject w obj o).failed = false) :
    ∃ updates withdrawals, (reconcileObject w obj o).sent = updates ++ withdrawals ∧
      Addressed (.update obj.config) (w.Updates obj) updates ∧
      Addressed (.withdraw obj.name) (w.Drops obj o) withdrawals := by
  have same : obj.ensured.config = obj.config ∧ obj.ensured.name = obj.name ∧
      (w.ensured obj).Updates obj.ensured = w.Updates obj ∧
      (w.ensured obj).Drops obj.ensured o = w.Drops obj o := by
    unfold Object.ensured World.ensured
    split <;> exact ⟨rfl, rfl, rfl, rfl⟩
  have isSync := reconcileObject_of_succeeds active succeeds
  rw [isSync] at succeeds ⊢
  rw [← same.1, ← same.2.1, ← same.2.2.1, ← same.2.2.2]
  exact sent_syncTargets (lists_of_succeeds succeeds)

/-- The entry of a pod that `clear` asks reaches the pod. -/
def World.Clears (w : World K) (obj : Object K) (key : NamespacedName) : Prop :=
  ∃ st, Cleared w obj st ∧ w.reaches st.podIP = some key

/-- The messages of `clear`, unless it fails. -/
theorem addressed_clear (succeeds : (clear w obj o).failed = false) :
    Addressed (.withdraw obj.name) (w.Clears obj) (clear w obj o).sent := by
  have only {s : Sent K} (inside : s ∈ (clear w obj o).sent) :
      ∃ st, Cleared w obj st ∧ s = withdrawal w obj o st := by
    rcases clearLoop_sent ⟨w, [], [], false⟩ succeeds inside with
      before | ⟨st, first, asked, isSent⟩
    · cases before
    · exact ⟨st, ⟨first, asked⟩, isSent⟩
  constructor
  · intro s inside
    obtain ⟨st, -, rfl⟩ := only inside
    rfl
  · intro key
    constructor
    · rintro ⟨s, inside, receiver⟩
      obtain ⟨st, cleared, rfl⟩ := only inside
      exact ⟨st, cleared, receiver⟩
    · rintro ⟨st, cleared, reaches⟩
      obtain ⟨-, inside⟩ := clearLoop_acknowledges ⟨w, [], [], false⟩ succeeds cleared.1 cleared.2
      exact ⟨_, inside, reaches⟩

end

end CtrlMesh.Targets
