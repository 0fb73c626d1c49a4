import CtrlMesh.Targets.Reconciler

/-!
# What the loops of a pass send and keep

The loops change the managers of the proxies and the cache, and nothing else. Which messages they
send, and which entries they keep, is therefore said of the world the pass starts in: where the
proxy of a pod is available, and which pod an address belongs to.
-/

namespace CtrlMesh.Targets

open Labels Lib Api
open CircuitBreaker.Controller (PodCache Write Rpc selects cacheKey)

variable {ip : String}

section

variable {K : Kind}

/-- The pods, without their proxies. -/
def World.metas (w : World K) : List PodMeta := w.pods.items.map (·.meta_)

/-- The pod that a message to an address reaches. -/
def World.reaches (w : World K) (ip : String) : Option NamespacedName := (w.podAt ip).map Pod.key

/-- The pod exists and its proxy is available. -/
def World.ready (w : World K) (key : NamespacedName) : Bool :=
  (w.pods.find key).any (·.meta_.isProxyAvailable)

/-- Only proxies and the cache differ. -/
structure Frame (w w' : World K) : Prop where
  objects : w'.objects = w.objects
  metas : w'.metas = w.metas

variable {w w' w'' : World K} {loop : Loop K} {obj : Object K} {o : Outcomes} {po : Pod K}
  {podName : String}

theorem Frame.refl (w : World K) : Frame w w := ⟨rfl, rfl⟩

theorem Frame.trans (first : Frame w w') (second : Frame w' w'') : Frame w w'' :=
  ⟨second.objects.trans first.objects, second.metas.trans first.metas⟩

theorem frame_cache (frame : Frame w w') (cache : PodCache) : Frame w { w' with cache } :=
  ⟨frame.objects, frame.metas⟩

theorem find_metas (key : NamespacedName) :
    (w.pods.find key).map (·.meta_) = w.metas.find? (·.key = key) := by
  unfold World.metas Registry.find
  rw [List.find?_map]
  rfl

theorem reaches_eq :
    w.reaches ip = (w.metas.find? fun po =>
      po.hasProxyContainer ∧ po.podIP = ip ∧ ip ≠ "").map PodMeta.key := by
  unfold World.reaches World.podAt World.metas
  rw [List.find?_map, Option.map_map]
  rfl

theorem ready_eq (key : NamespacedName) :
    w.ready key = (w.metas.find? (·.key = key)).any (·.isProxyAvailable) := by
  rw [← find_metas, Option.any_map]
  rfl

theorem Frame.reaches (frame : Frame w w') (ip : String) : w'.reaches ip = w.reaches ip := by
  rw [reaches_eq, reaches_eq, frame.metas]

theorem Frame.ready (frame : Frame w w') (key : NamespacedName) : w'.ready key = w.ready key := by
  rw [ready_eq, ready_eq, frame.metas]

/-- A proxy that answers or only takes note leaves the pods as they are. -/
theorem frame_setProxy (member : po ∈ w.pods.items) {proxy : K.Manager} :
    Frame w (w.setProxy po proxy) := by
  have taken : w.pods.find po.key ≠ none := by
    rw [Registry.mem_iff_find.mp member]
    exact Option.some_ne_none po
  have items : (w.pods.put { po with proxy }).items =
      w.pods.items.map fun other => if other.key = po.key then { po with proxy } else other :=
    if_neg taken
  refine ⟨rfl, ?_⟩
  unfold World.metas World.setProxy
  rw [items, List.map_map]
  refine List.map_congr_left ?_
  intro other inside
  by_cases same : other.key = po.key
  · have isPod : other = po := Registry.eq_of_key_eq inside member same
    simp [isPod]
  · simp [same]

theorem podAt_mem (found : w.podAt ip = some po) :
    po ∈ w.pods.items := List.mem_of_find?_eq_some found

theorem sendConfig_frame (config : K.Config) (rpc : Rpc) :
    Frame w (w.sendConfig ip config rpc).1 ∧ (w.sendConfig ip config rpc).1.cache = w.cache := by
  unfold World.sendConfig
  cases found : w.podAt ip with
  | none => exact ⟨Frame.refl w, rfl⟩
  | some po =>
    have member := podAt_mem found
    cases rpc with
    | lost error => exact ⟨Frame.refl w, rfl⟩
    | unanswered now error => exact ⟨frame_setProxy member, rfl⟩
    | answered now => exact ⟨frame_setProxy member, rfl⟩

/-- The proxy took the call and answered it. -/
def isAnswered : Rpc → Bool
  | .answered _ => true
  | .lost _ => false
  | .unanswered _ _ => false

/-- A withdrawal sent to an entry's address is acknowledged. -/
def World.acknowledges (w : World K) (o : Outcomes) (st : TargetStatus K.Report) : Bool :=
  (w.reaches st.podIP).isSome && isAnswered (o.disable st.podName)

/-- The withdrawal of the object from an entry's address, as it ends. -/
def withdrawal (w : World K) (obj : Object K) (o : Outcomes) (st : TargetStatus K.Report) :
    Sent K :=
  ⟨w.reaches st.podIP, .withdraw obj.name, w.acknowledges o st⟩

/-- A withdrawal is acknowledged if there is a proxy that answers: it cannot refuse. -/
theorem toBool_withdraw (w : World K) (ip name : String) (rpc : Rpc) :
    (accepted "disable" K.disableNoun ip name
      (w.sendConfig ip (K.withdraw name) rpc).2 : Except String K.Report).toBool =
      ((w.reaches ip).isSome && isAnswered rpc) := by
  unfold World.sendConfig World.reaches
  cases w.podAt ip with
  | none => rfl
  | some po =>
    cases rpc with
    | lost error => rfl
    | unanswered now error => rfl
    | answered now =>
      obtain ⟨answer, answers, success⟩ := K.withdrawn po.proxy now name
      dsimp only
      rw [answers]
      unfold accepted
      simp only [bind, Except.bind, success]
      rfl

variable {st : TargetStatus K.Report} {listed : List (TargetStatus K.Report)}

theorem disableConfig_spec :
    ∃ w answer, loop.disableConfig st.podIP obj.name (o.disable st.podName) =
      ({ loop with
          world := w
          sent := loop.sent ++ [withdrawal loop.world obj o st] }, answer) ∧
      Frame loop.world w ∧ w.cache = loop.world.cache ∧
      answer.toBool = loop.world.acknowledges o st := by
  obtain ⟨frame, cache⟩ := sendConfig_frame (K.withdraw obj.name) (o.disable st.podName)
  have answers := toBool_withdraw loop.world st.podIP obj.name (o.disable st.podName)
  refine ⟨_, _, ?_, frame, cache, answers⟩
  unfold Loop.disableConfig Loop.send withdrawal World.acknowledges
  rw [← answers]
  rfl

/-- The pass asks the proxy of an entry to drop the configuration. -/
def World.asks (w : World K) (obj : Object K) (o : Outcomes) (st : TargetStatus K.Report) : Bool :=
  o.getPod st.podName && w.ready (obj.metadata.namespace_, st.podName)

/-- The entry of a pod that is no longer selected stays: the pod could not be read, or the
withdrawal failed. -/
def World.keeps (w : World K) (obj : Object K) (o : Outcomes) (st : TargetStatus K.Report) : Bool :=
  !o.getPod st.podName || w.asks obj o st && !w.acknowledges o st

theorem Frame.withdrawal (frame : Frame w w') (st : TargetStatus K.Report) :
    withdrawal w' obj o st = withdrawal w obj o st := by
  unfold Targets.withdrawal World.acknowledges
  rw [frame.reaches]

theorem Frame.asks (frame : Frame w w') (st : TargetStatus K.Report) :
    w'.asks obj o st = w.asks obj o st := by
  unfold World.asks
  rw [frame.ready]

theorem Frame.keeps (frame : Frame w w') (st : TargetStatus K.Report) :
    w'.keeps obj o st = w.keeps obj o st := by
  unfold World.keeps World.acknowledges
  rw [frame.asks, frame.reaches]

/-- One entry. -/
theorem dropTarget_spec (loop : Loop K) (st : TargetStatus K.Report) :
    Frame loop.world (dropTarget obj o loop st).world ∧
      (dropTarget obj o loop st).entries =
        loop.entries ++ [st].filter (loop.world.keeps obj o) ∧
      (dropTarget obj o loop st).sent =
        loop.sent ++ ([st].filter (loop.world.asks obj o)).map (withdrawal loop.world obj o) ∧
      (dropTarget obj o loop st).failed = (loop.failed || loop.world.keeps obj o st) := by
  have ready : loop.world.ready (obj.metadata.namespace_, st.podName) =
    (loop.world.pods.find (obj.metadata.namespace_, st.podName)).any (·.meta_.isProxyAvailable) :=
      rfl
  obtain ⟨w, answer, sends, frame, -, answers⟩ := disableConfig_spec
  unfold dropTarget
  rw [sends]
  cases read : o.getPod st.podName with
  | false =>
    simp [World.keeps, World.asks, read, Frame.refl]
  | true =>
    simp only [Bool.not_true, Bool.false_eq_true, if_false]
    cases found : loop.world.pods.find (obj.metadata.namespace_, st.podName) with
    | none =>
      rw [found] at ready
      simp [World.keeps, World.asks, read, ready, Frame.refl]
    | some po =>
      rw [found] at ready
      dsimp only
      cases available : po.meta_.isProxyAvailable with
      | false =>
        have frame' := frame_cache (Frame.refl loop.world)
          (loop.world.cache.deletePod po.meta_.namespace_ po.meta_.name)
        simp [World.keeps, World.asks, read, ready, available, frame', Loop.forget]
      | true =>
        simp only [Bool.not_true, Bool.false_eq_true, if_false]
        cases answer with
        | error error =>
          have refused : loop.world.acknowledges o st = false := answers.symm
          simp [World.keeps, World.asks, read, ready, available, refused, frame]
        | ok report =>
          have taken : loop.world.acknowledges o st = true := answers.symm
          have frame' := frame_cache frame
            (w.cache.deleteName obj.metadata.namespace_ po.meta_.name obj.name)
          simp [World.keeps, World.asks, read, ready, available, taken, frame', Loop.forget]

/-- The whole loop. -/
theorem dropLoop_spec (w : World K) (loop : Loop K) (frame : Frame w loop.world)
    (listed : List (TargetStatus K.Report)) :
    Frame w (listed.foldl (dropTarget obj o) loop).world ∧
      (listed.foldl (dropTarget obj o) loop).entries =
        loop.entries ++ listed.filter (w.keeps obj o) ∧
      (listed.foldl (dropTarget obj o) loop).sent =
        loop.sent ++ (listed.filter (w.asks obj o)).map (withdrawal w obj o) ∧
      (listed.foldl (dropTarget obj o) loop).failed =
        (loop.failed || listed.any (w.keeps obj o)) := by
  induction listed generalizing loop with
  | nil => simp [frame]
  | cons st listed ih =>
    obtain ⟨frame', entries, sent, failed⟩ := @dropTarget_spec K obj o loop st
    obtain ⟨after, entries', sent', failed'⟩ := ih (dropTarget obj o loop st) (frame.trans frame')
    have keeps : loop.world.keeps obj o = w.keeps obj o := funext frame.keeps
    have asks : loop.world.asks obj o = w.asks obj o := funext frame.asks
    have messages : withdrawal loop.world obj o = withdrawal w obj o := funext frame.withdrawal
    rw [keeps] at entries failed
    rw [asks, messages] at sent
    refine ⟨after, ?_, ?_, ?_⟩
    · rw [List.foldl_cons, entries', entries, List.append_assoc, ← List.filter_append]
      rfl
    · rw [List.foldl_cons, sent', sent, List.append_assoc, ← List.map_append, ← List.filter_append]
      rfl
    · rw [List.foldl_cons, failed', failed, Bool.or_assoc]
      rfl

/-- The message is an UPDATE. -/
def Message.isUpdate : Message K → Bool
  | .update _ => true
  | .withdraw _ => false

/-- One pod: it is listed under its name, and no withdrawal is sent. -/
theorem syncTarget_spec (loop : Loop K) (po : Pod K) :
    Frame loop.world (syncTarget obj o loop po).world ∧
      (∃ entry, (syncTarget obj o loop po).entries = loop.entries ++ [entry] ∧
        entry.podName = po.meta_.name) ∧
      ∃ messages, (syncTarget obj o loop po).sent = loop.sent ++ messages ∧
        ∀ sent ∈ messages, sent.message.isUpdate = true := by
  obtain ⟨frame, -⟩ := sendConfig_frame (Message.update obj.config).config (o.sync po.meta_.name)
  unfold syncTarget
  dsimp only
  cases available : po.meta_.isProxyAvailable with
  | false =>
    refine ⟨frame_cache (Frame.refl _) _, ⟨_, rfl, rfl⟩, [], ?_, by simp⟩
    simp [Loop.forget]
  | true =>
    simp only [Bool.not_true, Bool.false_eq_true, if_false]
    unfold Loop.syncPodConfig Loop.send
    dsimp only
    generalize accepted "update" K.updateNoun _ _ _ = answer
    cases answer with
    | error msg => exact ⟨frame, ⟨_, rfl, rfl⟩, _, rfl, by simp [Message.isUpdate]⟩
    | ok report => exact ⟨frame_cache frame _, ⟨_, rfl, rfl⟩, _, rfl, by simp [Message.isUpdate]⟩

/-- A pod whose proxy is available is sent the configuration. -/
theorem sent_syncTarget (available : po.meta_.isProxyAvailable = true) (loop : Loop K) :
    ∃ acknowledged, (syncTarget obj o loop po).sent =
      loop.sent ++ [⟨loop.world.reaches po.meta_.podIP, .update obj.config, acknowledged⟩] := by
  unfold syncTarget
  dsimp only
  rw [available]
  simp only [Bool.not_true, Bool.false_eq_true, if_false]
  unfold Loop.syncPodConfig Loop.send
  dsimp only
  generalize accepted "update" K.updateNoun _ _ _ = answer
  cases answer with
  | error msg => exact ⟨_, rfl⟩
  | ok report => exact ⟨_, rfl⟩

/-- The whole loop. -/
theorem syncLoop_spec (w : World K) (loop : Loop K) (frame : Frame w loop.world)
    (pods : List (Pod K)) :
    Frame w (pods.foldl (syncTarget obj o) loop).world ∧
      (pods.foldl (syncTarget obj o) loop).entries.map (·.podName) =
        loop.entries.map (·.podName) ++ pods.map (·.meta_.name) ∧
      ∃ messages, (pods.foldl (syncTarget obj o) loop).sent = loop.sent ++ messages ∧
        ∀ sent ∈ messages, sent.message.isUpdate = true := by
  induction pods generalizing loop with
  | nil => exact ⟨frame, by simp, [], by simp, by simp⟩
  | cons po pods ih =>
    obtain ⟨frame', ⟨entry, entries, name⟩, messages, sent, updates⟩ :=
      @syncTarget_spec K obj o loop po
    obtain ⟨after, entries', messages', sent', updates'⟩ :=
      ih (syncTarget obj o loop po) (frame.trans frame')
    refine ⟨after, ?_, messages ++ messages', ?_, ?_⟩
    · rw [List.foldl_cons, entries', entries, List.map_append]
      simp [name]
    · rw [List.foldl_cons, sent', sent, List.append_assoc]
    · exact List.forall_mem_append.mpr ⟨updates, updates'⟩

/-- `Reconcile` from the list of the pods on, by its two loops: what they send and keep, and that
nothing but the status is written after them. -/
structure SyncPass (w : World K) (obj : Object K) (o : Outcomes) (synced dropped : Loop K) :
    Prop where
  isSynced : synced = (w.podList obj).foldl (syncTarget obj o) ⟨w, [], [], false⟩
  isDropped : dropped = (unselected obj synced.entries).foldl (dropTarget obj o)
    { synced with entries := [] }
  frame : Frame w dropped.world
  names : synced.entries.map (·.podName) = (w.podList obj).map (·.meta_.name)
  updates : ∀ sent ∈ synced.sent, sent.message.isUpdate = true
  entries : dropped.entries = (unselected obj synced.entries).filter (w.keeps obj o)
  sent : dropped.sent = synced.sent ++
    ((unselected obj synced.entries).filter (w.asks obj o)).map (withdrawal w obj o)
  failed : dropped.failed = (synced.failed || (unselected obj synced.entries).any (w.keeps obj o))
  pass : syncTargets w obj o =
    ⟨(writeStatus dropped.world obj o (synced.entries ++ dropped.entries)).1,
      (w.podList obj).map (·.meta_), dropped.sent,
      dropped.failed || (writeStatus dropped.world obj o (synced.entries ++ dropped.entries)).2⟩

theorem syncTargets_spec (w : World K) (obj : Object K) (lists : o.listPods = true) :
    ∃ synced dropped, SyncPass w obj o synced dropped := by
  obtain ⟨frame, names, messages, sent, updates⟩ := @syncLoop_spec K obj o w ⟨w, [], [], false⟩
    (Frame.refl w) (w.podList obj)
  obtain ⟨frame', entries, sent', failed⟩ := @dropLoop_spec K obj o w
    { (w.podList obj).foldl (syncTarget obj o) ⟨w, [], [], false⟩ with entries := [] } frame
    (unselected obj ((w.podList obj).foldl (syncTarget obj o) ⟨w, [], [], false⟩).entries)
  refine ⟨_, _, rfl, rfl, frame', names, ?_, entries, sent', failed, ?_⟩
  · rw [sent]
    exact updates
  · unfold syncTargets
    rw [lists]
    rfl

/-- The cache has the object for a pod of its namespace. -/
def World.caches (w : World K) (obj : Object K) (podName : String) : Bool :=
  w.cache.has obj.metadata.namespace_ podName obj.name

/-- `clear` asks the proxy of an entry: the cache has the object for it, and it is available. -/
def World.clears (w : World K) (obj : Object K) (st : TargetStatus K.Report) : Bool :=
  w.caches obj st.podName && w.ready (obj.metadata.namespace_, st.podName)

theorem cacheKey_ne {ns : String} {podName' : String} (other : podName ≠ podName') :
    cacheKey ns podName ≠ cacheKey ns podName' := by
  intro same
  have characters : ns.toList ++ "/".toList ++ podName.toList =
      ns.toList ++ "/".toList ++ podName'.toList := by
    simpa [cacheKey] using congrArg String.toList same
  exact other (String.toList_inj.mp (List.append_cancel_left characters))

/-- The cache without the object for one pod. -/
def PodCache.without (cache : PodCache) (obj : Object K) (podName : String) : PodCache :=
  cache.deleteName obj.metadata.namespace_ podName obj.name

theorem caches_without_self (podName : String) :
    ({ w with cache := PodCache.without w.cache obj podName } : World K).caches obj podName =
      false := by
  unfold World.caches PodCache.without PodCache.deleteName PodCache.has
  dsimp only
  cases found : w.cache.lookup (cacheKey obj.metadata.namespace_ podName) with
  | none => simp [found]
  | some configs => simp

theorem caches_without_of_ne {other : String} (different : other ≠ podName) :
    ({ w with cache := PodCache.without w.cache obj podName } : World K).caches obj other =
      w.caches obj other :=
  PodCache.has_deleteName (.inl (cacheKey_ne different))

/-- How one entry can go. Only what happens before the first error matters later. -/
inductive ClearStep (obj : Object K) (o : Outcomes) (loop loop' : Loop K)
    (st : TargetStatus K.Report) : Prop where
  | passed (unasked : loop.world.clears obj st = false) (sent : loop'.sent = loop.sent)
      (read : o.getPod st.podName = true → loop'.failed = loop.failed)
  | answered (asked : loop.world.clears obj st = true)
      (acknowledged : loop.world.acknowledges o st = true)
      (sent : loop'.sent = loop.sent ++ [withdrawal loop.world obj o st])
      (failed : loop'.failed = loop.failed) (forgotten : loop'.world.caches obj st.podName = false)
  | unread (asked : loop.world.clears obj st = true) (unread : o.getPod st.podName = false)
      (failed : loop'.failed = true)
  | refused (asked : loop.world.clears obj st = true)
      (unacknowledged : loop.world.acknowledges o st = false) (failed : loop'.failed = true)

/-- What every entry leaves alone. -/
structure ClearFrame (obj : Object K) (loop loop' : Loop K) (podName : String) : Prop where
  frame : Frame loop.world loop'.world
  sent : ∃ messages, loop'.sent = loop.sent ++ messages ∧
    ∀ sent ∈ messages, sent.message.isUpdate = false
  failed : loop'.failed = false → loop.failed = false
  others : ∀ other, other ≠ podName → loop'.world.caches obj other = loop.world.caches obj other
  shrinks : loop'.world.caches obj podName = true → loop.world.caches obj podName = true

theorem clearTarget_spec (loop : Loop K) (st : TargetStatus K.Report) :
    ClearStep obj o loop (clearTarget obj o loop st) st ∧
      ClearFrame obj loop (clearTarget obj o loop st) st.podName := by
  have ready : loop.world.ready (obj.metadata.namespace_, st.podName) =
    (loop.world.pods.find (obj.metadata.namespace_, st.podName)).any (·.meta_.isProxyAvailable) :=
      rfl
  have same : ClearFrame obj loop loop st.podName :=
    ⟨Frame.refl _, ⟨[], by simp, by simp⟩, id, fun _ _ => rfl, id⟩
  obtain ⟨w, answer, sends, frame, cache, answers⟩ := disableConfig_spec
  unfold clearTarget
  rw [sends]
  cases known : loop.world.cache.has obj.metadata.namespace_ st.podName obj.name with
  | false =>
    have unasked : loop.world.clears obj st = false := by simp [World.clears, World.caches, known]
    exact ⟨.passed unasked rfl fun _ => rfl, same⟩
  | true =>
    have clears : loop.world.clears obj st =
        (loop.world.pods.find (obj.metadata.namespace_, st.podName)).any
          (·.meta_.isProxyAvailable) := by
      simp [World.clears, World.caches, known, ready]
    simp only [Bool.not_true, Bool.false_eq_true, if_false]
    cases read : o.getPod st.podName with
    | false =>
      refine ⟨?_, same.frame, same.sent, nofun, same.others, same.shrinks⟩
      cases asked : loop.world.clears obj st with
      | false => exact .passed asked rfl fun isRead => absurd isRead (by simp [read])
      | true => exact .unread asked read rfl
    | true =>
      simp only [Bool.not_true, Bool.false_eq_true, if_false]
      cases found : loop.world.pods.find (obj.metadata.namespace_, st.podName) with
      | none =>
        rw [found] at clears
        refine ⟨.passed clears rfl fun _ => rfl, ?_⟩
        refine ⟨frame_cache (Frame.refl _) _, same.sent, id, ?_, fun _ => known⟩
        intro other different
        exact caches_without_of_ne different
      | some po =>
        rw [found] at clears
        dsimp only
        cases available : po.meta_.isProxyAvailable with
        | false => exact ⟨.passed (clears.trans available) rfl fun _ => rfl, same⟩
        | true =>
          have asked : loop.world.clears obj st = true := clears.trans available
          simp only [Bool.not_true, Bool.false_eq_true, if_false]
          cases answer with
          | error error =>
            refine ⟨.refused asked answers.symm rfl, frame, ⟨_, rfl, ?_⟩, nofun, ?_, ?_⟩
            · simp [withdrawal, Message.isUpdate]
            · intro other _
              simp [World.caches, cache]
            · exact fun _ => known
          | ok report =>
            dsimp only [Loop.forget]
            refine ⟨.answered asked answers.symm rfl rfl (caches_without_self st.podName),
              frame_cache frame _, ⟨_, rfl, ?_⟩, id, ?_, fun _ => known⟩
            · simp [withdrawal, Message.isUpdate]
            · intro other different
              have kept : w.caches obj other = loop.world.caches obj other := by
                simp [World.caches, cache]
              exact (caches_without_of_ne different).trans kept

/-! The loop, over the entries one after the other. An entry counts if it is the first of its
pod's: once its withdrawal is acknowledged, the others of the name are passed. -/

variable {loop' : Loop K}

theorem ClearFrame.clears {st' : TargetStatus K.Report}
    (kept : ClearFrame obj loop loop' st.podName) (other : st'.podName ≠ st.podName) :
    loop'.world.clears obj st' = loop.world.clears obj st' := by
  unfold World.clears
  rw [kept.others _ other, kept.frame.ready]

theorem clearLoop_frame (loop : Loop K) (listed : List (TargetStatus K.Report)) :
    Frame loop.world (listed.foldl (clearTarget obj o) loop).world ∧
      (∃ messages, (listed.foldl (clearTarget obj o) loop).sent = loop.sent ++ messages ∧
        ∀ sent ∈ messages, sent.message.isUpdate = false) ∧
      ((listed.foldl (clearTarget obj o) loop).failed = false → loop.failed = false) := by
  induction listed generalizing loop with
  | nil => exact ⟨Frame.refl _, ⟨[], by simp, by simp⟩, id⟩
  | cons st listed ih =>
    obtain ⟨-, kept⟩ := @clearTarget_spec K obj o loop st
    obtain ⟨messages, sent, withdrawals⟩ := kept.sent
    obtain ⟨frame, ⟨messages', sent', withdrawals'⟩, failed⟩ := ih (clearTarget obj o loop st)
    refine ⟨kept.frame.trans frame, ⟨messages ++ messages', ?_, ?_⟩, ?_⟩
    · rw [List.foldl_cons, sent', sent, List.append_assoc]
    · exact List.forall_mem_append.mpr ⟨withdrawals, withdrawals'⟩
    · exact fun ok => kept.failed (failed ok)

/-- If no entry fails, the withdrawal of each entry that `clear` asks for is acknowledged. -/
theorem clearLoop_acknowledges (loop : Loop K)
    (succeeds : (listed.foldl (clearTarget obj o) loop).failed = false)
    (first : listed.find? (·.podName = st.podName) = some st)
    (asked : loop.world.clears obj st = true) :
    loop.world.acknowledges o st = true ∧
      withdrawal loop.world obj o st ∈ (listed.foldl (clearTarget obj o) loop).sent := by
  induction listed generalizing loop with
  | nil => cases first
  | cons head listed ih =>
    obtain ⟨step, kept⟩ := @clearTarget_spec K obj o loop head
    obtain ⟨-, ⟨messages, later, -⟩, failed⟩ :=
      @clearLoop_frame K obj o (clearTarget obj o loop head) listed
    by_cases same : head.podName = st.podName
    · have isHead : head = st := by simpa [same] using first
      subst isHead
      cases step with
      | passed unasked _ _ => exact absurd asked (by simp [unasked])
      | answered _ acknowledged sent _ _ =>
        refine ⟨acknowledged, ?_⟩
        rw [List.foldl_cons, later, sent]
        simp
      | unread _ _ fails => exact absurd (failed succeeds) (by simp [fails])
      | refused _ _ fails => exact absurd (failed succeeds) (by simp [fails])
    · have later : listed.find? (·.podName = st.podName) = some st := by simpa [same] using first
      have asked' : (clearTarget obj o loop head).world.clears obj st = true := by
        rw [kept.clears (Ne.symm same)]
        exact asked
      obtain ⟨acknowledged, inside⟩ := ih _ succeeds later asked'
      unfold World.acknowledges at acknowledged ⊢
      rw [kept.frame.reaches] at acknowledged
      rw [kept.frame.withdrawal] at inside
      exact ⟨acknowledged, inside⟩

/-- An entry that counts later counts from the start, unless an entry failed. -/
theorem counts_of_later {head : TargetStatus K.Report} (step : ClearStep obj o loop loop' head)
    (kept : ClearFrame obj loop loop' head.podName) (succeeds : loop'.failed = false)
    (later : listed.find? (·.podName = st.podName) = some st)
    (asked : loop'.world.clears obj st = true) :
    (head :: listed).find? (·.podName = st.podName) = some st ∧
      loop.world.clears obj st = true := by
  have both : loop'.world.caches obj st.podName = true ∧
      loop'.world.ready (obj.metadata.namespace_, st.podName) = true := by
    simpa [World.clears] using asked
  by_cases same : st.podName = head.podName
  · rw [same] at both
    cases step with
    | passed unasked _ _ =>
      have known := kept.shrinks both.1
      have ready := both.2
      rw [kept.frame.ready] at ready
      simp [World.clears, known, ready] at unasked
    | answered _ _ _ _ forgotten => exact absurd both.1 (by simp [forgotten])
    | unread _ _ fails => exact absurd succeeds (by simp [fails])
    | refused _ _ fails => exact absurd succeeds (by simp [fails])
  · refine ⟨?_, ?_⟩
    · rw [List.find?_cons_of_neg (by simpa using Ne.symm same)]
      exact later
    · rw [← kept.clears same]
      exact asked

/-- If no entry fails, `clear` sends nothing else. -/
theorem clearLoop_sent (loop : Loop K)
    (succeeds : (listed.foldl (clearTarget obj o) loop).failed = false) {sent : Sent K}
    (inside : sent ∈ (listed.foldl (clearTarget obj o) loop).sent) :
    sent ∈ loop.sent ∨ ∃ st, listed.find? (·.podName = st.podName) = some st ∧
      loop.world.clears obj st = true ∧ sent = withdrawal loop.world obj o st := by
  induction listed generalizing loop with
  | nil => exact .inl inside
  | cons head listed ih =>
    obtain ⟨step, kept⟩ := @clearTarget_spec K obj o loop head
    obtain ⟨-, -, failed⟩ := @clearLoop_frame K obj o (clearTarget obj o loop head) listed
    have ok := failed succeeds
    rcases ih _ succeeds inside with earlier | ⟨st, later, asked, isSent⟩
    · cases step with
      | passed _ same _ =>
        rw [same] at earlier
        exact .inl earlier
      | answered asked _ sent' _ _ =>
        rw [sent', List.mem_append, List.mem_singleton] at earlier
        refine earlier.imp id ?_
        intro isSent
        exact ⟨head, by simp, asked, isSent⟩
      | unread _ _ fails => exact absurd ok (by simp [fails])
      | refused _ _ fails => exact absurd ok (by simp [fails])
    · obtain ⟨first, asked'⟩ := counts_of_later step kept ok later asked
      rw [kept.frame.withdrawal] at isSent
      exact .inr ⟨st, first, asked', isSent⟩

/-- If all calls are answered, `clear` fails only at an address without a proxy. -/
theorem clearLoop_succeeds (read : ∀ podName, o.getPod podName = true)
    (answered : ∀ podName, isAnswered (o.disable podName) = true) (loop : Loop K)
    (start : loop.failed = false) (reached : ∀ st, listed.find? (·.podName = st.podName) = some st →
      loop.world.clears obj st = true → (loop.world.reaches st.podIP).isSome = true) :
    (listed.foldl (clearTarget obj o) loop).failed = false := by
  induction listed generalizing loop with
  | nil => exact start
  | cons head listed ih =>
    obtain ⟨step, kept⟩ := @clearTarget_spec K obj o loop head
    have ok : (clearTarget obj o loop head).failed = false := by
      cases step with
      | passed _ _ same => exact (same (read head.podName)).trans start
      | answered _ _ _ same _ => exact same.trans start
      | unread _ unread _ => exact absurd (read head.podName) (by simp [unread])
      | refused asked unacknowledged _ =>
        have reaches := reached head (by simp) asked
        simp [World.acknowledges, reaches, answered] at unacknowledged
    refine ih _ ok ?_
    intro st later asked
    obtain ⟨first, asked'⟩ := counts_of_later step kept ok later asked
    rw [kept.frame.reaches]
    exact reached st first asked'

/-- The object has its finalizer when the pods are listed. -/
def Protected (obj : Object K) (o : Outcomes) : Prop :=
  obj.hasFinalizer = true ∨ o.addFinalizer = .done

theorem stored_of_active (active : obj.shouldClear = false) :
    w.stored obj.addFinalizer = { w with objects := w.objects.put obj.addFinalizer } := by
  have unmarked : obj.metadata.deletionTimestamp.isSome = false := by
    have both : (obj.metadata.labels.lookup K.disableKey).isSome = false ∧
        obj.metadata.deletionTimestamp.isSome = false := by
      simpa [Object.shouldClear] using active
    exact both.2
  unfold World.stored
  rw [if_neg]
  intro last
  exact absurd last.1 (by simp [Object.addFinalizer, unmarked])

/-- The object with its finalizer. -/
def Object.ensured (obj : Object K) : Object K :=
  if obj.hasFinalizer then obj else obj.addFinalizer

/-- The world with the finalizer of an object stored. -/
def World.ensured (w : World K) (obj : Object K) : World K :=
  if obj.hasFinalizer then w else { w with objects := w.objects.put obj.addFinalizer }

/-- The pass of an object in use gets to the pods unless the finalizer could not be added. -/
theorem reconcileObject_active (w : World K) (o : Outcomes) (active : obj.shouldClear = false) :
    (Protected obj o ∧ reconcileObject w obj o = syncTargets (w.ensured obj) obj.ensured o) ∨
      ¬Protected obj o ∧ ∃ w', (w' = w ∨ w' = w.ensured obj) ∧
        reconcileObject w obj o = ⟨w', [], [], true⟩ := by
  unfold reconcileObject Protected World.ensured Object.ensured
  rw [active]
  simp only [Bool.false_eq_true, if_false]
  cases finalizer : obj.hasFinalizer with
  | true => exact .inl ⟨.inl rfl, rfl⟩
  | false =>
    simp only [Bool.false_eq_true, if_false]
    unfold World.update
    rw [stored_of_active active]
    cases o.addFinalizer with
    | lost => exact .inr ⟨by simp, _, .inl rfl, rfl⟩
    | unanswered => exact .inr ⟨by simp, _, .inr rfl, rfl⟩
    | done => exact .inl ⟨.inr rfl, rfl⟩

/-- The pass of an object that has been read. -/
theorem reconcile_of_read {key : NamespacedName} (read : o.getObject = true)
    (stored : w.objects.find key = some obj) : reconcile w key o = reconcileObject w obj o := by
  simp [reconcile, read, stored]

theorem find_ensured (stored : w.objects.find obj.key = some obj) :
    (w.ensured obj).objects.find obj.key = some obj.ensured := by
  unfold World.ensured Object.ensured
  split
  · exact stored
  · exact w.objects.find_put_self

theorem status_ensured : obj.ensured.status = obj.status := by
  unfold Object.ensured
  split <;> rfl

theorem pods_ensured (w : World K) (obj : Object K) : (w.ensured obj).pods = w.pods := by
  unfold World.ensured
  split <;> rfl

/-- Calls that all succeed, but for the withdrawals from some pods. -/
def succeeding (answers : String → Bool) : Outcomes where
  getObject := true
  addFinalizer := .done
  listPods := true
  sync := fun _ => .answered 0
  getPod := fun _ => true
  disable := fun podName =>
    if answers podName then .answered 0 else .lost "context deadline exceeded"
  updateStatus := .done
  removeFinalizer := .done
  now := 0

theorem isAnswered_succeeding {answers : String → Bool} :
    isAnswered ((succeeding answers).disable podName) = answers podName := by
  change isAnswered (if answers podName then _ else _) = _
  cases answers podName with
  | true => rfl
  | false => rfl

end

end CtrlMesh.Targets
