import CtrlMesh.CircuitBreaker.Holdings
import CtrlMesh.Lib.Run

/-!
# No orphaned configuration

When the reconciler gives up the finalizer of a CircuitBreaker, no proxy should still hold its
configuration. A pass keeps the invariant of the held configurations, and so does everything else
that happens, if the status and the cache do not lose track of a proxy: what each step must meet is
`Careful`. A restart of the manager in between is enough to leave a configuration behind.
-/

namespace CtrlMesh.CircuitBreaker.Controller

open Labels Lib Api

/-- No proxy of the namespace holds the configuration. -/
def World.Free (w : World) (key : NamespacedName) : Prop :=
  ∀ po ∈ w.pods.items, po.namespace_ = key.1 → ¬po.Holds key.2

/-- The namespace of an object has no slash, and its entries name different pods. -/
structure Breaker.WellFormed (cb : Breaker) : Prop where
  plain : '/' ∉ cb.metadata.namespace_.toList
  distinct : (cb.status.targetStatus.map (·.podName)).Nodup

/-- The invariant between two steps: the listing is the stored one. -/
structure Settled (w : World) : Prop where
  wellFormed : ∀ cb ∈ w.breakers.items, cb.WellFormed
  sound : Sound w.listing w

/-- The invariant holds after a step, in which an object loses the finalizer only when no proxy
holds its configuration. -/
structure Settles (w w' : World) : Prop where
  settled : Settled w'
  releases : ∀ key, w.Guarded key → w'.Guarded key ∨ w'.Free key

section

variable {w w' : World} {cb : Breaker} {key : NamespacedName}

theorem listing_of_find (found : w.breakers.find key = some cb) :
    w.listing key = cb.status.targetStatus := by
  simp [World.listing, found]

theorem listing_put : { w with breakers := w.breakers.put cb }.listing =
    Function.update w.listing cb.key cb.status.targetStatus := by
  funext key
  by_cases same : key = cb.key
  · subst same
    rw [Function.update_self]
    exact listing_of_find (Registry.find_put_self _)
  · rw [Function.update_of_ne same]
    simp only [World.listing, Registry.find_put_of_ne _ same]

theorem World.Guarded.put (guarded : w.Guarded key)
    (keeps : key = cb.key → cb.hasFinalizer = true) :
    { w with breakers := w.breakers.put cb }.Guarded key := by
  by_cases same : key = cb.key
  · subst same
    exact ⟨cb, Registry.find_put_self _, keeps rfl⟩
  · obtain ⟨stored, found, finalizer⟩ := guarded
    exact ⟨stored, by rw [Registry.find_put_of_ne _ same]; exact found, finalizer⟩

theorem listing_congr (same : w'.breakers = w.breakers) : w'.listing = w.listing := by
  funext key
  rw [World.listing, World.listing, same]

theorem Settles.refl (settled : Settled w) : Settles w w := ⟨settled, fun _ => .inl⟩

variable {w'' : World} {po : Pod}

theorem Settles.trans (first : Settles w w') (second : Settles w' w'') (pods : w''.pods = w'.pods) :
    Settles w w'' := by
  refine ⟨second.settled, fun key guarded => ?_⟩
  obtain guarded | free := first.releases key guarded
  · exact second.releases key guarded
  · rw [World.Free, pods]
    exact .inr free

/-- The stored objects are the same when the step begins. -/
theorem Settles.after (same : w'.breakers = w.breakers) (next : Settles w' w'') :
    Settles w w'' := by
  refine ⟨next.settled, fun key guarded => next.releases key ?_⟩
  rwa [World.Guarded, same]

/-- The invariant after a change that left the stored objects alone. -/
theorem Settled.of_breakers (settled : Settled w) (same : w'.breakers = w.breakers)
    (sound : Sound w.listing w') : Settles w w' := by
  refine .after same (.refl ⟨same ▸ settled.wellFormed, ?_⟩)
  rwa [listing_congr same]

/-- An object may be stored when the pods that hold its configuration are in its status, and it has
the finalizer if there are any. -/
theorem settles_put (others : ∀ cb ∈ w.breakers.items, cb.WellFormed) (wellFormed : cb.WellFormed)
    (sound : Sound (Function.update w.listing cb.key cb.status.targetStatus) w)
    (guards : cb.hasFinalizer = true ∨ w.Free cb.key) :
    Settles w { w with breakers := w.breakers.put cb } := by
  refine ⟨⟨fun cb' member => ?_, ?_⟩, fun key guarded => ?_⟩
  · obtain rfl | ⟨inside, -⟩ := Registry.mem_put.mp member
    · exact wellFormed
    · exact others cb' inside
  · rw [listing_put]
    refine sound.recover rfl fun po member name holds covered => { covered with guarded := ?_ }
    refine covered.guarded.put fun same => ?_
    obtain finalizer | free := guards
    · exact finalizer
    · exact absurd holds (by simpa [← same] using free po member (congrArg Prod.fst same))
  · obtain finalizer | free := guards
    · exact .inl (guarded.put fun _ => finalizer)
    · by_cases same : key = cb.key
      · subst same
        exact .inr free
      · exact .inl (guarded.put fun equal => absurd equal same)

section

variable (settled : Settled w)

include settled

theorem Settled.update_listing : Sound (Function.update w.listing key (w.listing key)) w := by
  rw [Function.update_eq_self]
  exact settled.sound

/-- The status of an object whose configuration no proxy holds does not matter. -/
theorem Settled.put_free (free : w.Free cb.key) (wellFormed : cb.WellFormed) :
    Settles w { w with breakers := w.breakers.put cb } :=
  settles_put settled.wellFormed wellFormed
    ((settled.update_listing).relist fun po member space holds _ =>
      absurd holds (free po member space)) (.inr free)

theorem Settled.free (unguarded : ¬w.Guarded key) : w.Free key := by
  intro po member space holds
  have guarded := (settled.sound.covered po member key.2 holds).guarded
  rw [space] at guarded
  exact unguarded guarded

/-- The rest of a stored object may change as long as the finalizer stays. -/
theorem Settled.put_same {stored : Breaker} (found : w.breakers.find cb.key = some stored)
    (status : cb.status.targetStatus = stored.status.targetStatus)
    (finalizer : stored.hasFinalizer = true → cb.hasFinalizer = true) :
    Settles w { w with breakers := w.breakers.put cb } := by
  obtain ⟨member, key⟩ := Registry.find_some found
  have space : stored.metadata.namespace_ = cb.metadata.namespace_ := congrArg Prod.fst key
  have wellFormed := settled.wellFormed stored member
  refine settles_put settled.wellFormed ⟨space ▸ wellFormed.plain, status ▸ wellFormed.distinct⟩
    ?_ ?_
  · rw [status, ← listing_of_find found]
    exact settled.update_listing
  · by_cases guards : stored.hasFinalizer = true
    · exact .inl (finalizer guards)
    · refine .inr (settled.free ?_)
      rintro ⟨other, found', guards'⟩
      rw [Option.some.inj (found.symm.trans found')] at guards
      exact guards guards'

theorem Settled.erase (free : w.Free key) :
    Settles w { w with breakers := w.breakers.erase key } := by
  have find {other : NamespacedName} (different : other ≠ key) :
      ({ w with breakers := w.breakers.erase key } : World).breakers.find other =
        w.breakers.find other := Registry.find_erase_of_ne different
  refine ⟨⟨fun cb member => settled.wellFormed cb (Registry.mem_erase.mp member).1, ?_⟩,
    fun other guarded => ?_⟩
  · refine settled.sound.recover rfl fun po member name holds covered => ?_
    have different : (po.namespace_, name) ≠ key := by
      rintro rfl
      exact free po member rfl holds
    refine ⟨?_, ?_, covered.cached, covered.addressed⟩
    · rw [World.Guarded, find different]
      exact covered.guarded
    · rw [World.listing, find different]
      exact covered.listed
  · by_cases same : other = key
    · subst same
      exact .inr free
    · rw [World.Guarded, find same]
      exact .inl guarded

end

section

variable {compile : Compile} {hash : Config → String} {o : Outcomes}
  {write : Write}

theorem pods_stored (w : World) (cb : Breaker) : (w.stored cb).pods = w.pods := by
  unfold World.stored
  split <;> rfl

theorem pods_update (w : World) (cb : Breaker) (write : Write) :
    (w.update cb write).1.pods = w.pods := by
  cases write with
  | lost => rfl
  | done => exact pods_stored w cb
  | unanswered => exact pods_stored w cb

theorem pods_updateStatus (w : World) (cb : Breaker) (write : Write) :
    (w.updateStatus cb write).1.pods = w.pods := by
  cases write <;> rfl

/-- An object is stored when no proxy holds its configuration. -/
theorem Settled.update_free (settled : Settled w) (free : w.Free cb.key)
    (wellFormed : cb.WellFormed) : Settles w (w.update cb write).1 := by
  have stored : Settles w (w.stored cb) := by
    unfold World.stored
    split
    · exact settled.erase free
    · exact settled.put_free free wellFormed
  cases write with
  | lost => exact .refl settled
  | done => exact stored
  | unanswered => exact stored

theorem Settled.updateStatus_free (settled : Settled w) (free : w.Free cb.key)
    (wellFormed : cb.WellFormed) : Settles w (w.updateStatus cb write).1 := by
  cases write with
  | lost => exact .refl settled
  | done => exact settled.put_free free wellFormed
  | unanswered => exact settled.put_free free wellFormed

/-- What follows a `clear` without an error. -/
theorem Settled.release (o : Outcomes) (settled : Settled w) (free : w.Free cb.key)
    (wellFormed : cb.WellFormed) : Settles w (release w cb o).1 := by
  unfold Controller.release
  split
  · exact settled.update_free free ⟨wellFormed.plain, wellFormed.distinct⟩
  · dsimp only
    generalize emptied : ({ cb with status := ⟨cb.generation, some o.now, "", []⟩ } : Breaker) = cb'
    have key : cb'.key = cb.key := by rw [← emptied]; rfl
    have wellFormed' : cb'.WellFormed := by
      rw [← emptied]
      exact ⟨wellFormed.plain, List.nodup_nil⟩
    have first := @Settled.updateStatus_free w cb' o.updateStatus settled (key ▸ free) wellFormed'
    have pods := pods_updateStatus w cb' o.updateStatus
    cases called : w.updateStatus cb' o.updateStatus with
    | mk w' failed =>
      rw [called] at first pods
      cases failed with
      | true => exact first
      | false =>
        have free' : w'.Free cb'.key := by
          rw [key, World.Free, pods]
          exact free
        exact first.trans
          (first.settled.update_free free' ⟨wellFormed'.plain, wellFormed'.distinct⟩)
          (pods_update w' cb'.removeFinalizer o.removeFinalizer)

/-- Pods in the status whose proxy is not available do not hold the configuration to be cleared. -/
def SafeClear (w : World) (cb : Breaker) : Prop :=
  ∀ st ∈ cb.status.targetStatus, ∀ po ∈ w.pods.items,
    po.key = (cb.metadata.namespace_, st.podName) → isProxyAvailable po = false →
      ¬po.Holds cb.metadata.name

theorem Settled.clear (compile : Compile) (o : Outcomes) (settled : Settled w)
    (found : w.breakers.find cb.key = some cb) (safe : SafeClear w cb) :
    Settles w (clear compile w cb o).1 ∧ (clear compile w cb o).1.breakers = w.breakers ∧
      ((clear compile w cb o).2 = false → (clear compile w cb o).1.Free cb.key) := by
  have wellFormed := settled.wellFormed cb (Registry.find_some found).1
  have listing := listing_of_find found
  have start : Visiting w.listing cb.key w [] cb.status.targetStatus [] cb.status.targetStatus w :=
    ⟨wellFormed.plain, wellFormed.distinct, rfl, .refl w, .refl _,
      listing ▸ settled.update_listing⟩
  obtain ⟨kept, last, quiet⟩ := start.clear compile o false safe
  have sublist : kept.Sublist cb.status.targetStatus := by simpa using last.sublist
  have sound := last.sound
  simp only [List.nil_append, List.append_nil] at sound
  refine ⟨settled.of_breakers last.breakers ?_, last.breakers, fun done po inside space holds => ?_⟩
  · rw [← Function.update_eq_self cb.key w.listing, listing]
    exact sound.relist fun po _ _ _ lists => lists.mono fun st => sublist.mem
  · rw [(quiet done).2] at sound
    exact sound.not_holds List.not_mem_nil inside (congrArg (·, po.name) space) holds

/-- Pods in the status whose proxy is not available hold nothing, and an unwritten status already
lists the pods that the configuration reaches. -/
structure SafeStatus (w : World) (cb : Breaker) (o : Outcomes) : Prop where
  idle : ∀ st ∈ cb.status.targetStatus, ∀ po ∈ w.pods.items,
    po.key = (cb.metadata.namespace_, st.podName) → isProxyAvailable po = false → po.Idle
  written : o.updateStatus = .lost → ∀ po ∈ w.podList cb, isProxyAvailable po = true →
    (o.sync po.name).arrives = true → Lists cb.status.targetStatus po

variable {targets : List TargetStatus}

theorem nodup_podList : ((w.podList cb).map Pod.key).Nodup :=
  w.pods.distinct.sublist (List.filter_sublist.map _)

section

variable (syncing : Syncing w.listing cb o w (w.podList cb) [] targets w')

include syncing

/-- The entries of the first loop name different pods. -/
theorem Syncing.nodup : (targets.map (·.podName)).Nodup := by
  have names : targets.map (·.podName) = (w.podList cb).map (·.name) := by
    have both := congrArg (List.map Prod.fst) syncing.entries
    rw [List.map_map, List.map_map] at both
    exact both
  rw [names]
  refine List.Nodup.of_map (fun name => (cb.metadata.namespace_, name)) ?_
  have keys : ((w.podList cb).map (·.name)).map (fun name => (cb.metadata.namespace_, name)) =
      (w.podList cb).map Pod.key := by
    rw [List.map_map]
    refine List.map_congr_left fun po member => ?_
    rw [Function.comp_apply, ← (mem_podList.mp member).2.1]
    rfl
  rw [keys]
  exact nodup_podList

/-- A pod that holds the configuration and is named by an entry of the first loop is listed by
it. -/
theorem Syncing.lists {po : Pod} (member : po ∈ w'.pods.items)
    (space : po.namespace_ = cb.metadata.namespace_) (named : po.name ∈ targets.map (·.podName)) :
    Lists targets po := by
  obtain ⟨st, inside, name⟩ := List.mem_map.mp named
  have entry : (st.podName, st.podIP) ∈ (w.podList cb).map fun po => (po.name, po.podIP) := by
    rw [← syncing.entries]
    exact List.mem_map_of_mem inside
  obtain ⟨selected, listed, same⟩ := List.mem_map.mp entry
  obtain ⟨sameName, sameIP⟩ := Prod.mk.inj same
  obtain ⟨present, space', -⟩ := mem_podList.mp listed
  obtain ⟨before, origin, _, rfl, -⟩ := syncing.pods po member
  have key : before.key = selected.key :=
    Prod.ext (space.trans space'.symm) (name.symm.trans sameName.symm)
  refine ⟨st, inside, name, ?_⟩
  rw [← sameIP, ← Registry.eq_of_key_eq origin present key]

/-- Between the two loops, the entries written and the unselected ones list every pod that holds the
configuration. -/
theorem Syncing.visiting (wellFormed : cb.WellFormed) {old : List TargetStatus}
    (unselected : old = cb.status.targetStatus.filter fun st =>
      st.podName ∉ targets.map (·.podName)) :
    Visiting w.listing cb.key w' targets old [] old w' := by
  have member_old {st : TargetStatus} : st ∈ old ↔
      st ∈ cb.status.targetStatus ∧ st.podName ∉ targets.map (·.podName) := by
    simp [unselected, List.mem_filter]
  refine ⟨wellFormed.plain, ?_, rfl, .refl w', .refl _,
    syncing.sound.relist fun po member space _ lists => ?_⟩
  · rw [List.map_append, List.nodup_append]
    refine ⟨syncing.nodup, ?_, fun name fresh other late same => ?_⟩
    · rw [unselected]
      exact wellFormed.distinct.sublist (List.filter_sublist.map _)
    · subst same
      obtain ⟨st, inside, rfl⟩ := List.mem_map.mp late
      exact (member_old.mp inside).2 fresh
  · by_cases named : po.name ∈ targets.map (·.podName)
    · exact (syncing.lists member space named).mono fun st inside => by simp [inside]
    · obtain ⟨st, inside, name, address⟩ := lists
      refine ⟨st, ?_, name, address⟩
      obtain stored | fresh := List.mem_append.mp inside
      · exact List.mem_append_right _ (member_old.mpr ⟨stored, name ▸ named⟩)
      · exact absurd (name ▸ List.mem_map_of_mem fresh) named

/-- Pods of the old status that the first loop finds unavailable hold nothing after it either. -/
theorem Syncing.idle (safe : SafeStatus w cb o) {st : TargetStatus}
    (listed : st ∈ cb.status.targetStatus) {po : Pod} (member : po ∈ w'.pods.items)
    (same : po.key = (cb.metadata.namespace_, st.podName))
    (unavailable : isProxyAvailable po = false) : po.Idle := by
  obtain ⟨before, inside, _, rfl, kept⟩ := syncing.pods po member
  refine List.eq_nil_iff_forall_not_mem.mpr fun name holds => ?_
  obtain held | gained := kept name (AList.mem_keys.mpr holds)
  · exact (safe.idle st listed before inside same unavailable).not_holds name held
  · exact Bool.false_ne_true (unavailable.symm.trans gained.2.2.1)

end

/-- The status written last, for the entries that list every pod that holds the configuration. -/
theorem Settled.writeStatus {status : CircuitBreakerStatus} (settled : Settled w)
    (found : w.breakers.find cb.key = some cb) (finalizer : cb.hasFinalizer = true)
    (breakers : w'.breakers = w.breakers)
    (sound : Sound (Function.update w.listing cb.key status.targetStatus) w')
    (distinct : (status.targetStatus.map (·.podName)).Nodup)
    (lost : write = .lost → Sound w.listing w') :
    Settles w (w'.updateStatus { cb with status := status } write).1 := by
  have plain := (settled.wellFormed cb (Registry.find_some found).1).plain
  have written : Settles w
      { w' with breakers := w'.breakers.put { cb with status := status } } := by
    refine .after breakers (settles_put (breakers ▸ settled.wellFormed) ⟨plain, distinct⟩ ?_
      (.inl finalizer))
    rw [listing_congr breakers]
    exact sound
  cases write with
  | lost => exact settled.of_breakers breakers (lost rfl)
  | done => exact written
  | unanswered => exact written

/-- The part of a pass that sends the configuration. -/
theorem Settled.syncTargets (compile : Compile) (hash : Config → String) (settled : Settled w)
    (found : w.breakers.find cb.key = some cb) (finalizer : cb.hasFinalizer = true)
    (safe : SafeSync cb o (w.podList cb)) (status : SafeStatus w cb o) :
    Settles w (syncTargets compile hash w cb o).1 := by
  have wellFormed := settled.wellFormed cb (Registry.find_some found).1
  have listing := listing_of_find found
  have start : Syncing w.listing cb o w [] (w.podList cb) [] w := by
    refine ⟨rfl, .refl w, fun po member => (mem_podList.mp member).1, rfl, ?_⟩
    rw [List.append_nil, ← listing]
    exact settled.update_listing
  have syncing := start.syncTargets compile hash false safe ⟨cb, found, finalizer⟩
    nodup_podList fun _ => id
  unfold Controller.syncTargets
  split
  · exact .refl settled
  cases first : (w.podList cb).foldl (syncTarget compile hash cb o) (w, [], false) with
  | mk w₁ rest₁ =>
    obtain ⟨targets, failed⟩ := rest₁
    rw [first, List.nil_append] at syncing
    have visiting := (syncing.visiting wellFormed rfl).dropTargets compile o failed
      fun st inside po present same unavailable =>
        syncing.idle status (List.mem_filter.mp inside).1 present same unavailable
    dsimp only
    cases second : (cb.status.targetStatus.filter fun st =>
        st.podName ∉ targets.map (·.podName)).foldl (dropTarget compile cb o) (w₁, [], failed) with
    | mk w₂ rest₂ =>
      obtain ⟨kept, failed'⟩ := rest₂
      rw [second] at visiting
      have breakers : w₂.breakers = w.breakers := visiting.breakers.trans syncing.breakers
      have sound := visiting.sound
      rw [List.append_nil] at sound
      have sublist := visiting.sublist
      rw [List.append_nil] at sublist
      have lost : o.updateStatus = .lost → Sound w.listing w₂ := by
        intro lost
        rw [← Function.update_eq_self cb.key w.listing, listing]
        refine sound.relist fun po present space holds _ => ?_
        obtain ⟨before, inside, _, rfl, kept⟩ := (syncing.pods.trans visiting.pods) po present
        obtain held | ⟨_, listed, available, arrives⟩ := kept _ holds
        · have lists := (settled.sound.covered before inside _ held).listed
          rwa [show before.namespace_ = cb.key.1 from space, Prod.mk.eta, listing] at lists
        · exact status.written lost before listed available arrives
      dsimp only
      split
      · next unchanged =>
        refine settled.of_breakers breakers ?_
        rw [unchanged.2, ← listing, Function.update_eq_self] at sound
        exact sound
      · exact settled.writeStatus found finalizer breakers sound
          (visiting.distinct.sublist ((sublist.append_left targets).map _)) lost

/-- What makes a pass for a stored object safe. -/
def SafePass (w : World) (cb : Breaker) (o : Outcomes) : Prop :=
  if cb.shouldClear then SafeClear w cb
  else SafeSync cb o (w.podList cb) ∧ SafeStatus w cb o

theorem Breaker.hasFinalizer_addFinalizer (cb : Breaker) : cb.addFinalizer.hasFinalizer = true := by
  simp [hasFinalizer, addFinalizer]

theorem stored_addFinalizer (w : World) (cb : Breaker) :
    w.stored cb.addFinalizer = { w with breakers := w.breakers.put cb.addFinalizer } := by
  refine if_neg fun gone => ?_
  simp [Breaker.addFinalizer] at gone

/-- A pass that clears. -/
theorem Settled.tryClear (settled : Settled w) (found : w.breakers.find cb.key = some cb)
    (clears : cb.shouldClear = true) (safe : SafeClear w cb) :
    ∃ w' failed, tryClearOrAddFinalizer compile w cb o = (w', .error failed) ∧ Settles w w' := by
  have cleared := settled.clear compile o found safe
  rw [tryClearOrAddFinalizer, if_pos clears]
  split
  · exact ⟨w, false, rfl, .refl settled⟩
  · cases called : Controller.clear compile w cb o with
    | mk w' failed =>
      rw [called] at cleared
      obtain ⟨next, breakers, free⟩ := cleared
      cases failed with
      | true => exact ⟨w', true, rfl, next⟩
      | false =>
        have wellFormed := settled.wellFormed cb (Registry.find_some found).1
        exact ⟨_, _, rfl, .after breakers (next.settled.release o (free rfl) wellFormed)⟩

/-- Adding the finalizer keeps the invariant and the finalizers of the other objects. -/
theorem Settled.stored_addFinalizer (settled : Settled w)
    (found : w.breakers.find cb.key = some cb) : Settled (w.stored cb.addFinalizer) ∧
      ∀ key, w.Guarded key → (w.stored cb.addFinalizer).Guarded key := by
  have finalizer := cb.hasFinalizer_addFinalizer
  rw [Controller.stored_addFinalizer]
  exact ⟨(@Settled.put_same w cb.addFinalizer settled cb found rfl fun _ => finalizer).settled,
    fun key guarded => guarded.put fun _ => finalizer⟩

/-- A pass for an object that gets the finalizer first. -/
theorem Settled.syncTargets_addFinalizer (settled : Settled w)
    (found : w.breakers.find cb.key = some cb) (safe : SafeSync cb o (w.podList cb))
    (status : SafeStatus w cb o) :
    Settles w
      (Controller.syncTargets compile hash (w.stored cb.addFinalizer) cb.addFinalizer o).1 := by
  obtain ⟨stored, guards⟩ := settled.stored_addFinalizer found
  have find : (w.stored cb.addFinalizer).breakers.find cb.addFinalizer.key =
      some cb.addFinalizer := by
    rw [Controller.stored_addFinalizer]
    exact Registry.find_put_self _
  have pods : (w.stored cb.addFinalizer).pods = w.pods := pods_stored w cb.addFinalizer
  have podList : (w.stored cb.addFinalizer).podList cb.addFinalizer = w.podList cb := by
    rw [World.podList, pods]
    rfl
  have safe' : SafeSync cb.addFinalizer o ((w.stored cb.addFinalizer).podList cb.addFinalizer) := by
    rw [podList]
    exact ⟨safe.idle, safe.answered⟩
  have status' : SafeStatus (w.stored cb.addFinalizer) cb.addFinalizer o :=
    ⟨by rw [pods]; exact status.idle, by rw [podList]; exact status.written⟩
  have next := stored.syncTargets compile hash find cb.hasFinalizer_addFinalizer safe' status'
  exact ⟨next.settled, fun key guarded => next.releases key (guards key guarded)⟩

/-- A pass keeps the invariant and releases cleanly. -/
theorem Settled.reconcile (settled : Settled w)
    (safe : ∀ cb, w.breakers.find key = some cb → SafePass w cb o) :
    Settles w (reconcile compile hash w key o).1 := by
  unfold Controller.reconcile
  split
  · exact .refl settled
  cases found : w.breakers.find key with
  | none => exact .refl settled
  | some cb =>
    obtain rfl : cb.key = key := (Registry.find_some found).2
    have pass := safe cb found
    rw [SafePass] at pass
    dsimp only
    by_cases clears : cb.shouldClear = true
    · rw [if_pos clears] at pass
      obtain ⟨w', failed, ends, next⟩ := settled.tryClear found clears pass
      rw [ends]
      exact next
    · rw [if_neg clears] at pass
      rw [tryClearOrAddFinalizer, if_neg clears]
      by_cases finalizer : cb.hasFinalizer = true
      · rw [if_pos finalizer]
        exact settled.syncTargets compile hash found finalizer pass.1 pass.2
      · rw [if_neg finalizer]
        obtain ⟨stored, guards⟩ := settled.stored_addFinalizer found
        cases written : o.addFinalizer with
        | lost => exact .refl settled
        | done => exact settled.syncTargets_addFinalizer found pass.1 pass.2
        | unanswered => exact ⟨stored, fun key guarded => .inl (guards key guarded)⟩

end

/-- A pod is added or replaced; what its proxy holds, the pod before it held at the same address. -/
theorem Settled.putPod (settled : Settled w) (plain : '/' ∉ po.namespace_.toList)
    (free : po.podIP ≠ "" → ∀ other ∈ w.pods.items, other.podIP = po.podIP → other.key = po.key)
    (kept : ∀ name, po.Holds name → ∃ before ∈ w.pods.items,
      before.key = po.key ∧ before.podIP = po.podIP ∧ before.Holds name) :
    Settles w { w with pods := w.pods.put po } := by
  refine settled.of_breakers rfl ⟨fun po' member name holds => ?_,
    fun po' member po'' member' same addressed => ?_, fun po' member => ?_⟩
  · obtain rfl | ⟨inside, -⟩ := Registry.mem_put.mp member
    · obtain ⟨before, inside, key, address, held⟩ := kept name holds
      obtain ⟨space, named⟩ := Prod.mk.inj key
      have covered := settled.sound.covered before inside name held
      obtain ⟨guarded, lists, cached, addressed⟩ := covered
      rw [space] at guarded lists cached
      rw [named] at cached
      rw [Lists, named, address] at lists
      exact ⟨guarded, lists, cached, address ▸ addressed⟩
    · have covered := settled.sound.covered po' inside name holds
      exact ⟨covered.guarded, covered.listed, covered.cached, covered.addressed⟩
  · obtain rfl | ⟨inside, -⟩ := Registry.mem_put.mp member
    · obtain rfl | ⟨inside', -⟩ := Registry.mem_put.mp member'
      · rfl
      · exact (free addressed po'' inside' same.symm).symm
    · obtain rfl | ⟨inside', -⟩ := Registry.mem_put.mp member'
      · exact free (same ▸ addressed) po' inside same
      · exact settled.sound.address po' inside po'' inside' same addressed
  · obtain rfl | ⟨inside, -⟩ := Registry.mem_put.mp member
    · exact plain
    · exact settled.sound.plain po' inside

theorem not_holds_new (new : po.proxy = .new) {name : String} : ¬po.Holds name := by
  rw [Pod.Holds, new]
  exact AList.notMem_empty name

theorem addressFree_iff {ip : String} : w.addressFree key ip = true ↔
    (ip ≠ "" → ∀ po ∈ w.pods.items, po.podIP = ip → po.key = key) := by
  simp only [World.addressFree, Bool.or_eq_true, decide_eq_true_eq, List.all_eq_true]
  constructor
  · rintro (rfl | all) addressed po member same
    · exact absurd rfl addressed
    · exact (all po member).resolve_left fun other => other same
  · intro all
    by_cases empty : ip = ""
    · exact .inl empty
    · refine .inr fun po member => ?_
      by_cases same : po.podIP = ip
      · exact .inr (all empty po member same)
      · exact .inl same

/-- A change of a pod that leaves its name, its address and its proxy alone. -/
theorem Settled.modifyPod {change : Pod → Pod} (settled : Settled w)
    (stepped : w.modifyPod key change = some w')
    (keeps : ∀ po, (change po).key = po.key ∧ (change po).podIP = po.podIP ∧
      (change po).proxy = po.proxy) : Settles w w' := by
  obtain ⟨po, found, rfl⟩ := Option.map_eq_some_iff.mp stepped
  have member := (Registry.find_some found).1
  obtain ⟨sameKey, sameIP, sameProxy⟩ := keeps po
  have space : (change po).namespace_ = po.namespace_ := congrArg Prod.fst sameKey
  refine settled.putPod ?_ ?_ fun name holds => ?_
  · rw [space]
    exact settled.sound.plain po member
  · rw [sameKey, sameIP]
    exact fun addressed other inside same =>
      settled.sound.address other inside po member same (same ▸ addressed)
  · rw [Pod.Holds, sameProxy] at holds
    exact ⟨po, member, sameKey.symm, sameIP.symm, holds⟩

/-- An edit of a stored object that leaves its status and its finalizers alone. -/
theorem Settled.replace {cb' : Breaker} (settled : Settled w)
    (found : w.breakers.find key = some cb) (sameKey : cb'.key = cb.key)
    (status : cb'.status = cb.status)
    (finalizers : cb'.metadata.finalizers = cb.metadata.finalizers) :
    Settles w { w with breakers := w.breakers.put cb' } := by
  obtain rfl : cb.key = key := (Registry.find_some found).2
  rw [← sameKey] at found
  refine settled.put_same found (by rw [status]) fun guards => ?_
  rwa [Breaker.hasFinalizer, finalizers]

/-- When a step is safe: the manager restarts, or a pod is reported gone, only while no proxy (of a
pod of this name) holds a configuration. -/
def Careful (w : World) : Event → Prop
  | .reconcile key o => ∀ cb ∈ (w.breakers.find key).toList, SafePass w cb o
  | .podDeleted key => ∀ po ∈ w.pods.items, po.key = key → po.Idle
  | .restartManager => ∀ po ∈ w.pods.items, po.Idle
  | _ => True

theorem Settled.step {compile : Compile} {hash : Config → String} (event : Event)
    (settled : Settled w) (careful : Careful w event)
    (stepped : step compile hash w event = some w') : Settles w w' := by
  cases event with
  | reconcile key o =>
    cases stepped
    exact settled.reconcile fun cb found => careful cb (Option.mem_toList.mpr found)
  | addPod po =>
    simp only [Controller.step] at stepped
    split at stepped
    · next enabled =>
      cases stepped
      obtain ⟨-, plain, free⟩ := enabled
      exact settled.putPod plain (addressFree_iff.mp free)
        fun name holds => absurd holds (not_holds_new rfl)
    · cases stepped
  | setReady key ready => exact settled.modifyPod stepped fun _ => ⟨rfl, rfl, rfl⟩
  | relabel key labels => exact settled.modifyPod stepped fun _ => ⟨rfl, rfl, rfl⟩
  | terminate key => exact settled.modifyPod stepped fun _ => ⟨rfl, rfl, rfl⟩
  | restartProxy key podIP =>
    simp only [Controller.step] at stepped
    split at stepped
    · next free =>
      obtain ⟨po, found, rfl⟩ := Option.map_eq_some_iff.mp stepped
      obtain ⟨member, rfl⟩ := Registry.find_some found
      exact settled.putPod (settled.sound.plain po member) (addressFree_iff.mp free)
        fun name holds => absurd holds (not_holds_new rfl)
    · cases stepped
  | removePod key =>
    cases stepped
    have grown : Grown (fun _ _ => False) w { w with pods := w.pods.erase key } :=
      fun po member => Grown.refl w po (Registry.mem_erase.mp member).1
    refine settled.of_breakers rfl (settled.sound.of_grown grown fun po member name holds => ?_)
    have covered := settled.sound.covered po (Registry.mem_erase.mp member).1 name holds
    exact ⟨covered.guarded, covered.listed, covered.cached, covered.addressed⟩
  | podDeleted key =>
    simp only [Controller.step] at stepped
    split at stepped
    · next plain =>
      cases stepped
      exact settled.of_breakers rfl (settled.sound.deletePod plain careful)
    · cases stepped
  | createBreaker cb =>
    simp only [Controller.step] at stepped
    split at stepped
    · next enabled =>
      cases stepped
      generalize new : ({ cb with
        metadata := { cb.metadata with deletionTimestamp := none }
        status := ⟨0, none, "", []⟩ } : Breaker) = cb'
      have key : cb'.key = cb.key := by rw [← new]; rfl
      have free : w.Free cb'.key := by
        rw [key]
        exact settled.free fun ⟨stored, found, _⟩ => by simp [found] at enabled
      refine settled.put_free free ?_
      rw [← new]
      exact ⟨enabled.2, List.nodup_nil⟩
    · cases stepped
  | editBreaker key labels generation spec =>
    obtain ⟨cb, found, rfl⟩ := Option.map_eq_some_iff.mp stepped
    exact settled.replace found rfl rfl rfl
  | deleteBreaker key now =>
    obtain ⟨cb, found, rfl⟩ := Option.map_eq_some_iff.mp stepped
    dsimp only
    split
    · next none =>
      have free : w.Free key := by
        refine settled.free fun ⟨stored, found', finalizer⟩ => ?_
        rw [← Option.some.inj (found.symm.trans found'), Breaker.hasFinalizer, none] at finalizer
        exact Bool.false_ne_true finalizer
      exact settled.erase free
    · exact settled.replace found rfl rfl rfl
  | restartManager =>
    cases stepped
    refine settled.of_breakers rfl (settled.sound.recover rfl fun po member name holds _ => ?_)
    exact absurd holds ((careful po member).not_holds name)

end

/-- No objects and no pods. -/
def World.start : World := ⟨.empty _, .empty _, ∅⟩

theorem settled_start : Settled .start := by
  have noBreaker (cb : Breaker) : cb ∉ World.start.breakers.items := List.not_mem_nil
  have noPod (po : Pod) : po ∉ World.start.pods.items := List.not_mem_nil
  refine ⟨fun cb member => ?_, fun po member => ?_, fun po member => ?_, fun po member => ?_⟩
  · exact absurd member (noBreaker cb)
  · exact absurd member (noPod po)
  · exact absurd member (noPod po)
  · exact absurd member (noPod po)

/-- Whatever object loses the finalizer in the step, no proxy holds its configuration after it. -/
def ReleasesCleanly (compile : Compile) (hash : Config → String) (w : World)
    (event : Event) : Prop :=
  ∀ w', step compile hash w event = some w' → ∀ key, w.Guarded key → ¬w'.Guarded key → w'.Free key

/-- In a run whose steps are all careful, the finalizer of an object is removed only when no proxy
holds its configuration. -/
theorem releasesCleanly_of_careful (compile : Compile) (hash : Config → String)
    (events : List Event) (careful : EachStep (step compile hash) Careful .start events) :
    EachStep (step compile hash) (ReleasesCleanly compile hash) .start events := by
  refine eachStep_of_eachStep (fun w event _ settled met _ w' stepped key guarded released => ?_)
    (fun w event w' settled met stepped => (settled.step event met stepped).settled) settled_start
    careful
  exact ((settled.step event met stepped).releases key guarded).resolve_left released

instance (cb : Breaker) (o : Outcomes) (podList : List Pod) :
    Decidable (SafeSync cb o podList) :=
  decidable_of_iff ((∀ po ∈ podList, isProxyAvailable po = false → po.Idle) ∧
      ∀ po ∈ podList, isProxyAvailable po = true → (o.sync po.name).isUnanswered = true →
        po.Holds cb.metadata.name)
    ⟨fun both => ⟨both.1, both.2⟩, fun safe => ⟨safe.idle, safe.answered⟩⟩

instance (w : World) (cb : Breaker) (o : Outcomes) : Decidable (SafeStatus w cb o) :=
  decidable_of_iff ((∀ st ∈ cb.status.targetStatus, ∀ po ∈ w.pods.items,
        po.key = (cb.metadata.namespace_, st.podName) → isProxyAvailable po = false → po.Idle) ∧
      (o.updateStatus = .lost → ∀ po ∈ w.podList cb, isProxyAvailable po = true →
        (o.sync po.name).arrives = true → Lists cb.status.targetStatus po))
    ⟨fun both => ⟨both.1, both.2⟩, fun safe => ⟨safe.idle, safe.written⟩⟩

instance (w : World) (cb : Breaker) : Decidable (SafeClear w cb) :=
  inferInstanceAs (Decidable (∀ st ∈ cb.status.targetStatus, ∀ po ∈ w.pods.items, _ → _ → _))

instance (w : World) (cb : Breaker) (o : Outcomes) : Decidable (SafePass w cb o) :=
  inferInstanceAs (Decidable (if cb.shouldClear then _ else _))

instance (w : World) : (event : Event) → Decidable (Careful w event)
  | .reconcile key o =>
    inferInstanceAs (Decidable (∀ cb ∈ (w.breakers.find key).toList, SafePass w cb o))
  | .podDeleted key => inferInstanceAs (Decidable (∀ po ∈ w.pods.items, po.key = key → po.Idle))
  | .restartManager => inferInstanceAs (Decidable (∀ po ∈ w.pods.items, po.Idle))
  | .addPod _ | .setReady _ _ | .relabel _ _ | .terminate _ | .restartProxy _ _ | .removePod _
  | .createBreaker _ | .editBreaker _ _ _ _ | .deleteBreaker _ _ => isTrue trivial

/-- A CircuitBreaker without rules that selects every pod. -/
def sampleBreaker : Breaker where
  metadata := { name := "breaker", namespace_ := "default" }
  generation := 1
  spec := ⟨some ⟨∅, []⟩, [], []⟩
  status := ⟨0, none, "", []⟩

/-- A ready pod with a new proxy. -/
def samplePod : Pod where
  namespace_ := "default"
  name := "pod"
  labels := ∅
  hasProxyContainer := true
  deleting := false
  podIP := "10.0.0.1"
  proxyReady := true
  proxy := .new

/-- Every call of a pass succeeds. -/
def allDone : Outcomes where
  getBreaker := true
  addFinalizer := .done
  listPods := true
  sync := fun _ => .answered 0
  getPod := fun _ => true
  disable := fun _ => .answered 0
  updateStatus := .done
  removeFinalizer := .done
  now := 0

/-- The object is created, synced to a pod and deleted again. -/
def sampleRun : List Event :=
  let key := ("default", "breaker")
  [ .createBreaker sampleBreaker, .addPod samplePod, .reconcile key allDone, .deleteBreaker key 1,
    .reconcile key allDone ]

/-- The run is careful and releases cleanly. -/
theorem releasesCleanly_sampleRun :
    EachStep (step (fun _ => none) (fun _ => "hash")) Careful .start sampleRun ∧
      EachStep (step (fun _ => none) (fun _ => "hash"))
        (ReleasesCleanly (fun _ => none) (fun _ => "hash")) .start sampleRun := by
  have careful : EachStep (step (fun _ => none) (fun _ => "hash")) Careful .start sampleRun := by
    decide
  exact ⟨careful, releasesCleanly_of_careful _ _ _ careful⟩

/-- The same with a restart of the manager before the object is deleted. -/
def restartedRun : List Event :=
  let key := ("default", "breaker")
  [ .createBreaker sampleBreaker, .addPod samplePod, .reconcile key allDone, .restartManager,
    .deleteBreaker key 1 ]

/-- The world after that run. -/
def afterRestarted : World :=
  (run (step (fun _ => none) (fun _ => "hash")) .start restartedRun).getD .start

/-- The world after one more pass. -/
def afterReleased : World :=
  (reconcile (fun _ => none) (fun _ => "hash") afterRestarted ("default", "breaker") allDone).1

instance (w : World) (key : NamespacedName) : Decidable (w.Guarded key) :=
  decidable_of_iff ((w.breakers.find key).any (·.hasFinalizer) = true) (Option.any_eq_true ..)

instance (w : World) (key : NamespacedName) : Decidable (w.Free key) :=
  inferInstanceAs (Decidable (∀ po ∈ w.pods.items, po.namespace_ = key.1 → ¬po.Holds key.2))

/-- The emptied cache makes `clear` skip the pod: the finalizer goes, the configuration stays. -/
theorem orphan_after_restart : ¬∀ events, EachStep (step (fun _ => none) (fun _ => "hash"))
    (ReleasesCleanly (fun _ => none) (fun _ => "hash")) .start events := by
  intro clean
  have ran : run (step (fun _ => none) (fun _ => "hash")) .start restartedRun =
      some afterRestarted := rfl
  have stepped : step (fun _ => none) (fun _ => "hash") afterRestarted
      (.reconcile ("default", "breaker") allDone) = some afterReleased := rfl
  have free : afterReleased.Free ("default", "breaker") :=
    clean _ restartedRun _ [] _ _ rfl ran stepped _ stepped ("default", "breaker") (by decide)
      (by decide)
  exact absurd free (by decide)

end CtrlMesh.CircuitBreaker.Controller
