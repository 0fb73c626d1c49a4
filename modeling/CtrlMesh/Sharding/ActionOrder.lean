import CtrlMesh.Sharding.ClearOldPods

/-!
# One kind of action in a pass

After `clearOldPods` a pass looks at all pods of its ShardingConfig before it acts on any. If one of
them does not pass the gate, nothing is done. Otherwise the pass does one of four things: it deletes
followers that cannot take over the specification they were sent; it deletes leaders of this kind;
it sends the new specification to the pods that expect an older one; it sends it to the pods that
have none.
-/

namespace CtrlMesh.Sharding.Dispatch

open Labels Lib Api Proxy

/-- A Delete or a send of the last loops. -/
inductive Attempt where
  | delete (sp : SyncPod)
  | send (sp : SyncPod) (spec : ProxySpec)
  deriving DecidableEq

/-- The attempt, whether it succeeds or not. -/
def Attempt.carryOut (o : Outcomes) (w : World) : Attempt → World
  | .delete sp => deleteOne o w sp
  | .send sp spec => sendOne o spec w sp

/-- The call of an attempt. -/
def Attempt.made (r : Results) : Attempt → Made
  | .delete sp => ⟨sp.pod.uid, r.deleteError sp.pod.uid⟩
  | .send sp _ => ⟨sp.pod.uid, r.sendError sp.pod.uid⟩

/-- The attempts of the last loops. -/
def attempts (newSpec : ProxySpec) (syncPods : List SyncPod) : List Attempt :=
  let podsToDelete := podsToDelete newSpec.hash syncPods
  let podsProtoToUpdate := withAction newSpec.hash .update syncPods
  let podsProtoToDispatch := withAction newSpec.hash .dispatch syncPods
  if !podsToDelete.isEmpty then podsToDelete.map .delete
  else if !podsProtoToUpdate.isEmpty then podsProtoToUpdate.map (.send · newSpec)
  else podsProtoToDispatch.map (.send · newSpec)

section

variable (enc : Encoder)

/-- The attempts of a pass. -/
def passAttempts (w : World) (key : NamespacedName) (r : Results) : List Attempt :=
  match prepare enc w key r with
  | (_, .error _) => []
  | (_, .ok (newSpec, syncPods)) => attempts newSpec syncPods

end

section

variable {enc : Encoder} {w : World}
  {key : NamespacedName} {r : Results} {newSpec : ProxySpec} {syncPods : List SyncPod}

theorem callAll_eq {call : World → SyncPod → World} {error : UID → Option Error}
    {attempt : SyncPod → Attempt} (calls : ∀ w sp, call w sp = (attempt sp).carryOut r.outcomes w)
    (ends : ∀ sp, (attempt sp).made r = ⟨sp.pod.uid, error sp.pod.uid⟩) :
    (callAll call error w syncPods).world =
        (syncPods.map attempt).foldl (Attempt.carryOut r.outcomes) w ∧
      (callAll call error w syncPods).made = (syncPods.map attempt).map (Attempt.made r) := by
  induction syncPods using List.reverseRecOn with
  | nil => exact ⟨rfl, rfl⟩
  | append_singleton syncPods sp ih =>
    rw [callAll_concat, ih.1, ih.2]
    simp [calls, ends]

theorem callPods_eq :
    (callPods r newSpec w syncPods).world =
        (attempts newSpec syncPods).foldl (Attempt.carryOut r.outcomes) w ∧
      (callPods r newSpec w syncPods).made =
        (attempts newSpec syncPods).map (Attempt.made r) := by
  unfold callPods attempts
  dsimp only
  split
  · exact callAll_eq (fun _ _ => rfl) fun _ => rfl
  split
  · exact callAll_eq (fun _ _ => rfl) fun _ => rfl
  · exact callAll_eq (fun _ _ => rfl) fun _ => rfl

/-- The pass carries its attempts out and does nothing else once the pods are collected. -/
theorem reconcilePass_eq :
    (reconcilePass enc w key r).world =
        (passAttempts enc w key r).foldl (Attempt.carryOut r.outcomes)
          (prepare enc w key r).1 ∧
      (reconcilePass enc w key r).made =
        (passAttempts enc w key r).map (Attempt.made r) := by
  unfold reconcilePass passAttempts
  obtain ⟨gated, ending | ⟨newSpec, syncPods⟩⟩ := prepare enc w key r
  · exact ⟨rfl, rfl⟩
  · exact callPods_eq

end

/-- The pod holds up the pass: it is inactive and a container still runs, it is expected to go, it
is ready or new and has no connection, it has disconnected, or it has not reported the expected
hash. -/
def FailsGate (w : World) (po : Pod) : Prop :=
  (isPodActive po = false ∧ po.running = true) ∨
  isPodActive po = true ∧
    (po.uid ∈ w.podDeletionExpectation ∨
      (w.cached po.uid = none ∧
        (po.phase = .running ∧ po.ready = true ∨ po.phase = .pending ∧ po.young = true)) ∨
      ∃ sid conn, w.cached po.uid = some (sid, conn) ∧
        (conn.disconnected = true ∨ ∃ expectHash, w.podHashExpectation.lookup po.uid =
          some expectHash ∧ conn.status.metaState.map (·.expectedHash) ≠ some expectHash))

/-- An active pod with its connection. -/
def connected (w : World) (po : Pod) : Option SyncPod :=
  if isPodActive po then (w.cached po.uid).map fun conn => ⟨po, conn.1, conn.2⟩ else none

section

variable {w : World} {po : Pod} {sid : StreamID} {conn : Conn} {pods : List Pod}

theorem admitPod_spec (w : World) (po : Pod) :
    (admitPod w po = .wait ∧ FailsGate w po) ∨
    (admitPod w po = .ignore ∧ ¬FailsGate w po ∧ connected w po = none) ∨
    ∃ sid conn, admitPod w po = .sync sid conn ∧ ¬FailsGate w po ∧
      connected w po = some ⟨po, sid, conn⟩ := by
  unfold admitPod FailsGate connected
  cases active : isPodActive po with
  | false => cases running : po.running <;> simp
  | true =>
    by_cases expected : po.uid ∈ w.podDeletionExpectation
    · simp [expected]
    · simp only [Bool.not_true, Bool.false_eq_true, if_false, expected, if_true, false_or,
        Bool.true_eq_false, false_and, true_and]
      cases found : w.cached po.uid with
      | none =>
        by_cases ready : po.phase = .running ∧ po.ready = true
        · simp [ready]
        · by_cases young : po.phase = .pending ∧ po.young = true
          · simp [young]
          · simp [ready, young]
      | some cached =>
        obtain ⟨sid, conn⟩ := cached
        cases gone : conn.disconnected with
        | true => simp [gone]
        | false =>
          cases entry : w.podHashExpectation.lookup po.uid with
          | none => simp [gone]
          | some expectHash =>
            by_cases met : conn.status.metaState.map (·.expectedHash) = some expectHash
            · simp [gone, met, -Option.map_eq_some_iff]
            · simp [gone, met, -Option.map_eq_some_iff]

theorem cached_forget (uid other : UID) : (w.forget uid).cached other = w.cached other := rfl

/-- An expectation that is met may be dropped: no pod passes or fails the gate for it. -/
theorem failsGate_forget (passes : ¬FailsGate w po) (active : isPodActive po = true)
    (found : w.cached po.uid = some (sid, conn)) (other : Pod) :
    FailsGate (w.forget po.uid) other ↔ FailsGate w other := by
  unfold FailsGate
  simp only [cached_forget]
  refine or_congr_right (and_congr_right fun activeOther => or_congr_right (or_congr_right ?_))
  refine exists_congr fun sid' => exists_congr fun conn' => and_congr_right fun found' => ?_
  refine or_congr_right ?_
  by_cases same : other.uid = po.uid
  · -- both pods have the connection that met the expectation
    rw [same, found, Option.some.injEq, Prod.mk.injEq] at found'
    obtain ⟨rfl, rfl⟩ := found'
    have met : ¬∃ expectHash, w.podHashExpectation.lookup po.uid = some expectHash ∧
        conn.status.metaState.map (·.expectedHash) ≠ some expectHash := fun unmet =>
      passes (.inr ⟨active, .inr (.inr ⟨sid, conn, found, .inr unmet⟩)⟩)
    rw [same]
    refine iff_of_false ?_ met
    rintro ⟨expectHash, entry, -⟩
    dsimp only [World.forget] at entry
    rw [AList.lookup_erase] at entry
    cases entry
  · dsimp only [World.forget]
    rw [AList.lookup_erase_ne same]

/-- The pass goes on exactly if no pod fails the gate, with the active pods that have a connection;
only expectations are dropped on the way. -/
theorem collect_spec (w : World) (pods : List Pod) :
    ((collect w pods).1.pods = w.pods ∧ (collect w pods).1.streams = w.streams) ∧
      ((∃ po ∈ pods, FailsGate w po) → (collect w pods).2 = none) ∧
      ((∀ po ∈ pods, ¬FailsGate w po) →
        (collect w pods).2 = some (pods.filterMap (connected w))) := by
  induction pods generalizing w with
  | nil => simp [collect]
  | cons po pods ih =>
    rw [collect, List.exists_mem_cons_iff, List.forall_mem_cons]
    rcases admitPod_spec w po with ⟨waits, fails⟩ | ⟨ignored, passes, unconnected⟩ |
      ⟨sid, conn, admitted, passes, isConnected⟩
    · rw [waits]
      exact ⟨⟨rfl, rfl⟩, fun _ => rfl, fun all => absurd fails all.1⟩
    · obtain ⟨same, stops, goesOn⟩ := ih w
      rw [ignored, List.filterMap_cons_none unconnected]
      exact ⟨same, fun some => stops (some.resolve_left passes), fun all => goesOn all.2⟩
    · have active : isPodActive po = true := by
        by_contra inactive
        simp [connected, inactive] at isConnected
      have found : w.cached po.uid = some (sid, conn) := by
        rw [connected, if_pos active, Option.map_eq_some_iff] at isConnected
        obtain ⟨pair, found, isPair⟩ := isConnected
        rw [SyncPod.mk.injEq] at isPair
        rw [found, ← isPair.2.1, ← isPair.2.2]
      obtain ⟨same, stops, goesOn⟩ := ih (w.forget po.uid)
      simp only [failsGate_forget passes active found] at stops goesOn
      rw [admitted, List.filterMap_cons_some isConnected]
      refine ⟨same, fun some => ?_, fun all => ?_⟩
      · simp [stops (some.resolve_left passes)]
      · simp only [goesOn all.2, Option.map_some]
        rfl

end

/-- The proxy reports that it has not taken over what it expects. -/
def SyncPod.mismatched (sp : SyncPod) : Bool :=
  sp.conn.status.metaState.any fun metaState => metaState.expectedHash ≠ metaState.currentHash

/-- Whether the pod has reported to lead. -/
def SyncPod.isLeader (sp : SyncPod) : Bool := sp.conn.status.leaderElectionState.any (·.isLeader)

/-- The proxy reports that it expects another specification than the one of the hash. -/
def SyncPod.outdated (newHash : String) (sp : SyncPod) : Bool :=
  sp.conn.status.metaState.any fun metaState => metaState.expectedHash ≠ newHash

/-- The proxy has reported no state, or nothing has been sent to it on this connection. -/
def SyncPod.unserved (sp : SyncPod) : Bool :=
  sp.conn.status.metaState.isNone || sp.conn.sendTimes = 0

/-- What is to be done about these pods, the safest kind of action first. -/
def planned (newSpec : ProxySpec) (syncPods : List SyncPod) : List Attempt :=
  let followers := syncPods.filter fun sp => sp.mismatched && !sp.isLeader
  let leaders := syncPods.filter fun sp => sp.mismatched && sp.isLeader
  let outdated := syncPods.filter (·.outdated newSpec.hash)
  let unserved := syncPods.filter (·.unserved)
  if followers ≠ [] then followers.map .delete
  else if leaders ≠ [] then leaders.map .delete
  else if outdated ≠ [] then outdated.map (.send · newSpec)
  else unserved.map (.send · newSpec)

section

variable {newSpec : ProxySpec} {newHash : String} {syncPods : List SyncPod} {sp : SyncPod}

theorem action_eq_delete (isLeader : Bool) :
    sp.action newHash = .delete isLeader ↔ sp.mismatched = true ∧ sp.isLeader = isLeader := by
  unfold SyncPod.action SyncPod.mismatched SyncPod.isLeader
  cases sp.conn.status.metaState with
  | none => simp
  | some metaState =>
    by_cases same : metaState.expectedHash = metaState.currentHash
    · by_cases new : newHash = metaState.currentHash
      · by_cases sent : sp.conn.sendTimes > 0
        · simp [same, new, sent]
        · simp [same, new, sent]
      · simp [same, new]
    · cases sp.conn.status.leaderElectionState <;> simp [same]

/-- A proxy that has taken over what it expects is updated if this is not the new one. -/
theorem action_eq_update (taken : sp.mismatched = false) :
    sp.action newHash = .update ↔ sp.outdated newHash = true := by
  unfold SyncPod.mismatched at taken
  unfold SyncPod.action SyncPod.outdated
  cases reported : sp.conn.status.metaState with
  | none => simp
  | some metaState =>
    have same : metaState.expectedHash = metaState.currentHash := by
      simpa [reported] using taken
    by_cases new : newHash = metaState.currentHash
    · by_cases sent : sp.conn.sendTimes > 0
      · simp [same, new, sent]
      · simp [same, new, sent]
    · simp [same, new, Ne.symm new]

/-- One that has the new specification gets it again if this connection has not brought it. -/
theorem action_eq_dispatch (taken : sp.mismatched = false) (new : sp.outdated newHash = false) :
    sp.action newHash = .dispatch ↔ sp.unserved = true := by
  unfold SyncPod.mismatched at taken
  unfold SyncPod.outdated at new
  unfold SyncPod.action SyncPod.unserved
  cases reported : sp.conn.status.metaState with
  | none => simp
  | some metaState =>
    have same : metaState.expectedHash = metaState.currentHash := by
      simpa [reported] using taken
    have current : metaState.expectedHash = newHash := by simpa [reported] using new
    by_cases sent : sp.conn.sendTimes = 0
    · simp [same, ← current, sent]
    · have positive : sp.conn.sendTimes > 0 := Nat.pos_of_ne_zero sent
      simp [same, ← current, sent, positive]

/-- The four lists of the second loop are these, as far as they are used. -/
theorem attempts_eq : attempts newSpec syncPods = planned newSpec syncPods := by
  have deletions (isLeader : Bool) : withAction newSpec.hash (.delete isLeader) syncPods =
      syncPods.filter fun sp => sp.mismatched && sp.isLeader == isLeader := by
    refine List.filter_congr fun sp _ => ?_
    rw [Bool.eq_iff_iff, decide_eq_true_iff, action_eq_delete]
    simp
  have followers : withAction newSpec.hash (.delete false) syncPods =
      syncPods.filter fun sp => sp.mismatched && !sp.isLeader := by
    simp [deletions]
  have leaders : withAction newSpec.hash (.delete true) syncPods =
      syncPods.filter fun sp => sp.mismatched && sp.isLeader := by
    simp [deletions]
  unfold attempts planned podsToDelete
  dsimp only
  rw [followers, leaders]
  by_cases noFollower : (syncPods.filter fun sp => sp.mismatched && !sp.isLeader) = []
  · by_cases noLeader : (syncPods.filter fun sp => sp.mismatched && sp.isLeader) = []
    · -- nothing is deleted, so all proxies have taken over what they expect
      have taken : ∀ sp ∈ syncPods, sp.mismatched = false := by
        intro sp member
        have follower := List.filter_eq_nil_iff.mp noFollower sp member
        have leader := List.filter_eq_nil_iff.mp noLeader sp member
        cases mismatched : sp.mismatched with
        | false => rfl
        | true => cases isLeader : sp.isLeader <;> simp_all
      have updates : withAction newSpec.hash .update syncPods =
          syncPods.filter (·.outdated newSpec.hash) := by
        refine List.filter_congr fun sp member => ?_
        rw [Bool.eq_iff_iff, decide_eq_true_iff, action_eq_update (taken sp member)]
      by_cases noUpdate : syncPods.filter (·.outdated newSpec.hash) = []
      · have dispatches : withAction newSpec.hash .dispatch syncPods =
            syncPods.filter (·.unserved) := by
          refine List.filter_congr fun sp member => ?_
          have current := List.filter_eq_nil_iff.mp noUpdate sp member
          rw [Bool.eq_iff_iff, decide_eq_true_iff,
            action_eq_dispatch (taken sp member) (by simpa using current)]
        simp [noFollower, noLeader, updates, noUpdate, dispatches]
      · simp [noFollower, noLeader, updates, noUpdate]
    · simp [noFollower, noLeader]
  · simp [noFollower]

end

/-- After `clearOldPods` a pass does nothing if a pod fails the gate, and what is planned for the
active pods with a connection otherwise. -/
theorem one_kind_of_action (enc : Encoder) (w cleared : World) (key : NamespacedName) (r : Results)
    (cfg : ShardingConfig) (got : r.getConfig = none) (stored : w.configs.find key = some cfg)
    (plain : cfg.spec.root = none) (clears : (clearNamespace w r key.1).2 = .ok cleared)
    (lists : r.listPods = none) :
    ((∀ po ∈ getPodsForShardingConfig cleared cfg.key, ¬FailsGate cleared po) →
      passAttempts enc w key r = planned (generateProtoConfig enc cfg)
        ((getPodsForShardingConfig cleared cfg.key).filterMap (connected cleared))) ∧
    ((∃ po ∈ getPodsForShardingConfig cleared cfg.key, FailsGate cleared po) →
      passAttempts enc w key r = []) ∧
    ∃ gated : World, gated.pods = cleared.pods ∧ gated.streams = cleared.streams ∧
      (reconcilePass enc w key r).world =
        (passAttempts enc w key r).foldl (Attempt.carryOut r.outcomes) gated := by
  obtain ⟨⟨samePods, sameStreams⟩, stops, goesOn⟩ :=
    collect_spec cleared (getPodsForShardingConfig cleared cfg.key)
  have prepared := @prepare_clears enc w r key cfg got stored plain
  rw [clears, lists] at prepared
  dsimp only at prepared
  refine ⟨?_, ?_, (prepare enc w key r).1, ?_, ?_, reconcilePass_eq.1⟩
  · intro passes
    unfold passAttempts
    rw [prepared, ← attempts_eq]
    generalize collect cleared (getPodsForShardingConfig cleared cfg.key) = walked at *
    obtain ⟨gated, syncPods⟩ := walked
    have through : syncPods = _ := goesOn passes
    rw [through]
  · intro fails
    unfold passAttempts
    rw [prepared]
    generalize collect cleared (getPodsForShardingConfig cleared cfg.key) = walked at *
    obtain ⟨gated, syncPods⟩ := walked
    have stopped : syncPods = none := stops fails
    rw [stopped]
  · rw [prepared, ← samePods]
    generalize collect cleared (getPodsForShardingConfig cleared cfg.key) = walked
    obtain ⟨gated, none | syncPods⟩ := walked <;> rfl
  · rw [prepared, ← sameStreams]
    generalize collect cleared (getPodsForShardingConfig cleared cfg.key) = walked
    obtain ⟨gated, none | syncPods⟩ := walked <;> rfl

/-- The ShardingConfig of `freshWorld`. -/
def freshConfig : ShardingConfig where
  metadata := { name := "shard", namespace_ := "ns" }
  spec := ⟨some ⟨∅, []⟩, none, none, none, none⟩

/-- Two pods that have reported no state are sent their first specification. -/
theorem one_kind_of_action_fresh :
    (clearNamespace freshWorld allSucceed "ns").2 = .ok freshWorld ∧
      passAttempts (.fixed "") freshWorld ("ns", "shard") allSucceed =
        planned (generateProtoConfig (.fixed "") freshConfig)
          ([freshPod "app-0" 0, freshPod "app-1" 1].filterMap (connected freshWorld)) := by
  have passes (po : Pod) (member : po ∈ [freshPod "app-0" 0, freshPod "app-1" 1]) :
      ¬FailsGate freshWorld po := by
    rcases admitPod_spec freshWorld po with ⟨waits, -⟩ | ⟨-, passes, -⟩ | ⟨-, -, -, passes, -⟩
    · obtain rfl | rfl := by simpa using member
      · cases waits
      · cases waits
    · exact passes
    · exact passes
  have acts := one_kind_of_action (.fixed "") freshWorld freshWorld ("ns", "shard")
    allSucceed freshConfig rfl rfl rfl rfl rfl
  exact ⟨rfl, acts.1 passes⟩

end CtrlMesh.Sharding.Dispatch
