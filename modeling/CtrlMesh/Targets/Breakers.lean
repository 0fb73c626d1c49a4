import CtrlMesh.Targets.Reconciler

/-!
# CircuitBreakers as a kind of configuration

`circuitbreaker_controller.go` as an instance of the controller of `Targets.Reconciler`. Its passes
are those of `CircuitBreaker.Controller`, function by function, once the messages are left out.
-/

namespace CtrlMesh.Targets

open Labels Lib Api CircuitBreaker
open CircuitBreaker.Controller (PodCache Write Rpc CircuitBreakerSpec convertCircuitBreaker
  StatusSnapshot convertSnapshots)

section

variable (compile : Compile) (hash : Config → String)

/-- A response, as the controller reads it. -/
def ofConfigResp (resp : ConfigResp) : Response (List StatusSnapshot) :=
  ⟨resp.success, resp.message, convertSnapshots resp.limitingSnapshot⟩

/-- What a call of `Sync` comes to at the other end. -/
def ofSyncAnswer : Outcome (ConfigResp × Option String) → Except String ConfigResp
  | .returned (resp, none) => .ok resp
  | .returned (_, some error) => .error error
  | .panicked => .error "panic"

/-- The kind of the CircuitBreakers. Nothing depends on their names. -/
@[reducible] def breakers : Kind where
  Spec := CircuitBreakerSpec
  Config := Config
  Manager := Manager
  Report := List StatusSnapshot
  decEqReport := inferInstance
  noReport := []
  Named := fun _ => True
  disableKey := Controller.ctrlmeshCircuitBreakerDisableKey
  updateNoun := "circuit breaker"
  disableNoun := "circuit breaker"
  selector := (·.selector)
  convert := fun name _ spec =>
    let config : Config := ⟨.delete, name, "", spec.trafficInterceptRules, spec.rateLimitings⟩
    { config with configHash := hash config }
  configHash := (·.configHash)
  update := ({ · with option := .update })
  withdraw := fun name => ⟨.delete, name, "", [], []⟩
  configName := (·.name)
  sync := fun m now config => (m.synced compile now config,
    (ofSyncAnswer (m.syncAnswer compile now config)).map ofConfigResp)
  holds := fun m name => (m.breakerMap.lookup name).isSome
  withdrawn := fun _ _ _ => ⟨_, rfl, rfl⟩

/-- The entry of a pod. -/
def ofTargetStatus (st : Controller.TargetStatus) : TargetStatus (List StatusSnapshot) :=
  ⟨st.podName, st.podIP, st.configHash, st.message, st.limitingSnapshots⟩

/-- The status. -/
def ofStatus (status : Controller.CircuitBreakerStatus) : Status (List StatusSnapshot) :=
  ⟨status.observedGeneration, status.lastUpdatedTime, status.currentSpecHash,
    status.targetStatus.map ofTargetStatus⟩

/-- The object. -/
def ofBreaker (cb : Controller.Breaker) : Object (breakers compile hash) :=
  ⟨cb.metadata, trivial, cb.generation, cb.spec, ofStatus cb.status⟩

/-- The pod. -/
def ofPod (po : Controller.Pod) : Pod (breakers compile hash) :=
  ⟨⟨po.namespace_, po.name, po.labels, po.hasProxyContainer, po.deleting, po.podIP, po.proxyReady⟩,
    po.proxy⟩

theorem key_ofBreaker (cb : Controller.Breaker) : (ofBreaker compile hash cb).key = cb.key := rfl

theorem key_ofPod (po : Controller.Pod) : (ofPod compile hash po).key = po.key := rfl

/-- The world. -/
def ofWorld (w : Controller.World) : World (breakers compile hash) where
  objects := w.breakers.map (ofBreaker compile hash) (key_ofBreaker compile hash)
  pods := w.pods.map (ofPod compile hash) (key_ofPod compile hash)
  cache := w.cache

/-- The outcomes. -/
def ofOutcomes (o : Controller.Outcomes) : Outcomes :=
  ⟨o.getBreaker, o.addFinalizer, o.listPods, o.sync, o.getPod, o.disable, o.updateStatus,
    o.removeFinalizer, o.now⟩

end

variable {po : Controller.Pod} {st : Controller.TargetStatus} {ip : String}

section Passes

variable {compile : Compile} {hash : Config → String}
  {w : Controller.World} {cb : Controller.Breaker} {o : Controller.Outcomes}

theorem ofTargetStatus_injective : Function.Injective ofTargetStatus := by
  intro left right same
  cases left
  cases right
  cases same
  rfl

theorem config_ofBreaker : (ofBreaker compile hash cb).config = convertCircuitBreaker hash cb := rfl

theorem shouldClear_ofBreaker : (ofBreaker compile hash cb).shouldClear = cb.shouldClear := rfl

theorem hasFinalizer_ofBreaker : (ofBreaker compile hash cb).hasFinalizer = cb.hasFinalizer := rfl

theorem isProxyAvailable_ofPod :
    (ofPod compile hash po).meta_.isProxyAvailable = Controller.isProxyAvailable po := rfl

theorem getObject_ofOutcomes : (ofOutcomes o).getObject = o.getBreaker := rfl

theorem listPods_ofOutcomes : (ofOutcomes o).listPods = o.listPods := rfl

theorem getPod_ofOutcomes :
    (ofOutcomes o).getPod (ofTargetStatus st).podName = o.getPod st.podName := rfl

theorem podAt_ofWorld :
    (ofWorld compile hash w).podAt ip = (w.podAt ip).map (ofPod compile hash) := by
  unfold World.podAt Controller.World.podAt
  change List.find? _ (w.pods.items.map (ofPod compile hash)) = _
  rw [List.find?_map]
  rfl

theorem setProxy_ofWorld (proxy : Manager) :
    (ofWorld compile hash w).setProxy (ofPod compile hash po) proxy =
      ofWorld compile hash (w.setProxy po proxy) := by
  have pods := w.pods.map_put (key_ofPod compile hash) { po with proxy }
  unfold World.setProxy ofWorld
  congr 1
  exact pods.symm

/-- A message has the same effect and the same answer. -/
theorem sendConfig_ofWorld (config : Config) (rpc : Rpc) :
    (ofWorld compile hash w).sendConfig ip config rpc =
      (ofWorld compile hash (w.sendConfig compile ip config rpc).1,
        (w.sendConfig compile ip config rpc).2.map ofConfigResp) := by
  unfold World.sendConfig Controller.World.sendConfig
  rw [podAt_ofWorld]
  cases w.podAt ip with
  | none => rfl
  | some po =>
    cases rpc with
    | lost error => rfl
    | unanswered now error =>
      simp only [Option.map_some]
      rw [← setProxy_ofWorld]
      rfl
    | answered now =>
      simp only [Option.map_some]
      rw [← setProxy_ofWorld]
      rfl

/-- A loop with messages and the variables of the same loop without. -/
structure Shows (loop : Loop (breakers compile hash))
    (acc : Controller.World × List Controller.TargetStatus × Bool) : Prop where
  world : loop.world = ofWorld compile hash acc.1
  entries : loop.entries = acc.2.1.map ofTargetStatus
  failed : loop.failed = acc.2.2

variable {loop : Loop (breakers compile hash)}
  {acc : Controller.World × List Controller.TargetStatus × Bool}

theorem currentPodStatus_ofBreaker (podName : String) :
    currentPodStatus (ofBreaker compile hash cb) podName =
      (Controller.currentPodStatus cb podName).map ofTargetStatus := by
  unfold currentPodStatus Controller.currentPodStatus
  change List.find? _ (cb.status.targetStatus.map ofTargetStatus) = _
  rw [List.find?_map]
  rfl

/-- The loop after a message: its effect on the world, and what the pass makes of the answer. -/
theorem send_shows (shown : loop.world = ofWorld compile hash w) (ip : String)
    (message : Message (breakers compile hash)) (rpc : Rpc)
    (result : Except String (Response (List StatusSnapshot)) →
      Except String (List StatusSnapshot)) :
    ∃ sent, loop.send ip message rpc result =
      ({ loop with
          world := ofWorld compile hash (w.sendConfig compile ip message.config rpc).1
          sent },
        result ((w.sendConfig compile ip message.config rpc).2.map ofConfigResp)) := by
  unfold Loop.send
  rw [shown, sendConfig_ofWorld]
  exact ⟨_, rfl⟩

/-- The text of a refusal. -/
theorem accepted_breakers (verb ip name : String) (response : Except String ConfigResp) :
    @accepted (breakers compile hash) verb "circuit breaker" ip name (response.map ofConfigResp) =
      response.bind fun resp =>
        if resp.success then .ok (convertSnapshots resp.limitingSnapshot)
        else .error ("fail to " ++ verb ++ " pod [" ++ ip ++ ", " ++ name ++
          "] circuit breaker config, " ++ resp.message) := by
  have text : "] circuit breaker config, " = "] " ++ "circuit breaker" ++ " config, " := rfl
  cases response with
  | error error => rfl
  | ok resp =>
    rw [text]
    unfold accepted
    simp only [String.append_assoc]
    rfl

theorem syncPodConfig_shows (shown : loop.world = ofWorld compile hash w) :
    ∃ sent, loop.syncPodConfig (ofBreaker compile hash cb).config
        (ofPod compile hash po).meta_.podIP
        ((ofOutcomes o).sync (ofPod compile hash po).meta_.name) =
      ({ loop with
          world := ofWorld compile hash (Controller.syncPodConfig compile w
            (convertCircuitBreaker hash cb) po.podIP (o.sync po.name)).1
          sent },
        (Controller.syncPodConfig compile w (convertCircuitBreaker hash cb) po.podIP
          (o.sync po.name)).2.map convertSnapshots) := by
  obtain ⟨sent, sends⟩ := send_shows shown po.podIP (.update (convertCircuitBreaker hash cb))
    (o.sync po.name) (@accepted (breakers compile hash) "update" "circuit breaker" po.podIP
      (convertCircuitBreaker hash cb).name)
  refine ⟨sent, sends.trans ?_⟩
  rw [accepted_breakers]
  unfold Controller.syncPodConfig Message.config
  dsimp only
  rcases w.sendConfig compile po.podIP { convertCircuitBreaker hash cb with option := .update }
    (o.sync po.name) with ⟨w', error | resp⟩
  · rfl
  · dsimp only [Except.bind]
    split <;> rfl

theorem disableConfig_shows (shown : loop.world = ofWorld compile hash w) :
    ∃ sent answer, loop.disableConfig (ofTargetStatus st).podIP (ofBreaker compile hash cb).name
        ((ofOutcomes o).disable (ofTargetStatus st).podName) =
      ({ loop with
          world := ofWorld compile hash (Controller.disableConfig compile w st.podIP
            cb.metadata.name (o.disable st.podName)).1
          sent }, answer) ∧
      answer.map (fun _ => ()) = (Controller.disableConfig compile w st.podIP cb.metadata.name
        (o.disable st.podName)).2 := by
  obtain ⟨sent, sends⟩ := send_shows shown st.podIP (.withdraw cb.metadata.name)
    (o.disable st.podName)
    (@accepted (breakers compile hash) "disable" "circuit breaker" st.podIP cb.metadata.name)
  refine ⟨sent, _, sends.trans (Prod.ext ?_ rfl), ?_⟩
  · unfold Controller.disableConfig Message.config
    dsimp only
    rcases w.sendConfig compile st.podIP ⟨.delete, cb.metadata.name, "", [], []⟩
      (o.disable st.podName) with ⟨w', error | resp⟩
    · rfl
    · dsimp only
      split <;> rfl
  · rw [accepted_breakers]
    unfold Controller.disableConfig Message.config
    dsimp only
    rcases w.sendConfig compile st.podIP ⟨.delete, cb.metadata.name, "", [], []⟩
      (o.disable st.podName) with ⟨w', error | resp⟩
    · rfl
    · dsimp only [Except.bind]
      split <;> rfl

theorem Shows.syncTarget (shows : Shows loop acc) (po : Controller.Pod) :
    Shows (syncTarget (ofBreaker compile hash cb) (ofOutcomes o) loop (ofPod compile hash po))
      (Controller.syncTarget compile hash cb o acc po) := by
  obtain ⟨w, targetStatus, failed⟩ := acc
  have current : ((currentPodStatus (ofBreaker compile hash cb) po.name).map (·.configHash)).getD ""
      = ((Controller.currentPodStatus cb po.name).map (·.configHash)).getD "" := by
    rw [currentPodStatus_ofBreaker, Option.map_map]
    rfl
  obtain ⟨sent, sends⟩ := syncPodConfig_shows shows.world
  unfold Targets.syncTarget Controller.syncTarget
  dsimp only
  rw [isProxyAvailable_ofPod, sends]
  cases Controller.isProxyAvailable po with
  | false =>
    constructor
    · simp [Loop.forget, shows.world, ofWorld, ofPod]
    · simp [Loop.forget, shows.entries, ofPod, ofTargetStatus, current]
    · exact shows.failed
  | true =>
    simp only [Bool.not_true, Bool.false_eq_true, if_false]
    rcases Controller.syncPodConfig compile w (convertCircuitBreaker hash cb) po.podIP
      (o.sync po.name) with ⟨w', error | snapshots⟩
    · constructor
      · rfl
      · simp [Except.map, shows.entries, ofPod, ofTargetStatus, current]
      · rfl
    · constructor
      · rfl
      · simp [Except.map, Loop.forget, shows.entries, ofPod, ofTargetStatus, config_ofBreaker]
      · exact shows.failed

/-- The pod of an entry. -/
theorem find_shows (shown : loop.world = ofWorld compile hash w) :
    loop.world.pods.find ((ofBreaker compile hash cb).metadata.namespace_,
        (ofTargetStatus st).podName) =
      (w.pods.find (cb.metadata.namespace_, st.podName)).map (ofPod compile hash) := by
  rw [shown]
  exact w.pods.find_map (key_ofPod compile hash) _

theorem Shows.dropTarget (shows : Shows loop acc) (st : Controller.TargetStatus) :
    Shows (dropTarget (ofBreaker compile hash cb) (ofOutcomes o) loop (ofTargetStatus st))
      (Controller.dropTarget compile cb o acc st) := by
  obtain ⟨w, failedStatus, failed⟩ := acc
  obtain ⟨sent, answer, sends, answers⟩ := disableConfig_shows shows.world
  unfold Targets.dropTarget Controller.dropTarget
  rw [getPod_ofOutcomes, find_shows shows.world, sends]
  cases o.getPod st.podName with
  | false =>
    constructor
    · exact shows.world
    · simp [shows.entries]
    · rfl
  | true =>
    simp only [Bool.not_true, Bool.false_eq_true, if_false]
    cases w.pods.find (cb.metadata.namespace_, st.podName) with
    | none => exact shows
    | some po =>
      simp only [Option.map_some]
      rw [isProxyAvailable_ofPod]
      cases Controller.isProxyAvailable po with
      | false =>
        constructor
        · simp [Loop.forget, shows.world, ofWorld, ofPod]
        · exact shows.entries
        · exact shows.failed
      | true =>
        simp only [Bool.not_true, Bool.false_eq_true, if_false]
        generalize Controller.disableConfig compile w st.podIP cb.metadata.name
          (o.disable st.podName) = result at answers
        obtain ⟨w', result⟩ := result
        cases answer with
        | error error =>
          cases answers
          constructor
          · rfl
          · simp [shows.entries]
          · rfl
        | ok report =>
          cases answers
          exact ⟨rfl, shows.entries, shows.failed⟩

theorem clearTarget_shows {acc : Controller.World × Bool} (shows : Shows loop (acc.1, [], acc.2))
    {state : Controller.TargetStatus} :
    Shows (clearTarget (ofBreaker compile hash cb) (ofOutcomes o) loop (ofTargetStatus state))
      ((Controller.clearTarget compile cb o acc state).1, [],
        (Controller.clearTarget compile cb o acc state).2) := by
  obtain ⟨w, failed⟩ := acc
  have has : loop.world.cache.has (ofBreaker compile hash cb).metadata.namespace_
      (ofTargetStatus state).podName (ofBreaker compile hash cb).name =
      w.cache.has cb.metadata.namespace_ state.podName cb.metadata.name := by
    rw [shows.world]
    rfl
  obtain ⟨sent, answer, sends, answers⟩ := disableConfig_shows shows.world
  unfold Targets.clearTarget Controller.clearTarget
  rw [has, getPod_ofOutcomes, find_shows shows.world, sends]
  dsimp only
  cases w.cache.has cb.metadata.namespace_ state.podName cb.metadata.name with
  | false => exact shows
  | true =>
    simp only [Bool.not_true, Bool.false_eq_true, if_false]
    cases o.getPod state.podName with
    | false => exact ⟨shows.world, shows.entries, rfl⟩
    | true =>
      simp only [Bool.not_true, Bool.false_eq_true, if_false]
      cases w.pods.find (cb.metadata.namespace_, state.podName) with
      | none =>
        refine ⟨?_, shows.entries, shows.failed⟩
        simp [Loop.forget, shows.world, ofWorld, ofTargetStatus, ofBreaker, Object.name]
      | some po =>
        simp only [Option.map_some]
        rw [isProxyAvailable_ofPod]
        cases Controller.isProxyAvailable po with
        | false => exact shows
        | true =>
          simp only [Bool.not_true, Bool.false_eq_true, if_false]
          generalize Controller.disableConfig compile w state.podIP cb.metadata.name
            (o.disable state.podName) = result at answers
          obtain ⟨w', result⟩ := result
          cases answer with
          | error error =>
            cases answers
            exact ⟨rfl, shows.entries, rfl⟩
          | ok report =>
            cases answers
            exact ⟨rfl, shows.entries, shows.failed⟩

theorem clear_shows :
    Shows (clear (ofWorld compile hash w) (ofBreaker compile hash cb) (ofOutcomes o))
      ((Controller.clear compile w cb o).1, [], (Controller.clear compile w cb o).2) := by
  unfold clear Controller.clear
  change Shows (List.foldl _ _ (cb.status.targetStatus.map ofTargetStatus)) _
  rw [List.foldl_map]
  refine @List.foldl_rel _ _ _ cb.status.targetStatus _ _ ⟨ofWorld compile hash w, [], [], false⟩
    (w, false) (fun loop acc => Shows loop (acc.1, [], acc.2)) ⟨rfl, rfl, rfl⟩ ?_
  intro state _ loop acc shows
  exact clearTarget_shows shows

theorem stored_ofWorld :
    (ofWorld compile hash w).stored (ofBreaker compile hash cb) =
      ofWorld compile hash (w.stored cb) := by
  have puts := w.breakers.map_put (key_ofBreaker compile hash) cb
  have erases := w.breakers.map_erase (key_ofBreaker compile hash) cb.key
  unfold World.stored Controller.World.stored
  by_cases last : cb.metadata.deletionTimestamp.isSome ∧ cb.metadata.finalizers = []
  · have last' : (ofBreaker compile hash cb).metadata.deletionTimestamp.isSome ∧
      (ofBreaker compile hash cb).metadata.finalizers = [] := last
    rw [if_pos last, if_pos last']
    unfold ofWorld
    congr 1
    exact erases.symm
  · have last' : ¬((ofBreaker compile hash cb).metadata.deletionTimestamp.isSome ∧
      (ofBreaker compile hash cb).metadata.finalizers = []) := last
    rw [if_neg last, if_neg last']
    unfold ofWorld
    congr 1
    exact puts.symm

theorem update_ofWorld (w : Controller.World) (cb : Controller.Breaker) (write : Write) :
    (ofWorld compile hash w).update (ofBreaker compile hash cb) write =
      (ofWorld compile hash (w.update cb write).1, (w.update cb write).2) := by
  cases write with
  | lost => rfl
  | done => exact Prod.ext stored_ofWorld rfl
  | unanswered => exact Prod.ext stored_ofWorld rfl

theorem updateStatus_ofWorld (w : Controller.World) (cb : Controller.Breaker) (write : Write) :
    (ofWorld compile hash w).updateStatus (ofBreaker compile hash cb) write =
      (ofWorld compile hash (w.updateStatus cb write).1, (w.updateStatus cb write).2) := by
  have puts := w.breakers.map_put (key_ofBreaker compile hash) cb
  have stores : (⟨(ofWorld compile hash w).objects.put (ofBreaker compile hash cb),
      (ofWorld compile hash w).pods, w.cache⟩ : World (breakers compile hash)) =
      ofWorld compile hash { w with breakers := w.breakers.put cb } := by
    unfold ofWorld
    congr 1
    exact puts.symm
  cases write with
  | lost => rfl
  | done => exact Prod.ext stores rfl
  | unanswered => exact Prod.ext stores rfl

theorem release_ofWorld :
    release (ofWorld compile hash w) (ofBreaker compile hash cb) (ofOutcomes o) =
      (ofWorld compile hash (Controller.release w cb o).1, (Controller.release w cb o).2) := by
  unfold release Controller.release
  by_cases unlisted : cb.status.targetStatus = []
  · have unlisted' : (ofBreaker compile hash cb).status.targetStatus = [] := by
      simp [ofBreaker, ofStatus, unlisted]
    rw [if_pos unlisted, if_pos unlisted']
    exact update_ofWorld w cb.removeFinalizer o.removeFinalizer
  · have listed' : (ofBreaker compile hash cb).status.targetStatus ≠ [] := by
      simpa [ofBreaker, ofStatus] using unlisted
    rw [if_neg unlisted, if_neg listed']
    dsimp only
    let released : Controller.Breaker :=
      { cb with status := ⟨cb.generation, some o.now, "", []⟩ }
    have writes : (ofWorld compile hash w).updateStatus { ofBreaker compile hash cb with
      status := ⟨(ofBreaker compile hash cb).generation, some (ofOutcomes o).now, "", []⟩ }
        (ofOutcomes o).updateStatus = _ := updateStatus_ofWorld w released o.updateStatus
    rw [writes]
    rcases w.updateStatus released o.updateStatus with ⟨w', _ | _⟩
    · exact update_ofWorld w' released.removeFinalizer o.removeFinalizer
    · rfl

theorem podList_ofWorld :
    (ofWorld compile hash w).podList (ofBreaker compile hash cb) =
      (w.podList cb).map (ofPod compile hash) := by
  unfold World.podList Controller.World.podList
  change List.filter _ (w.pods.items.map (ofPod compile hash)) = _
  rw [List.filter_map]
  rfl

theorem unselected_ofBreaker (targetStatus : List Controller.TargetStatus) :
    unselected (ofBreaker compile hash cb) (targetStatus.map ofTargetStatus) =
      (cb.status.targetStatus.filter fun st =>
        st.podName ∉ targetStatus.map (·.podName)).map ofTargetStatus := by
  unfold unselected
  change List.filter _ (cb.status.targetStatus.map ofTargetStatus) = _
  rw [List.filter_map, List.map_map]
  rfl

/-- The end of a pass. -/
theorem writeStatus_ofWorld (targetStatus : List Controller.TargetStatus) (failed : Bool) :
    let currentSpecHash := (convertCircuitBreaker hash cb).configHash
    let after : Controller.World × Bool :=
      if currentSpecHash = cb.status.currentSpecHash ∧ targetStatus = cb.status.targetStatus then
        (w, failed)
      else
        let (w, unwritten) := w.updateStatus { cb with
          status := ⟨cb.generation, none, currentSpecHash, targetStatus⟩ } o.updateStatus
        (w, failed || unwritten)
    let written := writeStatus (ofWorld compile hash w) (ofBreaker compile hash cb) (ofOutcomes o)
      (targetStatus.map ofTargetStatus)
    written.1 = ofWorld compile hash after.1 ∧ (failed || written.2) = after.2 := by
  intro currentSpecHash after written
  let next : Controller.Breaker :=
    { cb with status := ⟨cb.generation, none, currentSpecHash, targetStatus⟩ }
  have same : ((breakers compile hash).configHash (ofBreaker compile hash cb).config =
      (ofBreaker compile hash cb).status.currentSpecHash ∧
      targetStatus.map ofTargetStatus = (ofBreaker compile hash cb).status.targetStatus) ↔
      (currentSpecHash = cb.status.currentSpecHash ∧ targetStatus = cb.status.targetStatus) := by
    refine and_congr Iff.rfl ?_
    exact (List.map_injective_iff.mpr ofTargetStatus_injective).eq_iff
  by_cases unchanged : currentSpecHash = cb.status.currentSpecHash ∧
      targetStatus = cb.status.targetStatus
  · have keeps : after = (w, failed) := if_pos unchanged
    have keeps' : written = (ofWorld compile hash w, false) := if_pos (same.mpr unchanged)
    rw [keeps, keeps']
    simp
  · have writes : after = ((w.updateStatus next o.updateStatus).1,
      failed || (w.updateStatus next o.updateStatus).2) := if_neg unchanged
    have writes' : written = _ :=
      (if_neg (same.not.mpr unchanged)).trans (updateStatus_ofWorld w next o.updateStatus)
    rw [writes, writes']
    exact ⟨rfl, rfl⟩

theorem syncLoop_shows (cb : Controller.Breaker) (o : Controller.Outcomes)
    (pods : List Controller.Pod) (shows : Shows loop acc) :
    Shows ((pods.map (ofPod compile hash)).foldl
        (syncTarget (ofBreaker compile hash cb) (ofOutcomes o)) loop)
      (pods.foldl (Controller.syncTarget compile hash cb o) acc) := by
  rw [List.foldl_map]
  refine List.foldl_rel shows ?_
  intro po _ loop acc shows
  exact shows.syncTarget po

theorem dropLoop_shows (cb : Controller.Breaker) (o : Controller.Outcomes)
    (listed : List Controller.TargetStatus) (shows : Shows loop acc) :
    Shows ((listed.map ofTargetStatus).foldl
        (dropTarget (ofBreaker compile hash cb) (ofOutcomes o)) loop)
      (listed.foldl (Controller.dropTarget compile cb o) acc) := by
  rw [List.foldl_map]
  refine List.foldl_rel shows ?_
  intro st _ loop acc shows
  exact shows.dropTarget st

/-- A pass without its messages. -/
def Pass.outcome {K : Kind} (pass : Pass K) : World K × Bool := (pass.world, pass.failed)

theorem syncTargets_ofWorld :
    (syncTargets (ofWorld compile hash w) (ofBreaker compile hash cb) (ofOutcomes o)).outcome =
      (ofWorld compile hash (Controller.syncTargets compile hash w cb o).1,
        (Controller.syncTargets compile hash w cb o).2) := by
  unfold syncTargets Controller.syncTargets
  rw [listPods_ofOutcomes, podList_ofWorld]
  cases o.listPods with
  | false => rfl
  | true =>
    simp only [Bool.not_true, Bool.false_eq_true, if_false]
    have start : @Shows compile hash ⟨ofWorld compile hash w, [], [], false⟩ (w, [], false) :=
      ⟨rfl, rfl, rfl⟩
    have synced := syncLoop_shows cb o (w.podList cb) start
    generalize ((w.podList cb).map (ofPod compile hash)).foldl _ _ = loop at synced ⊢
    generalize (w.podList cb).foldl _ _ = acc at synced ⊢
    obtain ⟨w', targetStatus, failed⟩ := acc
    dsimp only
    rw [synced.entries, unselected_ofBreaker]
    have next : Shows { loop with entries := [] } (w', [], failed) :=
      ⟨synced.world, rfl, synced.failed⟩
    have dropped := dropLoop_shows cb o (cb.status.targetStatus.filter fun st =>
      st.podName ∉ targetStatus.map (·.podName)) next
    generalize List.foldl (dropTarget _ _) _ _ = loop' at dropped ⊢
    generalize List.foldl (Controller.dropTarget _ _ _) _ _ = acc at dropped ⊢
    obtain ⟨w'', failedStatus, failed'⟩ := acc
    dsimp only
    rw [dropped.world, dropped.entries, dropped.failed, ← List.map_append]
    obtain ⟨world, failed⟩ := @writeStatus_ofWorld compile hash w'' cb o
      (targetStatus ++ failedStatus) failed'
    exact Prod.ext world failed

/-- The result of `tryClearOrAddFinalizer`, and what follows it. -/
theorem reconcileObject_ofWorld :
    (reconcileObject (ofWorld compile hash w) (ofBreaker compile hash cb) (ofOutcomes o)).outcome =
      let after : Controller.World × Bool :=
        match Controller.tryClearOrAddFinalizer compile w cb o with
        | (w, .error failed) => (w, failed)
        | (w, .ok cb) => Controller.syncTargets compile hash w cb o
      (ofWorld compile hash after.1, after.2) := by
  unfold reconcileObject Controller.tryClearOrAddFinalizer
  rw [shouldClear_ofBreaker, hasFinalizer_ofBreaker]
  cases cb.shouldClear with
  | true =>
    simp only [reduceIte]
    cases cb.hasFinalizer with
    | false => rfl
    | true =>
      simp only [Bool.not_true, Bool.false_eq_true, if_false]
      have cleared := @clear_shows compile hash w cb o
      generalize clear _ _ _ = loop at cleared ⊢
      generalize Controller.clear compile w cb o = acc at cleared ⊢
      obtain ⟨w', _ | _⟩ := acc
      · rw [cleared.failed, cleared.world]
        simp only [Bool.false_eq_true, if_false]
        rw [release_ofWorld]
        rfl
      · rw [cleared.failed, cleared.world]
        rfl
  | false =>
    simp only [Bool.false_eq_true, if_false]
    cases cb.hasFinalizer with
    | true => exact syncTargets_ofWorld
    | false =>
      simp only [Bool.false_eq_true, if_false]
      have writes : (ofWorld compile hash w).update (ofBreaker compile hash cb).addFinalizer
        (ofOutcomes o).addFinalizer = _ := update_ofWorld w cb.addFinalizer o.addFinalizer
      rw [writes]
      rcases w.update cb.addFinalizer o.addFinalizer with ⟨w', _ | _⟩
      · exact @syncTargets_ofWorld compile hash w' cb.addFinalizer o
      · rfl

/-- A pass of the reconciler changes the same things and ends the same way as one of
`CircuitBreaker.Controller`. -/
theorem reconcile_ofWorld (w : Controller.World) (key : NamespacedName) (o : Controller.Outcomes) :
    (reconcile (ofWorld compile hash w) key (ofOutcomes o)).outcome =
      (ofWorld compile hash (Controller.reconcile compile hash w key o).1,
        (Controller.reconcile compile hash w key o).2) := by
  have found := w.breakers.find_map (key_ofBreaker compile hash) key
  unfold reconcile Controller.reconcile
  rw [getObject_ofOutcomes]
  cases o.getBreaker with
  | false => rfl
  | true =>
    have found' : (ofWorld compile hash w).objects.find key = _ := found
    rw [found']
    simp only [Bool.not_true, Bool.false_eq_true, if_false]
    cases w.breakers.find key with
    | none => rfl
    | some cb =>
      exact reconcileObject_ofWorld

end Passes

end CtrlMesh.Targets
