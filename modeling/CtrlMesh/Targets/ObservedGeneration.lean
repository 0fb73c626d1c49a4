import CtrlMesh.Lib.Run
import CtrlMesh.Targets.Delivery
import CtrlMesh.Targets.EventFilter

/-!
# The generation in the status

A pass compares the status it has computed with the old one, but puts the generation of the object
into both. So the status is written only when the hash of the configuration or an entry changes, and
an edit that changes neither leaves the old generation in the status. FaultInjections stay behind
like this over any number of passes.
-/

namespace CtrlMesh.Targets

open Labels Lib Api
open CircuitBreaker.Controller (Write Rpc)

variable {metas : List PodMeta}

section

variable {K : Kind}

/-- The status is that of the object: of its generation and its configuration, with an entry for
every selected pod. -/
structure CaughtUp (w : World K) (obj : Object K) (status : Status K.Report) : Prop where
  generation : status.observedGeneration = obj.generation
  hash : status.currentSpecHash = K.configHash obj.config
  listed : ∀ po ∈ w.podList obj, ∃ st ∈ status.targetStatus, st.podName = po.meta_.name

/-- A pass over a world stores such a status. -/
def CatchesUp (w : World K) (obj : Object K) (o : Outcomes) : Prop :=
  ∃ stored, (reconcile w obj.key o).world.objects.find obj.key = some stored ∧
    CaughtUp w obj stored.status

/-- What the proxies report when the configuration is sent to these pods one after another. A pod
whose proxy is not available is not sent to. -/
def reports (config : K.Config) (o : Outcomes) : World K → List PodMeta → List K.Report
  | _, [] => []
  | w, po :: pods =>
    if po.isProxyAvailable then
      let answer := w.sendConfig po.podIP (K.update config) (o.sync po.name)
      (answer.2.toOption.map (·.report)).getD K.noReport :: reports config o answer.1 pods
    else K.noReport :: reports config o w pods

/-- The entry of a selected pod, with the report of a proxy that has taken the configuration. -/
def Object.reported (obj : Object K) (po : PodMeta) (report : K.Report) : TargetStatus K.Report :=
  if po.isProxyAvailable then ⟨po.name, po.podIP, K.configHash obj.config, "", report⟩
  else ⟨po.name, po.podIP, ((currentPodStatus obj po.name).map (·.configHash)).getD "",
    "pod " ++ po.namespace_ ++ "/" ++ po.name ++
      " is not available to sync circuit breaker proto", K.noReport⟩

/-- The entries of the selected pods, if every available proxy takes the configuration. -/
def World.newEntries (w : World K) (obj : Object K) (o : Outcomes) :
    List (TargetStatus K.Report) :=
  let pods := (w.podList obj).map (·.meta_)
  pods.zipWith obj.reported (reports obj.config o w pods)

/-- The hash and the entries are the ones in the old status. -/
def Unchanged (w : World K) (obj : Object K) (o : Outcomes) : Prop :=
  K.configHash obj.config = obj.status.currentSpecHash ∧
    w.newEntries obj o = obj.status.targetStatus

/-- The status with these entries. -/
def World.newStatus (w : World K) (obj : Object K) (o : Outcomes) : Status K.Report :=
  ⟨obj.generation, none, K.configHash obj.config, w.newEntries obj o⟩

variable {w w' : World K} {loop : Loop K} {obj : Object K} {o : Outcomes}

variable {config : K.Config}

/-- Only the pods are asked. -/
theorem reports_congr (pods : w.pods = w'.pods) :
    reports config o w metas = reports config o w' metas := by
  induction metas generalizing w w' with
  | nil => rfl
  | cons po metas ih =>
    have sends := sendConfig_congr pods po.podIP (K.update config) (o.sync po.name)
    simp only [reports, sends.2, ih pods, ih sends.1]

variable {po : Pod K}

/-- One pod: its entry, and that the other pods report what they report after it. -/
theorem entries_syncTarget (unfailed : (syncTarget obj o loop po).failed = false) :
    ∃ report, (syncTarget obj o loop po).entries =
        loop.entries ++ [obj.reported po.meta_ report] ∧
      (∀ pods, reports obj.config o loop.world (po.meta_ :: pods) =
        report :: reports obj.config o (syncTarget obj o loop po).world pods) ∧
      loop.failed = false := by
  unfold syncTarget Object.reported at *
  dsimp only at *
  cases available : po.meta_.isProxyAvailable with
  | false =>
    simp only [available, Bool.not_false, Bool.false_eq_true, if_false, reduceIte, reports]
      at unfailed ⊢
    refine ⟨K.noReport, rfl, fun pods => congrArg _ ?_, unfailed⟩
    apply reports_congr
    rfl
  | true =>
    simp only [available, Bool.not_true, Bool.false_eq_true, if_false, reduceIte, reports]
      at unfailed ⊢
    dsimp only [Loop.syncPodConfig, Loop.send, Message.config, accepted] at unfailed ⊢
    generalize loop.world.sendConfig po.meta_.podIP (K.update obj.config)
      (o.sync po.meta_.name) = result at unfailed ⊢
    obtain ⟨after, error | resp⟩ := result
    · cases unfailed
    · simp only [bind, Except.bind] at unfailed ⊢
      cases success : resp.success with
      | false =>
        rw [success] at unfailed
        cases unfailed
      | true =>
        rw [success] at unfailed
        refine ⟨resp.report, rfl, fun pods => congrArg _ ?_, unfailed⟩
        apply reports_congr
        rfl

/-- The whole loop, by induction over the pods. -/
theorem entries_syncLoop {pods : List (Pod K)}
    (unfailed : (pods.foldl (syncTarget obj o) loop).failed = false) :
    (pods.foldl (syncTarget obj o) loop).entries = loop.entries ++
        (pods.map (·.meta_)).zipWith obj.reported
          (reports obj.config o loop.world (pods.map (·.meta_))) ∧
      loop.failed = false := by
  induction pods generalizing loop with
  | nil => exact ⟨(List.append_nil _).symm, unfailed⟩
  | cons po pods ih =>
    rw [List.foldl_cons] at unfailed ⊢
    obtain ⟨later, earlier⟩ := ih unfailed
    obtain ⟨report, here, others, start⟩ := entries_syncTarget earlier
    refine ⟨?_, start⟩
    rw [later, here, List.map_cons, others, List.append_assoc]
    rfl

/-- There is a report for every pod. -/
theorem length_reports (config : K.Config) (o : Outcomes) (w : World K) (metas : List PodMeta) :
    (reports config o w metas).length = metas.length := by
  induction metas generalizing w with
  | nil => rfl
  | cons po metas ih =>
    rw [reports]
    split <;> simp [ih]

/-- Where the reports do not matter, one entry is made of each pod. -/
theorem zipWith_reports {γ : Type} {f : PodMeta → K.Report → γ} {g : PodMeta → γ}
    (same : ∀ po report, f po report = g po) : metas.zipWith f
    (reports config o w metas) = metas.map g := by
  have counted := length_reports config o w metas
  generalize reports config o w metas = answers at counted
  induction metas generalizing answers with
  | nil => rfl
  | cons po metas ih =>
    obtain ⟨report, answers, rfl⟩ := List.exists_cons_of_length_eq_add_one counted
    rw [List.zipWith_cons_cons, List.map_cons, same, ih answers (by simpa using counted)]

/-- The entries list the selected pods. -/
theorem listed_newEntries (selected : po ∈ w.podList obj) :
    ∃ st ∈ w.newEntries obj o, st.podName = po.meta_.name := by
  have named (po : PodMeta) (report : K.Report) : (obj.reported po report).podName = po.name := by
    unfold Object.reported
    split <;> rfl
  have names : (w.newEntries obj o).map (·.podName) = (w.podList obj).map (·.meta_.name) := by
    unfold World.newEntries
    rw [List.map_zipWith, zipWith_reports named, List.map_map]
    rfl
  have name := List.mem_map_of_mem (f := fun po : Pod K => po.meta_.name) selected
  rw [← names] at name
  exact List.mem_map.mp name

/-- The finalizer does not matter. -/
theorem newEntries_ensured : (w.ensured obj).newEntries obj.ensured o = w.newEntries obj o := by
  unfold World.ensured Object.ensured
  split
  · rfl
  · refine congrArg (List.zipWith _ _) ?_
    apply reports_congr
    rfl

/-- Nor for the comparison. -/
theorem unchanged_ensured : Unchanged (w.ensured obj) obj.ensured o ↔ Unchanged w obj o := by
  unfold Unchanged
  rw [newEntries_ensured]
  unfold Object.ensured
  split <;> exact Iff.rfl

/-- Nor for the status. -/
theorem newStatus_ensured : (w.ensured obj).newStatus obj.ensured o = w.newStatus obj o := by
  unfold World.newStatus
  rw [newEntries_ensured]
  unfold Object.ensured
  split <;> rfl

/-- A status update without an error has stored the status. -/
theorem updateStatus_succeeds {status : Status K.Report}
    (written : w.updateStatus { obj with status } o.updateStatus = (w', false)) :
    w'.objects = w.objects.put { obj with status } := by
  unfold World.updateStatus at written
  cases write : o.updateStatus with
  | lost => simp [write] at written
  | unanswered => simp [write] at written
  | done =>
    rw [write] at written
    simp only [Prod.mk.injEq] at written
    rw [← written.1]

/-- Such a pass has kept no entry of a pod that is not selected. -/
theorem objects_syncTargets (succeeds : (syncTargets w obj o).failed = false) :
    (Unchanged w obj o → (syncTargets w obj o).world.objects = w.objects) ∧
      (¬Unchanged w obj o → (syncTargets w obj o).world.objects =
        w.objects.put { obj with status := w.newStatus obj o }) := by
  obtain ⟨synced, dropped, spec⟩ := syncTargets_spec w obj (lists_of_succeeds succeeds)
  rw [spec.pass] at succeeds ⊢
  obtain ⟨unfailed, written⟩ := Bool.or_eq_false_iff.mp succeeds
  rw [spec.failed, Bool.or_eq_false_iff, List.any_eq_false] at unfailed
  have noneKept : dropped.entries = [] := by
    rw [spec.entries, List.filter_eq_nil_iff.mpr unfailed.2]
  have entries : synced.entries = w.newEntries obj o := by
    have unfailed' := unfailed.1
    rw [spec.isSynced] at unfailed' ⊢
    exact (entries_syncLoop unfailed').1
  rw [noneKept, List.append_nil, entries] at written ⊢
  unfold writeStatus at written ⊢
  constructor
  · intro same
    unfold Unchanged at same
    rw [if_pos same]
    exact spec.frame.objects
  · intro different
    unfold Unchanged at different
    rw [if_neg different] at written ⊢
    rw [← spec.frame.objects]
    exact updateStatus_succeeds (Prod.ext rfl written)

/-- The object after a pass, if it is in use. -/
theorem find_active (stored : w.objects.find obj.key = some obj) (active : obj.shouldClear = false)
    (succeeds : (reconcile w obj.key o).failed = false) :
    (Unchanged w obj o →
      (reconcile w obj.key o).world.objects.find obj.key = some obj.ensured) ∧
    (¬Unchanged w obj o → (reconcile w obj.key o).world.objects.find obj.key =
      some { obj.ensured with status := w.newStatus obj o }) := by
  obtain ⟨-, isPass⟩ := reconcile_of_succeeds stored succeeds
  rw [isPass] at succeeds ⊢
  have isSync := reconcileObject_of_succeeds active succeeds
  rw [isSync] at succeeds ⊢
  obtain ⟨kept, written⟩ := objects_syncTargets succeeds
  rw [unchanged_ensured] at kept written
  rw [newStatus_ensured] at written
  constructor
  · intro unchanged
    rw [kept unchanged]
    exact find_ensured stored
  · intro changed
    have key : obj.ensured.key = obj.key := by
      unfold Object.ensured
      split <;> rfl
    rw [written changed, ← key]
    exact (w.ensured obj).objects.find_put_self

/-- A pass without an error over an object in use, for both kinds. -/
theorem catchesUp_of_active (stored : w.objects.find obj.key = some obj)
    (active : obj.shouldClear = false) (succeeds : (reconcile w obj.key o).failed = false) :
    CatchesUp w obj o ↔
      obj.status.observedGeneration = obj.generation ∨ ¬Unchanged w obj o := by
  obtain ⟨kept, written⟩ := find_active stored active succeeds
  unfold CatchesUp
  by_cases same : Unchanged w obj o
  · rw [kept same]
    constructor
    · rintro ⟨_, isStored, caughtUp⟩
      cases isStored
      rw [status_ensured] at caughtUp
      exact .inl caughtUp.generation
    · intro condition
      have generation := condition.resolve_right (not_not.mpr same)
      refine ⟨_, rfl, ?_⟩
      rw [status_ensured]
      refine ⟨generation, same.1.symm, ?_⟩
      intro po selected
      rw [← same.2]
      exact listed_newEntries selected
  · rw [written same]
    refine ⟨fun _ => .inr same, fun _ => ⟨_, rfl, rfl, rfl, ?_⟩⟩
    intro po selected
    exact listed_newEntries selected

end

section

variable {K : Kind}

/-- The entry of a selected pod whose proxy, if available, has taken the configuration. -/
def Object.entry (obj : Object K) (po : PodMeta) : TargetStatus K.Report :=
  obj.reported po K.noReport

/-- The stored status has the hash and the entries of the object, but not its generation. -/
def Behind (key : NamespacedName) (w : World K) : Prop :=
  ∃ obj, w.objects.find key = some obj ∧ obj.shouldClear = false ∧
    obj.status.observedGeneration ≠ obj.generation ∧
    K.configHash obj.config = obj.status.currentSpecHash ∧
    (w.podList obj).map (fun po => obj.entry po.meta_) = obj.status.targetStatus

/-- A pass without an error. -/
def passStep (key : NamespacedName) (w : World K) (o : Outcomes) : Option (World K) :=
  let pass := reconcile w key o
  if pass.failed then none else some pass.world

variable {w : World K} {loop : Loop K} {obj : Object K} {o : Outcomes} {key : NamespacedName}

/-- Proxies that report nothing all report the same. -/
theorem newEntries_eq (silent : ∀ report : K.Report, report = K.noReport) :
    w.newEntries obj o = (w.podList obj).map fun po => obj.entry po.meta_ := by
  have alike (po : PodMeta) (report : K.Report) : obj.reported po report = obj.entry po := by
    rw [silent report]
    rfl
  unfold World.newEntries
  rw [zipWith_reports alike, List.map_map]
  rfl

/-- The entries depend on the pods without their proxies. -/
theorem entries_metas :
    (w.podList obj).map (fun po => obj.entry po.meta_) =
      (w.metas.filter fun po => po.namespace_ = obj.metadata.namespace_ &&
        CircuitBreaker.Controller.selects (K.selector obj.spec) po.labels &&
        po.hasProxyContainer).map obj.entry := by
  unfold World.podList World.metas
  rw [List.filter_map, List.map_map]
  rfl

/-- A pass without an error leaves the status behind. -/
theorem Behind.step (silent : ∀ report : K.Report, report = K.noReport) (behind : Behind key w)
    (succeeds : (reconcile w key o).failed = false) : Behind key (reconcile w key o).world := by
  obtain ⟨obj, stored, active, generation, hash, entries⟩ := behind
  have isKey : obj.key = key := (Registry.find_some stored).2
  subst isKey
  have find := (find_active stored active succeeds).1
  obtain ⟨-, isPass⟩ := reconcile_of_succeeds stored succeeds
  rw [isPass] at succeeds find ⊢
  have unchanged : Unchanged w obj o := ⟨hash, (newEntries_eq silent).trans entries⟩
  have entries' : ((reconcileObject w obj o).world.podList obj).map
      (fun po => obj.entry po.meta_) = obj.status.targetStatus := by
    rw [entries_metas, metas_reconcileObject, ← entries_metas]
    exact entries
  unfold Object.ensured at find
  split at find
  · exact ⟨obj, find unchanged, active, generation, hash, entries'⟩
  · exact ⟨obj.addFinalizer, find unchanged, active, generation, hash, entries'⟩

/-- Along every run of passes without an error. -/
theorem behind_along (silent : ∀ report : K.Report, report = K.noReport) (behind : Behind key w)
    {outcomes : List Outcomes} : Along (passStep key) (Behind key) w outcomes := by
  have keeps (w : World K) (o : Outcomes) (w' : World K) (behind : Behind key w) (_ : True)
      (stepped : passStep key w o = some w') : Behind key w' := by
    unfold passStep at stepped
    simp only [Option.ite_none_left_eq_some, Bool.not_eq_true, Option.some.injEq] at stepped
    rw [← stepped.2]
    exact behind.step silent stepped.1
  exact along_of_eachStep keeps behind fun _ _ _ _ _ _ _ _ => trivial

end

section

variable {K : Kind}

/-- The specification has been edited since the status was written; its configuration has the hash
in the status. -/
def editedObject (spec : K.Spec) (named : K.Named "limits") (report : K.Report) : Object K where
  metadata := { name := "limits", namespace_ := "shop", finalizers := [protectFinalizer] }
  named := named
  generation := 2
  spec := spec
  status := ⟨1, none, K.configHash (K.convert "limits" named spec),
    [⟨"pay-0", "10.0.0.7", K.configHash (K.convert "limits" named spec), "", report⟩,
      ⟨"pay-1", "", "", "pod shop/pay-1 is not available to sync circuit breaker proto",
        K.noReport⟩]⟩

/-- One of the two pods has a proxy that is ready. -/
def editedWorld (obj : Object K) (proxy : K.Manager) : World K where
  objects := ⟨[obj], List.nodup_singleton _⟩
  pods := ⟨[⟨⟨"shop", "pay-0", AList.singleton "app" "pay", true, false, "10.0.0.7", true⟩, proxy⟩,
    ⟨⟨"shop", "pay-1", AList.singleton "app" "pay", true, false, "", false⟩, proxy⟩],
    List.Nodup.of_map Prod.snd (show ["pay-0", "pay-1"].Nodup by decide)⟩
  cache := ∅

end

/-- A CircuitBreaker with one rate limiting, whose breaker is closed. -/
def editedBreaker : Object (breakers (fun _ => none) fun _ => "") :=
  editedObject
    ⟨paySelector, [], [⟨"rate", [⟨["*"], ["*"], ["*"], ["*"]⟩], [], ⟨1, "1s", 1⟩, .normal, none⟩]⟩
    trivial [⟨"rate", .closed, none⟩]

/-- A FaultInjection with one rule. -/
def editedFault : Object (faults (fun _ => none) .blind fun _ => "") :=
  editedObject ⟨paySelector, false, [⟨"deny", none, none, some ⟨[⟨["*"], ["*"], ["*"], ["*"]⟩], []⟩,
    none⟩]⟩ (by decide) ()

end CtrlMesh.Targets
