import CtrlMesh.Targets.Breakers
import CtrlMesh.Targets.Faults
import CtrlMesh.Targets.Loops

/-!
# Proxies that leave the status

A pod that the status lists and the next status does not should have a proxy without the
configuration. A pass drops such a pod when its proxy is not available, sends the withdrawal to the
address in the status and not to the one the pod has, and, when the object is given up, asks only
the pods its cache knows. The condition below says for which worlds none of this leaves a
configuration behind, whatever the calls of the pass come to.
-/

namespace CtrlMesh.Targets

open Lib Api
open CircuitBreaker.Controller (PodCache Write Rpc)

section

variable {K : Kind}

/-- A pod of the object's namespace that its status lists. -/
structure Lists (w : World K) (obj : Object K) (po : Pod K) : Prop where
  listed : po.meta_.name ∈ obj.status.targetStatus.map (·.podName)
  found : w.pods.find (obj.metadata.namespace_, po.meta_.name) = some po

/-- The stored status of an object lists a pod. -/
def Listed (w : World K) (key : NamespacedName) (podName : String) : Prop :=
  ∃ obj, w.objects.find key = some obj ∧ podName ∈ obj.status.targetStatus.map (·.podName)

/-- Every existing pod that leaves the status in a pass has acknowledged the withdrawal in it, or
had no configuration of the name. -/
def CleanDepartures (w : World K) (key : NamespacedName) : Prop :=
  ∀ (o : Outcomes) (obj : Object K) (po : Pod K), w.objects.find key = some obj → Lists w obj po →
    ¬Listed (reconcile w key o).world key po.meta_.name →
    ⟨some po.key, .withdraw obj.name, true⟩ ∈ (reconcile w key o).sent ∨
      K.holds po.proxy obj.name = false

/-- The proxy of a pod no longer selected is available, and an address in the status is the pod's or
nobody's: then the withdrawal fails and the entry stays. -/
def StillReached (w : World K) (obj : Object K) (po : Pod K) : Prop :=
  po.meta_.isProxyAvailable = true ∧ ∃ st ∈ obj.status.targetStatus, st.podName = po.meta_.name ∧
    (w.reaches st.podIP = none ∨ w.reaches st.podIP = some po.key)

/-- `clear` asks the proxy of an entry: the first of its pod's. -/
def Cleared (w : World K) (obj : Object K) (st : TargetStatus K.Report) : Prop :=
  currentPodStatus obj st.podName = some st ∧ w.clears obj st = true

/-- No configuration is left behind. -/
structure Withdrawable (w : World K) (obj : Object K) : Prop where
  dropped : obj.shouldClear = false → ∀ po, Lists w obj po → po ∉ w.podList obj →
    K.holds po.proxy obj.name = true → StillReached w obj po
  cleared : obj.shouldClear = true → obj.hasFinalizer = true →
    (∀ st, Cleared w obj st → (w.reaches st.podIP).isSome = true) →
    ∀ po, Lists w obj po → K.holds po.proxy obj.name = true →
      ∃ st, Cleared w obj st ∧ w.reaches st.podIP = some po.key

variable {w : World K} {obj : Object K} {o : Outcomes} {po : Pod K} {key : NamespacedName}
  {st : TargetStatus K.Report} {podName : String}

theorem Lists.key_eq (lists : Lists w obj po) : po.key = (obj.metadata.namespace_, po.meta_.name) :=
  (Registry.find_some lists.found).2

theorem Lists.ready (lists : Lists w obj po) :
    w.ready (obj.metadata.namespace_, po.meta_.name) = po.meta_.isProxyAvailable := by
  unfold World.ready
  rw [lists.found]
  rfl

/-- Only one pod has a name. -/
theorem Lists.name_mem_podList (lists : Lists w obj po) :
    po.meta_.name ∈ (w.podList obj).map (·.meta_.name) ↔ po ∈ w.podList obj := by
  constructor
  · intro inside
    obtain ⟨other, member, name⟩ := List.mem_map.mp inside
    have both := List.mem_filter.mp member
    have ns : other.meta_.namespace_ = obj.metadata.namespace_ := by
      have conditions := both.2
      simp only [Bool.and_eq_true, decide_eq_true_eq] at conditions
      exact conditions.1.1
    have same : other.key = po.key := by
      rw [lists.key_eq]
      exact Prod.ext ns name
    have isPod := Registry.eq_of_key_eq both.1 (Registry.find_some lists.found).1 same
    rwa [isPod] at member
  · exact fun member => List.mem_map_of_mem member

theorem listed_iff (stored : w.objects.find key = some obj) (podName : String) :
    Listed w key podName ↔ podName ∈ obj.status.targetStatus.map (·.podName) := by
  unfold Listed
  rw [stored]
  simp

theorem listed_put (obj : Object K) (podName : String) :
    Listed { w with objects := w.objects.put obj } obj.key podName ↔
      podName ∈ obj.status.targetStatus.map (·.podName) :=
  listed_iff w.objects.find_put_self podName

/-- The entries of a written status replace the stored ones, unless the write is lost. -/
theorem listed_writeStatus (stored : w.objects.find obj.key = some obj)
    (targetStatus : List (TargetStatus K.Report)) :
    Listed (writeStatus w obj o targetStatus).1 obj.key podName ↔
      podName ∈ (if o.updateStatus = .lost then obj.status.targetStatus else targetStatus).map
        (·.podName) := by
  have kept := listed_iff stored podName
  unfold writeStatus
  split
  · next unchanged =>
    rw [unchanged.2, ite_self]
    exact kept
  · unfold World.updateStatus
    cases o.updateStatus with
    | lost => exact kept
    | done => exact listed_put { obj with status := _ } podName
    | unanswered => exact listed_put { obj with status := _ } podName

/-- The pods that a pass of an object in use selects, by name. -/
def World.selectedNames (w : World K) (obj : Object K) : List String :=
  (w.podList obj).map (·.meta_.name)

theorem mem_unselected {entries : List (TargetStatus K.Report)} {names : List String}
    (same : entries.map (·.podName) = names) :
    st ∈ unselected obj entries ↔ st ∈ obj.status.targetStatus ∧ st.podName ∉ names := by
  unfold unselected
  rw [same]
  simp [List.mem_filter]

/-- A pod leaves the status if the pass gets to the end, does not select it and keeps none of its
entries. -/
theorem departs_syncTargets (stored : w.objects.find obj.key = some obj)
    (listed : podName ∈ obj.status.targetStatus.map (·.podName)) :
    ¬Listed (syncTargets w obj o).world obj.key podName ↔
      o.listPods = true ∧ o.updateStatus ≠ .lost ∧ podName ∉ w.selectedNames obj ∧
        ∀ st ∈ obj.status.targetStatus, st.podName = podName → w.keeps obj o st = false := by
  have before := (listed_iff stored podName).mpr listed
  cases lists : o.listPods with
  | false => simpa [syncTargets, lists] using before
  | true =>
    obtain ⟨synced, dropped, spec⟩ := syncTargets_spec w obj lists
    have stored' : dropped.world.objects.find obj.key = some obj := by
      rw [spec.frame.objects]
      exact stored
    rw [spec.pass, listed_writeStatus stored']
    by_cases lost : o.updateStatus = .lost
    · simp only [lost, if_true, ne_eq, not_true, false_and, and_false, iff_false, not_not]
      exact listed
    · rw [if_neg lost, List.map_append, spec.names, spec.entries]
      have member (st : TargetStatus K.Report) :
          st ∈ unselected obj synced.entries ↔
            st ∈ obj.status.targetStatus ∧ st.podName ∉ w.selectedNames obj :=
        mem_unselected spec.names
      constructor
      · intro absent
        rw [List.mem_append, not_or] at absent
        refine ⟨rfl, lost, absent.1, ?_⟩
        intro st inside name
        by_contra keeps
        have kept : w.keeps obj o st = true := by simpa using keeps
        refine absent.2 (List.mem_map.mpr ⟨st, List.mem_filter.mpr ⟨?_, kept⟩, name⟩)
        refine (member st).mpr ⟨inside, ?_⟩
        rw [name]
        exact absent.1
      · rintro ⟨-, -, unselected, none_⟩ present
        rcases List.mem_append.mp present with selected | kept
        · exact unselected selected
        · obtain ⟨st, inside, name⟩ := List.mem_map.mp kept
          have both := List.mem_filter.mp inside
          have dropped := none_ st ((member st).mp both.1).1 name
          exact absurd both.2 (by simp [dropped])

variable {receiver : NamespacedName}

/-- The withdrawals that a pass of an object in use has acknowledged. -/
theorem withdrawn_syncTargets :
    ⟨some receiver, .withdraw obj.name, true⟩ ∈ (syncTargets w obj o).sent ↔
      o.listPods = true ∧ ∃ st ∈ obj.status.targetStatus, st.podName ∉ w.selectedNames obj ∧
        w.asks obj o st = true ∧ w.acknowledges o st = true ∧
        w.reaches st.podIP = some receiver := by
  cases lists : o.listPods with
  | false => simp [syncTargets, lists]
  | true =>
    obtain ⟨synced, dropped, spec⟩ := syncTargets_spec w obj lists
    have member (st : TargetStatus K.Report) :
        st ∈ unselected obj synced.entries ↔
          st ∈ obj.status.targetStatus ∧ st.podName ∉ w.selectedNames obj :=
      mem_unselected spec.names
    rw [spec.pass]
    dsimp only
    rw [spec.sent, List.mem_append, List.mem_map]
    constructor
    · rintro (update | ⟨st, inside, isSent⟩)
      · -- the first loop sends no withdrawal
        have isUpdate := spec.updates _ update
        simp [Message.isUpdate] at isUpdate
      · have both := List.mem_filter.mp inside
        obtain ⟨old, unselected⟩ := (member st).mp both.1
        simp only [withdrawal, Sent.mk.injEq] at isSent
        exact ⟨rfl, st, old, unselected, both.2, isSent.2.2, isSent.1⟩
    · rintro ⟨-, st, old, unselected, asked, acknowledged, reaches⟩
      refine .inr ⟨st, List.mem_filter.mpr ⟨(member st).mpr ⟨old, unselected⟩, asked⟩, ?_⟩
      rw [withdrawal, reaches, acknowledged]

theorem departs_active (stored : w.objects.find obj.key = some obj)
    (active : obj.shouldClear = false)
    (listed : podName ∈ obj.status.targetStatus.map (·.podName)) :
    ¬Listed (reconcileObject w obj o).world obj.key podName ↔
      Protected obj o ∧ o.listPods = true ∧ o.updateStatus ≠ .lost ∧
        podName ∉ w.selectedNames obj ∧
        ∀ st ∈ obj.status.targetStatus, st.podName = podName → w.keeps obj o st = false := by
  obtain ⟨isProtected, pass⟩ | ⟨unprotected, w', kept, pass⟩ := reconcileObject_active w o active
  · rw [pass, and_iff_right isProtected]
    unfold World.ensured Object.ensured
    split
    · exact departs_syncTargets stored listed
    · exact @departs_syncTargets K { w with objects := w.objects.put obj.addFinalizer }
        obj.addFinalizer o podName w.objects.find_put_self listed
  · have after : Listed w' obj.key podName := by
      obtain rfl | rfl := kept
      · exact (listed_iff stored podName).mpr listed
      · rw [listed_iff (find_ensured stored), status_ensured]
        exact listed
    rw [pass]
    exact iff_of_false (not_not.mpr after) fun all => unprotected all.1

theorem withdrawn_active (active : obj.shouldClear = false) :
    ⟨some receiver, .withdraw obj.name, true⟩ ∈ (reconcileObject w obj o).sent ↔
      Protected obj o ∧ o.listPods = true ∧ ∃ st ∈ obj.status.targetStatus,
        st.podName ∉ w.selectedNames obj ∧ w.asks obj o st = true ∧ w.acknowledges o st = true ∧
        w.reaches st.podIP = some receiver := by
  obtain ⟨isProtected, pass⟩ | ⟨unprotected, w', -, pass⟩ := reconcileObject_active w o active
  · rw [pass, and_iff_right isProtected]
    unfold World.ensured Object.ensured
    split
    · exact withdrawn_syncTargets
    · exact withdrawn_syncTargets
  · rw [pass]
    exact iff_of_false List.not_mem_nil fun all => unprotected all.1

/-- A pass over one object leaves no configuration behind. -/
def Clean (w : World K) (obj : Object K) : Prop :=
  ∀ (o : Outcomes) (po : Pod K), Lists w obj po →
    ¬Listed (reconcileObject w obj o).world obj.key po.meta_.name →
    ⟨some po.key, .withdraw obj.name, true⟩ ∈ (reconcileObject w obj o).sent ∨
      K.holds po.proxy obj.name = false

theorem keeps_eq_false_iff :
    w.keeps obj o st = false ↔ o.getPod st.podName = true ∧
      (w.ready (obj.metadata.namespace_, st.podName) = true → w.acknowledges o st = true) := by
  unfold World.keeps World.asks
  cases o.getPod st.podName with
  | false => simp
  | true =>
    cases w.ready (obj.metadata.namespace_, st.podName) with
    | false => simp
    | true => simp

theorem acknowledges_iff :
    w.acknowledges o st = true ↔
      (w.reaches st.podIP).isSome = true ∧ isAnswered (o.disable st.podName) = true := by
  simp [World.acknowledges]

theorem asks_iff :
    w.asks obj o st = true ↔ o.getPod st.podName = true ∧
      w.ready (obj.metadata.namespace_, st.podName) = true := by
  simp [World.asks]

theorem clean_active_iff (stored : w.objects.find obj.key = some obj)
    (active : obj.shouldClear = false) :
    Clean w obj ↔ ∀ po, Lists w obj po → po ∉ w.podList obj →
      K.holds po.proxy obj.name = true → StillReached w obj po := by
  constructor
  · intro clean po lists unselected holds
    have unnamed : po.meta_.name ∉ w.selectedNames obj := lists.name_mem_podList.not.mpr unselected
    by_cases reached : StillReached w obj po
    · exact reached
    · -- the proxy of this pod answers, no other one does
      let o := succeeding (· = po.meta_.name)
      have answered (podName : String) : isAnswered (o.disable podName) = true ↔
          podName = po.meta_.name := by
        rw [isAnswered_succeeding]
        exact decide_eq_true_iff
      have departs : ¬Listed (reconcileObject w obj o).world obj.key po.meta_.name := by
        refine (departs_active stored active lists.listed).mpr ⟨.inr rfl, rfl, nofun, unnamed, ?_⟩
        intro st old name
        refine keeps_eq_false_iff.mpr ⟨rfl, ?_⟩
        intro ready
        rw [name, lists.ready] at ready
        refine acknowledges_iff.mpr ⟨?_, (answered st.podName).mpr name⟩
        cases reaches : w.reaches st.podIP with
        | none => exact absurd ⟨ready, st, old, name, .inl reaches⟩ reached
        | some receiver => rfl
      rcases clean o po lists departs with sent | unheld
      · obtain ⟨-, -, st, old, -, asked, acknowledged, reaches⟩ := (withdrawn_active active).mp sent
        have name := (answered st.podName).mp (acknowledges_iff.mp acknowledged).2
        have ready := (asks_iff.mp asked).2
        rw [name, lists.ready] at ready
        exact ⟨ready, st, old, name, .inr reaches⟩
      · exact absurd holds (by simp [unheld])
  · intro reached o po lists departs
    obtain ⟨isProtected, listPods, -, unnamed, dropped⟩ :=
      (departs_active stored active lists.listed).mp departs
    cases holds : K.holds po.proxy obj.name with
    | false => exact .inr rfl
    | true =>
      have unselected : po ∉ w.podList obj := lists.name_mem_podList.not.mp unnamed
      obtain ⟨available, st, old, name, reaches⟩ := reached po lists unselected holds
      refine .inl ((withdrawn_active active).mpr ⟨isProtected, listPods, st, old, ?_⟩)
      have ready : w.ready (obj.metadata.namespace_, st.podName) = true := by
        rw [name, lists.ready]
        exact available
      obtain ⟨read, acknowledges⟩ := keeps_eq_false_iff.mp (dropped st old name)
      have acknowledged := acknowledges ready
      have someone := (acknowledges_iff.mp acknowledged).1
      refine ⟨?_, asks_iff.mpr ⟨read, ready⟩, acknowledged, ?_⟩
      · rw [name]
        exact unnamed
      · refine reaches.resolve_left ?_
        intro nobody
        simp [nobody] at someone

theorem departs_cleared (stored : w.objects.find obj.key = some obj)
    (clears : obj.shouldClear = true) (finalizer : obj.hasFinalizer = true)
    (listed : podName ∈ obj.status.targetStatus.map (·.podName))
    (departs : ¬Listed (reconcileObject w obj o).world obj.key podName) :
    (clear w obj o).failed = false := by
  obtain ⟨frame, -, -⟩ := @clearLoop_frame K obj o ⟨w, [], [], false⟩ obj.status.targetStatus
  have stored' : (clear w obj o).world.objects.find obj.key = some obj := by
    rw [clear, frame.objects]
    exact stored
  unfold reconcileObject at departs
  rw [clears, finalizer] at departs
  simp only [reduceIte, Bool.not_true, Bool.false_eq_true, if_false] at departs
  cases failed : (clear w obj o).failed with
  | false => rfl
  | true =>
    rw [failed] at departs
    exact absurd ((listed_iff stored' podName).mpr listed) departs

/-- An update of an object without entries lists no pod. -/
theorem not_listed_update (write : Write) (unlisted : obj.status.targetStatus = [])
    (before : ∀ podName, ¬Listed w obj.key podName) (podName : String) :
    ¬Listed (w.update obj write).1 obj.key podName := by
  have after : ¬Listed (w.stored obj) obj.key podName := by
    unfold World.stored
    split
    · rintro ⟨other, found, -⟩
      dsimp only at found
      rw [Registry.find_erase_self] at found
      cases found
    · rw [listed_put, unlisted]
      exact List.not_mem_nil
  cases write with
  | lost => exact before podName
  | done => exact after
  | unanswered => exact after

/-- The status is emptied first, so no pod is listed once it has been written. -/
theorem departs_release (listed : obj.status.targetStatus ≠ []) (written : o.updateStatus = .done) :
    ¬Listed (release w obj o).1 obj.key podName := by
  let emptied : Object K := { obj with status := ⟨obj.generation, some o.now, "", []⟩ }
  have before : ∀ podName,
      ¬Listed { w with objects := w.objects.put emptied } emptied.key podName := by
    intro podName
    rw [listed_put]
    exact List.not_mem_nil
  unfold release
  rw [if_neg listed, written]
  exact @not_listed_update K { w with objects := w.objects.put emptied } emptied.removeFinalizer
    o.removeFinalizer rfl before podName

theorem sent_cleared (clears : obj.shouldClear = true) (finalizer : obj.hasFinalizer = true) :
    (reconcileObject w obj o).sent = (clear w obj o).sent := by
  unfold reconcileObject
  rw [clears, finalizer]
  simp only [reduceIte, Bool.not_true, Bool.false_eq_true, if_false]
  split <;> rfl

section

variable (stored : w.objects.find obj.key = some obj)

include stored

theorem clean_cleared_iff (clears : obj.shouldClear = true) (finalizer : obj.hasFinalizer = true) :
    Clean w obj ↔ ((∀ st, Cleared w obj st → (w.reaches st.podIP).isSome = true) →
      ∀ po, Lists w obj po → K.holds po.proxy obj.name = true →
        ∃ st, Cleared w obj st ∧ w.reaches st.podIP = some po.key) := by
  constructor
  · intro clean reached po lists holds
    let o := succeeding fun _ => true
    have succeeds : (clear w obj o).failed = false := by
      refine clearLoop_succeeds (fun _ => rfl) (fun _ => isAnswered_succeeding) ⟨w, [], [], false⟩
        rfl ?_
      intro st first asked
      exact reached st ⟨first, asked⟩
    have listed : obj.status.targetStatus ≠ [] := by
      intro empty
      have inside := lists.listed
      simp [empty] at inside
    have departs : ¬Listed (reconcileObject w obj o).world obj.key po.meta_.name := by
      unfold reconcileObject
      rw [clears, finalizer]
      dsimp only
      rw [succeeds]
      exact departs_release listed rfl
    rcases clean o po lists departs with sent | unheld
    · rw [sent_cleared clears finalizer] at sent
      rcases clearLoop_sent ⟨w, [], [], false⟩ succeeds sent with
        before | ⟨st, first, asked, isSent⟩
      · cases before
      · refine ⟨st, ⟨first, asked⟩, ?_⟩
        simp only [withdrawal, Sent.mk.injEq] at isSent
        exact isSent.1.symm
    · exact absurd holds (by simp [unheld])
  · intro withdrawn o po lists departs
    have succeeds := departs_cleared stored clears finalizer lists.listed departs
    have asked (st : TargetStatus K.Report) (counts : Cleared w obj st) :=
      clearLoop_acknowledges ⟨w, [], [], false⟩ succeeds counts.1
        counts.2
    cases holds : K.holds po.proxy obj.name with
    | false => exact .inr rfl
    | true =>
      have reached (st : TargetStatus K.Report) (counts : Cleared w obj st) :
          (w.reaches st.podIP).isSome = true := (acknowledges_iff.mp (asked st counts).1).1
      obtain ⟨st, counts, reaches⟩ := withdrawn reached po lists holds
      obtain ⟨acknowledged, sent⟩ := asked st counts
      refine .inl ?_
      rw [sent_cleared clears finalizer]
      rw [withdrawal, reaches, acknowledged] at sent
      exact sent

/-- Without its finalizer such an object is left alone. -/
theorem clean_released (clears : obj.shouldClear = true) (finalizer : obj.hasFinalizer = false) :
    Clean w obj := by
  intro o po lists departs
  refine absurd ?_ departs
  unfold reconcileObject
  rw [clears, finalizer]
  exact (listed_iff stored po.meta_.name).mpr lists.listed

theorem clean_iff : Clean w obj ↔ Withdrawable w obj := by
  cases clears : obj.shouldClear with
  | false =>
    rw [clean_active_iff stored clears]
    constructor
    · exact fun dropped => ⟨fun _ => dropped, fun clears' => absurd clears' (by simp [clears])⟩
    · exact fun withdrawable => withdrawable.dropped clears
  | true =>
    cases finalizer : obj.hasFinalizer with
    | false =>
      constructor
      · intro _
        refine ⟨fun active => absurd active (by simp [clears]), ?_⟩
        exact fun _ isProtected => absurd isProtected (by simp [finalizer])
      · exact fun _ => clean_released stored clears finalizer
    | true =>
      rw [clean_cleared_iff stored clears finalizer]
      constructor
      · exact fun cleared => ⟨fun active => absurd active (by simp [clears]), fun _ _ => cleared⟩
      · exact fun withdrawable => withdrawable.cleared clears finalizer

end

/-- The pods of every object under a key can be reached. -/
theorem clean_departures_iff :
    CleanDepartures w key ↔ ∀ obj, w.objects.find key = some obj → Withdrawable w obj := by
  constructor
  · intro clean obj stored
    have isKey : obj.key = key := (Registry.find_some stored).2
    subst isKey
    refine (clean_iff stored).mp ?_
    intro o po lists departs
    have result := clean { o with getObject := true } obj po stored lists
    rw [reconcile_of_read rfl stored] at result
    exact result departs
  · intro withdrawable o obj po stored lists departs
    have isKey : obj.key = key := (Registry.find_some stored).2
    subst isKey
    cases read : o.getObject with
    | false =>
      rw [reconcile, read] at departs
      exact absurd ((listed_iff stored po.meta_.name).mpr lists.listed) departs
    | true =>
      rw [reconcile_of_read read stored] at departs ⊢
      exact (clean_iff stored).mpr (withdrawable obj stored) o po lists departs

end

/-- CircuitBreakers and FaultInjections: pods leave the status with clean proxies, whatever the
calls come to, exactly when no configuration is left behind. -/
theorem breakers_faults_clean_iff (compile : Compile) (parse : FaultInjection.Parsers)
    (key : NamespacedName) :
    (∀ (hash : CircuitBreaker.Config → String) (w : World (breakers compile hash)),
      CleanDepartures w key ↔ ∀ obj, w.objects.find key = some obj → Withdrawable w obj) ∧
    ∀ (hash : FaultInjection.Message → String)
      (w : World (faults compile parse hash)),
      CleanDepartures w key ↔ ∀ obj, w.objects.find key = some obj → Withdrawable w obj := by
  constructor
  · intro hash w
    exact clean_departures_iff
  · intro hash w
    exact clean_departures_iff

section

variable {K : Kind} (spec : K.Spec) (named : K.Named "limits") (proxy : K.Manager)

/-- The status lists `pay-0`. -/
def limitsObject : Object K where
  metadata := { name := "limits", namespace_ := "shop", finalizers := [protectFinalizer] }
  named := named
  generation := 1
  spec := spec
  status := ⟨1, none, "", [⟨"pay-0", "10.0.0.7", "", "", K.noReport⟩]⟩

/-- The pod has got another label, and its proxy is not ready. -/
def legacyPod : Pod K :=
  ⟨⟨"shop", "pay-0", AList.singleton "app" "legacy", true, false, "10.0.0.7", false⟩, proxy⟩

/-- The controller has the pod in its cache. -/
def relabelled : World K where
  objects := ⟨[limitsObject spec named], by simp⟩
  pods := ⟨[legacyPod proxy], by simp⟩
  cache := (∅ : PodCache).add "shop" "pay-0" "limits"

theorem not_clean_relabelled (unselected : CircuitBreaker.Controller.selects (K.selector spec)
      (AList.singleton "app" "legacy") = false) (holds : K.holds proxy "limits" = true) :
    ¬CleanDepartures (relabelled spec named proxy) ("shop", "limits") := by
  rw [clean_departures_iff]
  intro withdrawable
  have lists : Lists (relabelled spec named proxy) (limitsObject spec named) (legacyPod proxy) :=
    ⟨List.mem_singleton.mpr rfl, rfl⟩
  have outside : legacyPod proxy ∉ (relabelled spec named proxy).podList
      (limitsObject spec named) := by
    intro selected
    have conditions := (List.mem_filter.mp selected).2
    simp only [Bool.and_eq_true] at conditions
    exact absurd (conditions.1.2.symm.trans unselected) (by decide)
  have reached := (withdrawable (limitsObject spec named) rfl).dropped rfl (legacyPod proxy) lists
    outside holds
  exact absurd reached.1 (by simp [legacyPod, PodMeta.isProxyAvailable])

end

/-- Pods labelled `app=pay`. -/
def paySelector : Option Labels.LabelSelector :=
  some { matchLabels := AList.singleton "app" "pay" }

theorem selects_paySelector :
    CircuitBreaker.Controller.selects paySelector (AList.singleton "app" "legacy") = false := by
  decide

/-- The proxy keeps a configuration that no pass will withdraw any more. -/
theorem unready_proxy_keeps_config :
    (¬∀ (compile : Compile) (hash : CircuitBreaker.Config → String)
      (w : World (breakers compile hash)) (key : NamespacedName), CleanDepartures w key) ∧
    ¬∀ (compile : Compile) (parse : FaultInjection.Parsers) (hash : FaultInjection.Message → String)
      (w : World (faults compile parse hash)) (key : NamespacedName), CleanDepartures w key := by
  constructor
  · intro clean
    let K := breakers (fun _ => none) (fun _ => "")
    let spec : K.Spec := ⟨paySelector, [], []⟩
    let proxy : K.Manager := CircuitBreaker.Manager.new.synced (fun _ => none) 0
      ⟨.update, "limits", "", [], []⟩
    exact not_clean_relabelled (K := K) spec trivial proxy selects_paySelector rfl (clean _ _ _ _)
  · intro clean
    let K := faults (fun _ => none) .blind (fun _ => "")
    let spec : K.Spec := ⟨paySelector, false, []⟩
    let proxy : K.Manager := (syncFault (fun _ => none) .new ⟨[], .update, "", "limits"⟩).1
    exact not_clean_relabelled (K := K) spec (by decide) proxy selects_paySelector rfl
      (clean _ _ _ _ _)

end CtrlMesh.Targets
