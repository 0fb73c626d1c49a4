import CtrlMesh.Targets.Breakers
import CtrlMesh.Targets.Faults
import CtrlMesh.Targets.Loops

/-!
# Updates that the event filters drop

`filter.go` of the two controllers: an update of an object wakes the reconciler if the object is
being deleted, the number of its finalizers or its disable label has changed, or its configuration
has another hash. The hash is that of the message for the proxies, and the selector is not part of
that message, so an edit of the selector alone is dropped.
-/

namespace CtrlMesh.Targets

open Labels Lib Api
open CircuitBreaker.Controller (Write Rpc selects)

variable {ns : String}

section

variable {K : Kind}

/-- `Update` of the filters. -/
def predicateUpdate (old new : Object K) : Bool :=
  if new.metadata.deletionTimestamp.isSome ∨
      old.metadata.finalizers.length ≠ new.metadata.finalizers.length then true
  else
    let oldValue := old.metadata.labels.lookup K.disableKey
    let newValue := new.metadata.labels.lookup K.disableKey
    if oldValue.isSome ≠ newValue.isSome ∨ (oldValue.isSome = true ∧ newValue.isSome = true ∧
        oldValue.getD "" ≠ newValue.getD "") then true
    else decide (K.configHash old.config ≠ K.configHash new.config)

/-- The UPDATEs among the messages: the receivers and the configurations. -/
def updatesOf (sent : List (Sent K)) : List (Option NamespacedName × K.Config) :=
  sent.filterMap fun s => match s.message with
    | .update config => some (s.receiver, config)
    | .withdraw _ => none

/-- The UPDATEs of a pass. -/
def Pass.updates (pass : Pass K) : List (Option NamespacedName × K.Config) := updatesOf pass.sent

/-- The world with an object stored in it. -/
def World.storing (w : World K) (obj : Object K) : World K :=
  { w with objects := w.objects.put obj }

/-- Passes over two objects with the same status select the same pods and send them the same
configuration, whatever the pods are and the calls come to. -/
def SameTargets (old new : Object K) : Prop :=
  ∀ (w : World K) (o : Outcomes) (status : Status K.Report),
    (reconcile (w.storing { new with status }) new.key o).selected =
        (reconcile (w.storing { old with status }) old.key o).selected ∧
      (reconcile (w.storing { new with status }) new.key o).updates =
        (reconcile (w.storing { old with status }) old.key o).updates

/-- The object is in use, and its selector takes the labels. -/
def Object.Selects (obj : Object K) (labels : LabelSet) : Prop :=
  obj.shouldClear = false ∧ selects (K.selector obj.spec) labels = true

/-- The selectors take the same labels, and if they take any, the rest is the same too. -/
structure SameReach (old new : Object K) : Prop where
  selects : ∀ labels, old.Selects labels ↔ new.Selects labels
  rest : ∀ labels, new.Selects labels → old.metadata.namespace_ = new.metadata.namespace_ ∧
    old.config = new.config ∧ old.hasFinalizer = new.hasFinalizer

variable {w w' : World K} {obj obj' old new : Object K} {o : Outcomes}

/-- The messages of the first loop. -/
def syncSent (w : World K) (obj : Object K) (o : Outcomes) : List (Sent K) :=
  ((w.podList obj).foldl (syncTarget obj o) ⟨w, [], [], false⟩).sent

/-- The loops have sent the same, to the same proxies. -/
structure Alike (loop loop' : Loop K) : Prop where
  sent : loop.sent = loop'.sent
  pods : loop.world.pods = loop'.world.pods

theorem podAt_congr (pods : w.pods = w'.pods) (ip : String) : w.podAt ip = w'.podAt ip := by
  unfold World.podAt
  rw [pods]

theorem sendConfig_congr (pods : w.pods = w'.pods) (ip : String) (config : K.Config) (rpc : Rpc) :
    (w.sendConfig ip config rpc).1.pods = (w'.sendConfig ip config rpc).1.pods ∧
      (w.sendConfig ip config rpc).2 = (w'.sendConfig ip config rpc).2 := by
  unfold World.sendConfig
  rw [podAt_congr pods]
  cases w'.podAt ip with
  | none => exact ⟨pods, rfl⟩
  | some po =>
    cases rpc with
    | lost error => exact ⟨pods, rfl⟩
    | unanswered now error =>
      refine ⟨?_, rfl⟩
      simp [World.setProxy, pods]
    | answered now =>
      refine ⟨?_, rfl⟩
      simp [World.setProxy, pods]

theorem Alike.syncTarget {loop loop' : Loop K} (alike : Alike loop loop')
    (config : obj.config = obj'.config) (po : Pod K) :
    Alike (syncTarget obj o loop po) (syncTarget obj' o loop' po) := by
  obtain ⟨pods, answers⟩ := sendConfig_congr alike.pods po.meta_.podIP
    (Message.update obj'.config).config (o.sync po.meta_.name)
  have receiver := podAt_congr alike.pods po.meta_.podIP
  unfold Targets.syncTarget
  dsimp only
  cases available : po.meta_.isProxyAvailable with
  | false => exact ⟨alike.sent, alike.pods⟩
  | true =>
    simp only [Bool.not_true, Bool.false_eq_true, if_false]
    unfold Loop.syncPodConfig Loop.send
    dsimp only
    rw [config, alike.sent, receiver, answers]
    generalize accepted "update" K.updateNoun _ _ _ = answer
    cases answer with
    | error msg => exact ⟨rfl, pods⟩
    | ok report => exact ⟨rfl, pods⟩

/-- They depend on the pods, the selected ones among them, and the configuration. -/
theorem syncSent_congr (pods : w.pods = w'.pods) (selected : w.podList obj = w'.podList obj')
    (config : obj.config = obj'.config) : syncSent w obj o = syncSent w' obj' o := by
  unfold syncSent
  rw [selected]
  have alike : Alike ((w'.podList obj').foldl (syncTarget obj o) ⟨w, [], [], false⟩)
      ((w'.podList obj').foldl (syncTarget obj' o) ⟨w', [], [], false⟩) := by
    refine List.foldl_rel ⟨rfl, pods⟩ ?_
    intro po _ loop loop' alike
    exact alike.syncTarget config po
  exact alike.sent

theorem updatesOf_append (first second : List (Sent K)) :
    updatesOf (first ++ second) = updatesOf first ++ updatesOf second :=
  List.filterMap_append

theorem updatesOf_withdrawals (listed : List (TargetStatus K.Report)) :
    updatesOf (listed.map (withdrawal w obj o)) = [] := by
  unfold updatesOf
  rw [List.filterMap_map, List.filterMap_eq_nil_iff]
  intro st _
  rfl

theorem targets_syncTargets :
    (syncTargets w obj o).selected =
        (if o.listPods then (w.podList obj).map (·.meta_) else []) ∧
      (syncTargets w obj o).updates =
        if o.listPods then updatesOf (syncSent w obj o) else [] := by
  cases lists : o.listPods with
  | false => simp [syncTargets, lists, Pass.updates, updatesOf]
  | true =>
    obtain ⟨synced, dropped, spec⟩ := syncTargets_spec w obj lists
    rw [spec.pass]
    refine ⟨rfl, ?_⟩
    unfold Pass.updates syncSent
    dsimp only
    rw [spec.sent, updatesOf_append, updatesOf_withdrawals, List.append_nil, spec.isSynced]
    rfl

/-- The pass gets as far as the pods. -/
structure Acts (obj : Object K) (o : Outcomes) : Prop where
  read : o.getObject = true
  active : obj.shouldClear = false
  isProtected : Protected obj o
  lists : o.listPods = true

theorem targets_of_acts (acts : Acts obj o) :
    (reconcile (w.storing obj) obj.key o).selected = (w.podList obj).map (·.meta_) ∧
      (reconcile (w.storing obj) obj.key o).updates = updatesOf (syncSent w obj o) := by
  rw [reconcile_of_read acts.read w.objects.find_put_self]
  obtain ⟨-, pass⟩ | ⟨unprotected, -⟩ := reconcileObject_active (w.storing obj) o acts.active
  · obtain ⟨selected, updates⟩ := targets_syncTargets
    rw [pass, selected, updates, if_pos acts.lists, if_pos acts.lists]
    unfold World.ensured Object.ensured
    split
    · exact ⟨rfl, congrArg updatesOf (syncSent_congr rfl rfl rfl)⟩
    · exact ⟨rfl, congrArg updatesOf (syncSent_congr rfl rfl rfl)⟩
  · exact absurd acts.isProtected unprotected

/-- `clear` sends no UPDATE. -/
theorem updatesOf_clear : updatesOf (clear w obj o).sent = [] := by
  obtain ⟨-, ⟨messages, sent, withdrawals⟩, -⟩ :=
    @clearLoop_frame K obj o ⟨w, [], [], false⟩ obj.status.targetStatus
  unfold clear
  rw [sent, List.nil_append]
  refine List.filterMap_eq_nil_iff.mpr ?_
  intro message inside
  have withdraws := withdrawals message inside
  cases isMessage : message.message with
  | update config => simp [isMessage, Message.isUpdate] at withdraws
  | withdraw name => simp

theorem targets_of_not_acts (idle : ¬Acts obj o) :
    (reconcile (w.storing obj) obj.key o).selected = [] ∧
      (reconcile (w.storing obj) obj.key o).updates = [] := by
  cases read : o.getObject with
  | false =>
    rw [reconcile, read]
    exact ⟨rfl, rfl⟩
  | true =>
    rw [reconcile_of_read read w.objects.find_put_self]
    cases clears : obj.shouldClear with
    | true =>
      unfold reconcileObject
      rw [clears]
      simp only [reduceIte]
      split
      · exact ⟨rfl, rfl⟩
      · split
        · exact ⟨rfl, updatesOf_clear⟩
        · exact ⟨rfl, updatesOf_clear⟩
    | false =>
      obtain ⟨isProtected, pass⟩ | ⟨-, w', -, pass⟩ :=
        reconcileObject_active (w.storing obj) o clears
      · have unlisted : ¬o.listPods = true :=
          fun lists => idle ⟨read, clears, isProtected, lists⟩
        obtain ⟨selected, updates⟩ := targets_syncTargets
        rw [pass, selected, updates, if_neg unlisted, if_neg unlisted]
        exact ⟨rfl, rfl⟩
      · rw [pass]
        exact ⟨rfl, rfl⟩

/-- An object that takes no labels selects no pods. -/
theorem targets_of_selects_none (w : World K) (o : Outcomes)
    (selectsNone : ∀ labels, ¬obj.Selects labels) :
    (reconcile (w.storing obj) obj.key o).selected = [] ∧
      (reconcile (w.storing obj) obj.key o).updates = [] := by
  by_cases acts : Acts obj o
  · have unselected : w.podList obj = [] := by
      refine List.filter_eq_nil_iff.mpr ?_
      intro po _ conditions
      simp only [Bool.and_eq_true] at conditions
      exact selectsNone po.meta_.labels ⟨acts.active, conditions.1.2⟩
    obtain ⟨selected, updates⟩ := targets_of_acts acts
    rw [selected, updates, syncSent, unselected]
    exact ⟨rfl, rfl⟩
  · exact targets_of_not_acts acts

theorem sameTargets_of_sameReach (same : SameReach old new) : SameTargets old new := by
  intro w o status
  by_cases selectsNone : ∀ labels, ¬new.Selects labels
  · have selectsNone' : ∀ labels, ¬old.Selects labels :=
      fun labels => (same.selects labels).not.mpr (selectsNone labels)
    obtain ⟨selected, updates⟩ := @targets_of_selects_none K { new with status } w o selectsNone
    obtain ⟨selected', updates'⟩ := @targets_of_selects_none K { old with status } w o selectsNone'
    exact ⟨selected.trans selected'.symm, updates.trans updates'.symm⟩
  · obtain ⟨labels, selects⟩ := not_forall_not.mp selectsNone
    obtain ⟨ns, config, finalizer⟩ := same.rest labels selects
    have active : old.shouldClear = false := ((same.selects labels).mpr selects).1
    have selectors (labels : LabelSet) : CircuitBreaker.Controller.selects (K.selector new.spec)
        labels = CircuitBreaker.Controller.selects (K.selector old.spec) labels := by
      have both := same.selects labels
      simp only [Object.Selects, active, selects.1, true_and] at both
      exact Bool.eq_iff_iff.mpr both.symm
    have pods : w.podList { new with status } = w.podList { old with status } := by
      unfold World.podList
      dsimp only
      simp only [ns, selectors]
    have acts_iff : Acts { new with status } o ↔ Acts { old with status } o := by
      constructor
      · intro acts
        exact ⟨acts.read, active, acts.isProtected.imp_left finalizer.trans, acts.lists⟩
      · intro acts
        exact ⟨acts.read, selects.1, acts.isProtected.imp_left finalizer.symm.trans, acts.lists⟩
    by_cases acts : Acts { new with status } o
    · obtain ⟨selected, updates⟩ := targets_of_acts acts
      obtain ⟨selected', updates'⟩ := targets_of_acts (acts_iff.mp acts)
      rw [pods] at selected
      refine ⟨selected.trans selected'.symm, updates.trans (Eq.trans ?_ updates'.symm)⟩
      exact congrArg updatesOf (syncSent_congr rfl pods config.symm)
    · obtain ⟨selected, updates⟩ := targets_of_not_acts acts
      obtain ⟨selected', updates'⟩ := targets_of_not_acts (acts_iff.not.mp acts)
      exact ⟨selected.trans selected'.symm, updates.trans updates'.symm⟩

/-- A pod with the labels, whose proxy is available. -/
def probe (ns : String) (labels : LabelSet) : PodMeta :=
  ⟨ns, "probe", labels, true, false, "10.0.0.1", true⟩

/-- A world with this pod alone. -/
def probeWorld (proxy : K.Manager) (ns : String) (labels : LabelSet) : World K where
  objects := Registry.empty _
  pods := ⟨[⟨probe ns labels, proxy⟩], List.nodup_singleton _⟩
  cache := ∅

variable (proxy : K.Manager) (labels : LabelSet)

/-- All calls succeed, but for the write of the finalizer if told so. -/
def probing (addFinalizer : Write) : Outcomes :=
  { succeeding fun _ => true with addFinalizer }

theorem podList_probeWorld :
    (probeWorld proxy ns labels).podList obj =
      if ns = obj.metadata.namespace_ ∧ selects (K.selector obj.spec) labels = true then
        [⟨probe ns labels, proxy⟩]
      else [] := by
  unfold World.podList probeWorld
  by_cases conditions : ns = obj.metadata.namespace_ ∧ selects (K.selector obj.spec) labels = true
  · rw [if_pos conditions]
    simp [probe, conditions]
  · rw [if_neg conditions]
    simp only [not_and] at conditions
    simpa [probe] using conditions

theorem acts_probing {write : Write} :
    Acts obj (probing write) ↔
      obj.shouldClear = false ∧ (obj.hasFinalizer = true ∨ write = .done) := by
  constructor
  · exact fun acts => ⟨acts.active, acts.isProtected⟩
  · exact fun both => ⟨rfl, both.1, both.2, rfl⟩

/-- The probe is selected if it has a label the object takes, in the object's namespace. -/
theorem selected_probe_iff (ns : String) (write : Write) :
    (reconcile ((probeWorld proxy ns labels).storing obj) obj.key (probing write)).selected =
        [probe ns labels] ↔
      obj.Selects labels ∧ ns = obj.metadata.namespace_ ∧
        (obj.hasFinalizer = true ∨ write = .done) := by
  by_cases acts : Acts obj (probing write)
  · rw [(targets_of_acts acts).1, podList_probeWorld]
    have both := acts_probing.mp acts
    by_cases conditions : ns = obj.metadata.namespace_ ∧ selects (K.selector obj.spec) labels = true
    · simp [conditions, Object.Selects, both]
    · rw [if_neg conditions]
      simp only [List.map_nil, List.nil_eq, List.cons_ne_nil, false_iff]
      exact fun all => conditions ⟨all.2.1, all.1.2⟩
  · rw [(targets_of_not_acts acts).1]
    simp only [List.nil_eq, List.cons_ne_nil, false_iff]
    exact fun all => acts (acts_probing.mpr ⟨all.1.1, all.2.2⟩)

/-- A selected probe is sent the configuration. -/
theorem updates_probe (ns : String) {write : Write} (selected : obj.Selects labels)
    (here : ns = obj.metadata.namespace_) (isProtected : obj.hasFinalizer = true ∨ write = .done) :
    (reconcile ((probeWorld proxy ns labels).storing obj) obj.key (probing write)).updates =
      [(some (ns, "probe"), obj.config)] := by
  have acts : Acts obj (probing write) := acts_probing.mpr ⟨selected.1, isProtected⟩
  obtain ⟨acknowledged, sent⟩ := @sent_syncTarget K obj (probing write)
    ⟨probe ns labels, proxy⟩ rfl ⟨probeWorld proxy ns labels, [], [], false⟩
  rw [(targets_of_acts acts).2, syncSent, podList_probeWorld, if_pos ⟨here, selected.2⟩,
    List.foldl_cons, List.foldl_nil, sent]
  rfl

theorem SameTargets.symm (same : SameTargets old new) : SameTargets new old := by
  intro w o status
  obtain ⟨selected, updates⟩ := same w o status
  exact ⟨selected.symm, updates.symm⟩

theorem reach_of_sameTargets (proxy : K.Manager) (same : SameTargets old new) {labels : LabelSet}
    (takes : new.Selects labels) :
    old.Selects labels ∧ new.metadata.namespace_ = old.metadata.namespace_ ∧
      old.config = new.config ∧ (new.hasFinalizer = true → old.hasFinalizer = true) := by
  have agree (write : Write) (isProtected : new.hasFinalizer = true ∨ write = .done) :
      old.Selects labels ∧ new.metadata.namespace_ = old.metadata.namespace_ ∧
        (old.hasFinalizer = true ∨ write = .done) ∧ old.config = new.config := by
    obtain ⟨selected, updates⟩ := same (probeWorld proxy new.metadata.namespace_ labels)
      (probing write) new.status
    have selected' := (@selected_probe_iff K new proxy labels new.metadata.namespace_ write).mpr
      ⟨takes, rfl, isProtected⟩
    have all := (@selected_probe_iff K { old with status := new.status } proxy labels
      new.metadata.namespace_ write).mp (selected.symm.trans selected')
    have sent := @updates_probe K new proxy labels new.metadata.namespace_ write takes rfl
      isProtected
    have sent' := @updates_probe K { old with status := new.status } proxy labels
      new.metadata.namespace_ write all.1 all.2.1 all.2.2
    have configs := sent'.symm.trans (updates.symm.trans sent)
    simp only [List.cons.injEq, Prod.mk.injEq, true_and, and_true] at configs
    exact ⟨all.1, all.2.1, all.2.2, configs⟩
  obtain ⟨takes', ns, -, config⟩ := agree .done (.inr rfl)
  refine ⟨takes', ns, config, ?_⟩
  intro finalizer
  refine (agree .lost (.inl finalizer)).2.2.1.resolve_right ?_
  intro written
  cases written

/-- Whatever the filter says. -/
theorem sameTargets_iff (proxy : K.Manager) (old new : Object K) :
    SameTargets old new ↔ SameReach old new := by
  constructor
  · intro same
    refine ⟨?_, ?_⟩
    · intro labels
      constructor
      · exact fun takes => (reach_of_sameTargets proxy same.symm takes).1
      · exact fun takes => (reach_of_sameTargets proxy same takes).1
    · intro labels takes
      obtain ⟨takes', ns, config, finalizer⟩ := reach_of_sameTargets proxy same takes
      obtain ⟨-, -, -, finalizer'⟩ := reach_of_sameTargets proxy same.symm takes'
      exact ⟨ns.symm, config, Bool.eq_iff_iff.mpr ⟨finalizer', finalizer⟩⟩
  · exact sameTargets_of_sameReach

/-- The disable label is set. -/
def Object.disabled (obj : Object K) : Bool := (obj.metadata.labels.lookup K.disableKey).isSome

/-- The selectors take the same labels, and if any, the namespace, the configuration and the
protection are the same; an object being deleted took none. -/
structure Unaltered (old new : Object K) : Prop where
  selectors : ∀ labels, (old.metadata.deletionTimestamp = none ∧
    selects (K.selector old.spec) labels = true) ↔ selects (K.selector new.spec) labels = true
  rest : ∀ labels, selects (K.selector new.spec) labels = true →
    old.metadata.namespace_ = new.metadata.namespace_ ∧ old.config = new.config ∧
      old.hasFinalizer = new.hasFinalizer

/-- What the filter compares is the same in a dropped update. -/
theorem same_of_dropped (dropped : predicateUpdate old new = false) :
    new.metadata.deletionTimestamp = none ∧
      old.metadata.finalizers.length = new.metadata.finalizers.length ∧
      old.disabled = new.disabled ∧ K.configHash old.config = K.configHash new.config := by
  unfold predicateUpdate at dropped
  split at dropped
  · cases dropped
  · next kept =>
    dsimp only at dropped
    split at dropped
    · cases dropped
    · next label =>
      rw [not_or] at kept label
      have unmarked : new.metadata.deletionTimestamp = none := by simpa using kept.1
      have count := not_not.mp kept.2
      have disabled : old.disabled = new.disabled := not_not.mp label.1
      exact ⟨unmarked, count, disabled, by simpa using dropped⟩

theorem selects_iff :
    obj.Selects labels ↔ obj.disabled = false ∧ obj.metadata.deletionTimestamp = none ∧
      selects (K.selector obj.spec) labels = true := by
  unfold Object.Selects Object.shouldClear Object.disabled
  rw [Bool.or_eq_false_iff, Option.isSome_eq_false_iff, Option.isSome_eq_false_iff,
    Option.isNone_iff_eq_none, Option.isNone_iff_eq_none, and_assoc]

theorem sameReach_iff (dropped : predicateUpdate old new = false) :
    SameReach old new ↔ new.disabled = true ∨ Unaltered old new := by
  obtain ⟨unmarked, -, label, -⟩ := same_of_dropped dropped
  cases disabled : new.disabled with
  | true =>
    have idle (labels : LabelSet) : ¬new.Selects labels := by
      rw [selects_iff, disabled]
      exact fun all => absurd all.1 (by decide)
    have idle' (labels : LabelSet) : ¬old.Selects labels := by
      rw [selects_iff, label, disabled]
      exact fun all => absurd all.1 (by decide)
    refine iff_of_true ⟨?_, ?_⟩ (.inl rfl)
    · exact fun labels => iff_of_false (idle' labels) (idle labels)
    · exact fun labels takes => absurd takes (idle labels)
  | false =>
    have takes (labels : LabelSet) : new.Selects labels ↔
        selects (K.selector new.spec) labels = true := by
      rw [selects_iff, disabled, unmarked]
      simp
    have takes' (labels : LabelSet) : old.Selects labels ↔
        old.metadata.deletionTimestamp = none ∧ selects (K.selector old.spec) labels = true := by
      rw [selects_iff, label, disabled]
      simp
    simp only [Bool.false_eq_true, false_or]
    constructor
    · intro same
      refine ⟨?_, ?_⟩
      · intro labels
        rw [← takes, ← takes']
        exact same.selects labels
      · exact fun labels selected => same.rest labels ((takes labels).mpr selected)
    · intro same
      refine ⟨?_, ?_⟩
      · intro labels
        rw [takes, takes']
        exact same.selectors labels
      · exact fun labels selected => same.rest labels ((takes labels).mp selected)

end

section

variable (compile : Compile) (parse : FaultInjection.Parsers)

/-- `BreakerPredicate.Update`. -/
def BreakerPredicate.update (hash : CircuitBreaker.Config → String)
    (oldCB newCB : Object (breakers compile hash)) : Bool :=
  predicateUpdate oldCB newCB

/-- `FaultInjectionPredicate.Update`. -/
def FaultInjectionPredicate.update (hash : FaultInjection.Message → String)
    (oldFault newFault : Object (faults compile parse hash)) : Bool :=
  predicateUpdate oldFault newFault

end

/-- A dropped update changes nothing for the pods exactly when the object is disabled, or what the
filter does not compare is unaltered. -/
theorem dropped_update_iff (compile : Compile) (parse : FaultInjection.Parsers) :
    (∀ (hash : CircuitBreaker.Config → String) (old new : Object (breakers compile hash)),
      BreakerPredicate.update compile hash old new = false →
      (SameTargets old new ↔ new.disabled = true ∨ Unaltered old new)) ∧
    ∀ (hash : FaultInjection.Message → String)
      (old new : Object (faults compile parse hash)),
      FaultInjectionPredicate.update compile parse hash old new = false →
      (SameTargets old new ↔ new.disabled = true ∨ Unaltered old new) := by
  constructor
  · intro hash old new dropped
    exact (sameTargets_iff CircuitBreaker.Manager.new old new).trans (sameReach_iff dropped)
  · intro hash old new dropped
    exact (sameTargets_iff FaultInjection.Manager.new old new).trans (sameReach_iff dropped)

section

variable {K : Kind}

/-- An object of the name in use. -/
def inUse (spec : K.Spec) (named : K.Named "limits") (generation : Int) : Object K where
  metadata := { name := "limits", namespace_ := "shop", finalizers := [protectFinalizer] }
  named := named
  generation := generation
  spec := spec
  status := ⟨generation, none, "", []⟩

end

/-- Pods of one application. -/
def appSelector (app : String) : Option LabelSelector :=
  some { matchLabels := AList.singleton "app" app }

theorem plain_limits : ':' ∉ "limits".toList := by decide

theorem unaltered_inUse {K : Kind} {spec : K.Spec} (named : K.Named "limits") :
    Unaltered (inUse spec named 1) (inUse spec named 2) := by
  refine ⟨?_, ?_⟩
  · intro labels
    exact ⟨fun both => both.2, fun takes => ⟨rfl, takes⟩⟩
  · exact fun labels _ => ⟨rfl, rfl, rfl⟩

/-- An update of the generation alone is dropped, and the pods get the same. -/
theorem dropped_update_generation :
    (BreakerPredicate.update (fun _ => none) (fun _ => "")
        (inUse ⟨appSelector "pay", [], []⟩ trivial 1)
        (inUse ⟨appSelector "pay", [], []⟩ trivial 2) = false ∧
      @SameTargets (breakers (fun _ => none) (fun _ => ""))
        (inUse ⟨appSelector "pay", [], []⟩ trivial 1)
        (inUse ⟨appSelector "pay", [], []⟩ trivial 2)) ∧
    FaultInjectionPredicate.update (fun _ => none) .blind (fun _ => "")
        (inUse ⟨appSelector "pay", false, []⟩ plain_limits 1)
        (inUse ⟨appSelector "pay", false, []⟩ plain_limits 2) = false ∧
      @SameTargets (faults (fun _ => none) .blind (fun _ => ""))
        (inUse ⟨appSelector "pay", false, []⟩ plain_limits 1)
        (inUse ⟨appSelector "pay", false, []⟩ plain_limits 2) := by
  refine ⟨⟨rfl, ?_⟩, rfl, ?_⟩
  · exact ((dropped_update_iff _ .blind).1 _ _ _ rfl).mpr
      (.inr (unaltered_inUse _))
  · exact ((dropped_update_iff _ _).2 _ _ _ rfl).mpr (.inr (unaltered_inUse _))

/-- The pods of `app=legacy` are selected after the edit, and not before. -/
theorem not_sameTargets_inUse {K : Kind} (proxy : K.Manager) {pay legacy : K.Spec}
    (named : K.Named "limits") (isPay : K.selector pay = appSelector "pay")
    (isLegacy : K.selector legacy = appSelector "legacy") :
    ¬SameTargets (inUse pay named 1) (inUse legacy named 2) := by
  intro same
  have takes : (inUse legacy named 2).Selects (AList.singleton "app" "legacy") := by
    refine ⟨rfl, ?_⟩
    change selects (K.selector legacy) _ = true
    rw [isLegacy]
    decide
  have takes' := (((sameTargets_iff proxy _ _).mp same).selects _).mpr takes
  have selected : selects (K.selector pay) (AList.singleton "app" "legacy") = true := takes'.2
  rw [isPay] at selected
  exact absurd selected (by decide)

/-- An edit of the selector is dropped, whatever the hash function is. -/
theorem selector_edit_is_dropped :
    (∀ (compile : Compile) (hash : CircuitBreaker.Config → String),
      ¬∀ old new : Object (breakers compile hash),
        BreakerPredicate.update compile hash old new = false → SameTargets old new) ∧
    ∀ (compile : Compile) (parse : FaultInjection.Parsers) (hash : FaultInjection.Message → String),
      ¬∀ old new : Object (faults compile parse hash),
        FaultInjectionPredicate.update compile parse hash old new = false →
          SameTargets old new := by
  constructor
  · intro compile hash forwards
    refine @not_sameTargets_inUse (breakers compile hash) CircuitBreaker.Manager.new
      ⟨appSelector "pay", [], []⟩ ⟨appSelector "legacy", [], []⟩ trivial rfl rfl
      (forwards _ _ ?_)
    simp [BreakerPredicate.update, predicateUpdate, inUse, Object.config]
  · intro compile parse hash forwards
    refine @not_sameTargets_inUse (faults compile parse hash)
      FaultInjection.Manager.new ⟨appSelector "pay", false, []⟩
      ⟨appSelector "legacy", false, []⟩ plain_limits rfl rfl (forwards _ _ ?_)
    simp [FaultInjectionPredicate.update, predicateUpdate, inUse, Object.config]

end CtrlMesh.Targets
