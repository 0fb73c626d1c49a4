import CtrlMesh.FaultInjection.Enforcement
import CtrlMesh.Targets.Delivery

/-!
# FaultInjections that are switched off

A FaultInjection is switched off by a field of its specification or by a label. Nothing reads the
field, so the rules of such an object are sent out like those of any other. The label leads to
`clear`, which asks only the proxies of listed pods that the cache knows, while the object has its
finalizer. The theorem below says which proxies a pass without an error leaves with a rule of the
object.
-/

namespace CtrlMesh.Targets

open Labels Lib Api
open FaultInjection (Manager Config runSync sync)

section

variable {compile : Compile} {parse : FaultInjection.Parsers}
  {hash : FaultInjection.Message → String}

/-- The proxies have been brought to their states by calls of `Sync`. -/
def World.Running (w : World (faults compile parse hash)) : Prop :=
  ∀ po ∈ w.pods.items, ∃ history, (∀ config ∈ history, ':' ∉ config.name.toList) ∧
    po.proxy = runSync compile history

/-- The proxy of a pod enforces a rule of the name. -/
def World.Enforces (w : World (faults compile parse hash))
    (key : NamespacedName) (name : String) : Prop :=
  ∃ m : Manager, w.proxyAt key = some m ∧ m.Enforces name

/-- The object is switched off, by the field or by the label. -/
def Object.Disabled (obj : Object (faults compile parse hash)) : Prop :=
  obj.spec.disabled = true ∨
    (obj.metadata.labels.lookup ctrlmeshFaultInjectionDisableKey).isSome = true

/-- A pass without an error over an object that is switched off leaves no rule of it in an available
proxy of a selected pod. -/
def SwitchesOff (w : World (faults compile parse hash)) (key : NamespacedName)
    (o : Outcomes) : Prop :=
  ∀ obj, w.objects.find key = some obj → obj.Disabled → (reconcile w key o).failed = false →
    ∀ po ∈ w.podList obj, po.meta_.isProxyAvailable = true →
      ¬(reconcile w key o).world.Enforces po.key obj.name

/-- The configuration of an object as a proxy reads it. -/
def Object.sentConfig (obj : Object (faults compile parse hash)) : Config :=
  obj.config.transported

/-- How a rule of an object can be in a proxy after a pass without an error. -/
inductive Remains (w : World (faults compile parse hash))
    (obj : Object (faults compile parse hash)) (o : Outcomes)
    (po : Pod (faults compile parse hash)) : Prop where
  /-- The object is given up, but the proxy is not asked. -/
  | unasked (clears : obj.shouldClear = true) (before : po.proxy.Enforces obj.name)
      (skipped : ¬(obj.hasFinalizer = true ∧ w.Clears obj po.key))
  /-- The pass has sent it. -/
  | given (active : obj.shouldClear = false) (undropped : ¬w.Drops obj o po.key)
      (updated : w.Updates obj po.key) (new : ¬po.proxy.Recorded obj.sentConfig)
      (asks : obj.sentConfig.Asks)
  /-- The proxy had it, and got no message or one with the hash it had recorded. -/
  | kept (active : obj.shouldClear = false) (undropped : ¬w.Drops obj o po.key)
      (known : w.Updates obj po.key → po.proxy.Recorded obj.sentConfig)
      (before : po.proxy.Enforces obj.name)

theorem timeless_faults : Timeless (faults compile parse hash) :=
  fun _ _ _ => rfl

variable {m after : Manager} {message : Message (faults compile parse hash)}

theorem ran_of_taken (taken : message.taken m = some after) :
    ∃ result, (sync compile message.config.transported).run m = .ok result after := by
  have isSync : (faults compile parse hash).sync m 0 message.config =
    syncFault compile m message.config := rfl
  unfold Message.taken at taken
  rw [isSync, syncFault] at taken
  cases ran : (sync compile message.config.transported).run m with
  | error panic m' => simp [ran] at taken
  | ok result m' =>
    obtain ⟨resp, error⟩ := result
    cases error with
    | some text => simp [ran] at taken
    | none =>
      simp only [ran, Option.ite_none_right_eq_some, Option.some.injEq] at taken
      exact ⟨_, congrArg _ taken.2⟩

theorem taken_of_ran {text : String}
    (ran : (sync compile message.config.transported).run m = .ok (⟨true, text⟩, none) after) :
    message.taken m = some after := by
  have isSync : (faults compile parse hash).sync m 0 message.config =
    syncFault compile m message.config := rfl
  unfold Message.taken
  rw [isSync, syncFault, ran]
  rfl

theorem covered_of_taken (covered : m.Covered)
    (plain : ':' ∉ message.config.transported.name.toList) (taken : message.taken m = some after) :
    after.Covered := by
  obtain ⟨result, ran⟩ := ran_of_taken taken
  have kept := @Manager.Covered.sync compile m _ covered plain
  rw [Effect.after_of_ok ran] at kept
  exact kept

variable {w : World (faults compile parse hash)}
  {obj : Object (faults compile parse hash)} {o : Outcomes}
  {po : Pod (faults compile parse hash)} {key : NamespacedName}

theorem update_settles (covered : m.Covered) (after : Manager)
    (taken : (Message.update obj.config).taken m = some after) :
    (Message.update obj.config).taken after = some after := by
  obtain ⟨result, ran⟩ := ran_of_taken taken
  have recorded := FaultInjection.recorded_updated covered.named rfl ran
  obtain ⟨text, again⟩ := @FaultInjection.sync_recorded compile _ _ rfl recorded
  exact taken_of_ran again

variable {name : String} {sent : List (Sent (faults compile parse hash))}
  {reached : NamespacedName → Prop}

theorem withdraw_settles (covered : m.Covered) (after : Manager)
    (taken : (Message.withdraw (K := faults compile parse hash) name).taken m =
      some after) : (Message.withdraw (K := faults compile parse hash) name).taken after =
      some after := by
  obtain ⟨result, ran⟩ := ran_of_taken taken
  obtain ⟨text, again⟩ := FaultInjection.sync_deleted covered.named rfl ran
  exact taken_of_ran again

/-- The proxy of a pod after a pass without an error. -/
theorem proxyAt_after (succeeds : (reconcileObject w obj o).failed = false)
    (found : w.pods.find po.key = some po) :
    ∃ after, (reconcileObject w obj o).world.proxyAt po.key = some after ∧
      received po.key (reconcileObject w obj o).sent po.proxy = some after := by
  have before : w.proxyAt po.key = some po.proxy := by
    unfold World.proxyAt
    rw [found, Option.map_some]
  have present : ((reconcileObject w obj o).world.proxyAt po.key).isSome = true := by
    rw [isSome_proxyAt, metas_reconcileObject, ← isSome_proxyAt, before]
    rfl
  obtain ⟨after, isAfter⟩ := Option.isSome_iff_exists.mp present
  refine ⟨after, isAfter, ?_⟩
  rw [(delivered_reconcileObject timeless_faults succeeds).proxies, before] at isAfter
  exact isAfter

theorem enforces_iff (isAfter : w.proxyAt key = some m) :
    w.Enforces key name ↔ m.Enforces name := by
  unfold World.Enforces
  rw [isAfter]
  constructor
  · rintro ⟨_, same, enforces⟩
    cases same
    exact enforces
  · intro enforces
    exact ⟨m, rfl, enforces⟩

/-- Withdrawals that are all taken. -/
theorem enforces_withdrawn (covered : m.Covered)
    (addressed : Addressed (.withdraw name) reached sent)
    (taken : received key sent m = some after) :
    after.Enforces name ↔ m.Enforces name ∧ ¬reached key := by
  obtain ⟨hit, missed⟩ := addressed.received (withdraw_settles covered) key
  by_cases asked : reached key
  · rw [hit asked] at taken
    obtain ⟨result, ran⟩ := ran_of_taken taken
    have gone : ¬after.Enforces name := FaultInjection.not_enforces_deleted covered rfl ran
    exact iff_of_false gone fun both => both.2 asked
  · rw [missed asked] at taken
    cases taken
    exact (and_iff_left asked).symm

/-- Updates that are all taken. -/
theorem enforces_updates (covered : m.Covered)
    (addressed : Addressed (.update obj.config) reached sent)
    (taken : received key sent m = some after) :
    after.Covered ∧ (after.Enforces obj.name ↔
      (reached key ∧ ¬m.Recorded obj.sentConfig) ∧ obj.sentConfig.Asks ∨
        (reached key → m.Recorded obj.sentConfig) ∧ m.Enforces obj.name) := by
  obtain ⟨hit, missed⟩ := addressed.received (update_settles covered) key
  by_cases asked : reached key
  · rw [hit asked] at taken
    have plain : ':' ∉ (Message.update obj.config).config.transported.name.toList := obj.named
    refine ⟨covered_of_taken covered plain taken, ?_⟩
    obtain ⟨result, ran⟩ := ran_of_taken taken
    by_cases recorded : m.Recorded obj.sentConfig
    · obtain ⟨text, same⟩ := @FaultInjection.sync_recorded compile m obj.sentConfig rfl recorded
      have unchanged : m = after := by
        have both := ran.symm.trans same
        cases both
        rfl
      subst unchanged
      simp [asked, recorded]
    · have given : after.Enforces obj.name ↔ obj.sentConfig.Asks :=
        FaultInjection.enforces_updated covered obj.named rfl recorded ran
      simp [asked, recorded, given]
  · rw [missed asked] at taken
    cases taken
    refine ⟨covered, ?_⟩
    simp [asked]

/-- Which proxies have a rule of the object after a pass without an error. -/
theorem remains_iff (covered : po.proxy.Covered)
    (succeeds : (reconcileObject w obj o).failed = false) (found : w.pods.find po.key = some po) :
    (reconcileObject w obj o).world.Enforces po.key obj.name ↔ Remains w obj o po := by
  obtain ⟨after, isAfter, taken⟩ := proxyAt_after succeeds found
  rw [enforces_iff isAfter]
  cases clears : obj.shouldClear with
  | true =>
    have sent : Addressed (.withdraw obj.name)
        (fun key => obj.hasFinalizer = true ∧ w.Clears obj key) (reconcileObject w obj o).sent := by
      cases finalizer : obj.hasFinalizer with
      | false =>
        have none : (reconcileObject w obj o).sent = [] := by
          simp [reconcileObject, clears, finalizer]
        rw [none]
        exact (addressed_nil).congr (by simp)
      | true =>
        have unfailed : (clear w obj o).failed = false := by
          cases failed : (clear w obj o).failed with
          | false => rfl
          | true => simp [reconcileObject, clears, finalizer, failed] at succeeds
        rw [sent_cleared clears finalizer]
        exact (addressed_clear unfailed).congr (by simp)
    rw [enforces_withdrawn covered sent taken]
    constructor
    · intro both
      exact .unasked clears both.1 both.2
    · intro remains
      cases remains with
      | unasked _ before skipped => exact ⟨before, skipped⟩
      | given active => exact absurd (clears.symm.trans active) (by decide)
      | kept active => exact absurd (clears.symm.trans active) (by decide)
  | false =>
    obtain ⟨updates, withdrawals, sent, updated, dropped⟩ := sent_active clears succeeds
    rw [sent, received_append] at taken
    obtain ⟨middle, first, second⟩ := Option.bind_eq_some_iff.mp taken
    obtain ⟨covered', enforces⟩ := enforces_updates covered updated first
    rw [enforces_withdrawn covered' dropped second, enforces]
    constructor
    · rintro ⟨⟨⟨asked, new⟩, asks⟩ | ⟨known, before⟩, undropped⟩
      · exact .given clears undropped asked new asks
      · exact .kept clears undropped known before
    · intro remains
      cases remains with
      | unasked cleared => exact absurd (cleared.symm.trans clears) (by decide)
      | given _ undropped asked new asks => exact ⟨.inl ⟨⟨asked, new⟩, asks⟩, undropped⟩
      | kept _ undropped known before => exact ⟨.inr ⟨known, before⟩, undropped⟩

/-- A pass switches an object off exactly when no rule of it remains in one of the ways above. -/
theorem switchesOff_iff (w : World (faults compile parse hash)) (running : w.Running)
    (key : NamespacedName) (o : Outcomes) :
    SwitchesOff w key o ↔
      ∀ obj, w.objects.find key = some obj → obj.Disabled → (reconcile w key o).failed = false →
        ∀ po ∈ w.podList obj, po.meta_.isProxyAvailable = true → ¬Remains w obj o po := by
  unfold SwitchesOff
  refine forall₄_congr fun obj stored _ succeeds => forall₃_congr fun po selected _ => ?_
  obtain ⟨-, isPass⟩ := reconcile_of_succeeds stored succeeds
  have member : po ∈ w.pods.items := (List.mem_filter.mp selected).1
  obtain ⟨history, plain, isProxy⟩ := running po member
  have covered : Manager.Covered po.proxy := isProxy ▸ FaultInjection.runSync_covered plain
  rw [isPass] at succeeds ⊢
  exact not_congr (remains_iff covered succeeds (Registry.mem_iff_find.mp member))

end

section

/-- Expressions and durations are not used; every percentage is read as 100. -/
@[reducible] def denials : Kind :=
  faults (fun _ => none) ⟨fun _ => none, fun _ => some (.finite 100)⟩ (fun _ => "")

/-- Requests for secrets are denied. -/
def denySecrets : FaultInjection.Spec.HTTPFaultInjection :=
  ⟨"deny", none, some ⟨403, "100"⟩, some ⟨[⟨["*"], ["*"], ["secrets"], ["*"]⟩], []⟩, none⟩

/-- An object with the rule. -/
def denyObject (disabled : Bool) (labels : LabelSet)
    (targetStatus : List (TargetStatus Unit)) : Object denials where
  metadata :=
    { name := "deny", namespace_ := "shop", labels, finalizers := [protectFinalizer] }
  named := show ':' ∉ "deny".toList by decide
  generation := 1
  spec := ⟨paySelector, disabled, [denySecrets]⟩
  status := ⟨1, none, "", targetStatus⟩

/-- A selected pod whose proxy is ready. -/
def paidPod (proxy : Manager) : Pod denials :=
  ⟨⟨"shop", "pay-0", AList.singleton "app" "pay", true, false, "10.0.0.7", true⟩, proxy⟩

/-- The object and the pod. -/
def denyWorld (obj : Object denials) (proxy : Manager) : World denials where
  objects := ⟨[obj], List.nodup_singleton _⟩
  pods := ⟨[paidPod proxy], List.nodup_singleton _⟩
  cache := ∅

/-- The field is set, and the proxy is new. -/
def disabledByField : World denials := denyWorld (denyObject true ∅ []) .new

/-- The label is set, and the proxy has the rule; the controller has been restarted since. -/
def disabledByLabel : World denials :=
  denyWorld (denyObject false (AList.singleton ctrlmeshFaultInjectionDisableKey "true")
      [⟨"pay-0", "10.0.0.7", "", "", ()⟩])
    (runSync (fun _ => none) [(denyObject false ∅ []).sentConfig])

theorem running_disabledByField : disabledByField.Running := by
  intro po member
  refine ⟨[], by simp, ?_⟩
  rw [List.mem_singleton.mp member]
  rfl

theorem running_disabledByLabel : disabledByLabel.Running := by
  intro po member
  refine ⟨[(denyObject false ∅ []).sentConfig], ?_, ?_⟩
  · intro config isConfig
    rw [List.mem_singleton.mp isConfig]
    exact (denyObject false ∅ []).named
  · rw [List.mem_singleton.mp member]
    rfl

theorem switchesOff_disabledByField :
    SwitchesOff disabledByField ("shop", "deny") (succeeding fun _ => true) ↔
      ∀ obj, disabledByField.objects.find ("shop", "deny") = some obj → obj.Disabled →
        (reconcile disabledByField ("shop", "deny") (succeeding fun _ => true)).failed = false →
        ∀ po ∈ disabledByField.podList obj, po.meta_.isProxyAvailable = true →
          ¬Remains disabledByField obj (succeeding fun _ => true) po :=
  switchesOff_iff disabledByField running_disabledByField ("shop", "deny")
    (succeeding fun _ => true)

/-- The pass sends the rule of an object whose field is set, and leaves it with the proxy of a pod
that the cache does not know when the label is set. -/
theorem disabled_still_injects :
    (¬∀ (w : World denials) (key : NamespacedName) (o : Outcomes), w.Running →
      (∀ obj, w.objects.find key = some obj → obj.spec.disabled = true) →
      SwitchesOff w key o) ∧
    ¬∀ (w : World denials) (key : NamespacedName) (o : Outcomes), w.Running →
      (∀ obj, w.objects.find key = some obj →
        (obj.metadata.labels.lookup ctrlmeshFaultInjectionDisableKey).isSome = true) →
      SwitchesOff w key o := by
  constructor
  · intro switchesOff
    have off := switchesOff disabledByField ("shop", "deny") (succeeding fun _ => true)
      running_disabledByField (by
        intro obj stored
        cases stored
        rfl)
    refine off _ rfl (.inl rfl) rfl _ (List.mem_filter.mpr ⟨List.mem_singleton.mpr rfl, ?_⟩) rfl ?_
    · decide
    · exact ⟨_, rfl, .resources, "deny:deny", _, by decide, rfl⟩
  · intro switchesOff
    have off := switchesOff disabledByLabel ("shop", "deny") (succeeding fun _ => true)
      running_disabledByLabel (by
        intro obj stored
        cases stored
        rfl)
    refine off _ rfl (.inr rfl) rfl _ (List.mem_filter.mpr ⟨List.mem_singleton.mpr rfl, ?_⟩) rfl ?_
    · decide
    · exact ⟨_, rfl, .resources, "deny:deny", _, by decide, rfl⟩

end

end CtrlMesh.Targets
