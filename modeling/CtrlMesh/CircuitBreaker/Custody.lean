import CtrlMesh.CircuitBreaker.Priority

/-!
# What the lease has in its hands

The lease keeps pointers to state objects, also to those of earlier registrations. An object in its
hands that is still in the store belongs to a rule that sleeps, for a rule that changes gets a new
object. So every open breaker that the lease has in its hands has a time to be closed at.
-/

namespace CtrlMesh.CircuitBreaker

open Labels Lib

/-- The object is queued, being processed, or in the state set. -/
def Lease.Holds (lease : Lease) (ref : StateRef) : Prop :=
  ref ∈ lease.stateQueue ∨ (∃ stage, lease.processing = some (ref, stage)) ∨
    ∃ key, lease.stateSet.lookup key = some ref

namespace LimiterStore

/-- The objects of the lease exist; those in the store are of rules that sleep, and the open ones
have a time to be closed at. -/
structure Custody (s : LimiterStore) : Prop where
  inHeap : ∀ ref, s.breakerLease.Holds ref → ref < s.heap.length
  sleeps : ∀ ref key, s.breakerLease.Holds ref → s.states.lookup key = some ref →
    ∃ limiting, s.rules.lookup key = some limiting ∧ limiting.Sleeps
  timed : ∀ ref st, s.breakerLease.Holds ref → s.heap[ref]? = some st → st.state = .opened →
    st.recoverAt.isSome

/-- The object of the key, if it has one, is not in the hands of the lease. -/
def Free (s : LimiterStore) (key : String) : Prop :=
  ∀ ref, s.states.lookup key = some ref → ¬s.breakerLease.Holds ref

variable {s s' : LimiterStore} {key : String} {ref : StateRef} {st : State}
  {limiting : RateLimiting} {parse : Parsers} {now : Int}

theorem custody_new : Custody .new := by
  have empty : ∀ ref, ¬LimiterStore.new.breakerLease.Holds ref := by
    intro ref
    simp [Lease.Holds, LimiterStore.new]
  constructor
  · intro ref held
    exact absurd held (empty ref)
  · intro ref key held
    exact absurd held (empty ref)
  · intro ref st held
    exact absurd held (empty ref)

section

variable (custody : s.Custody)

include custody

/-- The lease may let objects go. -/
theorem Custody.withLease {lease : Lease}
    (fewer : ∀ ref, lease.Holds ref → s.breakerLease.Holds ref) :
    { s with breakerLease := lease }.Custody := by
  constructor
  · intro ref held
    exact custody.inHeap ref (fewer ref held)
  · intro ref key held
    exact custody.sleeps ref key (fewer ref held)
  · intro ref st held
    exact custody.timed ref st (fewer ref held)

/-- A write that opens an object in the hands of the lease must give it a time. -/
theorem Custody.modifyState (ref : StateRef) {f : State → State}
    (timed : ∀ st, s.heap[ref]? = some st → s.breakerLease.Holds ref → (f st).state = .opened →
      (f st).recoverAt.isSome) : (s.modifyState ref f).Custody := by
  constructor
  · intro other held
    have length : (s.modifyState ref f).heap.length = s.heap.length := List.length_modify ..
    rw [length]
    exact custody.inHeap other held
  · exact custody.sleeps
  · intro other st held object isOpen
    by_cases same : other = ref
    · subst same
      have inside := custody.inHeap other held
      have before : s.heap[other]? = some (s.heap[other]) := List.getElem?_eq_getElem inside
      rw [heap_modifyState before, Option.some.injEq] at object
      rw [← object] at isOpen ⊢
      exact timed _ before held isOpen
    · have kept : (s.modifyState ref f).heap[other]? = s.heap[other]? := by
        simp [LimiterStore.modifyState, Ne.symm same]
      rw [kept] at object
      exact custody.timed other st held object isOpen

theorem Custody.recoverBreaker (ref : StateRef) (now : Int) :
    (s.modifyState ref (·.recoverBreaker now)).Custody := by
  apply custody.modifyState
  intro st _ _ isOpen
  exact absurd isOpen st.recoverBreaker_ne_opened

theorem Custody.deleteRule (key : String) : (s.deleteRule key).Custody := by
  unfold LimiterStore.deleteRule
  cases s.rules.lookup key with
  | none => exact custody
  | some oldOne =>
    refine ⟨custody.inHeap, ?_, custody.timed⟩
    intro ref other held listed
    obtain ⟨different, old⟩ := lookup_erase_eq_some.mp listed
    dsimp only
    rw [AList.lookup_erase_ne different]
    exact custody.sleeps ref other held old

/-- A rule may be stored under a key whose object the lease does not have. -/
theorem Custody.createOrUpdateRule (free : s.Free key) (limiting : RateLimiting) :
    (s.createOrUpdateRule key limiting).Custody ∧
      ∀ other, s.Free other → (s.createOrUpdateRule key limiting).Free other := by
  have others : ∀ ref other, other ≠ key → s.breakerLease.Holds ref →
      s.states.lookup other = some ref →
      ∃ rule, (s.rules.insert key limiting).lookup other = some rule ∧ rule.Sleeps := by
    intro ref other different held listed
    rw [AList.lookup_insert_ne different]
    exact custody.sleeps ref other held listed
  unfold LimiterStore.createOrUpdateRule
  cases s.rules.lookup key with
  | none =>
    -- the new object has a position that no object in the hands of the lease has
    have unheld : ¬s.breakerLease.Holds s.heap.length := by
      intro held
      exact absurd (custody.inHeap _ held) (lt_irrefl _)
    refine ⟨⟨?_, ?_, ?_⟩, ?_⟩
    · intro ref held
      have inside := custody.inHeap ref held
      rw [List.length_append]
      exact Nat.lt_add_right 1 inside
    · intro ref other held listed
      rcases lookup_insert_eq_some.mp listed with ⟨-, rfl⟩ | ⟨different, old⟩
      · exact absurd held unheld
      · exact others ref other different held old
    · intro ref st held object isOpen
      rw [List.getElem?_append_left (custody.inHeap ref held)] at object
      exact custody.timed ref st held object isOpen
    · intro other freeOther ref listed
      rcases lookup_insert_eq_some.mp listed with ⟨-, rfl⟩ | ⟨-, old⟩
      · exact unheld
      · exact freeOther ref old
  | some oldOne =>
    refine ⟨⟨custody.inHeap, ?_, custody.timed⟩, fun other freeOther => freeOther⟩
    intro ref other held listed
    by_cases same : other = key
    · exact absurd held (free ref (same ▸ listed))
    · exact others ref other same held listed

theorem Custody.registerAll (name : String) (rules : List RateLimiting)
    (free : ∀ rule ∈ rules, s.Free (ruleKey name rule.name)) :
    (rules.foldl (fun s limiting => s.createOrUpdateRule (ruleKey name limiting.name) limiting)
      s).Custody := by
  induction rules generalizing s with
  | nil => exact custody
  | cons first rules ih =>
    have ⟨custody', free'⟩ := custody.createOrUpdateRule (free first List.mem_cons_self) first
    apply ih custody'
    intro rule member
    exact free' _ (free rule (List.mem_cons_of_mem first member))

theorem Custody.unregisterAll (name : String) (rules : List RateLimiting) :
    (rules.foldl (fun s limiting => s.deleteRule (ruleKey name limiting.name)) s).Custody := by
  induction rules generalizing s with
  | nil => exact custody
  | cons first rules ih => exact ih (custody.deleteRule _)

/-- An object that opens for a time may be handed to the lease. -/
theorem Custody.openAndRegister (keyed : s.Keyed) (ruled : s.rules.lookup key = some limiting)
    (listed : s.states.lookup key = some ref) (object : s.heap[ref]? = some st)
    (closed : st.state = .closed) (sleeps : limiting.Sleeps) (now window : Int) :
    ((s.modifyState ref
      (·.triggerBreakerWithTimeWindow now window)).registerState ref).Custody := by
  have written := heap_modifyState object (·.triggerBreakerWithTimeWindow now window)
  rw [State.triggerBreakerWithTimeWindow_of_closed closed] at written
  have opened : (s.modifyState ref (·.triggerBreakerWithTimeWindow now window)).Custody := by
    apply custody.modifyState
    intro st' object' _ _
    rw [object, Option.some.injEq] at object'
    rw [← object', State.triggerBreakerWithTimeWindow_of_closed closed]
    rfl
  have handed : ∀ lease : Lease, (∀ other, lease.Holds other →
      other = ref ∨ s.breakerLease.Holds other) →
      { s.modifyState ref (·.triggerBreakerWithTimeWindow now window) with
        breakerLease := lease }.Custody := by
    intro lease more
    refine ⟨?_, ?_, ?_⟩
    · intro other held
      cases more other held with
      | inl same =>
        rw [same]
        exact (List.getElem?_eq_some_iff.mp written).1
      | inr old => exact opened.inHeap other old
    · intro other key' held listed'
      cases more other held with
      | inl same =>
        rw [same] at listed'
        have sameKey : key' = key :=
          (keyed.key_eq listed' object).symm.trans (keyed.key_eq listed object)
        rw [sameKey]
        exact ⟨limiting, ruled, sleeps⟩
      | inr old => exact opened.sleeps other key' old listed'
    · intro other st' held object' isOpen
      cases more other held with
      | inl same =>
        rw [same] at object'
        have isState := written.symm.trans object'
        rw [← Option.some.inj isState]
        rfl
      | inr old => exact opened.timed other st' old object' isOpen
  unfold registerState
  rw [written]
  dsimp only
  split
  · apply handed
    intro other held
    rcases held with queued | current | ⟨key', known⟩
    · cases Finset.mem_insert.mp queued with
      | inl same => exact .inl same
      | inr old => exact .inr (.inl old)
    · exact .inr (.inr (.inl current))
    · rcases lookup_insert_eq_some.mp known with ⟨-, rfl⟩ | ⟨-, old⟩
      · exact .inl rfl
      · exact .inr (.inr (.inr ⟨key', old⟩))
  · exact opened

theorem Custody.validateOne (keyed : s.Keyed) (ruled : s.rules.lookup key = some limiting)
    (listed : s.states.lookup key = some ref) (object : s.heap[ref]? = some st)
    (result : ValidateResult) (allow : Bool) :
    (validateOne parse now s result limiting ref allow).2.Custody := by
  rcases validateOne_kinds object with same | closes | ⟨awake, opens⟩ | ⟨policy, opens, same⟩
  · rw [same]
    exact custody
  · rw [closes]
    exact custody.recoverBreaker ref now
  · -- a rule that does not sleep has no object in the hands of the lease
    rw [opens]
    apply custody.modifyState
    intro _ _ held _
    obtain ⟨rule, ruled', sleeps⟩ := custody.sleeps ref key held listed
    rw [ruled, Option.some.injEq] at ruled'
    exact absurd (ruled' ▸ sleeps) awake
  · rw [same]
    obtain ⟨triggers, closed, -, recovers, sleeping⟩ := opens
    exact custody.openAndRegister keyed ruled listed object closed
      ⟨triggers, policy, recovers, sleeping⟩ now _

theorem Custody.doValidation (keyed : s.Keyed) (allow : String → Bool) (keys : List String)
    (result : ValidateResult) : (doValidation parse now allow keys result s).2.Custody := by
  refine doValidation_keeps (P := fun _ s => s.Custody) keyed custody id ?_
  intro s key keys limiting ref st result keyed _ ruled listed object _ custody
  exact custody.validateOne keyed ruled listed object result _

theorem Custody.validate (keyed : s.Keyed) (order : List String) (allow : String → Bool) :
    (s.validate parse now order allow).2.Custody := by
  unfold LimiterStore.validate
  split
  · exact custody
  · exact custody.doValidation keyed allow order _

end

/-- A validation leaves the rules and their objects alone. -/
theorem frame_doValidation (keyed : s.Keyed) (allow : String → Bool) (keys : List String)
    (result : ValidateResult) :
    (LimiterStore.doValidation parse now allow keys result s).2.rules = s.rules ∧
      (LimiterStore.doValidation parse now allow keys result s).2.states = s.states := by
  refine doValidation_keeps (P := fun _ t => t.rules = s.rules ∧ t.states = s.states) keyed
    ⟨rfl, rfl⟩ id ?_
  rintro t key keys limiting ref st result - - - - - round ⟨rules, states⟩
  exact ⟨round.rules.trans rules, round.states.trans states⟩

theorem frame_validate (parse : Parsers) (now : Int) (keyed : s.Keyed) (order : List String)
    (allow : String → Bool) :
    (s.validate parse now order allow).2.rules = s.rules ∧
      (s.validate parse now order allow).2.states = s.states := by
  unfold LimiterStore.validate
  split
  · exact ⟨rfl, rfl⟩
  · exact frame_doValidation keyed allow order _

theorem frame_take (taken : s.take ref = some s') :
    s'.rules = s.rules ∧ s'.states = s.states ∧ s'.heap = s.heap := by
  unfold LimiterStore.take at taken
  split at taken
  · cases taken
    exact ⟨rfl, rfl, rfl⟩
  · cases taken

/-- The loop leaves the rules and their objects alone, and every object that it has not taken. -/
theorem frame_process (processed : s.process now = some s') :
    s'.rules = s.rules ∧ s'.states = s.states ∧
      ∀ other, ¬s.breakerLease.Holds other → s'.heap[other]? = s.heap[other]? := by
  have ⟨ref, st, _, stepped⟩ := stepped_of_process processed
  cases stepped with
  | closes current =>
    refine ⟨rfl, rfl, ?_⟩
    intro other unheld
    have different : ref ≠ other := by
      intro same
      exact unheld (.inr (.inl ⟨.removed, same ▸ current⟩))
    simp [LimiterStore.modifyState, different]
  | requeues | reads | removes | finishes => exact ⟨rfl, rfl, fun _ _ => rfl⟩

theorem Custody.take (custody : s.Custody) (taken : s.take ref = some s') : s'.Custody := by
  unfold LimiterStore.take at taken
  split at taken
  · next enabled =>
    cases taken
    apply custody.withLease
    intro other held
    rcases held with queued | ⟨stage, current⟩ | known
    · exact .inl (Finset.mem_of_mem_erase queued)
    · cases current
      exact .inl enabled.1
    · exact .inr (.inr known)
  · cases taken

/-- The loop goes on with an object that is in the hands of the lease. -/
theorem holds_of_advanced {lease : Lease} {stage : Stage} {other : StateRef} (own : lease.Holds ref)
    (held : { lease with processing := some (ref, stage) }.Holds other) : lease.Holds other := by
  rcases held with queued | ⟨later, isLater⟩ | known
  · exact .inl queued
  · cases isLater
    exact own
  · exact .inr (.inr known)

theorem Custody.process (custody : s.Custody) (processed : s.process now = some s') :
    s'.Custody := by
  have ⟨ref, st, _, stepped⟩ := stepped_of_process processed
  cases stepped with
  | requeues current =>
    have own : s.breakerLease.Holds ref := .inr (.inl ⟨.taken, current⟩)
    apply custody.withLease
    intro other held
    rcases held with queued | ⟨later, isLater⟩ | known
    · cases Finset.mem_insert.mp queued with
      | inl same => exact same ▸ own
      | inr old => exact .inl old
    · cases isLater
      exact own
    · exact .inr (.inr known)
  | reads current =>
    apply custody.withLease
    exact fun other => holds_of_advanced (.inr (.inl ⟨.taken, current⟩))
  | removes current =>
    apply custody.withLease
    intro other held
    rcases held with queued | ⟨later, isLater⟩ | ⟨key, known⟩
    · exact .inl queued
    · cases isLater
      exact .inr (.inl ⟨.due, current⟩)
    · exact .inr (.inr ⟨key, (lookup_erase_eq_some.mp known).2⟩)
  | closes current =>
    apply (custody.recoverBreaker ref now).withLease
    exact fun other => holds_of_advanced (.inr (.inl ⟨.removed, current⟩))
  | finishes =>
    apply custody.withLease
    intro other held
    rcases held with queued | ⟨later, isLater⟩ | known
    · exact .inl queued
    · cases isLater
    · exact .inr (.inr known)

end LimiterStore

namespace Manager

/-- The configuration a `Sync` call brings has a name without a colon. -/
def Event.Plain : Event → Prop
  | .sync _ config => ':' ∉ config.name.toList
  | _ => True

instance : DecidablePred Event.Plain
  | .sync _ config => inferInstanceAs (Decidable (':' ∉ config.name.toList))
  | .validate _ _ _ _ | .take _ | .process _ => .isTrue trivial

/-- The store is in step with the configurations and with its lease. -/
structure Orderly (m : Manager) : Prop where
  limits : m.Limits
  custody : m.limiterStore.Custody

variable {compile : Compile} {parse : Parsers} {m m' : Manager} {config : Config}

theorem orderly_new : Manager.new.Orderly :=
  ⟨@runSync_limits (fun _ => none) [] (by simp), LimiterStore.custody_new⟩

/-- Without the rules of a configuration, its keys have no objects. -/
theorem Limits.unlisted_cleared (limits : m.Limits) (plain : ':' ∉ config.name.toList)
    (name : String) :
    (m.cleared config.name).limiterStore.states.lookup (ruleKey config.name name) = none := by
  have ⟨coherent, rules⟩ := limits.cleared config.name
  have unruled : (m.cleared config.name).limiterStore.rules.lookup (ruleKey config.name name) =
      none := by
    apply Option.eq_none_iff_forall_ne_some.mpr
    intro rule ruled
    obtain ⟨cb, different, found, holds⟩ := (rules _ _).mp ruled
    have sameKey := Config.key_of_lastAt holds
    exact different (ruleKey_inj plain (limits.named _ _ found).2 sameKey).1.symm
  have states := coherent.states (ruleKey config.name name)
  rw [unruled] at states
  exact Option.not_isSome_iff_eq_none.mp (by simp [states])

theorem custody_cleared (custody : m.limiterStore.Custody) (name : String) :
    (m.cleared name).limiterStore.Custody := by
  unfold Manager.cleared
  split
  · exact custody
  · unfold unregisterRules
    split
    · exact custody
    · next cb _ => exact custody.unregisterAll cb.name cb.rateLimitings

theorem Orderly.synced (orderly : m.Orderly) (now : Int) (plain : ':' ∉ config.name.toList) :
    (m.synced compile now config).Orderly := by
  refine ⟨orderly.limits.synced now plain, ?_⟩
  rcases m.synced_cases with same | ⟨-, -, taken⟩ | ⟨-, cb, found, withdrawn⟩ | ⟨-, recovered⟩
  · rw [same]
    exact orderly.custody
  · rw [taken, takeOver_eq]
    apply (custody_cleared orderly.custody config.name).registerAll
    intro rule _ ref listed
    rw [orderly.limits.unlisted_cleared plain] at listed
    cases listed
  · have cleared := custody_cleared orderly.custody config.name
    rw [Manager.cleared, found] at cleared
    rw [withdrawn]
    exact cleared
  · rw [recovered]
    apply List.foldlRecOn (motive := fun m : Manager => m.limiterStore.Custody)
      config.rateLimitings _ orderly.custody
    intro m custody limiting _
    unfold Manager.recoverBreaker
    split
    · exact custody
    · exact custody.recoverBreaker _ now

theorem Orderly.step (orderly : m.Orderly) (event : Event) (plain : event.Plain)
    (stepped : m.step compile parse event = some m') : m'.Orderly := by
  have ⟨limits, custody⟩ := orderly
  have coherent := coherent_step event limits.coherent stepped
  cases event with
  | sync now config =>
    cases stepped
    exact orderly.synced now plain
  | validate now request order allow =>
    obtain ⟨-, -, rfl⟩ := step_validate stepped
    have frame := LimiterStore.frame_validate parse now limits.coherent.keyed order allow
    exact ⟨⟨limits.named, fun key rule => frame.1 ▸ limits.rules key rule, coherent⟩,
      custody.validate limits.coherent.keyed order allow⟩
  | take ref =>
    obtain ⟨s, taken, rfl⟩ := Option.map_eq_some_iff.mp stepped
    have frame := LimiterStore.frame_take taken
    exact ⟨⟨limits.named, fun key rule => frame.1 ▸ limits.rules key rule, coherent⟩,
      custody.take taken⟩
  | process now =>
    obtain ⟨s, processed, rfl⟩ := Option.map_eq_some_iff.mp stepped
    have frame := LimiterStore.frame_process processed
    exact ⟨⟨limits.named, fun key rule => frame.1 ▸ limits.rules key rule, coherent⟩,
      custody.process processed⟩

end Manager

end CtrlMesh.CircuitBreaker
