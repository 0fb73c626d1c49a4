import CtrlMesh.CircuitBreaker.Leased
import CtrlMesh.CircuitBreaker.Validation
import CtrlMesh.Lib.Run

/-!
# Sleeping windows end

A breaker that opened for a time is closed again by the lease, which knows the state objects it
has to close from its queue. The lease keeps one object per key. A configuration that is updated
while its breaker sleeps puts a new object under the key; if that one opens before the lease is
done with the old one, it is not queued and stays open.
-/

namespace CtrlMesh.CircuitBreaker

open Labels Lib

namespace LimiterStore

variable {s s' : LimiterStore} {key : String} {ref : StateRef} {st : State}
  {limiting : RateLimiting} {allow : Bool} {parse : Parsers} {now : Int}

/-- The objects of the store and of its lease hang together. -/
def Sound (s : LimiterStore) : Prop := Leased s.states s.heap s.breakerLease

theorem Sound.createOrUpdateRule (sound : s.Sound) (key : String) (limiting : RateLimiting) :
    (s.createOrUpdateRule key limiting).Sound := by
  unfold LimiterStore.createOrUpdateRule
  cases s.rules.lookup key with
  | none => exact Leased.insertNew sound key
  | some oldOne => exact sound

theorem Sound.deleteRule (sound : s.Sound) (key : String) : (s.deleteRule key).Sound := by
  unfold LimiterStore.deleteRule
  cases s.rules.lookup key with
  | none => exact sound
  | some oldOne => exact Leased.eraseState sound key

theorem Sound.modifyState (sound : s.Sound) (ref : StateRef) {f : State → State}
    (quiet : State.Quiet f) : (s.modifyState ref f).Sound :=
  Leased.modify sound ref (fun st => (quiet st).1)
    fun st _ isOpen sleeping => .inl ((quiet st).2 isOpen sleeping)

theorem Sound.take (sound : s.Sound) (taken : s.take ref = some s') : s'.Sound := by
  unfold LimiterStore.take at taken
  split at taken
  · next enabled =>
    cases taken
    exact Leased.take sound enabled.1 enabled.2
  · cases taken

theorem Sound.process (sound : s.Sound) (processed : s.process now = some s') : s'.Sound := by
  have ⟨ref, st, object, stepped⟩ := stepped_of_process processed
  cases stepped with
  | requeues current => exact Leased.requeue sound current
  | reads current => exact Leased.advance sound current (by simp [Stage.Early]) nofun
  | removes current => exact Leased.remove sound object current
  | closes current =>
    refine Leased.advance (sound.modifyState ref State.quiet_recoverBreaker) current
      (by simp [Stage.Early]) fun _ st' object' => ?_
    rw [heap_modifyState object, Option.some.injEq] at object'
    rw [← object']
    exact st.recoverBreaker_ne_opened
  | finishes current => exact Leased.finish sound current

/-- The rule would open its breaker for a time while the lease still has another object under the
rule's key. -/
def Blocked (s : LimiterStore) (allow : String → Bool) (key : String) : Prop :=
  ∃ limiting ref st policy old, s.rules.lookup key = some limiting ∧
    s.states.lookup key = some ref ∧ s.heap[ref]? = some st ∧
    Opens limiting st (allow key) policy ∧
    s.breakerLease.stateSet.lookup key = some old ∧ old ≠ ref

/-- The key's object sleeps and the lease does not know it. -/
def Stuck (s : LimiterStore) (key : String) (ref : StateRef) : Prop :=
  s.states.lookup key = some ref ∧
    (∃ st, s.heap[ref]? = some st ∧ st.state = .opened ∧ st.recoverAt.isSome) ∧
    ref ∉ s.breakerLease.stateQueue ∧ ∀ stage, s.breakerLease.processing ≠ some (ref, stage)

/-- An object that opens for a time is queued, if the key is free or the lease has this object. -/
theorem Sound.openAndRegister (sound : s.Sound) (listed : s.states.lookup key = some ref)
    (object : s.heap[ref]? = some st) (closed : st.state = .closed) (window : Int)
    (own : ∀ old, s.breakerLease.stateSet.lookup key = some old → old = ref) :
    ((s.modifyState ref (·.triggerBreakerWithTimeWindow now window)).registerState ref).Sound := by
  have keyed : st.key = key := Leased.key_eq sound listed object
  have written : (s.modifyState ref (·.triggerBreakerWithTimeWindow now window)).heap[ref]? =
      some ⟨key, .opened, some now, some (now + window)⟩ := by
    rw [heap_modifyState object, State.triggerBreakerWithTimeWindow_of_closed closed, keyed]
  have keeps : ∀ st : State, (st.triggerBreakerWithTimeWindow now window).key = st.key :=
    fun st => st.key_transition _ _ _
  have unique : ∀ {other}, s.states.lookup other = some ref → other = key := fun found =>
    (Leased.key_eq sound found object).symm.trans keyed
  simp only [registerState, written, breakerLease_modifyState, true_and, Option.isSome_some,
    and_true]
  split
  · next free =>
    apply Leased.modify (Leased.enqueue sound listed free) ref keeps
    intro st' _ _ _
    refine .inr fun other found => ?_
    rw [unique found]
    exact AList.lookup_insert _
  · next taken =>
    apply Leased.modify sound ref keeps
    intro st' _ _ _
    refine .inr fun other found => ?_
    obtain ⟨old, known⟩ := Option.ne_none_iff_exists'.mp taken
    rw [unique found, known, own old known]

variable {word : String → Bool}

theorem Sound.validateOne (sound : s.Sound) (ruled : s.rules.lookup key = some limiting)
    (listed : s.states.lookup key = some ref) (object : s.heap[ref]? = some st)
    (unblocked : ¬s.Blocked word key) (result : ValidateResult) :
    (validateOne parse now s result limiting ref (word key)).2.Sound := by
  rcases validateOne_cases object with same | ⟨f, quiet, same⟩ | ⟨policy, opens, same⟩
  · rw [same]
    exact sound
  · rw [same]
    exact sound.modifyState ref quiet
  · rw [same]
    apply sound.openAndRegister listed object opens.2.1
    intro old known
    by_contra different
    exact unblocked ⟨limiting, ref, st, policy, old, ruled, listed, object, opens, known, different⟩

/-- An object the lease has no entry for, although it has one for the key, is not in its hands. -/
theorem Sound.not_held (sound : s.Sound) (listed : s.states.lookup key = some ref) {old : StateRef}
    (known : s.breakerLease.stateSet.lookup key = some old) (other : old ≠ ref) :
    ref ∉ s.breakerLease.stateQueue ∧ ∀ stage, s.breakerLease.processing ≠ some (ref, stage) := by
  obtain ⟨st, object, keyed⟩ := Leased.stateKey sound listed
  have unlisted : ∀ key', s.breakerLease.stateSet.lookup key' ≠ some ref := by
    intro key' found
    rw [← Leased.setKey_eq sound found object, keyed, known, Option.some.injEq] at found
    exact other found
  constructor
  · intro queued
    obtain ⟨key', found⟩ := Leased.queued sound queued
    exact unlisted key' found
  · intro stage current
    by_cases isEarly : stage.Early
    · obtain ⟨-, key', found⟩ := Leased.early sound current isEarly
      exact unlisted key' found
    · have after : ref ≤ old := Leased.late sound current isEarly object (keyed ▸ known)
      have before : old ≤ ref := Leased.older sound known listed
      exact other (le_antisymm before after)

theorem Sound.stuck_of_blocked (sound : s.Sound) (ruled : s.rules.lookup key = some limiting)
    (listed : s.states.lookup key = some ref) (blocked : s.Blocked word key)
    {result : ValidateResult} :
    (LimiterStore.validateOne parse now s result limiting ref (word key)).2.Stuck
      key ref := by
  obtain ⟨limiting', ref', st, policy, old, ruled', listed', object, opens, known, other⟩ := blocked
  rw [ruled, Option.some.injEq] at ruled'
  rw [listed, Option.some.injEq] at listed'
  subst ruled' listed'
  obtain ⟨triggers, closed, refused, recovers, sleeping⟩ := opens
  obtain ⟨absent, idle⟩ := sound.not_held listed known other
  have keyed : st.key = key := Leased.key_eq sound listed object
  have after : (LimiterStore.validateOne parse now s result limiting ref (word key)).2 =
      s.modifyState ref (·.triggerBreakerWithTimeWindow now
        (parse.duration policy.sleepingWindowSize)) := by
    simp [LimiterStore.validateOne, object, triggers, closed, refused, trip, recovers, sleeping,
      registerState, heap_modifyState object, State.triggerBreakerWithTimeWindow_of_closed closed,
      keyed, known]
  rw [after]
  have written := heap_modifyState object
    (·.triggerBreakerWithTimeWindow now (parse.duration policy.sleepingWindowSize))
  rw [State.triggerBreakerWithTimeWindow_of_closed closed] at written
  exact ⟨listed, ⟨_, written, rfl, rfl⟩, absent, idle⟩

/-- No key is blocked, of those whose turn comes. -/
def Clear (s : LimiterStore) (allow : String → Bool) : List String → Prop
  | [] => True
  | key :: keys => ¬s.Blocked allow key ∧ (s.Panics allow key ∨ s.Clear allow keys)

section Frame

variable {word : String → Bool} {other : String}

theorem Round.blocked_iff (round : Round key ref s s') (keyed : s.Keyed)
    (listed : s.states.lookup key = some ref) (different : other ≠ key) :
    s'.Blocked word other ↔ s.Blocked word other := by
  simp only [Blocked, round.rules, round.states, round.stateSet other different]
  constructor
  · rintro ⟨limiting, r, st, policy, old, ruled, held, object, rest⟩
    rw [(round.object_eq keyed listed held different).2] at object
    exact ⟨limiting, r, st, policy, old, ruled, held, object, rest⟩
  · rintro ⟨limiting, r, st, policy, old, ruled, held, object, rest⟩
    rw [← (round.object_eq keyed listed held different).2] at object
    exact ⟨limiting, r, st, policy, old, ruled, held, object, rest⟩

theorem Round.clear_iff (round : Round key ref s s') (keyed : s.Keyed)
    (listed : s.states.lookup key = some ref) {keys : List String} (absent : key ∉ keys) :
    s'.Clear word keys ↔ s.Clear word keys := by
  induction keys with
  | nil => exact .rfl
  | cons first keys ih =>
    have different : first ≠ key := fun same => absent (same ▸ List.mem_cons_self)
    rw [Clear, Clear, round.blocked_iff keyed listed different,
      round.panics_iff keyed listed different, ih fun inside => absent (.tail _ inside)]

theorem Round.stuck {r : StateRef} (round : Round key ref s s') (keyed : s.Keyed)
    (listed : s.states.lookup key = some ref) (different : other ≠ key) (stuck : s.Stuck other r) :
    s'.Stuck other r := by
  obtain ⟨held, ⟨st, object, sleeps⟩, absent, idle⟩ := stuck
  obtain ⟨apart, same⟩ := round.object_eq keyed listed held different
  refine ⟨round.states ▸ held, ⟨st, same.trans object, sleeps⟩, ?_, ?_⟩
  · rwa [round.queue r apart]
  · rwa [round.processing]

variable {keys : List String}

theorem Blocked.not_panics (blocked : s.Blocked word key) : ¬s.Panics word key := by
  obtain ⟨limiting, ref, st, policy, old, ruled, listed, object, opens, -⟩ := blocked
  simp [Panics, ruled, listed, opens.2.2.2.1]

theorem Stuck.doValidation {r : StateRef} (stuck : s.Stuck other r) (keyed : s.Keyed)
    (absent : other ∉ keys) (result : ValidateResult) :
    (doValidation parse now word keys result s).2.Stuck other r := by
  refine (doValidation_keeps (P := fun keys s => s.Stuck other r ∧ other ∉ keys) keyed
    ⟨stuck, absent⟩ (fun ⟨stuck, _⟩ => ⟨stuck, List.not_mem_nil⟩) ?_).1
  rintro s key keys limiting ref st result keyed - - listed - round ⟨stuck, absent⟩
  have different : other ≠ key := fun equal => absent (equal ▸ List.mem_cons_self)
  exact ⟨round.stuck keyed listed different stuck, fun inside => absent (.tail _ inside)⟩

/-- A validation that meets no blocked key keeps the lease in order. -/
theorem Sound.doValidation (sound : s.Sound) (distinct : keys.Nodup) (clear : s.Clear word keys)
    (result : ValidateResult) : (doValidation parse now word keys result s).2.Sound := by
  refine (doValidation_keeps (P := fun keys s => s.Sound ∧ keys.Nodup ∧ s.Clear word keys)
    (Leased.stateKey sound) ⟨sound, distinct, clear⟩
    (fun ⟨sound, _⟩ => ⟨sound, .nil, trivial⟩) ?_).1
  rintro s key keys limiting ref st result keyed goesOn ruled listed object round
    ⟨sound, distinct, clear⟩
  obtain ⟨fresh, distinct⟩ := List.nodup_cons.mp distinct
  exact ⟨sound.validateOne ruled listed object clear.1 result, distinct,
    (round.clear_iff keyed listed fresh).mpr (clear.2.resolve_left goesOn)⟩

/-- A validation that meets a blocked key leaves its breaker open with nobody to close it. -/
theorem Sound.exists_stuck (sound : s.Sound) (distinct : keys.Nodup)
    (obstructed : ¬s.Clear word keys) {result : ValidateResult} :
    ∃ key ref,
      (LimiterStore.doValidation parse now word keys result s).2.Stuck key ref := by
  induction keys generalizing s result with
  | nil => exact absurd trivial obstructed
  | cons key keys ih =>
    have ⟨fresh, distinct⟩ := List.nodup_cons.mp distinct
    have keyed : s.Keyed := Leased.stateKey sound
    have goesOn : ¬s.Panics word key := by
      intro panics
      exact obstructed ⟨fun blocked => blocked.not_panics panics, .inl panics⟩
    obtain ⟨limiting, ref, st, result', ruled, listed, object, round, -, same⟩ :=
      doValidation_of_not_panics parse now keyed goesOn keys result
    rw [same]
    by_cases blocked : s.Blocked word key
    · refine ⟨key, ref, Stuck.doValidation ?_ (round.keeps_keyed keyed listed) fresh result'⟩
      exact sound.stuck_of_blocked ruled listed blocked
    · apply ih (sound.validateOne ruled listed object blocked result) distinct
      rw [round.clear_iff keyed listed fresh]
      exact fun clear => obstructed ⟨blocked, .inr clear⟩

end Frame

end LimiterStore

namespace Manager

/-- A call of the manager, or the lease's loop going on. A validation sees the keys of the matching
rules in some order. -/
inductive Event where
  | sync (now : Int) (config : Config)
  | validate (now : Int) (request : Request) (order : List String) (allow : String → Bool)
  | take (ref : StateRef)
  | process (now : Int)

variable (compile : Compile) (parse : Parsers)

/-- What an event makes of the manager. -/
def step (m : Manager) : Event → Option Manager
  | .sync now config => some (m.synced compile now config)
  | .validate now request order allow =>
    if order.Nodup ∧ order.toFinset = m.limiterStore.matched parse request then
      some { m with limiterStore := (m.limiterStore.validate parse now order allow).2 }
    else none
  | .take ref => (m.limiterStore.take ref).map ({ m with limiterStore := · })
  | .process now => (m.limiterStore.process now).map ({ m with limiterStore := · })

/-- Every breaker that opened for a time is queued to be closed, or is being closed. -/
def WindowsEnd (m : Manager) : Prop :=
  ∀ key ref st, m.limiterStore.states.lookup key = some ref → m.limiterStore.heap[ref]? = some st →
    st.state = .opened → st.recoverAt.isSome →
    ref ∈ m.limiterStore.breakerLease.stateQueue ∨
      ∃ stage, m.limiterStore.breakerLease.processing = some (ref, stage)

/-- No rule that the event makes open for a time has its key taken by an older object. -/
def Unobstructed (m : Manager) : Event → Prop
  | .validate _ _ order allow => m.limiterStore.Clear allow order
  | _ => True

variable {compile parse} {m m' : Manager} {now : Int} {event : Event}

/-- A validation goes over the matched keys, each once. -/
theorem step_validate {request : Request} {order : List String} {allow : String → Bool}
    (stepped : m.step compile parse (.validate now request order allow) = some m') :
    order.Nodup ∧ order.toFinset = m.limiterStore.matched parse request ∧ m' =
      { m with limiterStore := (m.limiterStore.validate parse now order allow).2 } := by
  simp only [step] at stepped
  split at stepped
  · next enabled => exact ⟨enabled.1, enabled.2, (Option.some.inj stepped).symm⟩
  · cases stepped

theorem windowsEnd_of_sound (sound : m.limiterStore.Sound) : m.WindowsEnd := by
  intro key ref st listed object isOpen sleeping
  rcases Leased.opened sound listed object isOpen sleeping with known | current
  · rcases Leased.setHeld sound known with queued | ⟨stage, current, -⟩
    · exact .inl queued
    · exact .inr ⟨stage, current⟩
  · exact .inr ⟨.removed, current⟩

theorem not_windowsEnd_of_stuck {key : String} {ref : StateRef}
    (stuck : m.limiterStore.Stuck key ref) : ¬m.WindowsEnd := by
  obtain ⟨listed, ⟨st, object, isOpen, sleeping⟩, absent, idle⟩ := stuck
  intro ends
  rcases ends key ref st listed object isOpen sleeping with queued | ⟨stage, current⟩
  · exact absent queued
  · exact idle stage current

theorem sound_synced (sound : m.limiterStore.Sound) {config : Config} :
    (m.synced compile now config).limiterStore.Sound :=
  limiterStore_synced (fun _ key limiting sound => sound.createOrUpdateRule key limiting)
    (fun _ key sound => sound.deleteRule key)
    (fun _ ref _ sound => sound.modifyState ref State.quiet_recoverBreaker) sound

theorem sound_step (sound : m.limiterStore.Sound) (free : m.Unobstructed event)
    (stepped : m.step compile parse event = some m') : m'.limiterStore.Sound := by
  cases event with
  | sync now config =>
    cases stepped
    exact sound_synced sound
  | validate now request order allow =>
    obtain ⟨distinct, -, rfl⟩ := step_validate stepped
    simp only [LimiterStore.validate]
    split
    · exact sound
    · exact sound.doValidation distinct free _
  | take ref =>
    obtain ⟨s, taken, rfl⟩ := Option.map_eq_some_iff.mp stepped
    exact sound.take taken
  | process now =>
    obtain ⟨s, processed, rfl⟩ := Option.map_eq_some_iff.mp stepped
    exact sound.process processed

theorem not_windowsEnd_step (sound : m.limiterStore.Sound) (obstructed : ¬m.Unobstructed event)
    (stepped : m.step compile parse event = some m') : ¬m'.WindowsEnd := by
  cases event with
  | validate now request order allow =>
    obtain ⟨distinct, -, rfl⟩ := step_validate stepped
    have some : order ≠ [] := by
      rintro rfl
      exact obstructed trivial
    obtain ⟨key, ref, stuck⟩ := sound.exists_stuck distinct obstructed
    apply not_windowsEnd_of_stuck
    rw [LimiterStore.validate, if_neg some]
    exact stuck
  | _ => exact absurd trivial obstructed

/-- In every run of the manager the sleeping windows all end exactly when no validation opens a
breaker for a time whose key the lease has another object for. -/
theorem windowsEnd_along_iff (compile : Compile) (parse : Parsers) (events : List Event) :
    Along (step compile parse) WindowsEnd .new events ↔
      EachStep (step compile parse) Unobstructed .new events := by
  have start : Manager.new.limiterStore.Sound := Leased.start
  exact along_iff_eachStep (fun _ => windowsEnd_of_sound) (fun _ event _ => sound_step)
    (fun _ event _ => not_windowsEnd_step) start

/-- A configuration with one rule for all resources that sleeps when it trips. -/
def sleepingConfig (hash : String) : Config where
  option := .update
  name := "breaker"
  configHash := hash
  trafficInterceptRules := []
  rateLimitings := [{
    name := "rule"
    resourceRules := [⟨["*"], ["*"], ["*"], ["*"]⟩]
    restRules := []
    bucket := ⟨1, "1s", 1⟩
    triggerPolicy := .normal
    recoverPolicy := some ⟨.sleepingWindow, "10s"⟩ }]

/-- The rule trips, is updated while it sleeps, and trips again. -/
def trippedTwice : List Event :=
  let request := .resource "default" "apps" "deployments" "list"
  [ .sync 0 (sleepingConfig "first"), .validate 1 request ["breaker:rule"] (fun _ => false),
    .sync 2 (sleepingConfig "second"), .validate 3 request ["breaker:rule"] (fun _ => false) ]

/-- The manager after that run. -/
def afterTrippedTwice : Manager :=
  (run (step (fun _ => none) (.every 10000)) .new trippedTwice).getD .new

/-- The second object is open until 10003 and is not queued. -/
theorem windowsEnd_fails_on_update :
    ¬∀ (compile : Compile) (parse : Parsers) (events : List Event),
      Along (step compile parse) WindowsEnd .new events := by
  intro always
  have along := always (fun _ => none) (.every 10000) trippedTwice
  have ends := along trippedTwice [] afterTrippedTwice rfl rfl
  have stuck : afterTrippedTwice.limiterStore.Stuck "breaker:rule" 1 := by
    refine ⟨by decide, ⟨⟨"breaker:rule", .opened, some 3, some 10003⟩, ?_, rfl, rfl⟩, ?_, ?_⟩
    · decide
    · decide
    · intro stage
      cases stage <;> decide
  exact not_windowsEnd_of_stuck stuck ends

end Manager

end CtrlMesh.CircuitBreaker
