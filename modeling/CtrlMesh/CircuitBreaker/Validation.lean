import CtrlMesh.CircuitBreaker.Manager

/-!
# Validating a request against the matched rules

`doValidation` goes through the matched rules one after the other. What a round does to the store
concerns the state object of its own key only; a round without a recover policy where one is needed
ends the validation with a nil dereference.
-/

namespace CtrlMesh.CircuitBreaker

open Labels Lib

namespace State

/-- A write that keeps the key and opens no breaker for a time. -/
def Quiet (f : State → State) : Prop :=
  ∀ st, (f st).key = st.key ∧ ((f st).state = .opened → (f st).recoverAt.isSome →
    st.state = .opened ∧ st.recoverAt.isSome)

theorem key_transition (st : State) (status : BreakerState) (now : Int) (recoverAt : Option Int) :
    (st.transition status now recoverAt).key = st.key := by
  by_cases changed : st.state ≠ status <;> simp [transition, transitionTo, changed]

theorem quiet_triggerBreaker {now : Int} : Quiet (triggerBreaker · now) := by
  refine fun st => ⟨key_transition _ _ _ _, ?_⟩
  by_cases changed : st.state ≠ .opened <;> simp_all [triggerBreaker, transition, transitionTo]

theorem quiet_recoverBreaker {now : Int} : Quiet (recoverBreaker · now) := by
  refine fun st => ⟨key_transition _ _ _ _, ?_⟩
  by_cases changed : st.state ≠ .closed <;> simp_all [recoverBreaker, transition, transitionTo]

theorem recoverBreaker_ne_opened (st : State) {now : Int} :
    (st.recoverBreaker now).state ≠ .opened := by
  by_cases changed : st.state ≠ .closed <;> simp_all [recoverBreaker, transition, transitionTo]

theorem triggerBreakerWithTimeWindow_of_closed {st : State} (closed : st.state = .closed)
    (now window : Int) : st.triggerBreakerWithTimeWindow now window =
      ⟨st.key, .opened, some now, some (now + window)⟩ := by
  simp [triggerBreakerWithTimeWindow, transition, transitionTo, closed]

end State

/-- A refused request opens the breaker of the rule for a time. -/
def RateLimiting.Sleeps (limiting : RateLimiting) : Prop :=
  limiting.triggerPolicy = .normal ∧
    ∃ policy, limiting.recoverPolicy = some policy ∧ policy.type = .sleepingWindow

variable {result : ValidateResult}

namespace LimiterStore

variable {s s' : LimiterStore} {key : String} {ref : StateRef} {st : State}
  {limiting : RateLimiting} {allow : Bool} {parse : Parsers} {now : Int}

@[simp] theorem breakerLease_modifyState (f : State → State) :
    (s.modifyState ref f).breakerLease = s.breakerLease := rfl

theorem heap_modifyState (object : s.heap[ref]? = some st) (f : State → State) :
    (s.modifyState ref f).heap[ref]? = some (f st) := by
  simp [modifyState, object]

/-- Every key of the store has an object of this key. -/
def Keyed (s : LimiterStore) : Prop :=
  ∀ {key ref}, s.states.lookup key = some ref → ∃ st, s.heap[ref]? = some st ∧ st.key = key

theorem Keyed.key_eq (keyed : s.Keyed) (listed : s.states.lookup key = some ref)
    (object : s.heap[ref]? = some st) : st.key = key := by
  obtain ⟨st', object', same⟩ := keyed listed
  rw [object, Option.some.injEq] at object'
  rw [object', same]

/-- What one round for a key does not touch. -/
structure Round (key : String) (ref : StateRef) (s s' : LimiterStore) : Prop where
  rules : s'.rules = s.rules
  states : s'.states = s.states
  keyed : ∀ st, s.heap[ref]? = some st → ∃ st', s'.heap[ref]? = some st' ∧ st'.key = st.key
  heap : ∀ other, other ≠ ref → s'.heap[other]? = s.heap[other]?
  stateSet : ∀ other, other ≠ key →
    s'.breakerLease.stateSet.lookup other = s.breakerLease.stateSet.lookup other
  queue : ∀ other, other ≠ ref →
    (other ∈ s'.breakerLease.stateQueue ↔ other ∈ s.breakerLease.stateQueue)
  processing : s'.breakerLease.processing = s.breakerLease.processing

namespace Round

theorem refl (s : LimiterStore) : Round key ref s s :=
  ⟨rfl, rfl, fun st object => ⟨st, object, rfl⟩, fun _ _ => rfl, fun _ _ => rfl, fun _ _ => .rfl,
    rfl⟩

theorem modifyState (s : LimiterStore) {f : State → State} (keeps : ∀ st, (f st).key = st.key) :
    Round key ref s (s.modifyState ref f) := by
  refine ⟨rfl, rfl, fun st object => ⟨f st, heap_modifyState object f, keeps st⟩,
    fun other different => ?_, fun _ _ => rfl, fun _ _ => .rfl, rfl⟩
  change (s.heap.modify ref f)[other]? = s.heap[other]?
  simp [different.symm]

theorem trans {s'' : LimiterStore} (first : Round key ref s s') (second : Round key ref s' s'') :
    Round key ref s s'' := by
  refine ⟨second.rules.trans first.rules, second.states.trans first.states, fun st object => ?_,
    fun other different => (second.heap other different).trans (first.heap other different),
    fun other different => (second.stateSet other different).trans (first.stateSet other different),
    fun other different => (second.queue other different).trans (first.queue other different),
    second.processing.trans first.processing⟩
  obtain ⟨st', object', same⟩ := first.keyed st object
  obtain ⟨st'', object'', same'⟩ := second.keyed st' object'
  exact ⟨st'', object'', same'.trans same⟩

theorem registerState (object : s.heap[ref]? = some st) :
    Round st.key ref s (s.registerState ref) := by
  simp only [LimiterStore.registerState, object]
  split
  · refine ⟨rfl, rfl, fun st object => ⟨st, object, rfl⟩, fun _ _ => rfl,
      fun other different => ?_, fun other different => ?_, rfl⟩
    · exact AList.lookup_insert_ne different
    · simp only [Finset.mem_insert, different, false_or]
  · exact refl s

variable {other : String} {r : StateRef}

/-- The round leaves the objects of the other keys alone. -/
theorem object_eq (round : Round key ref s s') (keyed : s.Keyed)
    (listed : s.states.lookup key = some ref) (held : s.states.lookup other = some r)
    (different : other ≠ key) : r ≠ ref ∧ s'.heap[r]? = s.heap[r]? := by
  have apart : r ≠ ref := by
    rintro rfl
    obtain ⟨st, object, same⟩ := keyed listed
    exact different ((keyed.key_eq held object).symm.trans same)
  exact ⟨apart, round.heap r apart⟩

theorem keeps_keyed (round : Round key ref s s') (keyed : s.Keyed)
    (listed : s.states.lookup key = some ref) : s'.Keyed := by
  intro other r held
  rw [round.states] at held
  obtain ⟨st, object, same⟩ := keyed held
  by_cases equal : other = key
  · subst equal
    obtain rfl := Option.some.inj (listed.symm.trans held)
    obtain ⟨st', object', same'⟩ := round.keyed st object
    exact ⟨st', object', same'.trans same⟩
  · exact ⟨st, (round.object_eq keyed listed held equal).2.trans object, same⟩

end Round

/-- The round opens the breaker for a time. -/
def Opens (limiting : RateLimiting) (st : State) (allow : Bool) (policy : RecoverPolicy) : Prop :=
  limiting.triggerPolicy = .normal ∧ st.state = .closed ∧ allow = false ∧
    limiting.recoverPolicy = some policy ∧ policy.type = .sleepingWindow

/-- What a round does to the store: nothing, or the breaker is closed, or opened, or opened for a
time. -/
theorem validateOne_kinds (object : s.heap[ref]? = some st) :
    (validateOne parse now s result limiting ref allow).2 = s ∨
    (validateOne parse now s result limiting ref allow).2 =
      s.modifyState ref (·.recoverBreaker now) ∨
    (¬limiting.Sleeps ∧ (validateOne parse now s result limiting ref allow).2 =
      s.modifyState ref (·.triggerBreaker now)) ∨
    ∃ policy, Opens limiting st allow policy ∧
      (validateOne parse now s result limiting ref allow).2 =
        (s.modifyState ref (·.triggerBreakerWithTimeWindow now
          (parse.duration policy.sleepingWindowSize))).registerState ref := by
  simp only [validateOne, object]
  cases triggers : limiting.triggerPolicy with
  | forceOpened => exact .inr (.inr (.inl ⟨by simp [RateLimiting.Sleeps, triggers], rfl⟩))
  | forceClosed => exact .inr (.inl rfl)
  | limiterOnly => exact .inr (.inl rfl)
  | unnamed value => exact .inl rfl
  | normal =>
    by_cases closed : st.state = .closed
    · cases allow with
      | true => simp [closed]
      | false =>
        cases recovers : limiting.recoverPolicy with
        | none => simp [closed, trip, recovers]
        | some policy =>
          by_cases sleeping : policy.type = .sleepingWindow
          · exact .inr (.inr (.inr ⟨policy, ⟨triggers, closed, rfl, recovers, sleeping⟩,
              by simp [closed, trip, recovers, sleeping]⟩))
          · refine .inr (.inr (.inl ⟨by simp [RateLimiting.Sleeps, recovers, sleeping], ?_⟩))
            simp [closed, trip, recovers, sleeping]
    · simp [closed]

/-- The three things a round can do to the store. -/
theorem validateOne_cases (object : s.heap[ref]? = some st) :
    (validateOne parse now s result limiting ref allow).2 = s ∨
    (∃ f, State.Quiet f ∧
      (validateOne parse now s result limiting ref allow).2 = s.modifyState ref f) ∨
    ∃ policy, Opens limiting st allow policy ∧
      (validateOne parse now s result limiting ref allow).2 =
        (s.modifyState ref (·.triggerBreakerWithTimeWindow now
          (parse.duration policy.sleepingWindowSize))).registerState ref := by
  rcases validateOne_kinds object with same | closes | ⟨-, opens⟩ | opensFor
  · exact .inl same
  · exact .inr (.inl ⟨_, State.quiet_recoverBreaker, closes⟩)
  · exact .inr (.inl ⟨_, State.quiet_triggerBreaker, opens⟩)
  · exact .inr (.inr opensFor)

theorem validateOne_round (parse : Parsers) (now : Int) (limiting : RateLimiting) (allow : Bool)
    (object : s.heap[ref]? = some st) (result : ValidateResult) :
    Round st.key ref s (validateOne parse now s result limiting ref allow).2 := by
  rcases validateOne_cases object with same | ⟨f, quiet, same⟩ | ⟨policy, -, same⟩
  · rw [same]
    exact .refl s
  · rw [same]
    exact .modifyState s fun st => (quiet st).1
  · rw [same]
    have second := Round.registerState (heap_modifyState object
      (·.triggerBreakerWithTimeWindow now (parse.duration policy.sleepingWindowSize)))
    rw [State.triggerBreakerWithTimeWindow, State.key_transition] at second
    exact (Round.modifyState s fun st => st.key_transition _ _ _).trans second

/-- The round for a key ends the validation with a nil dereference. -/
def Panics (s : LimiterStore) (allow : String → Bool) (key : String) : Prop :=
  s.rules.lookup key = none ∨ s.states.lookup key = none ∨
    ∃ limiting ref st, s.rules.lookup key = some limiting ∧ s.states.lookup key = some ref ∧
      s.heap[ref]? = some st ∧ limiting.triggerPolicy = .normal ∧ st.state = .closed ∧
      allow key = false ∧ limiting.recoverPolicy = none

theorem validateOne_panicked_iff (parse : Parsers) (now : Int) {word : String → Bool}
    (ruled : s.rules.lookup key = some limiting) (listed : s.states.lookup key = some ref)
    (object : s.heap[ref]? = some st) (result : ValidateResult) :
    (validateOne parse now s result limiting ref (word key)).1 = .panicked ↔
      s.Panics word key := by
  have panics : s.Panics word key ↔ limiting.triggerPolicy = .normal ∧ st.state = .closed ∧
      word key = false ∧ limiting.recoverPolicy = none := by
    simp [Panics, ruled, listed, object]
  rw [panics]
  simp only [validateOne, object]
  cases limiting.triggerPolicy with
  | normal =>
    by_cases closed : st.state = .closed
    · cases word key with
      | true => simp [closed]
      | false => cases recovers : limiting.recoverPolicy <;> simp [closed, trip, recovers]
    · simp [closed]
  | _ => simp

section Frame

variable {word : String → Bool} {other : String}

theorem Round.panics_iff (round : Round key ref s s') (keyed : s.Keyed)
    (listed : s.states.lookup key = some ref) (different : other ≠ key) :
    s'.Panics word other ↔ s.Panics word other := by
  simp only [Panics, round.rules, round.states]
  refine or_congr_right (or_congr_right ?_)
  constructor
  · rintro ⟨limiting, r, st, ruled, held, object, rest⟩
    rw [(round.object_eq keyed listed held different).2] at object
    exact ⟨limiting, r, st, ruled, held, object, rest⟩
  · rintro ⟨limiting, r, st, ruled, held, object, rest⟩
    rw [← (round.object_eq keyed listed held different).2] at object
    exact ⟨limiting, r, st, ruled, held, object, rest⟩

variable {keys : List String}

theorem doValidation_of_panics (panics : s.Panics word key) :
    doValidation parse now word (key :: keys) result s = (.panicked, s) := by
  rcases panics with unruled | unlisted | ⟨limiting, ref, st, ruled, listed, object, cause⟩
  · simp [doValidation, unruled]
  · simp [doValidation, unlisted]
  · obtain ⟨triggers, closed, refused, recovers⟩ := cause
    simp [doValidation, ruled, listed, validateOne, object, triggers, closed, refused, trip,
      recovers]

/-- A key at which the validation goes on has a rule and a state. -/
theorem exists_of_not_panics (keyed : s.Keyed) (goesOn : ¬s.Panics word key) :
    ∃ limiting ref st, s.rules.lookup key = some limiting ∧ s.states.lookup key = some ref ∧
      s.heap[ref]? = some st := by
  cases ruled : s.rules.lookup key with
  | none => exact absurd (.inl ruled) goesOn
  | some limiting =>
    cases listed : s.states.lookup key with
    | none => exact absurd (.inr (.inl listed)) goesOn
    | some ref =>
      obtain ⟨st, object, -⟩ := keyed listed
      exact ⟨limiting, ref, st, rfl, rfl, object⟩

theorem doValidation_of_not_panics (parse : Parsers) (now : Int) (keyed : s.Keyed)
    (goesOn : ¬s.Panics word key) (keys : List String) (result : ValidateResult) :
    ∃ limiting ref st result', s.rules.lookup key = some limiting ∧
      s.states.lookup key = some ref ∧ s.heap[ref]? = some st ∧
      Round key ref s (validateOne parse now s result limiting ref (word key)).2 ∧
      (validateOne parse now s result limiting ref (word key)).1 = .returned result' ∧
      doValidation parse now word (key :: keys) result s =
        doValidation parse now word keys result'
          (validateOne parse now s result limiting ref (word key)).2 := by
  obtain ⟨limiting, ref, st, ruled, listed, object⟩ := exists_of_not_panics keyed goesOn
  have returned :=
    mt (validateOne_panicked_iff parse now ruled listed object result).mp goesOn
  simp only [doValidation, ruled, listed]
  split
  · next panicked => exact absurd (congrArg Prod.fst panicked) returned
  · next result' s' answered =>
    have round := validateOne_round parse now limiting (word key) object result
    rw [keyed.key_eq listed object] at round
    exact ⟨limiting, ref, st, result', rfl, rfl, object, round, congrArg Prod.fst answered,
      by rw [answered]⟩

/-- What every round keeps for the keys after its own holds in the end. -/
theorem doValidation_keeps {P : List String → LimiterStore → Prop} (keyed : s.Keyed)
    (holds : P keys s) (stops : ∀ {s key keys}, P (key :: keys) s → P [] s)
    (goesOn : ∀ {s key keys limiting ref st result}, s.Keyed → ¬s.Panics word key →
      s.rules.lookup key = some limiting → s.states.lookup key = some ref →
      s.heap[ref]? = some st →
      Round key ref s (validateOne parse now s result limiting ref (word key)).2 →
      P (key :: keys) s → P keys (validateOne parse now s result limiting ref (word key)).2) :
    P [] (doValidation parse now word keys result s).2 := by
  induction keys generalizing s result with
  | nil => exact holds
  | cons key keys ih =>
    by_cases panics : s.Panics word key
    · rw [doValidation_of_panics panics]
      exact stops holds
    · obtain ⟨limiting, ref, st, result', ruled, listed, object, round, -, same⟩ :=
        doValidation_of_not_panics parse now keyed panics keys result
      rw [same]
      exact ih (round.keeps_keyed keyed listed)
        (goesOn keyed panics ruled listed object round holds)

end Frame

end LimiterStore

end CtrlMesh.CircuitBreaker
