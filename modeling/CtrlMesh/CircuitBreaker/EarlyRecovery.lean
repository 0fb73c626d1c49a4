import CtrlMesh.CircuitBreaker.Custody

/-!
# The lease and the end of a sleeping window

The loop of the lease reads the time an object recovers at, and closes the object two steps later
without reading it again. If the breaker is recovered in between and trips again, the new window
ends at once. This is the only way in which the lease ends a window early.
-/

namespace CtrlMesh.CircuitBreaker

open Labels Lib

/-- The loop has found the window of its object to be over, and has not closed the object yet. -/
def Stage.Read (stage : Stage) : Prop := stage = .due ∨ stage = .removed

instance (stage : Stage) : Decidable stage.Read :=
  inferInstanceAs (Decidable (stage = .due ∨ stage = .removed))

namespace LimiterStore

variable {s s' : LimiterStore} {key other : String} {ref : StateRef} {st : State}
  {limiting : RateLimiting} {parse : Parsers} {now time : Int} {allow : String → Bool}

/-- If the object the loop has read is open, its time has come. -/
def ReadBy (time : Int) (s : LimiterStore) : Prop :=
  ∀ ref stage st, s.breakerLease.processing = some (ref, stage) → stage.Read →
    s.heap[ref]? = some st → st.state = .opened → ∃ due, st.recoverAt = some due ∧ due ≤ time

/-- The rule of the key would open the object that the loop has read. -/
def Reopens (s : LimiterStore) (allow : String → Bool) (key : String) : Prop :=
  ∃ task ∈ s.breakerLease.processing, task.2.Read ∧ s.states.lookup key = some task.1 ∧
    ∃ limiting ∈ s.rules.lookup key, ∃ st ∈ s.heap[task.1]?, ∃ policy ∈ limiting.recoverPolicy,
      Opens limiting st (allow key) policy

instance (limiting : RateLimiting) (st : State) (allow : Bool) (policy : RecoverPolicy) :
    Decidable (Opens limiting st allow policy) :=
  inferInstanceAs (Decidable (_ ∧ _ ∧ _ ∧ _ ∧ _))

instance (s : LimiterStore) (allow : String → Bool) (key : String) :
    Decidable (s.Reopens allow key) :=
  inferInstanceAs (Decidable (∃ task ∈ s.breakerLease.processing, _ ∧ _ ∧ _))

section

variable (read : s.ReadBy time)

include read

theorem ReadBy.mono {later : Int} (order : time ≤ later) : s.ReadBy later := by
  intro ref stage st current isRead object isOpen
  obtain ⟨due, recovers, passed⟩ := read ref stage st current isRead object isOpen
  exact ⟨due, recovers, le_trans passed order⟩

theorem ReadBy.createOrUpdateRule (key : String) (limiting : RateLimiting) :
    (s.createOrUpdateRule key limiting).ReadBy time := by
  unfold LimiterStore.createOrUpdateRule
  cases s.rules.lookup key with
  | none =>
    intro ref stage st current isRead object isOpen
    rw [List.getElem?_append] at object
    split at object
    · exact read ref stage st current isRead object isOpen
    · -- the new object is closed
      have isNew := List.mem_singleton.mp (List.mem_of_getElem? object)
      rw [isNew] at isOpen
      cases isOpen
  | some oldOne => exact read

theorem ReadBy.deleteRule (key : String) : (s.deleteRule key).ReadBy time := by
  unfold LimiterStore.deleteRule
  cases s.rules.lookup key with
  | none => exact read
  | some oldOne => exact read

/-- A write to another object, or one that does not leave the object open, does not matter. -/
theorem ReadBy.modifyState (ref : StateRef) {f : State → State}
    (safe : ∀ stage st, s.breakerLease.processing = some (ref, stage) → stage.Read →
      s.heap[ref]? = some st → (f st).state ≠ .opened) : (s.modifyState ref f).ReadBy time := by
  intro r stage st current isRead object isOpen
  dsimp only [LimiterStore.modifyState] at object
  rw [List.getElem?_modify] at object
  obtain ⟨before, found, value⟩ := Option.map_eq_some_iff.mp object
  by_cases same : ref = r
  · subst same
    rw [if_pos rfl] at value
    rw [← value] at isOpen
    exact absurd isOpen (safe stage before current isRead found)
  · rw [if_neg same] at value
    exact read r stage st current isRead (value ▸ found) isOpen

theorem ReadBy.recoverBreaker (ref : StateRef) (now : Int) :
    (s.modifyState ref (·.recoverBreaker now)).ReadBy time := by
  apply read.modifyState
  intro _ st _ _ _
  exact st.recoverBreaker_ne_opened

theorem ReadBy.registerState (ref : StateRef) : (s.registerState ref).ReadBy time := by
  unfold LimiterStore.registerState
  split
  · exact read
  · split
    · exact read
    · exact read

theorem ReadBy.validateOne (custody : s.Custody) (ruled : s.rules.lookup key = some limiting)
    (listed : s.states.lookup key = some ref) (object : s.heap[ref]? = some st)
    (alone : ¬s.Reopens allow key) (result : ValidateResult) :
    (validateOne parse now s result limiting ref (allow key)).2.ReadBy time := by
  rcases validateOne_kinds object with same | closes | ⟨awake, opens⟩ | ⟨policy, opens, same⟩
  · rw [same]
    exact read
  · rw [closes]
    exact read.recoverBreaker ref now
  · rw [opens]
    apply read.modifyState
    intro stage _ current _ _
    have held : s.breakerLease.Holds ref := .inr (.inl ⟨stage, current⟩)
    obtain ⟨rule, ruled', sleeps⟩ := custody.sleeps ref key held listed
    rw [ruled, Option.some.injEq] at ruled'
    exact absurd (ruled' ▸ sleeps) awake
  · rw [same]
    apply ReadBy.registerState
    apply read.modifyState
    intro stage _ current isRead _
    exact absurd ⟨(ref, stage), current, isRead, listed, limiting, ruled, st, object, policy,
      opens.2.2.2.1, opens⟩ alone

end

theorem Round.reopens_iff (round : Round key ref s s') (keyed : s.Keyed)
    (listed : s.states.lookup key = some ref) (different : other ≠ key) :
    s'.Reopens allow other ↔ s.Reopens allow other := by
  simp only [Reopens, round.processing, round.rules, round.states]
  constructor
  · intro ⟨task, current, isRead, held, limiting, ruled, st, object, opens⟩
    rw [(round.object_eq keyed listed held different).2] at object
    exact ⟨task, current, isRead, held, limiting, ruled, st, object, opens⟩
  · intro ⟨task, current, isRead, held, limiting, ruled, st, object, opens⟩
    rw [← (round.object_eq keyed listed held different).2] at object
    exact ⟨task, current, isRead, held, limiting, ruled, st, object, opens⟩

theorem ReadBy.doValidation {keys : List String} (read : s.ReadBy time) (custody : s.Custody)
    (keyed : s.Keyed) (distinct : keys.Nodup) (alone : ∀ key ∈ keys, ¬s.Reopens allow key)
    (result : ValidateResult) : (doValidation parse now allow keys result s).2.ReadBy time := by
  refine (doValidation_keeps (P := fun keys s => s.ReadBy time ∧ s.Custody ∧ keys.Nodup ∧
    ∀ key ∈ keys, ¬s.Reopens allow key) keyed ⟨read, custody, distinct, alone⟩
    (fun ⟨read, custody, _⟩ => ⟨read, custody, .nil, nofun⟩) ?_).1
  rintro s key keys limiting ref st result keyed - ruled listed object round
    ⟨read, custody, distinct, alone⟩
  obtain ⟨fresh, distinct⟩ := List.nodup_cons.mp distinct
  refine ⟨read.validateOne custody ruled listed object (alone key List.mem_cons_self) result,
    custody.validateOne keyed ruled listed object result _, distinct, fun other member => ?_⟩
  have different : other ≠ key := fun equal => fresh (equal ▸ member)
  rw [round.reopens_iff keyed listed different]
  exact alone other (List.mem_cons_of_mem key member)

theorem ReadBy.validate {order : List String} (read : s.ReadBy time) (custody : s.Custody)
    (keyed : s.Keyed) (distinct : order.Nodup) (alone : ∀ key ∈ order, ¬s.Reopens allow key) :
    (s.validate parse now order allow).2.ReadBy time := by
  unfold LimiterStore.validate
  split
  · exact read
  · exact read.doValidation custody keyed distinct alone _

/-- An object that is not being read carries no duty. -/
theorem readBy_of_stage {stage : Stage} (unread : ¬stage.Read)
    (current : s.breakerLease.processing = some (ref, stage)) : s.ReadBy time := by
  intro r stage' st current' isRead
  rw [current, Option.some.injEq, Prod.mk.injEq] at current'
  exact absurd (current'.2 ▸ isRead) unread

theorem readBy_take (taken : s.take ref = some s') : s'.ReadBy time := by
  unfold LimiterStore.take at taken
  split at taken
  · cases taken
    exact readBy_of_stage (by simp [Stage.Read]) rfl
  · cases taken

theorem ReadBy.process (read : s.ReadBy time) (custody : s.Custody) (order : time ≤ now)
    (processed : s.process now = some s') : s'.ReadBy now := by
  have ⟨ref, st, object, stepped⟩ := stepped_of_process processed
  cases stepped with
  | requeues => exact readBy_of_stage (by simp [Stage.Read]) rfl
  | reads current expired =>
    -- the loop reads the object: it is closed, or its time has come
    intro r stage' st' current' _ object' isOpen
    cases current'
    rw [object, Option.some.injEq] at object'
    have held : s.breakerLease.Holds ref := .inr (.inl ⟨.taken, current⟩)
    have timed := custody.timed ref st held object (object' ▸ isOpen)
    have ⟨due, recovers⟩ := Option.isSome_iff_exists.mp timed
    have passed : due ≤ now := by
      simp only [recovers, Option.any_some, decide_eq_true_eq] at expired
      omega
    exact ⟨due, object' ▸ recovers, passed⟩
  | removes current =>
    intro r stage' st' current' _ object' isOpen
    cases current'
    exact read.mono order ref .due st' current (.inl rfl) object' isOpen
  | closes => exact readBy_of_stage (by simp [Stage.Read]) rfl
  | finishes =>
    intro r stage' st' current'
    cases current'

end LimiterStore

namespace Manager

/-- The time at which an event happens, if it reads the clock. -/
def Event.time : Event → Option Int
  | .sync now _ | .validate now _ _ _ | .process now => some now
  | .take _ => none

/-- A manager and the time its clock was read last. -/
structure Clocked where
  time : Int
  manager : Manager

variable (compile : Compile) (parse : Parsers)

/-- The clock does not go back. -/
def Clocked.step (c : Clocked) (event : Event) : Option Clocked :=
  let now := event.time.getD c.time
  if c.time ≤ now then (c.manager.step compile parse event).map (⟨now, ·⟩)
  else none

/-- Where the loop of the lease closes an open breaker, the time set when the breaker was opened has
come. -/
def Clocked.Punctual (c : Clocked) : Event → Prop
  | .process now => ∀ ref st,
    c.manager.limiterStore.breakerLease.processing = some (ref, .removed) →
    c.manager.limiterStore.heap[ref]? = some st → st.state = .opened →
    ∃ due, st.recoverAt = some due ∧ due ≤ now
  | _ => True

/-- No validation opens a breaker whose window the loop has found to be over and which it is about
to close. -/
def Clocked.LeavesRead (c : Clocked) : Event → Prop
  | .validate _ _ order allow => ∀ key ∈ order, ¬c.manager.limiterStore.Reopens allow key
  | _ => True

instance (c : Clocked) : DecidablePred c.LeavesRead
  | .validate _ _ order allow =>
    inferInstanceAs (Decidable (∀ key ∈ order, ¬c.manager.limiterStore.Reopens allow key))
  | .sync _ _ | .take _ | .process _ => .isTrue trivial

/-- The event leaves what the loop has read; and a configuration's name has no colon. -/
def Clocked.Undisturbed (c : Clocked) (event : Event) : Prop := event.Plain ∧ c.LeavesRead event

instance (c : Clocked) (event : Event) : Decidable (c.Undisturbed event) :=
  inferInstanceAs (Decidable (event.Plain ∧ c.LeavesRead event))

/-- The invariant of the runs. -/
structure Clocked.Timely (c : Clocked) : Prop where
  orderly : c.manager.Orderly
  read : c.manager.limiterStore.ReadBy c.time

variable {compile parse} {c c' : Clocked} {m m' : Manager}

/-- A step that disturbs no reading keeps what was read. -/
theorem readBy_step {time : Int} {event : Event} (orderly : m.Orderly)
    (read : m.limiterStore.ReadBy time) (order : time ≤ event.time.getD time)
    (quiet : Clocked.Undisturbed ⟨time, m⟩ event) (stepped : m.step compile parse event = some m') :
    m'.limiterStore.ReadBy (event.time.getD time) := by
  have later := read.mono order
  cases event with
  | sync now config =>
    cases stepped
    exact limiterStore_synced (fun _ key limiting read => read.createOrUpdateRule key limiting)
      (fun _ key read => read.deleteRule key)
      (fun _ ref now read => read.recoverBreaker ref now) later
  | validate now request keys allow =>
    obtain ⟨distinct, -, rfl⟩ := step_validate stepped
    exact later.validate orderly.custody orderly.limits.coherent.keyed distinct quiet.2
  | take ref =>
    obtain ⟨s, taken, rfl⟩ := Option.map_eq_some_iff.mp stepped
    exact LimiterStore.readBy_take taken
  | process now =>
    obtain ⟨s, processed, rfl⟩ := Option.map_eq_some_iff.mp stepped
    exact read.process orderly.custody order processed

theorem Clocked.Timely.step (timely : c.Timely) (event : Event) (quiet : c.Undisturbed event)
    (stepped : c.step compile parse event = some c') : c'.Timely := by
  simp only [Clocked.step] at stepped
  split at stepped
  · next order =>
    obtain ⟨m, went, rfl⟩ := Option.map_eq_some_iff.mp stepped
    exact ⟨timely.orderly.step event quiet.1 went,
      readBy_step timely.orderly timely.read order quiet went⟩
  · cases stepped

theorem Clocked.Timely.punctual (timely : c.Timely) (event : Event)
    (stepped : c.step compile parse event = some c') : c.Punctual event := by
  cases event with
  | process now =>
    intro ref st current object isOpen
    obtain ⟨due, recovers, passed⟩ := timely.read ref .removed st current (.inr rfl) object isOpen
    have order : c.time ≤ now := by
      by_contra early
      simp [Clocked.step, Event.time, early] at stepped
    exact ⟨due, recovers, le_trans passed order⟩
  | _ => trivial

theorem timely_new {start : Int} : Clocked.Timely ⟨start, .new⟩ := by
  refine ⟨orderly_new, ?_⟩
  intro ref stage st current
  cases current

/-- In every run in which no validation reopens a breaker that the lease is about to close, the
lease closes breakers only after their windows. -/
theorem punctual_of_undisturbed (compile : Compile) (parse : Parsers) (start : Int)
    (events : List Event) (undisturbed : EachStep (Clocked.step compile parse) Clocked.Undisturbed
      ⟨start, .new⟩ events) :
    EachStep (Clocked.step compile parse) Clocked.Punctual ⟨start, .new⟩ events :=
  eachStep_of_eachStep (fun _ event _ timely _ stepped => timely.punctual event stepped)
    (fun _ event _ timely quiet stepped => timely.step event quiet stepped) timely_new
    undisturbed

/-- The rule trips, and the lease closes its breaker when the window of ten is over. -/
def sleptOut : List Event :=
  [ .sync 0 (sleepingConfig "hash"),
    .validate 1 (.resource "default" "apps" "deployments" "list") ["breaker:rule"] (fun _ => false),
    .take 0, .process 11, .process 12, .process 13 ]

theorem punctual_of_undisturbed_sleptOut :
    EachStep (Clocked.step (fun _ => none) (.every 10)) Clocked.Punctual
      ⟨0, .new⟩ sleptOut := by
  apply punctual_of_undisturbed
  decide

/-- The loop finds the window over; the rule is recovered and trips again; the loop goes on. -/
def reopened : List Event :=
  let request := .resource "default" "apps" "deployments" "list"
  [ .sync 0 (sleepingConfig "hash"), .validate 1 request ["breaker:rule"] (fun _ => false),
    .take 0, .process 11, .sync 12 { sleepingConfig "hash" with option := .recover },
    .validate 13 request ["breaker:rule"] (fun _ => false), .process 14 ]

/-- The state after that run. -/
def afterReopened : Clocked :=
  (run (Clocked.step (fun _ => none) (.every 10)) ⟨0, .new⟩ reopened).getD
    ⟨0, .new⟩

/-- The breaker that opened at 13 until 23 is closed at 15. -/
theorem lease_ends_window_early :
    ¬∀ (compile : Compile) (parse : Parsers) (start : Int) (events : List Event),
      (∀ event ∈ events, event.Plain) →
      EachStep (Clocked.step compile parse) Clocked.Punctual ⟨start, .new⟩
        events := by
  intro always
  have each := always (fun _ => none) (.every 10) 0 (reopened ++ [.process 15])
    (by decide)
  have punctual : afterReopened.Punctual (.process 15) := each reopened (.process 15) []
    afterReopened _ rfl rfl rfl
  obtain ⟨due, recovers, passed⟩ := punctual 0 ⟨"breaker:rule", .opened, some 13, some 23⟩
    (by decide) (by decide) rfl
  cases recovers
  omega

end Manager

end CtrlMesh.CircuitBreaker
