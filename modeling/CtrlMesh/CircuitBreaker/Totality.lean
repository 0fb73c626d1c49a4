import CtrlMesh.CircuitBreaker.Convert
import CtrlMesh.CircuitBreaker.Custody
import CtrlMesh.CircuitBreaker.Priority

/-!
# Calls that return

Which calls of the circuit-breaker manager end with a nil dereference or an index out of range. The
maps of the stores are in step, every key of a state has a colon to be split at, and every stored
expression was compiled, so most of the dereferences in the source are safe in every run. Two are
not: a check of an unknown configuration reads its name, and a rule that has no recover policy is
asked for its type when it trips.
-/

namespace CtrlMesh.CircuitBreaker

open Labels Lib

/-- A list with the mark in it is split in two or more. -/
theorem one_lt_length_splitOn {mark : Char} {text : List Char} (member : mark ∈ text) :
    1 < (text.splitOn mark).length := by
  induction text with
  | nil => simp at member
  | cons c text ih =>
    have some : 0 < (text.splitOn mark).length := List.length_pos_iff.mpr (List.splitOnP_ne_nil _ _)
    rw [List.splitOn, List.splitOnP_cons_eq_if_modifyHead]
    by_cases here : c = mark
    · rw [if_pos (by simp [here]), List.length_cons]
      exact Nat.succ_lt_succ some
    · have later : mark ∈ text := (List.mem_cons.mp member).resolve_left (Ne.symm here)
      rw [if_neg (by simp [here]), List.length_modifyHead]
      exact ih later

theorem colon_mem_ruleKey {config rule : String} : ':' ∈ (ruleKey config rule).toList := by
  simp [ruleKey]

namespace LimiterStore

variable {s : LimiterStore} {key : String} {parse : Parsers} {now : Int}
  {allow : String → Bool}

/-- Every key of a state has a colon. -/
def Split (s : LimiterStore) : Prop := ∀ key ref, s.states.lookup key = some ref → ':' ∈ key.toList

theorem Split.createOrUpdateRule (split : s.Split) (colon : ':' ∈ key.toList)
    (limiting : RateLimiting) : (s.createOrUpdateRule key limiting).Split := by
  unfold LimiterStore.createOrUpdateRule
  cases s.rules.lookup key with
  | none =>
    exact forall_lookup_insert split colon
  | some oldOne => exact split

theorem Split.deleteRule (split : s.Split) (key : String) : (s.deleteRule key).Split := by
  unfold LimiterStore.deleteRule
  cases s.rules.lookup key with
  | none => exact split
  | some oldOne =>
    exact forall_lookup_erase split

theorem Split.of_states {s' : LimiterStore} (split : s.Split) (same : s'.states = s.states) :
    s'.Split := by
  intro key ref listed
  rw [same] at listed
  exact split key ref listed

theorem split_new : Split .new := by
  intro key ref listed
  simp [LimiterStore.new] at listed

/-- A request is only matched by rules that are stored. -/
theorem Coherent.mem_rules_of_matched (coherent : s.Coherent) {parse : Parsers} {request : Request}
    (member : key ∈ s.matched parse request) : key ∈ s.rules := by
  have ruled : ∀ kind value, key ∈ (s.indices.byName kind).keysAt value → key ∈ s.rules := by
    intro kind value indexed
    have ⟨rule, found, _⟩ := (coherent.indexed kind value key).mp indexed
    exact AList.lookup_isSome.mp (found ▸ rfl)
  -- the keys of the first seed that has any
  have first : ∀ kind (seeds : List String),
      key ∈ ((seeds.map (s.indices.byName kind).keysAt).find? (· ≠ ∅)).getD ∅ → key ∈ s.rules := by
    intro kind seeds member
    cases found : (seeds.map (s.indices.byName kind).keysAt).find? (· ≠ ∅) with
    | none =>
      rw [found] at member
      exact absurd member (Finset.notMem_empty key)
    | some keys =>
      have ⟨seed, _, isKeys⟩ := List.mem_map.mp (List.mem_of_find?_eq_some found)
      rw [found, Option.getD_some, ← isKeys] at member
      exact ruled kind seed member
  cases request with
  | rest url method => exact first .rest _ member
  | resource ns apiGroup resource verb => exact first .resource _ member

/-- The rule of the key trips and has no recover policy. -/
def Unrecoverable (s : LimiterStore) (allow : String → Bool) (key : String) : Prop :=
  ∃ limiting ∈ s.rules.lookup key, ∃ ref ∈ s.states.lookup key, ∃ st ∈ s.heap[ref]?,
    limiting.triggerPolicy = .normal ∧ st.state = .closed ∧ allow key = false ∧
      limiting.recoverPolicy = none

theorem Coherent.panics_iff (coherent : s.Coherent) (stored : key ∈ s.rules) :
    s.Panics allow key ↔ s.Unrecoverable allow key := by
  have ruled : (s.rules.lookup key).isSome := AList.lookup_isSome.mpr stored
  have listed : (s.states.lookup key).isSome := by rw [coherent.states, ruled]
  constructor
  · intro panics
    rcases panics with unruled | unlisted | ⟨limiting, ref, st, ruled, listed, object, trips⟩
    · simp [unruled] at ruled
    · simp [unlisted] at listed
    · exact ⟨limiting, ruled, ref, listed, st, object, trips⟩
  · intro ⟨limiting, ruled, ref, listed, st, object, trips⟩
    exact .inr (.inr ⟨limiting, ref, st, ruled, listed, object, trips⟩)

/-- A validation ends with a nil dereference exactly when one of its keys does. -/
theorem doValidation_panicked_iff {keys : List String} (keyed : s.Keyed) (distinct : keys.Nodup)
    (result : ValidateResult) :
    (doValidation parse now allow keys result s).1 = .panicked ↔
      ∃ key ∈ keys, s.Panics allow key := by
  induction keys generalizing s result with
  | nil => simp [doValidation]
  | cons key keys ih =>
    obtain ⟨fresh, distinct'⟩ := List.nodup_cons.mp distinct
    by_cases panics : s.Panics allow key
    · rw [doValidation_of_panics panics]
      exact iff_of_true rfl ⟨key, List.mem_cons_self, panics⟩
    · obtain ⟨limiting, ref, st, result', -, listed, -, round, -, same⟩ :=
        doValidation_of_not_panics parse now keyed panics keys result
      have frame : ∀ other ∈ keys,
          (LimiterStore.Panics (validateOne parse now s result limiting ref (allow key)).2
            allow other ↔ s.Panics allow other) := by
        intro other member
        exact round.panics_iff keyed listed fun equal => fresh (equal ▸ member)
      rw [same, ih (round.keeps_keyed keyed listed) distinct']
      constructor
      · rintro ⟨other, member, later⟩
        exact ⟨other, List.mem_cons_of_mem key member, (frame other member).mp later⟩
      · rintro ⟨other, member, earlier⟩
        cases List.mem_cons.mp member with
        | inl first => exact absurd (first ▸ earlier) panics
        | inr later => exact ⟨other, later, (frame other later).mpr earlier⟩

end LimiterStore

namespace TrafficInterceptStore

variable {compile : Compile} {s : TrafficInterceptStore} {key : String}

/-- Every stored expression compiles. -/
def Compiled (compile : Compile) (s : TrafficInterceptStore) : Prop :=
  ∀ key infos, s.regexpIndexes.lookup key = some infos → ∀ info ∈ infos, (compile info.reg).isSome

theorem compiled_regexpInfos {rule : TrafficInterceptRule} :
    ∀ info ∈ rule.regexpInfos compile, (compile info.reg).isSome := by
  intro info member
  obtain ⟨content, -, listed⟩ := List.mem_flatMap.mp member
  split at listed
  · next compiles =>
    obtain ⟨method, -, rfl⟩ := List.mem_map.mp listed
    exact compiles
  · simp at listed

section

variable (compiled : s.Compiled compile)

include compiled

theorem Compiled.appendInfos {infos : List RegexpInfo}
    (new : ∀ info ∈ infos, (compile info.reg).isSome) :
    { s with regexpIndexes := appendInfos s.regexpIndexes key infos }.Compiled compile := by
  induction infos generalizing s with
  | nil => exact compiled
  | cons first infos ih =>
    have ⟨here, later⟩ := List.forall_mem_cons.mp new
    apply ih (s := { s with regexpIndexes :=
      s.regexpIndexes.insert key ((s.regexpIndexes.lookup key).getD [] ++ [first]) }) _ later
    refine forall_lookup_insert compiled fun info member => ?_
    cases List.mem_append.mp member with
    | inl old =>
      cases known : s.regexpIndexes.lookup key with
      | none => simp [known] at old
      | some olds =>
        rw [known] at old
        exact compiled key olds known info old
    | inr isFirst => exact List.mem_singleton.mp isFirst ▸ here

theorem Compiled.deleteFromIndex (oldOne : TrafficInterceptRule) (key : String) :
    (s.deleteFromIndex oldOne key).Compiled compile := by
  unfold TrafficInterceptStore.deleteFromIndex
  cases oldOne.contentType with
  | normal => exact compiled
  | unnamed value => exact compiled
  | regexp =>
    exact forall_lookup_erase compiled

theorem Compiled.deleteRule (key : String) : (s.deleteRule key).Compiled compile := by
  unfold TrafficInterceptStore.deleteRule
  cases s.rules.lookup key with
  | none => exact compiled
  | some obj => exact compiled.deleteFromIndex obj key

theorem Compiled.createOrUpdateRule (key : String) (rule : TrafficInterceptRule) :
    (s.createOrUpdateRule compile key rule).Compiled compile := by
  have added : ∀ s : TrafficInterceptStore, s.Compiled compile →
      (s.addToIndex compile rule key).Compiled compile := by
    intro s compiled
    unfold TrafficInterceptStore.addToIndex
    cases rule.contentType with
    | normal => exact compiled
    | unnamed value => exact compiled
    | regexp => exact compiled.appendInfos compiled_regexpInfos
  have stored : { s with rules := s.rules.insert key rule }.Compiled compile := compiled
  unfold TrafficInterceptStore.createOrUpdateRule TrafficInterceptStore.updateIndex
  cases s.rules.lookup key with
  | none => exact added _ stored
  | some oldOne => exact added _ (stored.deleteFromIndex oldOne key)

end

end TrafficInterceptStore

namespace Manager

/-- A call from outside, with a CircuitBreaker that is converted and sent with an option; or the
lease's loop going on. -/
inductive Call where
  | sync (now : Int) (option : SyncOption) (breaker : Spec.Breaker)
  | validate (now : Int) (request : Request) (order : List String) (allow : String → Bool)
  | trafficIntercept (url method : String)
  | take (ref : StateRef)
  | process (now : Int)

variable (compile : Compile) (parse : Parsers) (hash : Spec.Breaker → String)

/-- The message sent for a CircuitBreaker. -/
def sent (option : SyncOption) (breaker : Spec.Breaker) : Config :=
  { convertCircuitBreaker hash breaker with option := option }

/-- What the call does to the manager; the validation of intercepted traffic only reads. -/
def call (m : Manager) : Call → Option Manager
  | .sync now option breaker =>
    m.step compile parse (.sync now (sent hash option breaker))
  | .validate now request order allow =>
    m.step compile parse (.validate now request order allow)
  | .trafficIntercept _ _ => some m
  | .take ref => m.step compile parse (.take ref)
  | .process now => m.step compile parse (.process now)

/-- The call dereferences no nil pointer and no index out of range: `Sync` answers, without success
for a check of an unknown configuration, and every key its snapshot splits has a second part; a
validation answers, and finds a rule, a limiter and a state under each key; that of intercepted
traffic finds an expression in each index. -/
def Returns (m : Manager) : Call → Prop
  | .sync now option breaker =>
    (∃ resp err, m.syncAnswer compile now (sent hash option breaker) = .returned (resp, err) ∧
      (option = .check → breaker.name ∉ m.breakerMap → resp.success = false)) ∧
    ∀ key ∈ (m.synced compile now (sent hash option breaker)).limiterStore.states,
      1 < (key.toList.splitOn ':').length
  | .validate now _ order allow =>
    (m.limiterStore.validate parse now order allow).1 ≠ .panicked ∧
    ∀ key ∈ order, key ∈ m.limiterStore.rules ∧ key ∈ m.limiterStore.limiters ∧
      key ∈ m.limiterStore.states
  | .trafficIntercept _ _ => m.trafficInterceptStore.Compiled compile
  | .take _ | .process _ => True

/-- A check names a configuration that is held; no rule without a recover policy trips. -/
def Safe (m : Manager) : Call → Prop
  | .sync _ option breaker => option = .check → breaker.name ∈ m.breakerMap
  | .validate _ _ order allow => ∀ key ∈ order, ¬m.limiterStore.Unrecoverable allow key
  | _ => True

/-- What every run keeps. -/
structure Sane (m : Manager) : Prop where
  coherent : m.limiterStore.Coherent
  split : m.limiterStore.Split
  compiled : m.trafficInterceptStore.Compiled compile

variable {compile parse hash} {m m' : Manager}

theorem sane_new : Sane compile .new := by
  refine ⟨LimiterStore.coherent_new, LimiterStore.split_new, ?_⟩
  intro key infos found
  simp [Manager.new, TrafficInterceptStore.new] at found

variable {now : Int} {config : Config}

theorem Sane.split_synced (sane : m.Sane compile) :
    (m.synced compile now config).limiterStore.Split := by
  apply synced_keeps (P := (·.limiterStore.Split)) (fun _ _ split => split) _ _ _ sane.split
  · intro m cb split
    exact List.foldlRecOn cb.rateLimitings _ split fun s split limiting _ =>
      split.createOrUpdateRule colon_mem_ruleKey limiting
  · intro m name split
    unfold unregisterRules
    cases m.breakerMap.lookup name with
    | none => exact split
    | some cb =>
      exact List.foldlRecOn cb.rateLimitings _ split fun s split limiting _ => split.deleteRule _
  · intro m now key split
    unfold recoverBreaker
    cases m.limiterStore.states.lookup key with
    | none => exact split
    | some ref => exact split

/-- Every event keeps the invariant. -/
theorem Sane.step (parse : Parsers) (sane : m.Sane compile) (event : Event)
    (stepped : m.step compile parse event = some m') : m'.Sane compile := by
  have coherent := coherent_step event sane.coherent stepped
  cases event with
  | sync now config =>
    cases stepped
    have compiled := trafficInterceptStore_synced (P := (·.Compiled compile))
      (fun _ key rule compiled => compiled.createOrUpdateRule key rule)
      (fun _ key compiled => compiled.deleteRule key) sane.compiled now config
    exact ⟨coherent, sane.split_synced, compiled⟩
  | validate now request order allow =>
    obtain ⟨-, -, rfl⟩ := step_validate stepped
    have frame := LimiterStore.frame_validate parse now sane.coherent.keyed order allow
    exact ⟨coherent, sane.split.of_states frame.2, sane.compiled⟩
  | take ref =>
    obtain ⟨s, taken, rfl⟩ := Option.map_eq_some_iff.mp stepped
    exact ⟨coherent, sane.split.of_states (LimiterStore.frame_take taken).2.1, sane.compiled⟩
  | process now =>
    obtain ⟨s, processed, rfl⟩ := Option.map_eq_some_iff.mp stepped
    have frame := LimiterStore.frame_process processed
    exact ⟨coherent, sane.split.of_states frame.2.1, sane.compiled⟩

theorem Sane.call (sane : m.Sane compile) (call : Call)
    (stepped : m.call compile parse hash call = some m') : m'.Sane compile := by
  have kept := @Sane.step compile m m' parse sane
  cases call with
  | sync now option breaker => exact kept (.sync now (sent hash option breaker)) stepped
  | validate now request order allow => exact kept (.validate now request order allow) stepped
  | trafficIntercept url method =>
    cases stepped
    exact sane
  | take ref => exact kept (.take ref) stepped
  | process now => exact kept (.process now) stepped

/-- `Sync` answers unless it checks an unknown configuration. -/
theorem syncAnswer_returned (known : config.option = .check → config.name ∈ m.breakerMap) :
    ∃ resp err, m.syncAnswer compile now config = .returned (resp, err) := by
  unfold syncAnswer
  cases option : config.option with
  | update => exact ⟨_, _, rfl⟩
  | delete => exact ⟨_, _, rfl⟩
  | recover => exact ⟨_, _, rfl⟩
  | unnamed value => exact ⟨_, _, rfl⟩
  | check =>
    have held := known option
    cases found : m.breakerMap.lookup config.name with
    | none => exact absurd held (AList.lookup_eq_none.mp found)
    | some cb =>
      dsimp only
      split
      · exact ⟨_, _, rfl⟩
      · exact ⟨_, _, rfl⟩

theorem syncAnswer_unknown (check : config.option = .check) (unknown : config.name ∉ m.breakerMap) :
    m.syncAnswer compile now config = .panicked := by
  simp only [syncAnswer, check, AList.lookup_eq_none.mpr unknown]

theorem Sane.returns_sync (sane : m.Sane compile) {option : SyncOption} {breaker : Spec.Breaker} :
    m.Returns compile parse hash (.sync now option breaker) ↔
      m.Safe (.sync now option breaker) := by
  constructor
  · intro ⟨⟨resp, err, answered, _⟩, _⟩ check
    by_contra unknown
    rw [@syncAnswer_unknown compile m now (sent hash option breaker) check unknown] at answered
    cases answered
  · intro safe
    have ⟨resp, err, answered⟩ := @syncAnswer_returned compile m now (sent hash option breaker) safe
    refine ⟨⟨resp, err, answered, fun check unknown => absurd (safe check) unknown⟩, ?_⟩
    intro key member
    have ⟨ref, listed⟩ := Option.isSome_iff_exists.mp (AList.lookup_isSome.mpr member)
    exact one_lt_length_splitOn (sane.split_synced key ref listed)

theorem Sane.returns_validate (sane : m.Sane compile) {request : Request} {order : List String}
    {allow : String → Bool} (distinct : order.Nodup)
    (enumerates : order.toFinset = m.limiterStore.matched parse request) :
    m.Returns compile parse hash (.validate now request order allow) ↔
      m.Safe (.validate now request order allow) := by
  have ruled : ∀ key ∈ order, key ∈ m.limiterStore.rules := by
    intro key member
    have matched := List.mem_toFinset.mpr member
    rw [enumerates] at matched
    exact sane.coherent.mem_rules_of_matched matched
  have stored : ∀ key ∈ order, key ∈ m.limiterStore.rules ∧ key ∈ m.limiterStore.limiters ∧
      key ∈ m.limiterStore.states := by
    intro key member
    have found := AList.lookup_isSome.mpr (ruled key member)
    have limited : (m.limiterStore.limiters.lookup key).isSome := by
      rw [sane.coherent.limiters, Option.isSome_map, found]
    have listed : (m.limiterStore.states.lookup key).isSome := by rw [sane.coherent.states, found]
    exact ⟨ruled key member, AList.lookup_isSome.mp limited, AList.lookup_isSome.mp listed⟩
  have panicked : (m.limiterStore.validate parse now order allow).1 = .panicked ↔
      ∃ key ∈ order, m.limiterStore.Unrecoverable allow key := by
    have each : (∃ key ∈ order, m.limiterStore.Panics allow key) ↔
        ∃ key ∈ order, m.limiterStore.Unrecoverable allow key :=
      exists_congr fun key => and_congr_right fun member =>
        sane.coherent.panics_iff (ruled key member)
    unfold LimiterStore.validate
    split
    · next empty => simp [empty]
    · rw [LimiterStore.doValidation_panicked_iff sane.coherent.keyed distinct, each]
  constructor
  · intro ⟨answers, _⟩ key member trips
    exact answers (panicked.mpr ⟨key, member, trips⟩)
  · intro safe
    refine ⟨?_, stored⟩
    intro ends
    have ⟨key, member, trips⟩ := panicked.mp ends
    exact safe key member trips

/-- In every run from a new manager, the calls that dereference nothing they should not are those
where a check names a configuration that is held and no rule without a recover policy trips. -/
theorem returns_iff_safe (compile : Compile) (parse : Parsers) (hash : Spec.Breaker → String)
    (calls : List Call) :
    EachStep (call compile parse hash) (Returns compile parse hash) .new
        calls ↔
      EachStep (call compile parse hash) Safe .new calls := by
  apply @eachStep_iff_of_keeps _ _ _ (Sane compile) _ _ _ _
    (fun _ call _ sane _ stepped => sane.call call stepped) sane_new
  intro m call m' sane stepped
  cases call with
  | sync now option breaker => exact sane.returns_sync
  | validate now request order allow =>
    have ⟨distinct, enumerates, _⟩ := @step_validate compile _ _ _ _ _ _ _ stepped
    exact sane.returns_validate distinct enumerates
  | trafficIntercept url method => exact iff_of_true sane.compiled trivial
  | take ref => exact Iff.rfl
  | process now => exact Iff.rfl

/-- A CircuitBreaker with one rule, which allows one request and says nothing about recovery. -/
def unrecovering : Spec.Breaker where
  name := "breaker"
  trafficInterceptRules := []
  rateLimitings := [{
    name := "rule"
    resourceRules := []
    restRules := [⟨"https://example.com/a", "GET"⟩]
    bucket := ⟨1, "1h", 1⟩
    triggerPolicy := .normal
    recoverPolicy := none
    properties := ∅ }]

/-- The first request that its limiter refuses finds no recover policy, and the check of a
configuration that is not held finds no name. -/
theorem unrecovering_panics : ∃ m m',
    run (call (fun _ => none) (.every 0) fun _ => "hash") .new
      [.sync 0 .update unrecovering] = some m ∧
    m.call (fun _ => none) (.every 0) (fun _ => "hash")
      (.validate 1 (.rest "https://example.com/a" "GET") ["breaker:rule"] fun _ => false) =
        some m' ∧
    (m.limiterStore.validate (.every 0) 1 ["breaker:rule"] fun _ => false).1 = .panicked ∧
    Manager.new.syncAnswer (fun _ => none) 0 (sent (fun _ => "hash") .check unrecovering) =
      .panicked :=
  ⟨_, _, rfl, rfl, by decide, by decide⟩

end Manager

end CtrlMesh.CircuitBreaker
