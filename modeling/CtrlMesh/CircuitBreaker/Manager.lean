import CtrlMesh.CircuitBreaker.LimiterStore

/-!
# The circuit-breaker manager of a proxy

`manager.go`: `Sync` takes configurations over into the two stores, the validations ask the stores
about a request. A nil dereference leaves the stores as they were when it happened.
-/

namespace CtrlMesh.CircuitBreaker

open Labels Lib

/-- `manager`. -/
structure Manager where
  breakerMap : StringMap Config
  limiterStore : LimiterStore
  trafficInterceptStore : TrafficInterceptStore

/-- `NewManager`. -/
def Manager.new : Manager := ⟨∅, .new, .new⟩

/-- What a call returns. -/
inductive Outcome (α : Type) where
  | returned (value : α)
  | panicked
  deriving DecidableEq

variable {m : Manager} {config : Config}

namespace Manager

section Sync

variable (compile : Compile)

/-- `registerRules`. -/
def registerRules (m : Manager) (cb : Config) : Manager :=
  { m with
    limiterStore := cb.rateLimitings.foldl
      (fun s limiting => s.createOrUpdateRule (ruleKey cb.name limiting.name) limiting)
      m.limiterStore
    trafficInterceptStore := cb.trafficInterceptRules.foldl
      (fun s rule => s.createOrUpdateRule compile (ruleKey cb.name rule.name) rule)
      m.trafficInterceptStore }

/-- `unregisterRules`. -/
def unregisterRules (m : Manager) (cbName : String) : Manager :=
  match m.breakerMap.lookup cbName with
  | none => m
  | some cb =>
    { m with
      limiterStore := cb.rateLimitings.foldl
        (fun s limiting => s.deleteRule (ruleKey cb.name limiting.name)) m.limiterStore
      trafficInterceptStore := cb.trafficInterceptRules.foldl
        (fun s rule => s.deleteRule (ruleKey cb.name rule.name)) m.trafficInterceptStore }

/-- `recoverBreaker`. -/
def recoverBreaker (m : Manager) (now : Int) (key : String) : Manager :=
  match m.limiterStore.states.lookup key with
  | none => m
  | some ref =>
    { m with limiterStore := m.limiterStore.modifyState ref (·.recoverBreaker now) }

/-- The part of a key before its first colon, and the part from there to the next one. -/
def splitKey (key : String) : String × String :=
  let parts := key.toList.splitOn ':'
  (String.ofList (parts.getD 0 []), String.ofList (parts.getD 1 []))

/-- `snapshot`, in some order of the states. -/
def snapshot (m : Manager) (breaker : String) : List LimitingSnapshot :=
  m.limiterStore.states.entries.filterMap fun entry => do
    let st ← m.limiterStore.heap[entry.2]?
    let (cbName, limitName) := splitKey entry.1
    if cbName ≠ breaker then none
    else some ⟨limitName, st.state, st.recoverAt, st.lastTransitionTime⟩

/-- The UPDATE of a configuration that is new or has a new hash. -/
def takeOver (m : Manager) (config : Config) (cb : Option Config) : Manager :=
  let m := match cb with
    | none => m
    | some cb => m.unregisterRules cb.name
  { m with breakerMap := m.breakerMap.insert config.name config }.registerRules compile config

/-- The state after `Sync`. -/
def synced (m : Manager) (now : Int) (config : Config) : Manager :=
  match config.option with
  | .update =>
    match m.breakerMap.lookup config.name with
    | none => m.takeOver compile config none
    | some cb =>
      if config.configHash = cb.configHash then m else m.takeOver compile config (some cb)
  | .delete =>
    match m.breakerMap.lookup config.name with
    | none => m
    | some cb =>
      let m := m.unregisterRules cb.name
      { m with breakerMap := m.breakerMap.erase config.name }
  | .recover =>
    config.rateLimitings.foldl
      (fun m limiting => m.recoverBreaker now (ruleKey config.name limiting.name)) m
  | .check | .unnamed _ => m

/-- The answer of `Sync`, with the error of an unknown option. A check of an unknown configuration
reads the name of a nil one. -/
def syncAnswer (m : Manager) (now : Int) (config : Config) :
    Outcome (ConfigResp × Option String) :=
  let after := m.synced compile now config
  let known := m.breakerMap.lookup config.name
  match config.option with
  | .update => .returned (⟨true, match known with
      | none => "new circuitBreaker with spec hash " ++ config.configHash
      | some cb =>
        if config.configHash = cb.configHash then
          "circuitBreaker spec hash not updated, hash " ++ cb.configHash
        else "circuitBreaker spec hash updated, old hash " ++ cb.configHash ++ ", new " ++
          config.configHash, after.snapshot config.name⟩, none)
  | .delete => .returned (⟨true, match known with
      | none => "circuitBreaker config " ++ config.name ++ " already deleted"
      | some cb => "circuitBreaker config " ++ cb.name ++ " success deleted", []⟩, none)
  | .check => match known with
    | none => .panicked
    | some cb =>
      if config.configHash ≠ cb.configHash then
        .returned (⟨false, "unequal circuit breaker " ++ cb.name ++ " hash, old " ++
          cb.configHash ++ ", new " ++ config.configHash, after.snapshot config.name⟩, none)
      else .returned (⟨true, "", after.snapshot config.name⟩, none)
  | .recover =>
    let names := config.rateLimitings.foldl (fun names limiting =>
      names ++ " [" ++ ruleKey config.name limiting.name ++ "]") ""
    .returned (⟨true, "recovered limiting rules " ++ names, after.snapshot config.name⟩, none)
  | .unnamed value =>
    let message := "illegal config option " ++ toString value
    .returned (⟨false, message, []⟩, some message)

variable {compile}

/-- The configurations stay. -/
theorem unregisterRules_breakerMap (name : String) :
    (m.unregisterRules name).breakerMap = m.breakerMap := by
  unfold unregisterRules
  split <;> rfl

/-- The configuration is recorded. -/
theorem takeOver_breakerMap (cb : Option Config) :
    (m.takeOver compile config cb).breakerMap = m.breakerMap.insert config.name config := by
  cases cb with
  | none => rfl
  | some cb =>
    change (m.unregisterRules cb.name).breakerMap.insert config.name config = _
    rw [unregisterRules_breakerMap]

variable {now : Int} {name : String}

/-- An update adds its configuration to the ones held. -/
theorem mem_synced_update (update : config.option = .update) :
    name ∈ (m.synced compile now config).breakerMap ↔ name = config.name ∨ name ∈ m.breakerMap := by
  simp only [synced, update]
  cases found : m.breakerMap.lookup config.name with
  | none => rw [takeOver_breakerMap, AList.mem_insert]
  | some cb =>
    dsimp only
    split
    · have known : config.name ∈ m.breakerMap := AList.lookup_isSome.mp (by rw [found]; rfl)
      constructor
      · exact .inr
      · rintro (rfl | member)
        · exact known
        · exact member
    · rw [takeOver_breakerMap, AList.mem_insert]

/-- A deletion takes its configuration from the ones held. -/
theorem mem_synced_delete (delete : config.option = .delete) :
    name ∈ (m.synced compile now config).breakerMap ↔ name ≠ config.name ∧ name ∈ m.breakerMap := by
  simp only [synced, delete]
  cases found : m.breakerMap.lookup config.name with
  | none =>
    have unknown : config.name ∉ m.breakerMap := AList.lookup_eq_none.mp found
    constructor
    · exact fun member => ⟨fun same => unknown (same ▸ member), member⟩
    · exact fun both => both.2
  | some cb =>
    change name ∈ (m.unregisterRules cb.name).breakerMap.erase config.name ↔ _
    rw [unregisterRules_breakerMap, AList.mem_erase]

/-- A `Sync` call changes nothing, takes a configuration over, withdraws one, or recovers the
breakers it names. -/
theorem synced_cases (m : Manager) :
    m.synced compile now config = m ∨
    (config.option = .update ∧
      (∀ cb, m.breakerMap.lookup config.name = some cb → config.configHash ≠ cb.configHash) ∧
      m.synced compile now config =
        m.takeOver compile config (m.breakerMap.lookup config.name)) ∨
    (config.option = .delete ∧ ∃ cb, m.breakerMap.lookup config.name = some cb ∧
      m.synced compile now config = { m.unregisterRules cb.name with
        breakerMap := (m.unregisterRules cb.name).breakerMap.erase config.name }) ∨
    (config.option = .recover ∧ m.synced compile now config = config.rateLimitings.foldl
      (fun m limiting => m.recoverBreaker now (ruleKey config.name limiting.name)) m) := by
  unfold synced
  cases option : config.option with
  | update =>
    cases found : m.breakerMap.lookup config.name with
    | none => exact .inr (.inl ⟨rfl, nofun, rfl⟩)
    | some cb =>
      by_cases same : config.configHash = cb.configHash
      · exact .inl (by simp [same])
      · refine .inr (.inl ⟨rfl, ?_, by simp [same]⟩)
        intro cb' isCb
        cases isCb
        exact same
  | delete =>
    cases found : m.breakerMap.lookup config.name with
    | none => exact .inl rfl
    | some cb => exact .inr (.inr (.inl ⟨rfl, cb, rfl, rfl⟩))
  | recover => exact .inr (.inr (.inr ⟨rfl, rfl⟩))
  | check => exact .inl rfl
  | unnamed value => exact .inl rfl

/-- What the parts of a `Sync` call keep, the call keeps. -/
theorem synced_keeps {P : Manager → Prop}
    (maps : ∀ m breakers, P m → P { m with breakerMap := breakers })
    (registers : ∀ m cb, P m → P (m.registerRules compile cb))
    (unregisters : ∀ m name, P m → P (m.unregisterRules name))
    (recovers : ∀ m now key, P m → P (m.recoverBreaker now key)) (holds : P m) (now : Int)
    (config : Config) : P (m.synced compile now config) := by
  unfold synced
  cases config.option with
  | update =>
    dsimp only
    split
    · exact registers _ config (maps m _ holds)
    · next cb _ =>
      split
      · exact holds
      · exact registers _ config (maps _ _ (unregisters m cb.name holds))
  | delete =>
    dsimp only
    split
    · exact holds
    · next cb _ => exact maps _ _ (unregisters m cb.name holds)
  | recover =>
    exact List.foldlRecOn config.rateLimitings _ holds fun m holds _ _ => recovers m now _ holds
  | check => exact holds
  | unnamed value => exact holds

/-- What registering, removing and recovering a rule keep of the store of rate limitings, a `Sync`
call keeps. -/
theorem limiterStore_synced {P : LimiterStore → Prop}
    (creates : ∀ s key limiting, P s → P (s.createOrUpdateRule key limiting))
    (deletes : ∀ s key, P s → P (s.deleteRule key))
    (recovers : ∀ s ref now, P s → P (s.modifyState ref (·.recoverBreaker now)))
    (holds : P m.limiterStore) : P (m.synced compile now config).limiterStore := by
  apply @synced_keeps m compile (P ·.limiterStore) (fun _ _ holds => holds) _ _ _ holds
  · exact fun m cb holds => List.foldlRecOn cb.rateLimitings _ holds
      fun s holds limiting _ => creates s _ limiting holds
  · intro m name holds
    unfold unregisterRules
    split
    · exact holds
    · next cb _ =>
      exact List.foldlRecOn cb.rateLimitings _ holds fun s holds limiting _ => deletes s _ holds
  · intro m now key holds
    unfold recoverBreaker
    split
    · exact holds
    · next ref _ => exact recovers m.limiterStore ref now holds

/-- What registering and removing a rule keep of the store of traffic-intercept rules, a `Sync` call
keeps. -/
theorem trafficInterceptStore_synced {P : TrafficInterceptStore → Prop}
    (creates : ∀ s key rule, P s → P (s.createOrUpdateRule compile key rule))
    (deletes : ∀ s key, P s → P (s.deleteRule key)) (holds : P m.trafficInterceptStore) (now : Int)
    (config : Config) : P (m.synced compile now config).trafficInterceptStore := by
  apply @synced_keeps m compile (P ·.trafficInterceptStore) (fun _ _ holds => holds) _ _ _ holds
  · exact fun m cb holds => List.foldlRecOn cb.trafficInterceptRules _ holds
      fun s holds rule _ => creates s _ rule holds
  · intro m name holds
    unfold unregisterRules
    split
    · exact holds
    · next cb _ =>
      exact List.foldlRecOn cb.trafficInterceptRules _ holds fun s holds rule _ => deletes s _ holds
  · intro m now key holds
    unfold recoverBreaker
    split <;> exact holds

end Sync

end Manager

/-- A parsed URL. -/
structure ParsedURL where
  scheme : String
  host : String
  path : String

/-- The readers of texts: `url.Parse`, and `time.ParseDuration` with its error dropped. -/
structure Parsers where
  url : String → Option ParsedURL
  duration : String → Int

/-- No URL can be read, and every duration is the same. -/
abbrev Parsers.every (duration : Int) : Parsers := ⟨fun _ => none, fun _ => duration⟩

/-- `strings.TrimSuffix(url, "/")`. -/
def trimSlash (url : String) : String :=
  if url.toList.getLast? = some '/' then String.ofList url.toList.dropLast else url

/-- `generateWildcardUrls`. -/
def generateWildcardUrls (parse : Parsers) (url method : String) : List String :=
  indexForRest url method :: match parse.url (trimSlash url) with
    | none => []
    | some u =>
      if u.path.toList.length > 0 then
        let subPaths := u.path.toList.splitOn '/'
        (List.range (subPaths.length - 1)).reverse.map fun i =>
          let parent := String.ofList (['/'].intercalate (subPaths.take (i + 1)))
          indexForRest (u.scheme ++ "://" ++ u.host ++ parent ++ "/*") method
      else []

/-- `generateWildcardSeeds`: fewer wildcards first, in the order the source lists them. -/
def generateWildcardSeeds (ns apiGroup resource verb : String) : List String :=
  [ indexForResource ns apiGroup resource verb,
    indexForResource "*" apiGroup resource verb,
    indexForResource ns "*" resource verb,
    indexForResource ns apiGroup "*" verb,
    indexForResource ns apiGroup resource "*",
    indexForResource "*" "*" resource verb,
    indexForResource "*" apiGroup "*" verb,
    indexForResource ns "*" "*" verb,
    indexForResource "*" apiGroup resource "*",
    indexForResource ns "*" resource "*",
    indexForResource ns apiGroup "*" "*",
    indexForResource "*" "*" "*" verb,
    indexForResource "*" "*" resource "*",
    indexForResource "*" apiGroup "*" "*",
    indexForResource ns "*" "*" "*",
    indexForResource "*" "*" "*" "*" ]

/-- A request, as the two validations are asked about it. -/
inductive Request where
  | rest (url method : String)
  | resource (ns apiGroup resource verb : String)
  deriving DecidableEq

namespace LimiterStore

/-- The keys `byIndex` finds for the first seed that has any. -/
def matched (s : LimiterStore) (parse : Parsers) : Request → Finset String
  | .rest url method =>
    ((generateWildcardUrls parse url method).map s.indices.rest.keysAt).find? (· ≠ ∅) |>.getD ∅
  | .resource ns apiGroup resource verb =>
    ((generateWildcardSeeds ns apiGroup resource verb).map s.indices.resource.keysAt).find? (· ≠ ∅)
      |>.getD ∅

section Validation

variable (parse : Parsers) (now : Int)

/-- The NORMAL policy on a closed breaker whose limiter refuses: it opens, for a time if the rule
recovers by itself. A nil recover policy is dereferenced. -/
def trip (s : LimiterStore) (ref : StateRef) (limiting : RateLimiting) : Option LimiterStore :=
  limiting.recoverPolicy.map fun policy =>
    if policy.type = .sleepingWindow then
      (s.modifyState ref (·.triggerBreakerWithTimeWindow now
        (parse.duration policy.sleepingWindowSize))).registerState ref
    else s.modifyState ref (·.triggerBreaker now)

/-- One round of `doValidation`: the result and the store after it, for a rule with its state object
and the word of its limiter. -/
def validateOne (s : LimiterStore) (result : ValidateResult) (limiting : RateLimiting)
    (ref : StateRef) (allow : Bool) : Outcome ValidateResult × LimiterStore :=
  match s.heap[ref]? with
  | none => (.panicked, s)
  | some st =>
    let result := if st.state = .opened then
        ⟨false, "CircuitBreakerTriggered",
          "the circuit breaker is triggered. Limiting rule name: " ++ limiting.name⟩
      else result
    let overLimit : ValidateResult := ⟨false, "OverLimit",
      "the request is over limit by limiting rule: " ++ limiting.name⟩
    match limiting.triggerPolicy with
    | .forceOpened =>
      (.returned ⟨false, "CircuitBreakerForceOpened",
        "the circuit breaker is force opened. Limiting rule name: " ++ limiting.name⟩,
        s.modifyState ref (·.triggerBreaker now))
    | .forceClosed =>
      (.returned ⟨true, "CircuitBreakerForceClosed",
        "the circuit breaker is force closed. Limiting rule name: " ++ limiting.name⟩,
        s.modifyState ref (·.recoverBreaker now))
    | .limiterOnly =>
      (.returned (if allow then { result with reason := "Limiter Allowed" } else overLimit),
        s.modifyState ref (·.recoverBreaker now))
    | .normal =>
      if st.state = .closed then
        if allow then (.returned result, s.modifyState ref (·.recoverBreaker now))
        else match s.trip parse now ref limiting with
          | none => (.panicked, s)
          | some s => (.returned overLimit, s)
      else (.returned result, s)
    | .unnamed _ => (.returned result, s)

/-- `doValidation` over the keys in some order; `allow` is the word of each key's limiter. -/
def doValidation (allow : String → Bool) : List String → ValidateResult → LimiterStore →
    Outcome ValidateResult × LimiterStore
  | [], result, s => (.returned result, s)
  | key :: keys, result, s =>
    match s.rules.lookup key, s.states.lookup key with
    | some limiting, some ref =>
      match validateOne parse now s result limiting ref (allow key) with
      | (.panicked, s) => (.panicked, s)
      | (.returned result, s) => doValidation allow keys result s
    | _, _ => (.panicked, s)

/-- `ValidateRest` and `ValidateResource`, for an order of the matched keys. -/
def validate (s : LimiterStore) (order : List String) (allow : String → Bool) :
    Outcome ValidateResult × LimiterStore :=
  if order = [] then (.returned ⟨true, "No rule match", ""⟩, s)
  else doValidation parse now allow order ⟨true, "Default allow", ""⟩ s

end Validation

end LimiterStore

end CtrlMesh.CircuitBreaker
