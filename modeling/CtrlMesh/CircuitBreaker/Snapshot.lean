import CtrlMesh.CircuitBreaker.ManualBreaker
import CtrlMesh.CircuitBreaker.Totality
import CtrlMesh.Lib.Query

/-!
# The names in a snapshot

`snapshot` reads the name of a rule back from its key: what stands between the first colon and the
second. So a rule whose name has a colon is reported under another name, and a rule of a breaker
whose name starts with `b:` is reported as one of `b`. Otherwise a snapshot lists the rules of its
breaker, each with its state, and recovering the names it lists closes all of them.
-/

namespace CtrlMesh.CircuitBreaker

open Labels Lib

variable {other : String} {limiting : RateLimiting}

section Keys

variable {name rest key : String}

theorem toList_ruleKey : (ruleKey name rest).toList = name.toList ++ ':' :: rest.toList := by
  have colon : ":".toList = [':'] := by decide
  simp [ruleKey, colon]

theorem splitKey_ruleKey (plain : ':' ∉ name.toList) :
    Manager.splitKey (ruleKey name rest) =
      (name, String.ofList ((rest.toList.splitOn ':').getD 0 [])) := by
  have parts : (ruleKey name rest).toList.splitOn ':' = name.toList :: rest.toList.splitOn ':' := by
    rw [toList_ruleKey]
    refine List.splitOnP_append_cons_of_forall_mem (fun ch member => ?_) ':' (by simp) _
    exact beq_eq_false_iff_ne.mpr fun same => plain (same ▸ member)
  rw [Manager.splitKey, parts]
  simp

theorem splitKey_plain (plain : ':' ∉ name.toList) (plain' : ':' ∉ rest.toList) :
    Manager.splitKey (ruleKey name rest) = (name, rest) := by
  have single : rest.toList.splitOn ':' = [rest.toList] := by
    refine List.splitOnP_eq_singleton fun ch member => ?_
    exact beq_eq_false_iff_ne.mpr fun same => plain' (same ▸ member)
  rw [splitKey_ruleKey plain, single]
  simp

theorem eq_ruleKey_of_colon (colon : ':' ∈ key.toList) :
    ∃ rest, key = ruleKey (Manager.splitKey key).1 rest := by
  obtain ⟨front, back, split, fresh⟩ := List.eq_append_cons_of_mem colon
  have same : key = ruleKey (String.ofList front) (String.ofList back) := by
    rw [← String.toList_inj, toList_ruleKey, split, String.toList_ofList, String.toList_ofList]
  refine ⟨String.ofList back, ?_⟩
  rw [same, splitKey_ruleKey (by simpa using fresh)]

theorem colon_notMem_splitKey : ':' ∉ (Manager.splitKey key).2.toList := by
  simp only [Manager.splitKey, String.toList_ofList]
  rw [List.getD_eq_getElem?_getD]
  cases second : (key.toList.splitOn ':')[1]? with
  | none => simp
  | some part => exact Query.notMem_of_mem_splitOn (List.mem_of_getElem? second)

/-- A key with one colon is made of plain names in one way only. -/
theorem plain_of_ruleKey_eq {otherRest : String} (plain : ':' ∉ name.toList)
    (plain' : ':' ∉ rest.toList) (same : ruleKey other otherRest = ruleKey name rest) :
    ':' ∉ other.toList := by
  have counts := congrArg (fun text => text.toList.count ':') same
  simp only [toList_ruleKey, List.count_append, List.count_cons_self,
    List.count_eq_zero_of_not_mem plain, List.count_eq_zero_of_not_mem plain'] at counts
  exact List.count_eq_zero.mp (by omega)

end Keys

namespace Manager

variable {compile : Compile} {parse : Parsers} {m m' : Manager} {config : Config}

/-- Configurations are held under their names, and a rule is stored if neither name has a colon. -/
def Stores (m : Manager) : Prop :=
  ∀ name cb, m.breakerMap.lookup name = some cb → cb.name = name ∧
    (':' ∉ name.toList → ∀ limiting ∈ cb.rateLimitings, ':' ∉ limiting.name.toList →
      ruleKey name limiting.name ∈ m.limiterStore.rules)

variable {cb : Config} {key name : String}

theorem mem_registerRules :
    key ∈ (m.registerRules compile cb).limiterStore.rules ↔
      (∃ limiting ∈ cb.rateLimitings, ruleKey cb.name limiting.name = key) ∨
        key ∈ m.limiterStore.rules := by
  rw [← AList.lookup_isSome, ← AList.lookup_isSome]
  change ((cb.rateLimitings.foldl _ m.limiterStore).rules.lookup key).isSome = true ↔ _
  rw [registerAll_limiterRules, lookup_foldl_insert, Option.isSome_or, Bool.or_eq_true,
    List.find?_isSome]
  simp

theorem mem_cleared (stores : m.Stores) :
    key ∈ (m.cleared name).limiterStore.rules ↔ key ∈ m.limiterStore.rules ∧
      ∀ cb, m.breakerMap.lookup name = some cb →
        ∀ limiting ∈ cb.rateLimitings, key ≠ ruleKey name limiting.name := by
  unfold cleared
  cases found : m.breakerMap.lookup name with
  | none => simp
  | some cb =>
    have same := (stores name cb found).1
    dsimp only
    rw [same, unregisterRules, found]
    dsimp only
    rw [← AList.lookup_isSome, ← AList.lookup_isSome, Option.isSome_iff_exists,
      Option.isSome_iff_exists, unregisterAll_limiterRules, same]
    simp only [lookup_foldl_erase]
    simp [and_comm]

/-- A plain key of one configuration is not one of another. -/
theorem ruleKey_ne {rest otherRest : String} (plain : ':' ∉ name.toList)
    (plain' : ':' ∉ rest.toList) (different : name ≠ other) :
    ruleKey name rest ≠ ruleKey other otherRest := by
  intro same
  have isPlain := plain_of_ruleKey_eq plain plain' same.symm
  exact different (ruleKey_inj plain isPlain same).1

theorem Stores.cleared (stores : m.Stores) (found : m.breakerMap.lookup other = some cb)
    (different : other ≠ name) (plain : ':' ∉ other.toList) (member : limiting ∈ cb.rateLimitings)
    (plain' : ':' ∉ limiting.name.toList) :
    ruleKey other limiting.name ∈ (m.cleared name).limiterStore.rules :=
  (mem_cleared stores).mpr ⟨(stores other cb found).2 plain limiting member plain',
    fun _ _ _ _ => ruleKey_ne plain plain' different⟩

theorem Stores.takeOver (stores : m.Stores) :
    (m.takeOver compile config (m.breakerMap.lookup config.name)).Stores := by
  rw [takeOver_eq]
  intro name cb found
  change (m.breakerMap.insert config.name config).lookup name = some cb at found
  rcases lookup_insert_eq_some.mp found with ⟨rfl, rfl⟩ | ⟨different, old⟩
  · exact ⟨rfl, fun _ limiting member _ => mem_registerRules.mpr (.inl ⟨limiting, member, rfl⟩)⟩
  · refine ⟨(stores name cb old).1, fun plain limiting member plain' => ?_⟩
    exact mem_registerRules.mpr (.inr (stores.cleared old different plain member plain'))

theorem Stores.withdraw (stores : m.Stores) {old : Config}
    (held : m.breakerMap.lookup config.name = some old) :
    { m.unregisterRules old.name with breakerMap :=
        (m.unregisterRules old.name).breakerMap.erase config.name }.Stores := by
  have isCleared : m.cleared config.name = m.unregisterRules old.name := by
    rw [Manager.cleared, held]
  intro name cb found
  change ((m.unregisterRules old.name).breakerMap.erase config.name).lookup name = some cb at found
  rw [unregisterRules_breakerMap] at found
  obtain ⟨different, old⟩ := lookup_erase_eq_some.mp found
  refine ⟨(stores name cb old).1, fun plain limiting member plain' => ?_⟩
  have kept := stores.cleared old different plain member plain'
  rw [isCleared] at kept
  exact kept

theorem recoverBreaker_frame (now : Int) (key : String) :
    (m.recoverBreaker now key).breakerMap = m.breakerMap ∧
      (m.recoverBreaker now key).limiterStore.rules = m.limiterStore.rules ∧
      (m.recoverBreaker now key).limiterStore.states = m.limiterStore.states := by
  unfold recoverBreaker
  split
  · exact ⟨rfl, rfl, rfl⟩
  · exact ⟨rfl, rfl, rfl⟩

theorem Stores.of_frame (stores : m.Stores) (breakers : m'.breakerMap = m.breakerMap)
    (rules : m'.limiterStore.rules = m.limiterStore.rules) : m'.Stores := by
  intro name cb found
  rw [breakers] at found
  rw [rules]
  exact stores name cb found

theorem Stores.step (stores : m.Stores) (sane : m.Sane compile) (event : Event)
    (stepped : m.step compile parse event = some m') : m'.Stores := by
  cases event with
  | sync now config =>
    cases stepped
    rcases m.synced_cases with same | ⟨-, -, taken⟩ | ⟨-, cb, found, withdrawn⟩ | ⟨-, recovered⟩
    · rw [same]
      exact stores
    · rw [taken]
      exact stores.takeOver
    · rw [withdrawn]
      exact stores.withdraw found
    · rw [recovered]
      refine List.foldlRecOn config.rateLimitings _ stores fun m stores limiting _ => ?_
      have frame := @recoverBreaker_frame m now (ruleKey config.name limiting.name)
      exact stores.of_frame frame.1 frame.2.1
  | validate now request order allow =>
    obtain ⟨-, -, rfl⟩ := step_validate stepped
    have frame := LimiterStore.frame_validate parse now sane.coherent.keyed order allow
    exact stores.of_frame rfl frame.1
  | take ref =>
    obtain ⟨s, taken, rfl⟩ := Option.map_eq_some_iff.mp stepped
    exact stores.of_frame rfl (LimiterStore.frame_take taken).1
  | process now =>
    obtain ⟨s, processed, rfl⟩ := Option.map_eq_some_iff.mp stepped
    exact stores.of_frame rfl (LimiterStore.frame_process processed).1

theorem stores_of_run {events : List Event}
    (reached : run (step compile parse) .new events = some m) : m.Sane compile ∧ m.Stores := by
  have start : Manager.new.Stores := by
    intro name cb found
    simp [Manager.new] at found
  have along : Along (step compile parse)
      (fun m => m.Sane compile ∧ m.Stores) .new events :=
    along_of_eachStep (fun _ event _ holds (_ : True) stepped =>
        ⟨holds.1.step parse event stepped, holds.2.step holds.1 event stepped⟩)
      ⟨sane_new, start⟩ fun _ _ _ _ _ _ _ _ => trivial
  exact along events [] m (List.append_nil _).symm reached

/-- The state of the rule with this key. -/
def stateOf (m : Manager) (key : String) : Option BreakerState := do
  let ref ← m.limiterStore.states.lookup key
  let st ← m.limiterStore.heap[ref]?
  some st.state

/-- The keys that `snapshot` takes for those of a breaker. -/
def ownKeys (m : Manager) (breaker : String) : List String :=
  m.limiterStore.states.keys.filter fun key => (splitKey key).1 = breaker

/-- The keys of the rate limitings of a configuration. -/
def ruleKeys (cb : Config) : List String :=
  cb.rateLimitings.map fun limiting => ruleKey cb.name limiting.name

/-- The snapshot has one entry for each rate limiting of the breaker, with its name and its state,
and a RECOVER of the names it lists closes all of them. -/
structure Reports (compile : Compile) (m : Manager) (b : Config) :
    Prop where
  entries : ((m.snapshot b.name).map fun entry => (entry.limitingName, some entry.state)).Perm
    (b.rateLimitings.map fun limiting =>
      (limiting.name, m.stateOf (ruleKey b.name limiting.name)))
  recovers : ∀ (now : Int) (config : Config), config.option = .recover → config.name = b.name →
    config.rateLimitings.map (·.name) = (m.snapshot b.name).map (·.limitingName) →
    ∀ limiting ∈ b.rateLimitings,
      (m.synced compile now config).stateOf (ruleKey b.name limiting.name) = some .closed

/-- No name of a rule has a colon, and every key that starts with the name of the breaker is that
of one of its rules. -/
structure Legible (m : Manager) (b : Config) : Prop where
  plain : ∀ limiting ∈ b.rateLimitings, ':' ∉ limiting.name.toList
  alone : ∀ rest, ruleKey b.name rest ∈ m.limiterStore.states →
    ∃ limiting ∈ b.rateLimitings, limiting.name = rest

section Reports

variable {b : Config} {key breaker : String} {ref : StateRef} {now : Int}

theorem stateOf_eq_some {st : State} (listed : m.limiterStore.states.lookup key = some ref)
    (object : m.limiterStore.heap[ref]? = some st) : m.stateOf key = some st.state := by
  simp [stateOf, listed, object]

theorem snapshot_eq (keyed : m.limiterStore.Keyed) (breaker : String) :
    ((m.snapshot breaker).map fun entry => (entry.limitingName, some entry.state)) =
      (m.ownKeys breaker).map fun key => ((splitKey key).2, m.stateOf key) := by
  rw [snapshot, ownKeys, AList.keys, List.keys, List.filter_map, List.map_map, List.map_filterMap,
    ← List.filterMap_eq_map, List.filterMap_filter]
  refine List.filterMap_congr fun entry member => ?_
  have listed := AList.mem_lookup_iff.mpr member
  obtain ⟨st, object, -⟩ := keyed listed
  by_cases own : (splitKey entry.1).1 = breaker
  · simp [own, object, stateOf_eq_some listed object]
  · simp [own, object]

theorem mem_ownKeys :
    key ∈ m.ownKeys breaker ↔ key ∈ m.limiterStore.states ∧ (splitKey key).1 = breaker := by
  rw [ownKeys, List.mem_filter, ← AList.mem_keys, decide_eq_true_eq]

theorem nodup_ownKeys : (m.ownKeys breaker).Nodup :=
  m.limiterStore.states.keys_nodup.filter _

theorem nodup_ruleKeys (plain : ':' ∉ b.name.toList)
    (distinct : (b.rateLimitings.map (·.name)).Nodup) : (ruleKeys b).Nodup := by
  have names : ruleKeys b = (b.rateLimitings.map (·.name)).map (ruleKey b.name) := by
    simp [ruleKeys]
  rw [names]
  exact distinct.map fun left right same => (ruleKey_inj plain plain same).2

/-- The rules of a breaker have keys that are taken for its own. -/
theorem ruleKeys_subset (sane : m.Sane compile) (stores : m.Stores)
    (held : m.breakerMap.lookup b.name = some b) (plain : ':' ∉ b.name.toList)
    (plainRules : ∀ limiting ∈ b.rateLimitings, ':' ∉ limiting.name.toList) :
    ruleKeys b ⊆ m.ownKeys b.name := by
  intro key member
  obtain ⟨limiting, inside, rfl⟩ := List.mem_map.mp member
  have ruled := (stores b.name b held).2 plain limiting inside (plainRules limiting inside)
  rw [← AList.lookup_isSome, ← sane.coherent.states, AList.lookup_isSome] at ruled
  exact mem_ownKeys.mpr ⟨ruled, by rw [splitKey_ruleKey plain]⟩

/-- The names are read back as they are. -/
theorem reported_ruleKeys (plain : ':' ∉ b.name.toList)
    (plainRules : ∀ limiting ∈ b.rateLimitings, ':' ∉ limiting.name.toList) :
    (b.rateLimitings.map fun limiting =>
      (limiting.name, m.stateOf (ruleKey b.name limiting.name))) =
      (ruleKeys b).map fun key => ((splitKey key).2, m.stateOf key) := by
  rw [ruleKeys, List.map_map]
  refine List.map_congr_left fun limiting member => ?_
  simp [splitKey_plain plain (plainRules limiting member)]

/-- A recovered rule is closed after all have been recovered. -/
theorem closed_of_mem_recoverAll {name : String} {limitings : List RateLimiting}
    (member : limiting ∈ limitings)
    (listed : m.limiterStore.states.lookup (ruleKey name limiting.name) = some ref) :
    ∀ st, (limitings.foldl (fun m limiting =>
      m.recoverBreaker now (ruleKey name limiting.name)) m).limiterStore.heap[ref]? = some st →
        st.state ≠ .opened := by
  induction limitings generalizing m with
  | nil => cases member
  | cons first limitings ih =>
    rcases List.mem_cons.mp member with rfl | later
    · exact closed_recoverAll now limitings (closed_recoverBreaker now _ (.inl listed))
    · refine ih later ?_
      rw [(recoverBreaker_frame now _).2.2]
      exact listed

theorem synced_recover_states (recover : config.option = .recover) :
    (m.synced compile now config).limiterStore.states = m.limiterStore.states := by
  simp only [synced, recover]
  refine List.foldlRecOn config.rateLimitings _
    (motive := fun m' : Manager => m'.limiterStore.states = m.limiterStore.states) rfl ?_
  exact fun m' same limiting _ => (recoverBreaker_frame now _).2.2.trans same

/-- A RECOVER closes every rule that it names. -/
theorem stateOf_recovered (sane : m.Sane compile) (recover : config.option = .recover)
    (member : limiting ∈ config.rateLimitings)
    (stored : ruleKey config.name limiting.name ∈ m.limiterStore.states) :
    (m.synced compile now config).stateOf (ruleKey config.name limiting.name) = some .closed := by
  obtain ⟨ref, listed⟩ := Option.isSome_iff_exists.mp (AList.lookup_isSome.mpr stored)
  have coherent := coherent_step (.sync now config) sane.coherent
    (show m.step compile (.every 0) _ = _ from rfl)
  have listed' : (m.synced compile now config).limiterStore.states.lookup
      (ruleKey config.name limiting.name) = some ref := by
    rw [synced_recover_states recover]
    exact listed
  obtain ⟨st, object, -⟩ := coherent.keyed listed'
  have closed := closed_of_mem_recoverAll member listed st
    (by simpa only [synced, recover] using object)
  rw [stateOf_eq_some listed' object]
  cases isState : st.state with
  | opened => exact absurd isState closed
  | closed => rfl

end Reports

/-- In every state the manager reaches, the snapshot of a breaker names the rules it describes
exactly if the names of the rules have no colon and no other key starts with its name. -/
theorem reports_iff {events : List Event} {b : Config}
    (reached : run (step compile parse) .new events = some m)
    (held : m.breakerMap.lookup b.name = some b) (plain : ':' ∉ b.name.toList)
    (distinct : (b.rateLimitings.map (·.name)).Nodup) : m.Reports compile b ↔ m.Legible b := by
  obtain ⟨sane, stores⟩ := stores_of_run reached
  have shown := snapshot_eq sane.coherent.keyed b.name
  have own := @ruleKeys_subset compile m b sane stores held plain
  constructor
  · intro reports
    have entries := reports.entries
    rw [shown] at entries
    have plainRules : ∀ limiting ∈ b.rateLimitings, ':' ∉ limiting.name.toList := by
      intro limiting member
      have listed := entries.mem_iff.mpr (List.mem_map_of_mem member)
      obtain ⟨key, -, same⟩ := List.mem_map.mp listed
      rw [← (Prod.mk.inj same).1]
      exact colon_notMem_splitKey
    refine ⟨plainRules, fun rest stored => ?_⟩
    have lengths := entries.length_eq
    simp only [List.length_map] at lengths
    have perm := (List.subperm_of_subset (nodup_ruleKeys plain distinct)
      (own plainRules)).perm_of_length_le (by simp [ruleKeys, lengths])
    have isOwn : ruleKey b.name rest ∈ m.ownKeys b.name :=
      mem_ownKeys.mpr ⟨stored, by rw [splitKey_ruleKey plain]⟩
    obtain ⟨limiting, member, same⟩ := List.mem_map.mp (perm.mem_iff.mpr isOwn)
    exact ⟨limiting, member, (ruleKey_inj plain plain same).2⟩
  · intro legible
    have perm : (m.ownKeys b.name).Perm (ruleKeys b) := by
      rw [List.perm_ext_iff_of_nodup nodup_ownKeys (nodup_ruleKeys plain distinct)]
      refine fun key => ⟨fun member => ?_, fun member => own legible.plain member⟩
      obtain ⟨stored, named⟩ := mem_ownKeys.mp member
      obtain ⟨ref, listed⟩ := Option.isSome_iff_exists.mp (AList.lookup_isSome.mpr stored)
      obtain ⟨rest, isKey⟩ := eq_ruleKey_of_colon (sane.split key ref listed)
      rw [named] at isKey
      obtain ⟨limiting, inside, same⟩ := legible.alone rest (isKey ▸ stored)
      exact List.mem_map.mpr ⟨limiting, inside, by rw [same, isKey]⟩
    have entries := perm.map fun key => ((splitKey key).2, m.stateOf key)
    rw [← shown, ← reported_ruleKeys plain legible.plain] at entries
    refine ⟨entries, fun now config recover named names limiting member => ?_⟩
    -- the name is in the snapshot, so one of the recovered rules has it
    have listed : limiting.name ∈ config.rateLimitings.map (·.name) := by
      have inside := entries.mem_iff.mpr (List.mem_map_of_mem member)
      obtain ⟨entry, shown, same⟩ := List.mem_map.mp inside
      rw [names, ← (Prod.mk.inj same).1]
      exact List.mem_map_of_mem shown
    obtain ⟨recovered, isIn, sameName⟩ := List.mem_map.mp listed
    have stored := (mem_ownKeys.mp (own legible.plain (List.mem_map_of_mem member))).1
    have closes := @stateOf_recovered recovered _ _ _ now sane recover isIn
    rw [named, sameName] at closes
    exact closes stored

/-- A breaker with one rule of this name. -/
def oneRule (name : String) : Config where
  option := .update
  name := "breaker"
  configHash := "a"
  trafficInterceptRules := []
  rateLimitings := [⟨name, [⟨["*"], ["pods"], ["get"], ["*"]⟩], [], ⟨1, "1s", 1⟩, .normal, none⟩]

/-- The rule is reported. -/
theorem reports_pods : (Manager.new.synced (fun _ => none) 0 (oneRule "pods")).Reports
    (fun _ => none) (oneRule "pods") := by
  refine (@reports_iff (fun _ => none) (.every 0) _
    [.sync 0 (oneRule "pods")] (oneRule "pods") rfl rfl (by decide) (by decide)).mpr
    ⟨by decide, fun rest stored => ?_⟩
  obtain same : ruleKey "breaker" rest = ruleKey "breaker" "pods" := by
    have keys := AList.mem_keys.mp stored
    exact List.mem_singleton.mp keys
  exact ⟨_, List.mem_singleton_self _, (ruleKey_inj (by decide) (by decide) same).2.symm⟩

/-- A rule named `pods:get` is reported as `pods`. -/
theorem colon_is_cut :
    ¬∀ (compile : Compile) (parse : Parsers) (events : List Event) (m : Manager) (b : Config),
      run (step compile parse) .new events = some m →
      m.breakerMap.lookup b.name = some b → ':' ∉ b.name.toList →
      (b.rateLimitings.map (·.name)).Nodup → m.Reports compile b := by
  intro reports
  have report := reports (fun _ => none) (.every 0) [.sync 0 (oneRule "pods:get")]
    _ (oneRule "pods:get") rfl rfl (by decide) (by decide)
  have names : ((Manager.new.synced (fun _ => none) 0 (oneRule "pods:get")).snapshot
      "breaker").map (·.limitingName) = ["pods"] := by decide
  have member := report.entries.mem_iff.mpr (List.mem_map_of_mem (List.mem_singleton_self _))
  obtain ⟨entry, listed, same⟩ := List.mem_map.mp member
  have named : entry.limitingName ∈ ["pods"] := names ▸ List.mem_map_of_mem listed
  rw [(Prod.mk.inj same).1] at named
  revert named
  decide

end Manager

end CtrlMesh.CircuitBreaker
