import CtrlMesh.CircuitBreaker.InterceptHistory
import CtrlMesh.CircuitBreaker.Validation

/-!
# Rate limitings over a history of configurations

The store of rate limitings keeps three maps under the same keys and two indices of them. They stay
in step over every sequence of `Sync` calls, and the rules stored are those of the configurations in
force: what an index finds under a value is what a search through these configurations would find.
-/

namespace CtrlMesh.CircuitBreaker

open Labels Lib

/-- A configuration in force holds the rate limiting under the key. -/
def LimitingInForce (breakers : StringMap Config) (key : String) (rule : RateLimiting) : Prop :=
  Held (·.rateLimitings) (·.name) breakers key rule

variable {kind : IndexKind}

namespace LimiterStore

/-- The limiters, the states and the indices are those of the rules stored. -/
structure Coherent (s : LimiterStore) : Prop where
  limiters : ∀ key, s.limiters.lookup key = (s.rules.lookup key).map (·.bucket)
  states : ∀ key, (s.states.lookup key).isSome = (s.rules.lookup key).isSome
  keyed : s.Keyed
  indexed : ∀ kind value key, key ∈ (s.indices.byName kind).keysAt value ↔
    ∃ rule, s.rules.lookup key = some rule ∧ value ∈ kind.indexFunc rule
  tight : ∀ kind, (s.indices.byName kind).Tight

variable {s : LimiterStore} {key : String}

theorem byName_deleteFromIndices (indices : Indices) (oldOne : RateLimiting) :
    (deleteFromIndices indices oldOne key).byName kind =
      (indices.byName kind).removeAll (kind.indexFunc oldOne) key := by
  cases kind <;> rfl

theorem byName_updateIndices (indices : Indices) (newOne : RateLimiting) :
    (updateIndices indices none newOne key).byName kind =
      (indices.byName kind).addAll (kind.indexFunc newOne) key := by
  cases kind <;> rfl

theorem coherent_new : Coherent .new := by
  refine ⟨fun key => rfl, fun key => rfl, ?_, ?_, ?_⟩
  · intro key ref found
    simp [LimiterStore.new] at found
  · intro kind value key
    cases kind <;> simp [LimiterStore.new, Indices.byName]
  · intro kind
    cases kind <;> exact MultiIndex.tight_empty

theorem createOrUpdateRule_rules (s : LimiterStore) (key : String) (limiting : RateLimiting) :
    (s.createOrUpdateRule key limiting).rules = s.rules.insert key limiting := by
  unfold createOrUpdateRule
  split <;> rfl

theorem deleteRule_rules (s : LimiterStore) (key : String) :
    (s.deleteRule key).rules = s.rules.erase key := by
  unfold deleteRule
  split
  · next missing =>
    apply AList.ext
    exact (List.kerase_of_notMem_keys (AList.lookup_eq_none.mp missing)).symm
  · rfl

/-- A stored rule is taken from the indices together with its entries. -/
theorem Coherent.removeIndexed (coherent : s.Coherent) {oldOne : RateLimiting}
    (stored : s.rules.lookup key = some oldOne) (kind : IndexKind) (value other : String) :
    other ∈ ((deleteFromIndices s.indices oldOne key).byName kind).keysAt value ↔
      other ≠ key ∧ ∃ rule, s.rules.lookup other = some rule ∧ value ∈ kind.indexFunc rule := by
  rw [byName_deleteFromIndices, MultiIndex.mem_keysAt_removeAll, coherent.indexed]
  constructor
  · rintro ⟨⟨rule, found, listed⟩, kept⟩
    refine ⟨?_, rule, found, listed⟩
    rintro rfl
    rw [stored, Option.some.injEq] at found
    exact kept ⟨rfl, found ▸ listed⟩
  · rintro ⟨different, found⟩
    exact ⟨found, fun both => different both.1⟩

theorem Coherent.deleteRule (coherent : s.Coherent) (key : String) :
    (s.deleteRule key).Coherent := by
  unfold LimiterStore.deleteRule
  cases stored : s.rules.lookup key with
  | none => exact coherent
  | some oldOne =>
    refine ⟨fun other => ?_, fun other => ?_, fun {other ref} found => ?_,
      fun kind value other => ?_, fun kind => ?_⟩
    · rw [lookup_erase_ite, lookup_erase_ite, coherent.limiters]
      split <;> rfl
    · rw [lookup_erase_ite, lookup_erase_ite]
      split
      · rfl
      · exact coherent.states other
    · exact coherent.keyed (lookup_erase_eq_some.mp found).2
    · rw [coherent.removeIndexed stored, lookup_erase_ite]
      by_cases same : other = key <;> simp [same]
    · rw [byName_deleteFromIndices]
      exact (coherent.tight kind).removeAll

/-- Indices of the other rules, with a new rule added, are those of the rules after it is stored. -/
theorem mem_indexed_insert {indices : Indices} {newOne : RateLimiting}
    (others : ∀ kind value other, other ∈ (indices.byName kind).keysAt value ↔
      other ≠ key ∧ ∃ rule, s.rules.lookup other = some rule ∧ value ∈ kind.indexFunc rule)
    (kind : IndexKind) (value other : String) :
    other ∈ ((updateIndices indices none newOne key).byName kind).keysAt value ↔
      ∃ rule, (s.rules.insert key newOne).lookup other = some rule ∧
        value ∈ kind.indexFunc rule := by
  rw [byName_updateIndices, MultiIndex.mem_keysAt_addAll, others]
  by_cases same : other = key
  · subst same
    simp
  · simp [same, AList.lookup_insert_ne same]

theorem Coherent.createOrUpdateRule (coherent : s.Coherent) (key : String)
    (limiting : RateLimiting) : (s.createOrUpdateRule key limiting).Coherent := by
  unfold LimiterStore.createOrUpdateRule
  cases stored : s.rules.lookup key with
  | none =>
    have others : ∀ kind value other, other ∈ (s.indices.byName kind).keysAt value ↔
        other ≠ key ∧ ∃ rule, s.rules.lookup other = some rule ∧ value ∈ kind.indexFunc rule := by
      intro kind value other
      rw [coherent.indexed]
      refine ⟨fun found => ⟨?_, found⟩, And.right⟩
      rintro rfl
      obtain ⟨rule, here, -⟩ := found
      rw [stored] at here
      cases here
    refine ⟨fun other => ?_, fun other => ?_, fun {other ref} found => ?_,
      mem_indexed_insert others, fun kind => ?_⟩
    · rw [lookup_insert_ite, lookup_insert_ite, coherent.limiters]
      split <;> rfl
    · rw [lookup_insert_ite, lookup_insert_ite]
      split
      · rfl
      · exact coherent.states other
    · rcases lookup_insert_eq_some.mp found with ⟨rfl, rfl⟩ | ⟨-, old⟩
      · exact ⟨_, List.getElem?_concat_length, rfl⟩
      · obtain ⟨st, object, named⟩ := coherent.keyed old
        refine ⟨st, ?_, named⟩
        have inside : ref < s.heap.length := (List.getElem?_eq_some_iff.mp object).1
        rw [List.getElem?_append_left inside, object]
    · rw [byName_updateIndices]
      exact (coherent.tight kind).addAll
  | some oldOne =>
    refine ⟨fun other => ?_, fun other => ?_, coherent.keyed,
      mem_indexed_insert (coherent.removeIndexed stored), fun kind => ?_⟩
    · have kept : s.limiters.lookup key = some oldOne.bucket := by
        rw [coherent.limiters, stored]
        rfl
      -- The limiter is replaced only if its bucket changes.
      by_cases changed : oldOne.bucket = limiting.bucket
      · simp only [changed, ne_eq, not_true_eq_false, if_false]
        rw [lookup_insert_ite]
        split
        · next same => rw [same, kept, changed, Option.map_some]
        · exact coherent.limiters other
      · simp only [ne_eq, changed, not_false_eq_true, if_true]
        rw [lookup_insert_ite, lookup_insert_ite, coherent.limiters]
        split <;> rfl
    · rw [lookup_insert_ite, coherent.states]
      split
      · next same => rw [same, stored]; rfl
      · rfl
    · change ((updateIndices (deleteFromIndices s.indices oldOne key) none limiting key).byName
        kind).Tight
      rw [byName_updateIndices, byName_deleteFromIndices]
      exact (coherent.tight kind).removeAll.addAll

theorem Coherent.modifyState (coherent : s.Coherent) (ref : StateRef) {f : State → State}
    (keeps : ∀ st, (f st).key = st.key) : (s.modifyState ref f).Coherent := by
  refine ⟨coherent.limiters, coherent.states, fun {key other} found => ?_, coherent.indexed,
    coherent.tight⟩
  obtain ⟨st, object, named⟩ := coherent.keyed found
  by_cases same : other = ref
  · subst same
    exact ⟨f st, heap_modifyState object f, (keeps st).trans named⟩
  · refine ⟨st, ?_, named⟩
    rw [← object]
    simp [LimiterStore.modifyState, Ne.symm same]

end LimiterStore

section History

variable {compile : Compile} {m : Manager} {config : Config}

/-- The store of rate limitings is in step with the configurations held. -/
structure Manager.Limits (m : Manager) : Prop where
  named : Named m.breakerMap
  rules : ∀ key rule, m.limiterStore.rules.lookup key = some rule ↔
    LimitingInForce m.breakerMap key rule
  coherent : m.limiterStore.Coherent

theorem registerAll_limiterRules (name : String) (rules : List RateLimiting) (s : LimiterStore) :
    (rules.foldl (fun s limiting => s.createOrUpdateRule (ruleKey name limiting.name) limiting)
      s).rules = rules.foldl (fun map limiting => map.insert (ruleKey name limiting.name) limiting)
        s.rules := by
  induction rules generalizing s with
  | nil => rfl
  | cons limiting rules ih =>
    rw [List.foldl_cons, ih, LimiterStore.createOrUpdateRule_rules, List.foldl_cons]

theorem unregisterAll_limiterRules (name : String) (rules : List RateLimiting) (s : LimiterStore) :
    (rules.foldl (fun s limiting => s.deleteRule (ruleKey name limiting.name)) s).rules =
      rules.foldl (fun map limiting => map.erase (ruleKey name limiting.name)) s.rules := by
  induction rules generalizing s with
  | nil => rfl
  | cons limiting rules ih =>
    rw [List.foldl_cons, ih, LimiterStore.deleteRule_rules, List.foldl_cons]

variable {s : LimiterStore} {cb : Config}

theorem LimiterStore.Coherent.registerAll (coherent : s.Coherent) (name : String)
    (rules : List RateLimiting) : (rules.foldl
      (fun s limiting => s.createOrUpdateRule (ruleKey name limiting.name) limiting)
      s).Coherent := by
  induction rules generalizing s with
  | nil => exact coherent
  | cons limiting rules ih => exact ih (coherent.createOrUpdateRule _ limiting)

theorem LimiterStore.Coherent.unregisterAll (coherent : s.Coherent) (name : String)
    (rules : List RateLimiting) : (rules.foldl
      (fun s limiting => s.deleteRule (ruleKey name limiting.name)) s).Coherent := by
  induction rules generalizing s with
  | nil => exact coherent
  | cons limiting rules ih => exact ih (coherent.deleteRule _)

/-- Unregistering a configuration leaves the rules of the others. -/
theorem Manager.Limits.unregister (limits : m.Limits)
    (found : m.breakerMap.lookup cb.name = some cb) :
    (m.unregisterRules cb.name).limiterStore.Coherent ∧
      ∀ key rule, (m.unregisterRules cb.name).limiterStore.rules.lookup key = some rule ↔
        HeldElsewhere (·.rateLimitings) (·.name) m.breakerMap cb.name key rule := by
  unfold Manager.unregisterRules
  rw [found]
  refine ⟨limits.coherent.unregisterAll cb.name cb.rateLimitings, fun key rule => ?_⟩
  rw [heldElsewhere_iff limits.named found]
  dsimp only
  rw [unregisterAll_limiterRules, lookup_foldl_erase, limits.rules]
  rfl

/-- The manager without the rules of the configuration of this name. -/
def Manager.cleared (m : Manager) (name : String) : Manager :=
  match m.breakerMap.lookup name with
  | none => m
  | some cb => m.unregisterRules cb.name

theorem Manager.takeOver_eq :
    m.takeOver compile config (m.breakerMap.lookup config.name) =
      { m.cleared config.name with
        breakerMap := m.breakerMap.insert config.name config }.registerRules compile config := by
  unfold Manager.takeOver Manager.cleared
  cases m.breakerMap.lookup config.name with
  | none => rfl
  | some cb =>
    dsimp only
    rw [Manager.unregisterRules_breakerMap]

theorem Manager.Limits.cleared (limits : m.Limits) (name : String) :
    (m.cleared name).limiterStore.Coherent ∧
      ∀ key rule, (m.cleared name).limiterStore.rules.lookup key = some rule ↔
        HeldElsewhere (·.rateLimitings) (·.name) m.breakerMap name key rule := by
  unfold Manager.cleared
  cases found : m.breakerMap.lookup name with
  | none =>
    refine ⟨limits.coherent, fun key rule => ?_⟩
    rw [limits.rules, heldElsewhere_of_unknown found]
    rfl
  | some cb =>
    have same := (limits.named _ _ found).1
    rw [← same] at found ⊢
    exact limits.unregister found

theorem Manager.Limits.takeOver (limits : m.Limits) (plain : ':' ∉ config.name.toList) :
    (m.takeOver compile config (m.breakerMap.lookup config.name)).Limits := by
  have ⟨coherent, rules⟩ := limits.cleared config.name
  rw [Manager.takeOver_eq]
  refine ⟨limits.named.insert plain, fun key rule => ?_,
    coherent.registerAll config.name config.rateLimitings⟩
  change (config.rateLimitings.foldl _ (m.cleared config.name).limiterStore).rules.lookup key =
    some rule ↔ Held (·.rateLimitings) (·.name) (m.breakerMap.insert config.name config) key rule
  rw [registerAll_limiterRules, lookup_foldl_insert, Option.or_eq_some_iff, rules,
    held_insert limits.named plain]
  rfl

theorem Manager.Limits.withdraw (limits : m.Limits)
    (found : m.breakerMap.lookup config.name = some cb) :
    { m.unregisterRules cb.name with breakerMap :=
        (m.unregisterRules cb.name).breakerMap.erase config.name }.Limits := by
  have same := (limits.named _ _ found).1
  rw [← same] at found
  obtain ⟨coherent, rules⟩ := limits.unregister found
  rw [Manager.unregisterRules_breakerMap, ← same]
  refine ⟨limits.named.erase cb.name, fun key rule => ?_, coherent⟩
  rw [rules, LimitingInForce, held_erase]

theorem Manager.Limits.recoverBreaker (limits : m.Limits) (now : Int) (key : String) :
    (m.recoverBreaker now key).Limits := by
  unfold Manager.recoverBreaker
  split
  · exact limits
  · next ref found =>
    have keeps : ∀ st : State, (st.recoverBreaker now).key = st.key := fun st =>
      st.key_transition _ _ _
    exact ⟨limits.named, limits.rules, limits.coherent.modifyState ref keeps⟩

/-- One call keeps the store in step. -/
theorem Manager.Limits.synced (limits : m.Limits) (now : Int) (plain : ':' ∉ config.name.toList) :
    (m.synced compile now config).Limits := by
  rcases m.synced_cases with same | ⟨-, -, taken⟩ | ⟨-, cb, found, withdrawn⟩ | ⟨-, recovered⟩
  · rw [same]
    exact limits
  · rw [taken]
    exact limits.takeOver plain
  · rw [withdrawn]
    exact limits.withdraw found
  · rw [recovered]
    exact List.foldlRecOn config.rateLimitings _ limits fun m limits limiting _ =>
      limits.recoverBreaker now (ruleKey config.name limiting.name)

theorem runSync_limits {history : List (Int × Config)}
    (plain : ∀ call ∈ history, ':' ∉ call.2.name.toList) : (runSync compile history).Limits := by
  have start : Manager.new.Limits := by
    refine ⟨named_empty, fun key rule => ?_, LimiterStore.coherent_new⟩
    simp [Manager.new, LimiterStore.new, LimitingInForce, Held]
  have step : ∀ {m : Manager}, m.Limits →
      (history.foldl (fun m call => m.synced compile call.1 call.2) m).Limits := by
    induction history with
    | nil => exact id
    | cons call history ih =>
      intro m limits
      refine ih (fun other member => plain other (List.mem_cons_of_mem call member)) ?_
      exact limits.synced call.1 (plain call List.mem_cons_self)
  exact step start

/-- A rule stored under a key, with the limiter and the state stored under the same key. -/
structure LimiterStore.Entry (s : LimiterStore) where
  key : String
  rule : RateLimiting
  limiter : Bucket
  state : StateRef
  ruled : s.rules.lookup key = some rule
  limited : s.limiters.lookup key = some limiter
  listed : s.states.lookup key = some state

/-- In every order of the keys of a value, `byIndex` returns the rules in force that the index
function puts under it, once each, with their limiters and states. The three maps have the same
keys, and no value is listed without keys. -/
structure LimiterStore.Refines (s : LimiterStore) (breakers : StringMap Config) : Prop where
  byIndex : ∀ (kind : IndexKind) (value : String) (order : List String), order.Nodup →
    order.toFinset = (s.indices.byName kind).keysAt value → ∃ found : List s.Entry,
      s.byIndex order = (found.map fun entry => some entry.rule,
        found.map fun entry => some entry.limiter, found.map fun entry => some entry.state) ∧
      (found.map (·.key)).Nodup ∧
      (∀ key rule, (∃ entry ∈ found, entry.key = key ∧ entry.rule = rule) ↔
        LimitingInForce breakers key rule ∧ value ∈ kind.indexFunc rule) ∧
      ∀ entry ∈ found, entry.limiter = entry.rule.bucket ∧
        ∃ st, s.heap[entry.state]? = some st ∧ st.key = entry.key
  sameKeys : ∀ key, (key ∈ s.limiters ↔ key ∈ s.rules) ∧ (key ∈ s.states ↔ key ∈ s.rules)
  nonempty : ∀ kind value, (s.indices.byName kind).lookup value ≠ some ∅

/-- Every stored key has an entry. -/
theorem LimiterStore.Coherent.exists_entry (coherent : s.Coherent) {key : String}
    {rule : RateLimiting} (ruled : s.rules.lookup key = some rule) :
    ∃ entry : s.Entry, entry.key = key := by
  have listed : (s.states.lookup key).isSome := by rw [coherent.states, ruled]; rfl
  obtain ⟨ref, listed⟩ := Option.isSome_iff_exists.mp listed
  have limited : s.limiters.lookup key = some rule.bucket := by rw [coherent.limiters, ruled]; rfl
  exact ⟨⟨key, rule, rule.bucket, ref, ruled, limited, listed⟩, rfl⟩

/-- A list of stored keys is the list of keys of their entries. -/
theorem LimiterStore.Coherent.exists_entries (coherent : s.Coherent) {order : List String}
    (stored : ∀ key ∈ order, ∃ rule, s.rules.lookup key = some rule) :
    ∃ found : List s.Entry, found.map (·.key) = order := by
  have inRange : order ∈ Set.range (List.map (LimiterStore.Entry.key (s := s))) := by
    rw [Set.range_list_map]
    intro key member
    obtain ⟨rule, ruled⟩ := stored key member
    exact coherent.exists_entry ruled
  exact inRange

theorem LimiterStore.byIndex_entries {found : List s.Entry} :
    s.byIndex (found.map (·.key)) = (found.map fun entry => some entry.rule,
      found.map fun entry => some entry.limiter, found.map fun entry => some entry.state) := by
  simp only [byIndex, List.map_map]
  refine Prod.ext ?_ (Prod.ext ?_ ?_)
  · exact List.map_congr_left fun entry _ => entry.ruled
  · exact List.map_congr_left fun entry _ => entry.limited
  · exact List.map_congr_left fun entry _ => entry.listed

theorem Manager.Limits.refines (limits : m.Limits) : m.limiterStore.Refines m.breakerMap := by
  have coherent := limits.coherent
  refine ⟨fun kind value order nodup enumerates => ?_, fun key => ?_,
    fun kind => coherent.tight kind⟩
  · have listed : ∀ key, key ∈ order ↔
        ∃ rule, m.limiterStore.rules.lookup key = some rule ∧ value ∈ kind.indexFunc rule := by
      intro key
      rw [← coherent.indexed, ← enumerates, List.mem_toFinset]
    have stored : ∀ key ∈ order, ∃ rule, m.limiterStore.rules.lookup key = some rule := by
      intro key member
      obtain ⟨rule, ruled, -⟩ := (listed key).mp member
      exact ⟨rule, ruled⟩
    obtain ⟨found, rfl⟩ := coherent.exists_entries stored
    refine ⟨found, LimiterStore.byIndex_entries, nodup, fun key rule => ?_,
      fun entry _ => ⟨?_, coherent.keyed entry.listed⟩⟩
    · rw [← limits.rules]
      constructor
      · rintro ⟨entry, member, rfl, rfl⟩
        obtain ⟨rule, ruled, under⟩ := (listed entry.key).mp (List.mem_map_of_mem member)
        rw [entry.ruled, Option.some.injEq] at ruled
        exact ⟨entry.ruled, ruled ▸ under⟩
      · rintro ⟨ruled, under⟩
        obtain ⟨entry, member, same⟩ := List.mem_map.mp ((listed key).mpr ⟨rule, ruled, under⟩)
        have stored := entry.ruled
        rw [same, ruled, Option.some.injEq] at stored
        exact ⟨entry, member, same, stored.symm⟩
    · have limited := entry.limited
      rw [coherent.limiters, entry.ruled, Option.map_some, Option.some.injEq] at limited
      exact limited.symm
  · rw [← AList.lookup_isSome, ← AList.lookup_isSome, ← AList.lookup_isSome, coherent.limiters,
      coherent.states, Option.isSome_map]
    exact ⟨.rfl, .rfl⟩

/-- After every sequence of `Sync` calls the store is that of the configurations in force. -/
theorem limiterStore_refines (compile : Compile) (history : List (Int × Config))
    (plain : ∀ call ∈ history, ':' ∉ call.2.name.toList) :
    (runSync compile history).limiterStore.Refines (runSync compile history).breakerMap :=
  (runSync_limits plain).refines

/-- A configuration with two rules of one name. -/
def twiceNamed (option : SyncOption) (hash : String) : Config where
  option := option
  name := "breaker"
  configHash := hash
  trafficInterceptRules := []
  rateLimitings := [
    ⟨"rule", [⟨["*"], ["pods"], ["get"], ["*"]⟩], [], ⟨1, "1s", 1⟩, .normal, none⟩,
    ⟨"rule", [⟨["apps"], ["*"], ["get", "list"], ["*"]⟩], [⟨"https://example", "GET"⟩],
      ⟨1, "1s", 2⟩, .limiterOnly, none⟩]

/-- Two updates and a recovery. -/
theorem limiterStore_refines_twiceNamed :
    (runSync (fun _ => none) [(0, twiceNamed .update "a"), (1, twiceNamed .update "b"),
        (2, twiceNamed .recover "b")]).limiterStore.Refines
      (runSync (fun _ => none) [(0, twiceNamed .update "a"), (1, twiceNamed .update "b"),
        (2, twiceNamed .recover "b")]).breakerMap :=
  limiterStore_refines (fun _ => none) _ (by decide)

end History

end CtrlMesh.CircuitBreaker
