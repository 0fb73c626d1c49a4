import CtrlMesh.CircuitBreaker.Custody

/-!
# Manual breakers stay open

A breaker of a rule with the NORMAL policy that does not sleep stays open once it is: requests see
it open and leave it so, and its object never comes into the hands of the lease. Only a `Sync` call
that recovers the rule or replaces or withdraws its configuration ends this.
-/

namespace CtrlMesh.CircuitBreaker

open Labels Lib

variable {name : String}

namespace LimiterStore

variable {s s' : LimiterStore} {key other : String} {ref : StateRef} {st : State}
  {limiting : RateLimiting} {parse : Parsers} {now : Int}

/-- The rule is stored under the key with this object, and its breaker is open. -/
structure OpenAt (s : LimiterStore) (key : String) (ref : StateRef) (limiting : RateLimiting) :
    Prop where
  ruled : s.rules.lookup key = some limiting
  listed : s.states.lookup key = some ref
  opened : ∃ st, s.heap[ref]? = some st ∧ st.state = .opened

section

variable (isOpen : s.OpenAt key ref limiting)

include isOpen

/-- Rules of other keys come and go. -/
theorem OpenAt.deleteRule (different : key ≠ other) :
    (s.deleteRule other).OpenAt key ref limiting := by
  unfold LimiterStore.deleteRule
  cases s.rules.lookup other with
  | none => exact isOpen
  | some oldOne =>
    refine ⟨?_, ?_, isOpen.opened⟩
    · dsimp only
      rw [lookup_erase_ite, if_neg different]
      exact isOpen.ruled
    · dsimp only
      rw [lookup_erase_ite, if_neg different]
      exact isOpen.listed

theorem OpenAt.createOrUpdateRule (different : key ≠ other) (rule : RateLimiting) :
    (s.createOrUpdateRule other rule).OpenAt key ref limiting := by
  have ruled : (s.rules.insert other rule).lookup key = some limiting := by
    rw [AList.lookup_insert_ne different]
    exact isOpen.ruled
  unfold LimiterStore.createOrUpdateRule
  cases s.rules.lookup other with
  | none =>
    obtain ⟨st, object, opened⟩ := isOpen.opened
    have inside : ref < s.heap.length := (List.getElem?_eq_some_iff.mp object).1
    refine ⟨ruled, ?_, st, ?_, opened⟩
    · dsimp only
      rw [AList.lookup_insert_ne different]
      exact isOpen.listed
    · dsimp only
      rw [List.getElem?_append_left inside, object]
  | some oldOne => exact ⟨ruled, isOpen.listed, isOpen.opened⟩

/-- A validation leaves an open breaker of a rule that asks for a manual recovery as it is. -/
theorem OpenAt.doValidation (keyed : s.Keyed) (normal : limiting.triggerPolicy = .normal)
    (allow : String → Bool) (keys : List String) (result : ValidateResult) :
    (doValidation parse now allow keys result s).2.OpenAt key ref limiting := by
  refine doValidation_keeps (P := fun _ s => s.OpenAt key ref limiting) keyed isOpen id ?_
  intro s first keys rule r st result keyed _ ruled listed object round isOpen
  have stillRuled := isOpen.ruled
  have stillListed := isOpen.listed
  rw [← round.rules] at stillRuled
  rw [← round.states] at stillListed
  refine ⟨stillRuled, stillListed, ?_⟩
  obtain ⟨st', object', opened⟩ := isOpen.opened
  by_cases turn : key = first
  · -- the round of the rule itself finds the breaker open
    have isRule : rule = limiting := by
      rw [← turn, isOpen.ruled, Option.some.injEq] at ruled
      exact ruled.symm
    have isRef : r = ref := by
      rw [← turn, isOpen.listed, Option.some.injEq] at listed
      exact listed.symm
    have untouched : (validateOne parse now s result rule r (allow first)).2 = s := by
      simp [validateOne, isRule, isRef, object', normal, opened]
    rw [untouched]
    exact isOpen.opened
  · rw [(round.object_eq keyed listed isOpen.listed turn).2]
    exact isOpen.opened

theorem OpenAt.validate (keyed : s.Keyed) (normal : limiting.triggerPolicy = .normal)
    (order : List String) (allow : String → Bool) :
    (s.validate parse now order allow).2.OpenAt key ref limiting := by
  unfold LimiterStore.validate
  split
  · exact isOpen
  · exact isOpen.doValidation keyed normal allow order _

theorem OpenAt.take {r : StateRef} (taken : s.take r = some s') : s'.OpenAt key ref limiting := by
  have ⟨rules, states, heap⟩ := frame_take taken
  exact ⟨rules ▸ isOpen.ruled, states ▸ isOpen.listed, heap ▸ isOpen.opened⟩

/-- The lease never has the object of a rule that does not sleep. -/
theorem OpenAt.process (custody : s.Custody) (awake : ¬limiting.Sleeps)
    (processed : s.process now = some s') : s'.OpenAt key ref limiting := by
  have unheld : ¬s.breakerLease.Holds ref := by
    intro held
    obtain ⟨rule, ruled, sleeps⟩ := custody.sleeps ref key held isOpen.listed
    rw [isOpen.ruled, Option.some.injEq] at ruled
    exact awake (ruled ▸ sleeps)
  have ⟨rules, states, heap⟩ := frame_process processed
  refine ⟨rules ▸ isOpen.ruled, states ▸ isOpen.listed, ?_⟩
  rw [heap ref unheld]
  exact isOpen.opened

end

/-- Rules stored from now on get objects from this position on. -/
theorem createOrUpdateRule_new {position : Nat} (below : position ≤ s.heap.length)
    (new : ∀ r, s.states.lookup key = some r → position ≤ r) (other : String)
    (rule : RateLimiting) :
    position ≤ (s.createOrUpdateRule other rule).heap.length ∧
      ∀ r, (s.createOrUpdateRule other rule).states.lookup key = some r → position ≤ r := by
  unfold LimiterStore.createOrUpdateRule
  cases s.rules.lookup other with
  | none =>
    constructor
    · rw [List.length_append]
      exact Nat.le_add_right_of_le below
    · intro r listed
      rcases lookup_insert_eq_some.mp listed with ⟨-, rfl⟩ | ⟨-, old⟩
      · exact below
      · exact new r old
  | some oldOne => exact ⟨below, new⟩

theorem registerAll_new {position : Nat} {rules : List RateLimiting}
    (below : position ≤ s.heap.length) (new : ∀ r, s.states.lookup key = some r → position ≤ r) :
    ∀ r, (rules.foldl (fun s rule => s.createOrUpdateRule (ruleKey name rule.name) rule)
      s).states.lookup key = some r → position ≤ r := by
  induction rules generalizing s with
  | nil => exact new
  | cons rule rules ih =>
    have ⟨below', new'⟩ := createOrUpdateRule_new below new (ruleKey name rule.name) rule
    exact ih below' new'

end LimiterStore

namespace Manager

variable {compile : Compile} {parse : Parsers} {m m' : Manager} {config : Config} {key : String}
  {ref : StateRef} {limiting : RateLimiting}

/-- The manager has the rule under the key with this object, and its breaker is open. -/
def OpenAt (key : String) (ref : StateRef) (limiting : RateLimiting) (m : Manager) : Prop :=
  m.limiterStore.OpenAt key ref limiting

/-- A `Sync` call that recovers the rule of the key, or unregisters it by an update or a deletion
of its configuration. -/
def Releases (key : String) (m : Manager) : Event → Prop
  | .sync _ config =>
    (config.option = .recover ∧
      ∃ limiting ∈ config.rateLimitings, ruleKey config.name limiting.name = key) ∨
    ∃ cb, m.breakerMap.lookup config.name = some cb ∧
      (config.option = .update ∧ config.configHash ≠ cb.configHash ∨ config.option = .delete) ∧
      ∃ limiting ∈ cb.rateLimitings, ruleKey config.name limiting.name = key
  | _ => False

theorem OpenAt.recoverBreaker (isOpen : m.OpenAt key ref limiting) (keyed : m.limiterStore.Keyed)
    {other : String} (different : key ≠ other) (now : Int) :
    (m.recoverBreaker now other).OpenAt key ref limiting := by
  unfold Manager.recoverBreaker
  cases listed : m.limiterStore.states.lookup other with
  | none => exact isOpen
  | some r =>
    have round : LimiterStore.Round other r m.limiterStore
        (m.limiterStore.modifyState r (·.recoverBreaker now)) :=
      .modifyState _ fun st => st.key_transition _ _ _
    refine ⟨isOpen.ruled, isOpen.listed, ?_⟩
    rw [(round.object_eq keyed listed isOpen.listed different).2]
    exact isOpen.opened

/-- What a recovery leaves of an object is not open, if the object was not or is recovered. -/
theorem closed_recoverBreaker (now : Int) (other : String)
    (closed : m.limiterStore.states.lookup other = some ref ∨
      ∀ st, m.limiterStore.heap[ref]? = some st → st.state ≠ .opened) :
    ∀ st, (m.recoverBreaker now other).limiterStore.heap[ref]? = some st → st.state ≠ .opened := by
  intro st object
  unfold Manager.recoverBreaker at object
  cases listed : m.limiterStore.states.lookup other with
  | none =>
    rw [listed] at object
    exact closed.resolve_left (by simp [listed]) st object
  | some r =>
    rw [listed] at object
    dsimp only [LimiterStore.modifyState] at object
    rw [List.getElem?_modify] at object
    obtain ⟨before, found, value⟩ := Option.map_eq_some_iff.mp object
    by_cases same : r = ref
    · rw [if_pos same] at value
      rw [← value]
      exact before.recoverBreaker_ne_opened
    · rw [if_neg same] at value
      have wasClosed := closed.resolve_left (by simp [listed, same])
      exact wasClosed st (value ▸ found)

theorem closed_recoverAll (now : Int) (limitings : List RateLimiting)
    (closed : ∀ st, m.limiterStore.heap[ref]? = some st → st.state ≠ .opened) :
    ∀ st, (limitings.foldl (fun m limiting =>
      m.recoverBreaker now (ruleKey name limiting.name)) m).limiterStore.heap[ref]? = some st →
        st.state ≠ .opened := by
  induction limitings generalizing m with
  | nil => exact closed
  | cons first limitings ih => exact ih (closed_recoverBreaker now _ (.inr closed))

theorem not_openAt_of_closed
    (closed : ∀ st, m.limiterStore.heap[ref]? = some st → st.state ≠ .opened) :
    ¬m.OpenAt key ref limiting := by
  intro isOpen
  obtain ⟨st, object, opened⟩ := isOpen.opened
  exact closed st object opened

/-- Recovering rules closes the breaker if its rule is among them. -/
theorem OpenAt.recoverAll (isOpen : m.OpenAt key ref limiting) (limits : m.Limits) {now : Int}
    {limitings : List RateLimiting} :
    OpenAt key ref limiting (limitings.foldl (fun m limiting =>
      m.recoverBreaker now (ruleKey name limiting.name)) m) ∨
    ¬OpenAt key ref limiting (limitings.foldl (fun m limiting =>
      m.recoverBreaker now (ruleKey name limiting.name)) m) ∧
      ∃ rule ∈ limitings, ruleKey name rule.name = key := by
  induction limitings generalizing m with
  | nil => exact .inl isOpen
  | cons first limitings ih =>
    by_cases named : ruleKey name first.name = key
    · have closed := closed_recoverBreaker (m := m) now (ruleKey name first.name)
        (.inl (named ▸ isOpen.listed))
      refine .inr ⟨not_openAt_of_closed (closed_recoverAll now limitings closed), ?_⟩
      exact ⟨first, List.mem_cons_self, named⟩
    · have kept := isOpen.recoverBreaker limits.coherent.keyed (Ne.symm named) now
      cases ih kept (limits.recoverBreaker now _) with
      | inl later => exact .inl later
      | inr lost =>
        obtain ⟨closed, rule, member, same⟩ := lost
        exact .inr ⟨closed, rule, List.mem_cons_of_mem first member, same⟩

theorem OpenAt.cleared (isOpen : m.OpenAt key ref limiting)
    (other : ∀ cb, m.breakerMap.lookup name = some cb → ∀ rule ∈ cb.rateLimitings,
      key ≠ ruleKey cb.name rule.name) (named : Named m.breakerMap) :
    (m.cleared name).OpenAt key ref limiting := by
  unfold Manager.cleared
  cases found : m.breakerMap.lookup name with
  | none => exact isOpen
  | some cb =>
    have same : cb.name = name := (named _ _ found).1
    dsimp only [OpenAt, unregisterRules]
    rw [same, found]
    apply List.foldlRecOn (motive := fun s : LimiterStore => s.OpenAt key ref limiting)
      cb.rateLimitings _ isOpen
    intro s isOpen rule member
    exact isOpen.deleteRule (other cb found rule member)

/-- An update of another configuration leaves the breaker open. -/
theorem OpenAt.takeOver (isOpen : m.OpenAt key ref limiting) (named : Named m.breakerMap)
    (other : ∀ rule, key ≠ ruleKey config.name rule) :
    (m.takeOver compile config (m.breakerMap.lookup config.name)).OpenAt key ref limiting := by
  have cleared : (m.cleared config.name).OpenAt key ref limiting := by
    apply isOpen.cleared _ named
    intro cb found rule _
    rw [(named _ _ found).1]
    exact other rule.name
  rw [takeOver_eq]
  apply List.foldlRecOn (motive := fun s : LimiterStore => s.OpenAt key ref limiting)
    config.rateLimitings _ cleared
  intro s isOpen rule _
  exact isOpen.createOrUpdateRule (other rule.name) rule

theorem heap_length_cleared :
    (m.cleared name).limiterStore.heap.length = m.limiterStore.heap.length := by
  have deletes : ∀ (s : LimiterStore) key, (s.deleteRule key).heap = s.heap := by
    intro s key
    unfold LimiterStore.deleteRule
    split <;> rfl
  unfold Manager.cleared
  split
  · rfl
  · unfold unregisterRules
    split
    · rfl
    · next cb _ =>
      apply List.foldlRecOn (motive := fun s : LimiterStore =>
        s.heap.length = m.limiterStore.heap.length) cb.rateLimitings _ rfl
      intro s same rule _
      rw [deletes]
      exact same

variable {rule : String}

/-- An update of its own configuration gives the rule a new object, if it is still there. -/
theorem OpenAt.not_takeOver (isOpen : m.OpenAt key ref limiting) (limits : m.Limits)
    (plain : ':' ∉ config.name.toList) (own : key = ruleKey config.name rule) :
    ¬(m.takeOver compile config (m.breakerMap.lookup config.name)).OpenAt key ref limiting := by
  intro still
  obtain ⟨st, object, -⟩ := isOpen.opened
  have inside : ref < m.limiterStore.heap.length := (List.getElem?_eq_some_iff.mp object).1
  have unlisted : ∀ r, (m.cleared config.name).limiterStore.states.lookup key = some r →
      m.limiterStore.heap.length ≤ r := by
    intro r listed
    rw [own, limits.unlisted_cleared plain] at listed
    cases listed
  have listed := still.listed
  rw [takeOver_eq] at listed
  have new := LimiterStore.registerAll_new (le_of_eq heap_length_cleared.symm) unlisted ref listed
  exact absurd (lt_of_lt_of_le inside new) (lt_irrefl _)

/-- A withdrawn configuration takes its rules with it. -/
theorem not_openAt_withdrawn (limits : m.Limits) {cb : Config}
    (found : m.breakerMap.lookup config.name = some cb) (own : key = ruleKey config.name rule) :
    ¬OpenAt key ref limiting { m.unregisterRules cb.name with
      breakerMap := (m.unregisterRules cb.name).breakerMap.erase config.name } := by
  intro still
  have ruled := ((limits.withdraw found).rules key limiting).mp still.ruled
  rw [unregisterRules_breakerMap] at ruled
  obtain ⟨other, different, here, holds⟩ := held_erase.mp ruled
  have plain : ':' ∉ config.name.toList := (limits.named _ _ found).2
  have sameKey := own.symm.trans (Config.key_of_lastAt holds)
  exact different (ruleKey_inj plain (limits.named _ _ here).2 sameKey).1.symm

/-- A call keeps the breaker open, or it is one that releases it. -/
theorem OpenAt.synced (isOpen : m.OpenAt key ref limiting) (limits : m.Limits) (now : Int)
    (plain : ':' ∉ config.name.toList) :
    (m.synced compile now config).OpenAt key ref limiting ∨
      ¬(m.synced compile now config).OpenAt key ref limiting ∧
        m.Releases key (.sync now config) := by
  obtain ⟨owner, holder, holds⟩ := (limits.rules key limiting).mp isOpen.ruled
  have isKey := Config.key_of_lastAt holds
  have member : limiting ∈ owner.rateLimitings :=
    List.mem_reverse.mp (List.mem_of_find?_eq_some holds)
  have plainOwner := (limits.named _ _ holder).2
  have foreign : owner.name ≠ config.name → ∀ rule, key ≠ ruleKey config.name rule := by
    intro different rule same
    exact different (ruleKey_inj plainOwner plain (isKey.symm.trans same)).1
  rcases m.synced_cases with same | ⟨update, changed, taken⟩ |
    ⟨delete, cb, found, withdrawn⟩ | ⟨recover, recovered⟩
  · rw [same]
    exact .inl isOpen
  · rw [taken]
    by_cases own : owner.name = config.name
    · rw [own] at holder isKey
      refine .inr ⟨isOpen.not_takeOver limits plain isKey, .inr ?_⟩
      exact ⟨owner, holder, .inl ⟨update, changed owner holder⟩, limiting, member, isKey.symm⟩
    · exact .inl (isOpen.takeOver limits.named (foreign own))
  · rw [withdrawn]
    by_cases own : owner.name = config.name
    · rw [own] at holder isKey
      refine .inr ⟨not_openAt_withdrawn limits found isKey, .inr ?_⟩
      exact ⟨owner, holder, .inr delete, limiting, member, isKey.symm⟩
    · have cleared : (m.cleared config.name).OpenAt key ref limiting := by
        apply isOpen.cleared _ limits.named
        intro cb' found' rule _
        rw [(limits.named _ _ found').1]
        exact foreign own rule.name
      rw [Manager.cleared, found] at cleared
      exact .inl cleared
  · rw [recovered]
    cases isOpen.recoverAll limits with
    | inl kept => exact .inl kept
    | inr lost => exact .inr ⟨lost.1, .inl ⟨recover, lost.2⟩⟩

/-- Every step keeps the breaker open, or it is one that releases it. -/
theorem OpenAt.step (isOpen : m.OpenAt key ref limiting) (orderly : m.Orderly)
    (normal : limiting.triggerPolicy = .normal) (awake : ¬limiting.Sleeps) (event : Event)
    (plain : event.Plain) (stepped : m.step compile parse event = some m') :
    m'.OpenAt key ref limiting ∨ ¬m'.OpenAt key ref limiting ∧ m.Releases key event := by
  have keyed : m.limiterStore.Keyed := orderly.limits.coherent.keyed
  cases event with
  | sync now config =>
    cases stepped
    exact isOpen.synced orderly.limits now plain
  | validate now request order allow =>
    obtain ⟨-, -, rfl⟩ := step_validate stepped
    exact .inl (LimiterStore.OpenAt.validate isOpen keyed normal order allow)
  | take r =>
    obtain ⟨s, taken, rfl⟩ := Option.map_eq_some_iff.mp stepped
    exact .inl (LimiterStore.OpenAt.take isOpen taken)
  | process now =>
    obtain ⟨s, processed, rfl⟩ := Option.map_eq_some_iff.mp stepped
    exact .inl (LimiterStore.OpenAt.process isOpen orderly.custody awake processed)

/-- In every run, once the breaker of a rule with the NORMAL policy and a manual recovery is open,
it stays open until a `Sync` call recovers the rule or unregisters it. -/
theorem manual_stays_open (compile : Compile) (parse : Parsers) (before after : List Event)
    (plain : ∀ event ∈ before ++ after, event.Plain) {m : Manager}
    (reached : run (step compile parse) .new before = some m) {key : String} {ref : StateRef}
    {limiting : RateLimiting} {policy : RecoverPolicy} (normal : limiting.triggerPolicy = .normal)
    (recovers : limiting.recoverPolicy = some policy) (manual : policy.type = .manual)
    (isOpen : m.OpenAt key ref limiting) :
    Until (step compile parse) (OpenAt key ref limiting) (Releases key) m
      after := by
  have awake : ¬limiting.Sleeps := by
    intro ⟨_, policy', recovers', sleeping⟩
    rw [recovers, Option.some.injEq] at recovers'
    rw [← recovers', manual] at sleeping
    cases sleeping
  have orderly : m.Orderly := by
    have plainBefore : EachStep (step compile parse)
        (fun _ event => Event.Plain event) .new before := by
      intro _ event _ _ _ split _ _
      apply plain
      simp [split]
    have along := along_of_eachStep (fun _ event _ orderly plain stepped =>
      Orderly.step orderly event plain stepped) orderly_new plainBefore
    exact along before [] m (by simp) reached
  have plainAfter : EachStep (step compile parse)
      (fun _ event => Event.Plain event) m after := by
    intro _ event _ _ _ split _ _
    apply plain
    simp [split]
  have steps : ∀ s event s', Orderly s ∧ OpenAt key ref limiting s → Event.Plain event →
      step compile parse s event = some s' →
      (Orderly s' ∧ OpenAt key ref limiting s') ∨
        ¬OpenAt key ref limiting s' ∧ Releases key s event := by
    intro s event s' ⟨orderly, isOpen⟩ plain stepped
    cases isOpen.step orderly normal awake event plain stepped with
    | inl kept => exact .inl ⟨orderly.step event plain stepped, kept⟩
    | inr lost => exact .inr lost
  exact until_of_eachStep (fun _ sound => sound.2) steps ⟨orderly, isOpen⟩ plainAfter

/-- A rule for all resources whose breaker is recovered by hand. -/
def manualRule : RateLimiting where
  name := "rule"
  resourceRules := [⟨["*"], ["*"], ["*"], ["*"]⟩]
  restRules := []
  bucket := ⟨1, "1s", 1⟩
  triggerPolicy := .normal
  recoverPolicy := some ⟨.manual, ""⟩

/-- A configuration with that rule. -/
def manualConfig (option : SyncOption) : Config where
  option := option
  name := "breaker"
  configHash := "manual"
  trafficInterceptRules := []
  rateLimitings := [manualRule]

/-- The rule sleeps at first and trips; then it is made a manual one and trips again. -/
def madeManual : List Event :=
  let request := .resource "default" "apps" "deployments" "list"
  [ .sync 0 (sleepingConfig "sleeping"), .validate 1 request ["breaker:rule"] (fun _ => false),
    .sync 2 (manualConfig .update), .validate 3 request ["breaker:rule"] (fun _ => false) ]

/-- The lease closes the old object; then the rule is recovered. -/
def leaseThenRecover : List Event :=
  [.take 0, .process 20000, .process 20000, .process 20000, .sync 30000 (manualConfig .recover)]

/-- The manager after that run. -/
def afterMadeManual : Manager :=
  (run (step (fun _ => none) (.every 10000)) .new madeManual).getD .new

theorem manual_stays_open_madeManual :
    Until (step (fun _ => none) (.every 10000))
      (OpenAt "breaker:rule" 1 manualRule) (Releases "breaker:rule") afterMadeManual
      leaseThenRecover := by
  have plain : ∀ event ∈ madeManual ++ leaseThenRecover, event.Plain := by decide
  have isOpen : afterMadeManual.OpenAt "breaker:rule" 1 manualRule :=
    ⟨by decide, by decide, ⟨"breaker:rule", .opened, some 3, none⟩, by decide, rfl⟩
  exact manual_stays_open (fun _ => none) (.every 10000) madeManual
    leaseThenRecover plain rfl rfl rfl rfl isOpen

end Manager

end CtrlMesh.CircuitBreaker
