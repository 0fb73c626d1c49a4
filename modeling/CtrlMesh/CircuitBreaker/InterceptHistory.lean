import CtrlMesh.CircuitBreaker.InForce
import CtrlMesh.CircuitBreaker.Manager
import CtrlMesh.Lib.Assoc

/-!
# Traffic interception over a history of configurations

What a sequence of `Sync` calls leaves in the store of traffic-intercept rules, compared with a new
manager that gets only the configurations in force. The indexes are always those of the
configurations in force; the rules of withdrawn configurations stay in `rules`, where only the
default verdict sees them.
-/

namespace CtrlMesh.CircuitBreaker

open Labels Lib TrafficInterceptStore

/-- The rule a configuration holds under a key: the last of that name. -/
def Config.ruleAt (cb : Config) (key : String) : Option TrafficInterceptRule :=
  cb.trafficInterceptRules.reverse.find? fun rule => ruleKey cb.name rule.name = key

/-- A configuration in force holds the rule under the key. -/
def InForce (breakers : StringMap Config) (key : String) (rule : TrafficInterceptRule) : Prop :=
  ∃ cb, breakers.lookup cb.name = some cb ∧ cb.ruleAt key = some rule

variable {name : String}

section Fold

variable {compile : Compile} {s : TrafficInterceptStore}
  {live : String → TrafficInterceptRule → Prop}

theorem TrafficInterceptStore.Represents.congr {live' : String → TrafficInterceptRule → Prop}
    (represents : Represents compile s live) (same : ∀ key rule, live key rule ↔ live' key rule) :
    Represents compile s live' := by
  have equal : live = live' := by
    funext key rule
    exact propext (same key rule)
  rwa [← equal]

/-- The last of the rules under a key, or else what was live before. -/
def Overlaid (name : String) (rules : List TrafficInterceptRule)
    (live : String → TrafficInterceptRule → Prop) (key : String) (rule : TrafficInterceptRule) :
    Prop :=
  match rules.reverse.find? fun rule => ruleKey name rule.name = key with
  | some last => rule = last
  | none => live key rule

theorem TrafficInterceptStore.Represents.registerAll (name : String)
    (rules : List TrafficInterceptRule) (represents : Represents compile s live) :
    Represents compile (rules.foldl (fun s rule =>
      s.createOrUpdateRule compile (ruleKey name rule.name) rule) s)
      (Overlaid name rules live) := by
  induction rules generalizing s live with
  | nil => exact represents
  | cons rule rules ih =>
    refine (ih (represents.createOrUpdateRule (ruleKey name rule.name) rule)).congr ?_
    intro key other
    unfold Overlaid
    rw [List.reverse_cons, List.find?_append]
    cases later : rules.reverse.find? fun rule => ruleKey name rule.name = key with
    | some last => simp
    | none =>
      by_cases hit : ruleKey name rule.name = key
      · subst hit
        simp [updated_self]
      · simp [Updated, Without, hit, Ne.symm hit]

theorem TrafficInterceptStore.Represents.unregisterAll (name : String)
    (rules : List TrafficInterceptRule) (represents : Represents compile s live) :
    Represents compile (rules.foldl (fun s rule => s.deleteRule (ruleKey name rule.name)) s)
      fun key rule => (∀ old ∈ rules, key ≠ ruleKey name old.name) ∧ live key rule := by
  induction rules generalizing s live with
  | nil => exact represents.congr (by simp)
  | cons rule rules ih =>
    refine (ih (represents.deleteRule (ruleKey name rule.name))).congr ?_
    intro key other
    simp only [Without, List.forall_mem_cons]
    tauto

theorem registerAll_rules (rules : List TrafficInterceptRule) :
    (rules.foldl (fun s rule => s.createOrUpdateRule compile (ruleKey name rule.name) rule)
      s).rules =
        rules.foldl (fun map rule => map.insert (ruleKey name rule.name) rule) s.rules := by
  induction rules generalizing s with
  | nil => rfl
  | cons rule rules ih => rw [List.foldl_cons, ih, createOrUpdateRule_rules, List.foldl_cons]

theorem unregisterAll_rules (rules : List TrafficInterceptRule) :
    (rules.foldl (fun s rule => s.deleteRule (ruleKey name rule.name)) s).rules = s.rules := by
  induction rules generalizing s with
  | nil => rfl
  | cons rule rules ih => rw [List.foldl_cons, ih, deleteRule_rules]

end Fold

/-- The configurations in force, and the rule last registered under each key. -/
structure Ledger where
  breakers : StringMap Config
  registered : StringMap TrafficInterceptRule

/-- A configuration is taken over, with all its rules. -/
def Ledger.enter (ledger : Ledger) (config : Config) : Ledger where
  breakers := ledger.breakers.insert config.name config
  registered := config.trafficInterceptRules.foldl
    (fun map rule => map.insert (ruleKey config.name rule.name) rule) ledger.registered

/-- What a `Sync` call enters in the ledger: an update with a known hash changes nothing. -/
def Ledger.sync (ledger : Ledger) (config : Config) : Ledger :=
  match config.option with
  | .update =>
    if (ledger.breakers.lookup config.name).map (·.configHash) = some config.configHash then ledger
    else ledger.enter config
  | .delete => { ledger with breakers := ledger.breakers.erase config.name }
  | _ => ledger

/-- The ledger of a history. -/
def ledgerOf (history : List (Int × Config)) : Ledger :=
  history.foldl (fun ledger call => ledger.sync call.2) ⟨∅, ∅⟩

section History

variable (compile : Compile)

/-- The manager after a history of calls, each with its time. -/
def runSync (history : List (Int × Config)) : Manager :=
  history.foldl (fun m call => m.synced compile call.1 call.2) .new

variable {compile}

/-- The state of a manager agrees with a ledger. -/
structure Manager.Follows (compile : Compile) (m : Manager)
    (ledger : Ledger) : Prop where
  breakers : m.breakerMap = ledger.breakers
  rules : m.trafficInterceptStore.rules = ledger.registered
  named : ∀ name cb, ledger.breakers.lookup name = some cb → cb.name = name ∧ ':' ∉ name.toList
  represents : Represents compile m.trafficInterceptStore (InForce ledger.breakers)

variable {m : Manager} {ledger : Ledger} {config : Config}

theorem inForce_iff_held {breakers : StringMap Config} {key : String}
    {rule : TrafficInterceptRule} :
    InForce breakers key rule ↔ Held (·.trafficInterceptRules) (·.name) breakers key rule := .rfl

section

variable (follows : m.Follows compile ledger)

include follows

/-- Unregistering a configuration leaves the rules of the others. -/
theorem Manager.Follows.unregister {cb : Config}
    (found : ledger.breakers.lookup cb.name = some cb) :
    Represents compile (m.unregisterRules cb.name).trafficInterceptStore
      (HeldElsewhere (·.trafficInterceptRules) (·.name) ledger.breakers cb.name) := by
  have known : m.breakerMap.lookup cb.name = some cb := by rw [follows.breakers, found]
  unfold Manager.unregisterRules
  rw [known]
  refine (follows.represents.unregisterAll cb.name cb.trafficInterceptRules).congr ?_
  intro key rule
  rw [inForce_iff_held]
  exact (heldElsewhere_iff follows.named found).symm

/-- A taken-over configuration replaces the one of its name. -/
theorem Manager.Follows.takeOver (plain : ':' ∉ config.name.toList) :
    (m.takeOver compile config (ledger.breakers.lookup config.name)).Follows compile
      (ledger.enter config) := by
  have others : ∃ m' : Manager, m.takeOver compile config (ledger.breakers.lookup config.name) =
        { m' with breakerMap := m.breakerMap.insert config.name config }.registerRules
          compile config ∧
      m'.trafficInterceptStore.rules = m.trafficInterceptStore.rules ∧
      Represents compile m'.trafficInterceptStore
        (HeldElsewhere (·.trafficInterceptRules) (·.name) ledger.breakers config.name) := by
    cases found : ledger.breakers.lookup config.name with
    | none =>
      exact ⟨m, rfl, rfl, follows.represents.congr fun key rule =>
        (heldElsewhere_of_unknown found).symm⟩
    | some cb =>
      have same := (follows.named _ _ found).1
      have known : m.breakerMap.lookup cb.name = some cb := by rw [follows.breakers, same, found]
      refine ⟨m.unregisterRules cb.name, ?_, ?_, ?_⟩
      · rw [Manager.takeOver, Manager.unregisterRules_breakerMap]
      · simp [Manager.unregisterRules, known, unregisterAll_rules]
      · rw [← same]
        exact follows.unregister (by rw [same, found])
  obtain ⟨m', isTakeOver, rules, represents⟩ := others
  rw [isTakeOver]
  refine ⟨?_, ?_, Named.insert follows.named plain, ?_⟩
  · simp [Manager.registerRules, Ledger.enter, follows.breakers]
  · simp [Manager.registerRules, Ledger.enter, registerAll_rules, rules, follows.rules]
  · refine (represents.registerAll config.name config.trafficInterceptRules).congr ?_
    intro key rule
    rw [inForce_iff_held, Ledger.enter, held_insert follows.named plain]
    change (match config.lastAt (·.trafficInterceptRules) (·.name) key with
      | some last => rule = last
      | none => _) ↔ _
    cases config.lastAt (·.trafficInterceptRules) (·.name) key with
    | some last => simp [eq_comm]
    | none => simp

theorem Manager.Follows.withdraw {cb : Config}
    (found : ledger.breakers.lookup config.name = some cb) :
    { m.unregisterRules cb.name with breakerMap :=
        (m.unregisterRules cb.name).breakerMap.erase config.name }.Follows compile
      { ledger with breakers := ledger.breakers.erase config.name } := by
  have same := (follows.named _ _ found).1
  have known : m.breakerMap.lookup cb.name = some cb := by rw [follows.breakers, same, found]
  refine ⟨?_, ?_, Named.erase follows.named config.name, ?_⟩
  · rw [Manager.unregisterRules_breakerMap, follows.breakers]
  · simp [Manager.unregisterRules, known, unregisterAll_rules, follows.rules]
  · refine (follows.unregister (by rw [same, found])).congr fun key rule => ?_
    rw [inForce_iff_held, held_erase, same]

theorem Manager.Follows.recoverBreaker (now : Int) (key : String) :
    (m.recoverBreaker now key).Follows compile ledger := by
  unfold Manager.recoverBreaker
  split
  · exact follows
  · exact ⟨follows.breakers, follows.rules, follows.named, follows.represents⟩

/-- One call keeps the agreement. -/
theorem Manager.Follows.synced (now : Int) (plain : ':' ∉ config.name.toList) :
    (m.synced compile now config).Follows compile (ledger.sync config) := by
  unfold Manager.synced Ledger.sync
  cases config.option with
  | update =>
    dsimp only
    rw [follows.breakers]
    have taken := follows.takeOver plain
    cases found : ledger.breakers.lookup config.name with
    | none =>
      rw [found] at taken
      simpa using taken
    | some cb =>
      rw [found] at taken
      by_cases same : config.configHash = cb.configHash
      · simpa [same] using follows
      · simpa [same, Ne.symm same] using taken
  | delete =>
    dsimp only
    rw [follows.breakers]
    cases found : ledger.breakers.lookup config.name with
    | none =>
      have gone : ledger.breakers.erase config.name = ledger.breakers := by
        apply AList.ext
        exact List.kerase_of_notMem_keys (AList.lookup_eq_none.mp found)
      simpa [gone] using follows
    | some cb => exact follows.withdraw found
  | recover =>
    dsimp only
    generalize config.rateLimitings = limitings
    induction limitings generalizing m with
    | nil => exact follows
    | cons limiting limitings ih =>
      exact ih (follows.recoverBreaker now (ruleKey config.name limiting.name))
  | check => exact follows
  | unnamed value => exact follows

end

/-- After every history the manager agrees with the ledger of the history. -/
theorem runSync_follows {history : List (Int × Config)}
    (plain : ∀ call ∈ history, ':' ∉ call.2.name.toList) :
    (runSync compile history).Follows compile (ledgerOf history) := by
  have start : Manager.new.Follows compile ⟨∅, ∅⟩ := by
    refine ⟨rfl, rfl, by simp, represents_new.congr fun key rule => ?_⟩
    simp [InForce]
  have step : ∀ {m : Manager} {ledger : Ledger}, m.Follows compile ledger →
      (history.foldl (fun m call => m.synced compile call.1 call.2) m).Follows compile
        (history.foldl (fun ledger call => ledger.sync call.2) ledger) := by
    induction history with
    | nil => exact id
    | cons call history ih =>
      intro m ledger follows
      refine ih (fun other member => plain other (List.mem_cons_of_mem call member)) ?_
      exact follows.synced call.1 (plain call List.mem_cons_self)
  exact step start

theorem whitelisted_iff (s : TrafficInterceptStore) : s.whitelisted = true ↔
    ∃ key rule, s.rules.lookup key = some rule ∧ rule.interceptType = .whitelist := by
  rw [whitelisted, List.any_eq_true]
  constructor
  · rintro ⟨⟨key, rule⟩, member, white⟩
    exact ⟨key, rule, AList.mem_lookup_iff.mpr member, by simpa using white⟩
  · rintro ⟨key, rule, found, white⟩
    exact ⟨⟨key, rule⟩, AList.mem_lookup_iff.mp found, by simpa using white⟩

/-- Only updates enter configurations. -/
theorem ledgerOf_updates (history : List (Int × Config)) (name : String) (cb : Config)
    (found : (ledgerOf history).breakers.lookup name = some cb) : cb.option = .update := by
  induction history using List.reverseRecOn generalizing name cb with
  | nil => simp [ledgerOf] at found
  | append_singleton history call ih =>
    have last : ledgerOf (history ++ [call]) = (ledgerOf history).sync call.2 := by
      simp [ledgerOf]
    rw [last] at found
    cases option : call.2.option with
    | update =>
      simp only [Ledger.sync, option] at found
      split at found
      · exact ih name cb found
      · exact forall_lookup_insert ih option name cb found
    | delete =>
      simp only [Ledger.sync, option] at found
      exact forall_lookup_erase ih name cb found
    | check | recover | unnamed value =>
      simp only [Ledger.sync, option] at found
      exact ih name cb found

/-- The calls that register the given configurations with a new manager. -/
def freshHistory (configs : List Config) : List (Int × Config) := configs.map fun cb => (0, cb)

/-- What taking over configurations enters. -/
theorem breakers_enterAll (configs : List Config) :
    (configs.foldl Ledger.enter ⟨∅, ∅⟩).breakers = insertAll (·.name) configs := by
  induction configs using List.reverseRecOn with
  | nil => rfl
  | append_singleton configs config ih =>
    rw [insertAll, List.foldl_append, List.foldl_append, ← insertAll, ← ih]
    rfl

/-- A new manager takes over every configuration it is given. -/
theorem ledgerOf_fresh {configs : List Config} (updates : ∀ cb ∈ configs, cb.option = .update)
    (distinct : (configs.map (·.name)).Nodup) :
    ledgerOf (freshHistory configs) = configs.foldl Ledger.enter ⟨∅, ∅⟩ := by
  induction configs using List.reverseRecOn with
  | nil => rfl
  | append_singleton configs config ih =>
    rw [List.map_append, List.nodup_append] at distinct
    have before := ih (fun cb member => updates cb (List.mem_append_left _ member)) distinct.1
    have absent : (ledgerOf (freshHistory configs)).breakers.lookup config.name = none := by
      rw [before, breakers_enterAll, Option.eq_none_iff_forall_ne_some]
      intro cb found
      obtain ⟨member, same⟩ := (lookup_insertAll distinct.1).mp found
      exact distinct.2.2 cb.name (List.mem_map_of_mem member) config.name (by simp) same
    have last : ledgerOf (freshHistory (configs ++ [config])) =
        (ledgerOf (freshHistory configs)).sync config := by
      simp [ledgerOf, freshHistory]
    rw [last, Ledger.sync, updates config (by simp), absent, List.foldl_append, ← before]
    rfl

/-- It registers rules of these configurations only. -/
theorem registered_enterAll {configs : List Config} {key : String} {rule : TrafficInterceptRule}
    (found : (configs.foldl Ledger.enter ⟨∅, ∅⟩).registered.lookup key = some rule) :
    ∃ cb ∈ configs, cb.ruleAt key = some rule := by
  induction configs using List.reverseRecOn with
  | nil => simp at found
  | append_singleton configs config ih =>
    rw [List.foldl_append, List.foldl_cons, List.foldl_nil, Ledger.enter, lookup_foldl_insert,
      Option.or_eq_some_iff] at found
    rcases found with here | ⟨-, before⟩
    · exact ⟨config, by simp, here⟩
    · obtain ⟨cb, member, holds⟩ := ih before
      exact ⟨cb, List.mem_append_left _ member, holds⟩

/-- Some whitelist rule was the last one registered under its key, and none is in force. -/
def OnlyWithdrawnWhitelist (history : List (Int × Config)) : Prop :=
  (∃ key rule, (ledgerOf history).registered.lookup key = some rule ∧
    rule.interceptType = .whitelist) ∧
  ∀ key rule, InForce (ledgerOf history).breakers key rule → rule.interceptType ≠ .whitelist

/-- A manager answers like a new one with the configurations in force exactly when no withdrawn
whitelist rule decides the default. -/
theorem answers_fresh_iff (compile : Compile) {history : List (Int × Config)}
    (plain : ∀ call ∈ history, ':' ∉ call.2.name.toList) {configs : List Config}
    (current : configs.Perm ((runSync compile history).breakerMap.entries.map (·.2))) :
    (∀ url method result,
      (runSync compile history).trafficInterceptStore.Answers compile url method result ↔
        (runSync compile (freshHistory configs)).trafficInterceptStore.Answers compile url method
          result) ↔
      ¬OnlyWithdrawnWhitelist history := by
  have follows : (runSync compile history).Follows compile (ledgerOf history) :=
    runSync_follows plain
  rw [follows.breakers] at current
  have named : ∀ name cb, (ledgerOf history).breakers.lookup name = some cb → cb.name = name :=
    fun name cb found => (follows.named name cb found).1
  have values {cb : Config} : cb ∈ configs ↔ (ledgerOf history).breakers.lookup cb.name = some cb :=
    mem_values_iff named current
  have updates : ∀ cb ∈ configs, cb.option = .update := fun cb member =>
    ledgerOf_updates history cb.name cb (values.mp member)
  have entered := ledgerOf_fresh updates (nodup_names named current)
  have plainFresh : ∀ call ∈ freshHistory configs, ':' ∉ call.2.name.toList := by
    rintro call member
    obtain ⟨cb, inside, rfl⟩ := List.mem_map.mp member
    exact (follows.named _ _ (values.mp inside)).2
  have fresh : (runSync compile (freshHistory configs)).Follows compile
      (ledgerOf (freshHistory configs)) := runSync_follows plainFresh
  have inForce : ∀ key rule, InForce (ledgerOf (freshHistory configs)).breakers key rule ↔
      InForce (ledgerOf history).breakers key rule := by
    intro key rule
    refine exists_congr fun cb => ?_
    rw [entered, breakers_enterAll, lookup_values named current]
  rw [follows.represents.answers_eq_iff (fresh.represents.congr inForce), Bool.eq_iff_iff,
    whitelisted_iff, whitelisted_iff, follows.rules, fresh.rules]
  have freshWhite : (∃ key rule, (ledgerOf (freshHistory configs)).registered.lookup key =
      some rule ∧ rule.interceptType = .whitelist) ↔
      ∃ key rule, InForce (ledgerOf history).breakers key rule ∧
        rule.interceptType = .whitelist := by
    constructor
    · rintro ⟨key, rule, found, white⟩
      obtain ⟨cb, member, holds⟩ := registered_enterAll (entered ▸ found)
      exact ⟨key, rule, ⟨cb, values.mp member, holds⟩, white⟩
    · rintro ⟨key, rule, holds, white⟩
      have stored := fresh.represents.rules key rule ((inForce key rule).mpr holds)
      exact ⟨key, rule, fresh.rules ▸ stored, white⟩
  have kept : (∃ key rule, InForce (ledgerOf history).breakers key rule ∧
      rule.interceptType = .whitelist) → ∃ key rule,
      (ledgerOf history).registered.lookup key = some rule ∧ rule.interceptType = .whitelist := by
    rintro ⟨key, rule, holds, white⟩
    exact ⟨key, rule, follows.rules ▸ follows.represents.rules key rule holds, white⟩
  rw [freshWhite, OnlyWithdrawnWhitelist]
  constructor
  · rintro same ⟨withdrawn, none⟩
    obtain ⟨key, rule, holds, white⟩ := same.mp withdrawn
    exact none key rule holds white
  · intro only
    refine ⟨fun withdrawn => ?_, kept⟩
    by_contra none
    exact only ⟨withdrawn, fun key rule holds white => none ⟨key, rule, holds, white⟩⟩

/-- A configuration of one whitelist rule, and the calls that set it and withdraw it. -/
def sampleConfig (option : SyncOption) : Config where
  option := option
  name := "breaker"
  configHash := "hash"
  trafficInterceptRules := [⟨"rule", .whitelist, .normal, ["https://example"], ["GET"]⟩]
  rateLimitings := []

/-- The configuration is set and withdrawn. -/
def sampleHistory : List (Int × Config) := [(0, sampleConfig .update), (1, sampleConfig .delete)]

/-- Another configuration, of a blacklist rule, is set and withdrawn. -/
def mixedHistory : List (Int × Config) :=
  [(0, sampleConfig .update),
    (1, ⟨.update, "other", "hash2", [⟨"rule", .blacklist, .normal, ["https://b"], ["PUT"]⟩], []⟩),
    (2, ⟨.delete, "other", "hash2", [], []⟩)]

/-- The whitelist rule is in force. -/
theorem answers_fresh_sample :
    (runSync (fun _ => none) mixedHistory).breakerMap.entries.map (·.2) = [sampleConfig .update] ∧
      ∀ url method result,
        (runSync (fun _ => none) mixedHistory).trafficInterceptStore.Answers (fun _ => none) url
            method result ↔
          (runSync (fun _ => none)
            (freshHistory [sampleConfig .update])).trafficInterceptStore.Answers (fun _ => none) url
              method result := by
  have current : (runSync (fun _ => none) mixedHistory).breakerMap.entries.map (·.2) =
      [sampleConfig .update] := rfl
  refine ⟨current, (answers_fresh_iff (fun _ => none) (by decide) (current ▸ .refl _)).mpr ?_⟩
  rintro ⟨-, none⟩
  refine none "breaker:rule" ⟨"rule", .whitelist, .normal, ["https://example"], ["GET"]⟩ ?_ rfl
  exact ⟨sampleConfig .update, rfl, rfl⟩

/-- After the sample history every request is denied; a new manager allows it. -/
theorem intercept_remembers_withdrawn :
    ¬∀ (compile : Compile) (history : List (Int × Config))
      (configs : List Config), (∀ call ∈ history, ':' ∉ call.2.name.toList) →
      configs.Perm ((runSync compile history).breakerMap.entries.map (·.2)) →
      ∀ url method result,
        (runSync compile history).trafficInterceptStore.Answers compile url method result ↔
          (runSync compile (freshHistory configs)).trafficInterceptStore.Answers compile url method
            result := by
  intro same
  have answers := same (fun _ => none) sampleHistory [] (by decide) (List.Perm.refl [])
    "https://example" "GET" (defaultVerdict true)
  rw [answers_iff, answers_iff] at answers
  revert answers
  decide

end History

end CtrlMesh.CircuitBreaker
