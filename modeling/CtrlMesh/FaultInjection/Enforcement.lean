import CtrlMesh.FaultInjection.History

/-!
# What a manager enforces

A manager enforces the rules in its store. Whatever calls it has taken, also those that panicked
halfway, each of its rules belongs to a configuration it holds. So a deletion leaves no rule of its
name behind, and an update that goes through leaves those of its own configuration.
-/

namespace CtrlMesh.FaultInjection

open Labels Lib CircuitBreaker

/-- A rule of the name is in the store. -/
def Manager.Enforces (m : Manager) (name : String) : Prop :=
  ∃ kind key rule, configName key = name ∧
    (m.faultInjectionStore.rulesFor kind).lookup key = some rule

/-- A rule of the configuration asks for a map. -/
def Config.Asks (fi : Config) : Prop :=
  ∃ rule ∈ fi.httpFaultInjections, ∃ kind, rule.asks kind = true

variable {result : ConfigResp × Option String}

section

variable {compile : Compile} {m m' : Manager} {config : Config}
  {history : List Config}

/-- A new manager has no rules. -/
theorem Manager.covered_new : Manager.new.Covered := by
  constructor
  · intro name fi found
    simp [Manager.new] at found
  · intro kind
    cases kind with
    | resources => exact Covers.empty
    | rest => exact Covers.empty

/-- A configuration is recorded before its rules. -/
theorem Manager.Covered.takenOver (covered : m.Covered) (plain : ':' ∉ config.name.toList) :
    Covered ⟨m.faultInjectionMap.insert config.name config, m.cleared config.name⟩ where
  named := covered.named.insert plain _
  covers kind := (covered.covers kind).replace (covered.lookup_cleared config.name kind)

/-- A configuration goes with its rules. -/
theorem Manager.Covered.withdrawn (covered : m.Covered) (name : String) :
    Covered ⟨m.faultInjectionMap.erase name, m.cleared name⟩ where
  named := covered.named.erase name _
  covers kind := (covered.covers kind).withdraw (covered.lookup_cleared name kind)

/-- A rule of a configuration held is entered. -/
theorem Manager.Covered.entered (covered : m.Covered)
    (held : m.faultInjectionMap.lookup config.name = some config) {rule : HTTPFaultInjection}
    (member : rule ∈ config.httpFaultInjections) :
    Covered { m with faultInjectionStore :=
      m.faultInjectionStore.entered compile (ruleKey config.name rule.name) rule } := by
  refine ⟨covered.named, ?_⟩
  intro kind
  have plain : ':' ∉ config.name.toList := (covered.named _ _ held).2
  have owned : m.faultInjectionMap.lookup (configName (ruleKey config.name rule.name)) =
      some config := by
    rw [configName_ruleKey plain]
    exact held
  dsimp only
  rw [Store.rulesFor_entered]
  split
  · exact (covered.covers kind).enter owned ⟨rule, member, rfl⟩ rule
  · exact covered.covers kind

/-- Registering the rules of a configuration held, as far as it gets. -/
theorem upholds_registerRules :
    Effect.Upholds
      (fun m => m.Covered ∧ m.faultInjectionMap.lookup config.name = some config)
      (registerRules compile config) fun _ => True := by
  refine Effect.upholds_forM ?_
  intro rule member
  refine Effect.upholds_bind Effect.upholds_get ?_
  rintro m ⟨covered, held⟩
  cases created : m.faultInjectionStore.createOrUpdateRule compile
      (ruleKey config.name rule.name) rule with
  | none => exact Effect.upholds_throw
  | some store =>
    have isEntered : m.faultInjectionStore.entered compile (ruleKey config.name rule.name) rule =
        store := by
      rw [Store.entered, created]
      rfl
    have kept := @Manager.Covered.entered compile m config covered held rule member
    rw [isEntered] at kept
    intro s _
    exact ⟨⟨kept, held⟩, fun _ _ _ => trivial⟩

/-- Every call leaves it so, one that panics too. -/
theorem Manager.Covered.sync (covered : m.Covered) (plain : ':' ∉ config.name.toList) :
    (Effect.after (sync compile config) m).Covered := by
  cases option : config.option with
  | update =>
    by_cases recorded : m.Recorded config
    · obtain ⟨_, ran⟩ := @sync_recorded compile m config option recorded
      rw [Effect.after_of_ok ran]
      exact covered
    · obtain ⟨message, ran⟩ := @sync_update compile m config covered.named option recorded
      have upheld : Effect.Upholds
          (fun m => m.Covered ∧ m.faultInjectionMap.lookup config.name = some config)
          (do registerRules compile config
              return (⟨true, message⟩, none) : Call (ConfigResp × Option String))
          fun _ => True :=
        Effect.upholds_bind upholds_registerRules fun _ _ => Effect.upholds_pure trivial
      have after := (upheld _ ⟨covered.takenOver plain, AList.lookup_insert _⟩).1.1
      unfold Effect.after at after ⊢
      rw [ran]
      exact after
  | delete =>
    obtain ⟨_, ran⟩ := @sync_delete compile m config covered.named option
    rw [Effect.after_of_ok ran]
    exact covered.withdrawn config.name
  | check | recover | unnamed value =>
    rw [after_sync_other (by simp [option]) (by simp [option])]
    exact covered

/-- The rules are covered after any history. -/
theorem runSync_covered (plain : ∀ config ∈ history, ':' ∉ config.name.toList) :
    (runSync compile history).Covered :=
  List.foldlRecOn history _ Manager.covered_new fun _ covered config member =>
    covered.sync (plain config member)

/-- After a deletion nothing of the name is enforced. -/
theorem not_enforces_deleted (covered : m.Covered) (delete : config.option = .delete)
    (ran : (sync compile config).run m = .ok result m') : ¬m'.Enforces config.name := by
  obtain ⟨message, deleted⟩ := @sync_delete compile m config covered.named delete
  rw [ran] at deleted
  cases deleted
  rintro ⟨kind, key, rule, named, stored⟩
  dsimp only at stored
  rw [covered.lookup_cleared, if_pos named] at stored
  cases stored

/-- A second deletion changes nothing. -/
theorem sync_deleted (named : m.Named) (delete : config.option = .delete)
    (ran : (sync compile config).run m = .ok result m') :
    ∃ message, (sync compile config).run m' = .ok (⟨true, message⟩, none) m' := by
  obtain ⟨message, deleted⟩ := @sync_delete compile m config named delete
  rw [ran] at deleted
  cases deleted
  unfold sync
  rw [EStateM.run_bind, EStateM.run_get]
  simp only [delete, AList.lookup_erase]
  exact ⟨_, rfl⟩

/-- An update that is new and goes through has a match in every rule. -/
theorem sync_updated (named : m.Named) (update : config.option = .update) (new : ¬m.Recorded config)
    (ran : (sync compile config).run m = .ok result m') :
    m' = ⟨m.faultInjectionMap.insert config.name config,
      config.registered compile (m.cleared config.name)⟩ := by
  obtain ⟨message, same⟩ := @sync_update compile m config named update new
  rw [ran, EStateM.run_bind] at same
  by_cases hasMatch : ∀ rule ∈ config.httpFaultInjections, rule.match_.isSome
  · rw [registerRules_ok hasMatch] at same
    cases same
    rfl
  · have lacks : ∃ rule ∈ config.httpFaultInjections, rule.match_ = none := by
      simpa using hasMatch
    obtain ⟨store, panics⟩ := @registerRules_panics compile config lacks
      ⟨m.faultInjectionMap.insert config.name config, m.cleared config.name⟩
    rw [panics] at same
    cases same

/-- An update that goes through leaves its hash recorded. -/
theorem recorded_updated (named : m.Named) (update : config.option = .update)
    (ran : (sync compile config).run m = .ok result m') : m'.Recorded config := by
  by_cases recorded : m.Recorded config
  · obtain ⟨message, same⟩ := @sync_recorded compile m config update recorded
    rw [ran] at same
    cases same
    exact recorded
  · rw [sync_updated named update recorded ran]
    exact ⟨config, AList.lookup_insert _, rfl⟩

/-- A configuration has a rule under one of its keys exactly if one of its rules asks for a map. -/
theorem Config.exists_lastAt_iff (plain : ':' ∉ config.name.toList) :
    (∃ kind key rule, configName key = config.name ∧ config.lastAt kind key = some rule) ↔
      config.Asks := by
  constructor
  · rintro ⟨kind, key, rule, -, last⟩
    obtain ⟨member, asks, -⟩ := Config.key_of_lastAt last
    exact ⟨rule, member, kind, asks⟩
  · rintro ⟨rule, member, kind, asks⟩
    obtain ⟨last, isLast⟩ := Config.exists_lastAt member asks
    exact ⟨kind, _, last, configName_ruleKey plain, isLast⟩

/-- A new update that goes through is enforced if a rule of it asks for a map. -/
theorem enforces_updated (covered : m.Covered) (plain : ':' ∉ config.name.toList)
    (update : config.option = .update) (new : ¬m.Recorded config)
    (ran : (sync compile config).run m = .ok result m') :
    m'.Enforces config.name ↔ config.Asks := by
  rw [sync_updated covered.named update new ran, ← Config.exists_lastAt_iff plain]
  unfold Manager.Enforces
  refine exists_congr fun kind => exists_congr fun key => exists_congr fun rule => ?_
  refine and_congr_right fun named => ?_
  dsimp only
  rw [Config.lookup_registered, covered.lookup_cleared, if_pos named, Option.or_none]

end

end CtrlMesh.FaultInjection
