import CtrlMesh.FaultInjection.Manager
import CtrlMesh.Lib.Mirror

/-!
# The store in step with the configurations held

Both maps of rules mirror the configurations a manager holds: under the key of a rule stands the
last rule of that name whose match asks for the map. The compiled expressions of earlier rules stay
behind, but those of the rules stored are all there. Every call that does not panic while it
registers rules keeps this.
-/

namespace CtrlMesh.FaultInjection

open Labels Lib CircuitBreaker

/-- The two maps of rules. -/
inductive MatchKind where
  | resources
  | rest
  deriving DecidableEq

/-- The match of the rule lists something for the map. -/
def HTTPFaultInjection.asks (rule : HTTPFaultInjection) : MatchKind → Bool
  | .resources => rule.match_.any (·.resources.length > 0)
  | .rest => rule.match_.any (·.httpMatch.length > 0)

/-- The rules of one map. -/
def Store.rulesFor (s : Store) : MatchKind → StringMap HTTPFaultInjection
  | .resources => s.resourcesMatchRules
  | .rest => s.restMatchRules

/-- The rule a configuration has under a key of a map: the last of that name that asks for it. -/
def Config.lastAt (kind : MatchKind) (fi : Config) (key : String) : Option HTTPFaultInjection :=
  (fi.httpFaultInjections.filter (·.asks kind)).reverse.find? fun rule =>
    ruleKey fi.name rule.name = key

/-- The name of the configuration that a key belongs to. -/
def configName (key : String) : String := String.ofList (key.toList.takeWhile (· ≠ ':'))

theorem configName_ruleKey {name : String} (plain : ':' ∉ name.toList) {rule : String} :
    configName (ruleKey name rule) = name := by
  have colon : ":".toList = [':'] := by decide
  have all : ∀ c ∈ name.toList, decide (c ≠ ':') = true := by
    intro c member
    have different : c ≠ ':' := fun same => plain (same ▸ member)
    simp [different]
  rw [configName, ruleKey, String.toList_append, String.toList_append, colon, List.append_assoc,
    List.takeWhile_append_of_pos all, List.singleton_append, List.takeWhile_cons_of_neg (by simp),
    List.append_nil, String.ofList_toList]

section Rules

variable {compile : Compile} {s : Store} {fi : Config} {key : String}
  {kind : MatchKind} {rule : HTTPFaultInjection}

theorem Config.key_of_lastAt (holds : fi.lastAt kind key = some rule) :
    rule ∈ fi.httpFaultInjections ∧ rule.asks kind = true ∧ key = ruleKey fi.name rule.name := by
  have member := List.mem_reverse.mp (List.mem_of_find?_eq_some holds)
  have ⟨listed, asks⟩ := List.mem_filter.mp member
  have same : ruleKey fi.name rule.name = key := by simpa using List.find?_some holds
  exact ⟨listed, asks, same.symm⟩

/-- A rule that asks for the map stands under its key, or another one of its name does. -/
theorem Config.exists_lastAt (member : rule ∈ fi.httpFaultInjections)
    (asks : rule.asks kind = true) :
    ∃ last, fi.lastAt kind (ruleKey fi.name rule.name) = some last := by
  rw [← Option.isSome_iff_exists, Config.lastAt, List.find?_isSome]
  exact ⟨rule, List.mem_reverse.mpr (List.mem_filter.mpr ⟨member, asks⟩), by simp⟩

/-- The keys of a configuration belong to its name. -/
theorem Config.lastAt_other (plain : ':' ∉ fi.name.toList) (other : configName key ≠ fi.name) :
    fi.lastAt kind key = none := by
  rw [Option.eq_none_iff_forall_ne_some]
  intro rule holds
  have ⟨_, _, same⟩ := Config.key_of_lastAt holds
  rw [same, configName_ruleKey plain] at other
  exact other rfl

/-- The store with a rule entered. -/
def Store.entered (compile : Compile) (s : Store) (key : String)
    (rule : HTTPFaultInjection) : Store :=
  (s.createOrUpdateRule compile key rule).getD s

theorem Store.createOrUpdateRule_eq (hasMatch : rule.match_.isSome) (s : Store) (key : String) :
    s.createOrUpdateRule compile key rule = some (s.entered compile key rule) := by
  obtain ⟨match_, isMatch⟩ := Option.isSome_iff_exists.mp hasMatch
  simp [Store.entered, Store.createOrUpdateRule, isMatch]

theorem Store.rulesFor_entered (s : Store) (key : String) (rule : HTTPFaultInjection)
    (kind : MatchKind) : (s.entered compile key rule).rulesFor kind =
      if rule.asks kind then (s.rulesFor kind).insert key rule else s.rulesFor kind := by
  unfold Store.entered Store.createOrUpdateRule HTTPFaultInjection.asks
  cases rule.match_ with
  | none => cases kind <;> simp
  | some match_ =>
    by_cases resources : match_.resources.length > 0 <;>
      by_cases rest : match_.httpMatch.length > 0 <;> cases kind <;>
        simp [resources, rest, Store.rulesFor]

/-- The store with all rules of a configuration entered. -/
def Config.registered (compile : Compile) (fi : Config) (s : Store) :
    Store :=
  fi.httpFaultInjections.foldl
    (fun s rule => s.entered compile (ruleKey fi.name rule.name) rule) s

/-- The store with all rules of a configuration deleted. -/
def Config.unregistered (fi : Config) (s : Store) : Store :=
  fi.httpFaultInjections.foldl (fun s rule => s.deleteRule (ruleKey fi.name rule.name)) s

theorem Config.lookup_registered :
    ((fi.registered compile s).rulesFor kind).lookup key =
      (fi.lastAt kind key).or ((s.rulesFor kind).lookup key) := by
  have entered : (fi.registered compile s).rulesFor kind =
      (fi.httpFaultInjections.filter (·.asks kind)).foldl
        (fun map rule => map.insert (ruleKey fi.name rule.name) rule) (s.rulesFor kind) := by
    unfold Config.registered
    generalize fi.httpFaultInjections = rules
    induction rules generalizing s with
    | nil => rfl
    | cons rule rules ih =>
      rw [List.foldl_cons, ih, Store.rulesFor_entered]
      by_cases asks : rule.asks kind = true
      · simp [asks]
      · simp [asks]
  rw [entered]
  exact lookup_foldl_insert _

theorem Config.rulesFor_unregistered :
    (fi.unregistered s).rulesFor kind =
      (fi.httpFaultInjections.map fun rule => ruleKey fi.name rule.name).foldl
        (fun map key => map.erase key) (s.rulesFor kind) := by
  unfold Config.unregistered
  generalize fi.httpFaultInjections = rules
  induction rules generalizing s with
  | nil => rfl
  | cons rule rules ih =>
    rw [List.foldl_cons, ih, List.map_cons, List.foldl_cons]
    cases kind <;> rfl

end Rules

section Expressions

variable {compile : Compile} {regexMap : StringMap (String → Bool)}
  {text : String}

/-- What is kept under an expression is what it compiles to. -/
def Compiled (compile : Compile) (regexMap : StringMap (String → Bool)) :
    Prop :=
  ∀ text matcher, regexMap.lookup text = some matcher → compile text = some matcher

/-- The expression is kept if it compiles. -/
def Knows (compile : Compile) (regexMap : StringMap (String → Bool))
    (text : String) : Prop :=
  regexMap.lookup text = compile text

theorem lookup_addRegex (content : Option MatchContent) (text : String) :
    (addRegex compile regexMap content).lookup text = regexMap.lookup text ∨
      (addRegex compile regexMap content).lookup text = compile text := by
  unfold addRegex
  cases content with
  | none => exact .inl rfl
  | some content =>
    dsimp only
    split
    · exact .inl rfl
    · split
      · next reg compiles =>
        rw [lookup_insert_ite]
        split
        · next same => exact .inr (same ▸ compiles.symm)
        · exact .inl rfl
      · exact .inl rfl

theorem Compiled.addRegex (compiled : Compiled compile regexMap) (content : Option MatchContent) :
    Compiled compile (addRegex compile regexMap content) := by
  intro text matcher found
  cases @lookup_addRegex compile regexMap content text with
  | inl before => exact compiled text matcher (before ▸ found)
  | inr compiles => exact compiles ▸ found

theorem Knows.addRegex (knows : Knows compile regexMap text) (content : Option MatchContent) :
    Knows compile (addRegex compile regexMap content) text := by
  cases @lookup_addRegex compile regexMap content text with
  | inl before => exact before.trans knows
  | inr compiles => exact compiles

theorem Compiled.knows_added (compiled : Compiled compile regexMap) {content : MatchContent}
    (written : content.regex ≠ "") :
    Knows compile (FaultInjection.addRegex compile regexMap (some content)) content.regex := by
  unfold Knows FaultInjection.addRegex
  dsimp only
  rw [if_neg written]
  cases compiles : compile content.regex with
  | some reg => exact AList.lookup_insert _
  | none =>
    dsimp only
    rw [Option.eq_none_iff_forall_ne_some]
    intro matcher found
    rw [compiled _ _ found] at compiles
    cases compiles

/-- The expressions of an HTTP match are kept. -/
def HttpMatch.Ready (compile : Compile)
    (regexMap : StringMap (String → Bool)) (httpMatch : HttpMatch) : Prop :=
  ∀ content, httpMatch.path = some content ∨ httpMatch.host = some content →
    content.regex ≠ "" → Knows compile regexMap content.regex

/-- The loop over the HTTP matches of a rule. -/
def addAll (compile : Compile) (httpMatches : List HttpMatch)
    (regexMap : StringMap (String → Bool)) : StringMap (String → Bool) :=
  httpMatches.foldl (fun regexMap httpMatch =>
    addRegex compile (addRegex compile regexMap httpMatch.path) httpMatch.host) regexMap

theorem Compiled.addAll (compiled : Compiled compile regexMap) (httpMatches : List HttpMatch) :
    Compiled compile (addAll compile httpMatches regexMap) :=
  List.foldlRecOn httpMatches _ compiled fun _ compiled httpMatch _ =>
    (compiled.addRegex httpMatch.path).addRegex httpMatch.host

theorem Knows.addAll (knows : Knows compile regexMap text) (httpMatches : List HttpMatch) :
    Knows compile (addAll compile httpMatches regexMap) text :=
  List.foldlRecOn (motive := fun regexMap => Knows compile regexMap text) httpMatches _ knows
    fun _ knows httpMatch _ => (knows.addRegex httpMatch.path).addRegex httpMatch.host

theorem Compiled.ready_added (compiled : Compiled compile regexMap) {httpMatches : List HttpMatch} :
    ∀ httpMatch ∈ httpMatches,
      httpMatch.Ready compile (FaultInjection.addAll compile httpMatches regexMap) := by
  induction httpMatches generalizing regexMap with
  | nil => simp
  | cons first httpMatches ih =>
    intro httpMatch member
    have path := compiled.addRegex first.path
    cases List.mem_cons.mp member with
    | inr later => exact ih (path.addRegex first.host) httpMatch later
    | inl isFirst =>
      subst isFirst
      intro content listed written
      have known : Knows compile (FaultInjection.addRegex compile
          (FaultInjection.addRegex compile regexMap httpMatch.path) httpMatch.host)
          content.regex := by
        cases listed with
        | inl isPath =>
          rw [isPath]
          exact (compiled.knows_added written).addRegex httpMatch.host
        | inr isHost =>
          rw [isHost]
          exact path.knows_added written
      exact known.addAll httpMatches

end Expressions

/-- The expressions of the rules stored are kept, and compiled. -/
structure Store.Ready (compile : Compile) (s : Store) : Prop where
  compiled : Compiled compile s.regexMap
  ready : ∀ key rule, s.restMatchRules.lookup key = some rule → ∀ match_ ∈ rule.match_,
    ∀ httpMatch ∈ match_.httpMatch, httpMatch.Ready compile s.regexMap

section Ready

variable {compile : Compile} {s : Store}

theorem Store.ready_new : Store.new.Ready compile := by
  constructor
  · intro text matcher found
    simp [Store.new] at found
  · intro key rule found
    simp [Store.new] at found

theorem Store.regexMap_entered {rule : HTTPFaultInjection} {match_ : Match}
    (isMatch : rule.match_ = some match_) (s : Store) (key : String) :
    (s.entered compile key rule).regexMap = addAll compile match_.httpMatch s.regexMap := by
  rw [Store.entered, Store.createOrUpdateRule, isMatch, Option.map_some, Option.getD_some]
  cases match_.httpMatch with
  | nil =>
    dsimp only [List.length_nil]
    rw [if_neg (by decide)]
    split <;> rfl
  | cons first rest =>
    dsimp only
    rw [if_pos (by simp)]
    split <;> rfl

theorem Store.Ready.entered (ready : s.Ready compile) (key : String) (rule : HTTPFaultInjection) :
    (s.entered compile key rule).Ready compile := by
  have rest : (s.entered compile key rule).restMatchRules =
      if rule.asks .rest then s.restMatchRules.insert key rule else s.restMatchRules :=
    Store.rulesFor_entered s key rule .rest
  cases isMatch : rule.match_ with
  | none =>
    have same : s.entered compile key rule = s := by
      simp [Store.entered, Store.createOrUpdateRule, isMatch]
    rw [same]
    exact ready
  | some match_ =>
    have regexMap := @Store.regexMap_entered compile rule match_ isMatch s key
    -- the expressions of the rules stored before are kept
    have before : ∀ other stored, s.restMatchRules.lookup other = some stored →
        ∀ listed ∈ stored.match_, ∀ httpMatch ∈ listed.httpMatch,
          httpMatch.Ready compile (s.entered compile key rule).regexMap := by
      intro other stored found listed isListed httpMatch member content written isWritten
      have known := ready.ready other stored found listed isListed httpMatch member
      rw [regexMap]
      exact (known content written isWritten).addAll match_.httpMatch
    constructor
    · rw [regexMap]
      exact ready.compiled.addAll match_.httpMatch
    · intro other stored found
      rw [rest] at found
      split at found
      · rw [lookup_insert_ite] at found
        split at found
        · intro listed isListed httpMatch member
          have isRule : rule = stored := Option.some.inj found
          rw [← isRule, isMatch] at isListed
          cases isListed
          rw [regexMap]
          exact ready.compiled.ready_added httpMatch member
        · exact before other stored found
      · exact before other stored found

theorem Store.Ready.deleteRule (ready : s.Ready compile) (key : String) :
    (s.deleteRule key).Ready compile := by
  exact ⟨ready.compiled, forall_lookup_erase ready.ready⟩

theorem Store.Ready.registered (ready : s.Ready compile) (fi : Config) :
    (fi.registered compile s).Ready compile :=
  List.foldlRecOn fi.httpFaultInjections _ ready fun _ ready rule _ => ready.entered _ rule

theorem Store.Ready.unregistered (ready : s.Ready compile) (fi : Config) :
    (fi.unregistered s).Ready compile :=
  List.foldlRecOn fi.httpFaultInjections _ ready fun _ ready _ _ => ready.deleteRule _

end Ready

section Calls

variable {compile : Compile} {m : Manager} {config fi : Config}

/-- Rules that all have a match are all entered. -/
theorem registerRules_ok (hasMatch : ∀ rule ∈ fi.httpFaultInjections, rule.match_.isSome)
    (m : Manager) : (registerRules compile fi).run m =
      .ok () { m with faultInjectionStore := fi.registered compile m.faultInjectionStore } := by
  unfold registerRules Config.registered
  generalize fi.httpFaultInjections = rules at hasMatch ⊢
  induction rules generalizing m with
  | nil => rfl
  | cons rule rules ih =>
    have ⟨here, later⟩ := List.forall_mem_cons.mp hasMatch
    rw [List.forM_cons, EStateM.run_bind, EStateM.run_bind, EStateM.run_get]
    dsimp only
    rw [Store.createOrUpdateRule_eq here]
    exact ih _ later

/-- A rule without a match ends the registration, with some of the rules entered. -/
theorem registerRules_panics (lacks : ∃ rule ∈ fi.httpFaultInjections, rule.match_ = none)
    (m : Manager) : ∃ store, (registerRules compile fi).run m =
      .error .nilDereference { m with faultInjectionStore := store } := by
  unfold registerRules
  generalize fi.httpFaultInjections = rules at lacks ⊢
  induction rules generalizing m with
  | nil => simp at lacks
  | cons rule rules ih =>
    rw [List.forM_cons, EStateM.run_bind, EStateM.run_bind, EStateM.run_get]
    dsimp only
    cases isMatch : rule.match_ with
    | none =>
      have panics : m.faultInjectionStore.createOrUpdateRule compile (ruleKey fi.name rule.name)
          rule = none := by
        simp [Store.createOrUpdateRule, isMatch]
      rw [panics]
      exact ⟨_, rfl⟩
    | some match_ =>
      have later : ∃ rule ∈ rules, rule.match_ = none := by simpa [isMatch] using lacks
      rw [Store.createOrUpdateRule_eq (by rw [isMatch]; rfl)]
      exact ih _ later

/-- The store without the rules of the configuration of a name. -/
def Manager.cleared (m : Manager) (name : String) : Store :=
  match m.faultInjectionMap.lookup name with
  | none => m.faultInjectionStore
  | some fi => fi.unregistered m.faultInjectionStore

theorem unregisterRules_run (name : String) :
    (unregisterRules name).run m = .ok () { m with faultInjectionStore := m.cleared name } := by
  unfold unregisterRules Manager.cleared
  rw [EStateM.run_bind, EStateM.run_get]
  dsimp only
  cases m.faultInjectionMap.lookup name with
  | none => rfl
  | some fi => rfl

/-- Configurations are held under their names, which have no colon. -/
def Manager.Named (m : Manager) : Prop :=
  ∀ name fi, m.faultInjectionMap.lookup name = some fi → fi.name = name ∧ ':' ∉ name.toList

theorem Manager.Named.insert (named : m.Named) (plain : ':' ∉ config.name.toList) (store : Store) :
    Named ⟨m.faultInjectionMap.insert config.name config, store⟩ :=
  forall_lookup_insert named ⟨rfl, plain⟩

theorem Manager.Named.erase (named : m.Named) (name : String) (store : Store) :
    Named ⟨m.faultInjectionMap.erase name, store⟩ :=
  forall_lookup_erase named

/-- The hash of the configuration is the one recorded for its name. -/
def Manager.Recorded (m : Manager) (config : Config) : Prop :=
  ∃ fi ∈ m.faultInjectionMap.lookup config.name, config.configHash = fi.configHash

/-- An update with the recorded hash is answered and changes nothing. -/
theorem sync_recorded (update : config.option = .update) (recorded : m.Recorded config) :
    ∃ message, (sync compile config).run m = .ok (⟨true, message⟩, none) m := by
  obtain ⟨fi, found, same⟩ := recorded
  rw [Option.mem_def] at found
  unfold sync
  rw [EStateM.run_bind, EStateM.run_get]
  simp only [update, found, if_pos same]
  exact ⟨_, rfl⟩

/-- Any other update records its configuration, deletes the rules of the earlier one, and registers
its own. -/
theorem sync_update (named : m.Named) (update : config.option = .update)
    (new : ¬m.Recorded config) :
    ∃ message, (sync compile config).run m = (do
      registerRules compile config
      return (⟨true, message⟩, none) : Call (ConfigResp × Option String)).run
        ⟨m.faultInjectionMap.insert config.name config, m.cleared config.name⟩ := by
  unfold sync
  rw [EStateM.run_bind, EStateM.run_get]
  dsimp only
  rw [update]
  dsimp only
  cases found : m.faultInjectionMap.lookup config.name with
  | none =>
    refine ⟨"new faultInjection with spec hash " ++ config.configHash, ?_⟩
    rw [Manager.cleared, found]
    rfl
  | some fi =>
    have different : config.configHash ≠ fi.configHash := fun same => new ⟨fi, found, same⟩
    have same : fi.name = config.name := (named _ _ found).1
    refine ⟨"faultInjection spec hash updated, old hash " ++ fi.configHash ++ ", new " ++
      config.configHash, ?_⟩
    dsimp only
    rw [if_neg different, takeOver, EStateM.run_bind, EStateM.run_bind]
    dsimp only
    rw [unregisterRules_run, same]
    rfl

/-- A deletion takes the configuration of its name away, with its rules. -/
theorem sync_delete (named : m.Named) (delete : config.option = .delete) :
    ∃ message, (sync compile config).run m = .ok (⟨true, message⟩, none)
      ⟨m.faultInjectionMap.erase config.name, m.cleared config.name⟩ := by
  unfold sync
  rw [EStateM.run_bind, EStateM.run_get]
  dsimp only
  rw [delete]
  dsimp only
  cases found : m.faultInjectionMap.lookup config.name with
  | none =>
    have gone : m.faultInjectionMap.erase config.name = m.faultInjectionMap := by
      apply AList.ext
      exact List.kerase_of_notMem_keys (AList.lookup_eq_none.mp found)
    refine ⟨"faultInjection config " ++ config.name ++ " already deleted", ?_⟩
    rw [Manager.cleared, found, gone]
    rfl
  | some fi =>
    have same : fi.name = config.name := (named _ _ found).1
    refine ⟨"faultInjection config " ++ fi.name ++ " success deleted", ?_⟩
    dsimp only
    rw [EStateM.run_bind, unregisterRules_run, same]
    rfl

/-- The other calls change nothing. -/
theorem after_sync_other (notUpdate : config.option ≠ .update)
    (notDelete : config.option ≠ .delete) : Effect.after (sync compile config) m = m := by
  unfold sync Effect.after
  rw [EStateM.run_bind, EStateM.run_get]
  dsimp only
  cases option : config.option with
  | update => exact absurd option notUpdate
  | delete => exact absurd option notDelete
  | check =>
    dsimp only
    cases m.faultInjectionMap.lookup config.name with
    | none => rfl
    | some fi =>
      dsimp only
      split
      · next ran =>
        split at ran <;> cases ran <;> rfl
      · next ran =>
        split at ran <;> cases ran
  | recover => rfl
  | unnamed value => rfl

end Calls

/-- The keys of a configuration's rules. -/
def Config.Lists (fi : Config) (key : String) : Prop :=
  ∃ rule ∈ fi.httpFaultInjections, key = ruleKey fi.name rule.name

/-- The store has no keys but those of the rules of the configurations held. -/
structure Manager.Covered (m : Manager) : Prop where
  named : m.Named
  covers : ∀ kind, Covers configName Config.Lists m.faultInjectionMap
    (m.faultInjectionStore.rulesFor kind)

theorem Manager.Covered.lookup_cleared {m : Manager} (covered : m.Covered) (name : String)
    (kind : MatchKind) (key : String) : ((m.cleared name).rulesFor kind).lookup key =
      if configName key = name then none else (m.faultInjectionStore.rulesFor kind).lookup key := by
  unfold Manager.cleared
  cases found : m.faultInjectionMap.lookup name with
  | none => exact (covered.covers kind).lookup_unknown found
  | some fi =>
    have ⟨same, plain⟩ := covered.named name fi found
    dsimp only
    rw [Config.rulesFor_unregistered]
    apply (covered.covers kind).lookup_erased found
    · intro key member
      have ⟨rule, _, isKey⟩ := List.mem_map.mp member
      rw [← isKey, same, configName_ruleKey plain]
    · rintro key ⟨rule, member, isKey⟩
      exact List.mem_map.mpr ⟨rule, member, isKey.symm⟩

/-- Both maps of rules mirror the configurations held, and the expressions of the rules are kept. -/
structure Manager.InStep (compile : Compile) (m : Manager) : Prop where
  named : m.Named
  mirrors : ∀ kind, Mirrors configName (Config.lastAt kind) m.faultInjectionMap
    (m.faultInjectionStore.rulesFor kind)
  ready : m.faultInjectionStore.Ready compile

section InStep

variable {compile : Compile} {m : Manager} {config : Config}

theorem Manager.inStep_new : Manager.new.InStep compile := by
  refine ⟨?_, ?_, Store.ready_new⟩
  · intro name fi found
    simp [Manager.new] at found
  · intro kind
    cases kind <;> exact Mirrors.empty

section

variable (inStep : m.InStep compile)

include inStep

theorem Manager.InStep.covered : m.Covered := by
  refine ⟨inStep.named, ?_⟩
  intro kind
  refine (inStep.mirrors kind).covers ?_
  intro fi key rule holds
  obtain ⟨member, -, isKey⟩ := Config.key_of_lastAt holds
  exact ⟨rule, member, isKey⟩

theorem Manager.InStep.lookup_cleared (name : String) (kind : MatchKind) (key : String) :
    ((m.cleared name).rulesFor kind).lookup key =
      if configName key = name then none else (m.faultInjectionStore.rulesFor kind).lookup key :=
  inStep.covered.lookup_cleared name kind key

theorem Manager.InStep.ready_cleared (name : String) : (m.cleared name).Ready compile := by
  unfold Manager.cleared
  cases m.faultInjectionMap.lookup name with
  | none => exact inStep.ready
  | some fi => exact inStep.ready.unregistered fi

/-- Where the rules of a configuration stand once it has taken its name over. -/
theorem Manager.InStep.lookup_takenOver (plain : ':' ∉ config.name.toList) (kind : MatchKind)
    (key : String) :
    ((config.registered compile (m.cleared config.name)).rulesFor kind).lookup key =
      if configName key = config.name then config.lastAt kind key
      else (m.faultInjectionStore.rulesFor kind).lookup key := by
  rw [Config.lookup_registered, inStep.lookup_cleared]
  split
  · rw [Option.or_none]
  · next other => rw [Config.lastAt_other plain other, Option.none_or]

theorem Manager.InStep.takenOver (plain : ':' ∉ config.name.toList) :
    InStep compile ⟨m.faultInjectionMap.insert config.name config,
      config.registered compile (m.cleared config.name)⟩ where
  named := inStep.named.insert plain _
  mirrors kind := (inStep.mirrors kind).replace (inStep.lookup_takenOver plain kind)
  ready := (inStep.ready_cleared config.name).registered config

theorem Manager.InStep.withdrawn (name : String) :
    InStep compile ⟨m.faultInjectionMap.erase name, m.cleared name⟩ where
  named := inStep.named.erase name _
  mirrors kind := (inStep.mirrors kind).withdraw (inStep.lookup_cleared name kind)
  ready := inStep.ready_cleared name

end

/-- A call that registers only rules with a match changes nothing, takes a configuration over, or
withdraws one. -/
theorem after_sync_cases (named : m.Named) (hasMatch : config.option = .update →
      ¬m.Recorded config → ∀ rule ∈ config.httpFaultInjections, rule.match_.isSome) :
    (Effect.after (sync compile config) m = m ∧
      (config.option = .update → m.Recorded config) ∧ config.option ≠ .delete) ∨
    (config.option = .update ∧ ¬m.Recorded config ∧
      Effect.after (sync compile config) m = ⟨m.faultInjectionMap.insert config.name config,
        config.registered compile (m.cleared config.name)⟩) ∨
    (config.option = .delete ∧ Effect.after (sync compile config) m =
      ⟨m.faultInjectionMap.erase config.name, m.cleared config.name⟩) := by
  cases option : config.option with
  | update =>
    by_cases recorded : m.Recorded config
    · have ⟨_, ran⟩ := @sync_recorded compile m config option recorded
      exact .inl ⟨Effect.after_of_ok ran, fun _ => recorded, nofun⟩
    · have ⟨message, ran⟩ := @sync_update compile m config named option recorded
      rw [EStateM.run_bind, registerRules_ok (hasMatch option recorded)] at ran
      exact .inr (.inl ⟨rfl, recorded, Effect.after_of_ok ran⟩)
  | delete =>
    have ⟨message, ran⟩ := @sync_delete compile m config named option
    exact .inr (.inr ⟨rfl, Effect.after_of_ok ran⟩)
  | check | recover | unnamed value =>
    exact .inl ⟨after_sync_other (by simp [option]) (by simp [option]), nofun, nofun⟩

/-- Such calls keep the maps in step. -/
theorem Manager.InStep.sync (inStep : m.InStep compile) (plain : ':' ∉ config.name.toList)
    (hasMatch : config.option = .update → ¬m.Recorded config →
      ∀ rule ∈ config.httpFaultInjections, rule.match_.isSome) :
    (Effect.after (sync compile config) m).InStep compile := by
  rcases @after_sync_cases compile m config inStep.named hasMatch with
    ⟨same, -⟩ | ⟨-, -, taken⟩ | ⟨-, gone⟩
  · rw [same]
    exact inStep
  · rw [taken]
    exact inStep.takenOver plain
  · rw [gone]
    exact inStep.withdrawn config.name

end InStep

end CtrlMesh.FaultInjection
