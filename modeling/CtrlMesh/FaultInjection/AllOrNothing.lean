import CtrlMesh.FaultInjection.Convert
import CtrlMesh.FaultInjection.InStep
import CtrlMesh.Lib.Run

/-!
# Updates that take effect as a whole

When an update is answered with success every rule of the object should be in the store, and
otherwise the manager should be as before. A rule that cannot be converted arrives without a match,
and registering a rule without a match panics after the configuration has been recorded, with some
of its rules entered; a retry finds the hash recorded and is answered with success. A rule whose
match lists nothing is entered nowhere, and of two rules of one name the second takes the place of
the first. In the runs where none of this happens, and where a recorded hash stands for the rules it
was computed from, all updates take effect as a whole, and in no other run do they.
-/

namespace CtrlMesh.FaultInjection

open Labels Lib CircuitBreaker

/-- A FaultInjection that is converted and sent with an option. -/
structure Delivery where
  option : SyncOption
  faultInjection : Spec.Injection

section

variable (compile : Compile) (parse : Parsers) (hash : Message → String)

/-- The configuration that a proxy reads. -/
def Delivery.config (delivery : Delivery) : Config :=
  { convertFaultInjection parse hash delivery.faultInjection with
    option := delivery.option : Message }.transported

/-- The manager after the call; the server recovers from a panic. -/
def deliver (m : Manager) (delivery : Delivery) : Option Manager :=
  some (Effect.after (sync compile (delivery.config parse hash)) m)

/-- The call is answered with success. -/
def Succeeds (m : Manager) (delivery : Delivery) : Prop :=
  ∃ resp err m', (sync compile (delivery.config parse hash)).run m =
    .ok (resp, err) m' ∧ resp.success = true

/-- The rule stands under its key in each map that its match lists something for, and its match does
list something. -/
def Stands (m : Manager) (fi : Spec.Injection) (r : HTTPFaultInjection) : Prop :=
  (∃ kind, r.asks kind = true) ∧ ∀ kind, r.asks kind = true →
    (m.faultInjectionStore.rulesFor kind).lookup (ruleKey fi.name r.name) = some r

/-- Every rule of the object has been converted, and stands in the store. -/
def Present (m : Manager) (fi : Spec.Injection) : Prop :=
  ∀ rule ∈ fi.httpFaultInjections,
    ∃ r, convertHTTPFaultInjection parse rule = some r ∧ Stands m fi r

/-- An update that succeeds leaves every rule present, and one that does not changes nothing. -/
structure AllOrNothing (m : Manager) (delivery : Delivery) : Prop where
  all : delivery.option = .update → Succeeds compile parse hash m delivery →
    Present parse
      (Effect.after (sync compile (delivery.config parse hash)) m)
      delivery.faultInjection
  nothing : delivery.option = .update →
    ¬Succeeds compile parse hash m delivery →
    Effect.after (sync compile (delivery.config parse hash)) m = m

/-- The match of the rule lists something for the map. -/
def Spec.HTTPFaultInjection.asks (rule : Spec.HTTPFaultInjection) : MatchKind → Bool
  | .resources => rule.match_.any (·.resources.length > 0)
  | .rest => rule.match_.any (·.httpMatch.length > 0)

/-- The rules of the object are valid, the match of each lists something, and those of one name that
list something for one map are the same. -/
structure Registrable (fi : Spec.Injection) : Prop where
  valid : ∀ rule ∈ fi.httpFaultInjections, rule.Valid parse
  listed : ∀ rule ∈ fi.httpFaultInjections, ∃ kind, rule.asks kind = true
  distinct : ∀ rule ∈ fi.httpFaultInjections, ∀ other ∈ fi.httpFaultInjections, ∀ kind,
    rule.name = other.name → rule.asks kind = true → other.asks kind = true →
    convertHTTPFaultInjection parse rule =
      convertHTTPFaultInjection parse other

/-- The rules of an update can be registered, and if its hash is recorded for its name the
configuration held has them too. -/
structure Admissible (m : Manager) (delivery : Delivery) : Prop where
  registrable : delivery.option = .update →
    Registrable parse delivery.faultInjection
  recorded : delivery.option = .update →
    ∀ fi ∈ m.faultInjectionMap.lookup delivery.faultInjection.name,
      (delivery.config parse hash).configHash = fi.configHash →
      ∀ rule ∈ delivery.faultInjection.httpFaultInjections,
        ∀ r, convertHTTPFaultInjection parse rule = some r →
        ∀ kind, r.asks kind = true →
          fi.lastAt kind (ruleKey delivery.faultInjection.name r.name) = some r

end

section

variable {compile : Compile} {parse : Parsers} {hash : Message → String} {m : Manager}
  {delivery : Delivery} {kind : MatchKind} {r : HTTPFaultInjection}

/-- A rule that cannot be converted arrives empty. -/
theorem Delivery.rules_config :
    (delivery.config parse hash).httpFaultInjections =
      delivery.faultInjection.httpFaultInjections.map fun rule =>
        (convertHTTPFaultInjection parse rule).getD .empty := by
  simp [Delivery.config, convertFaultInjection, Message.transported]

/-- Valid rules arrive with a match. -/
theorem hasMatch_of_valid (valid : ∀ rule ∈ delivery.faultInjection.httpFaultInjections,
      rule.Valid parse) :
    ∀ rule ∈ (delivery.config parse hash).httpFaultInjections,
      rule.match_.isSome := by
  intro sent member
  rw [Delivery.rules_config] at member
  have ⟨rule, listed, isSent⟩ := List.mem_map.mp member
  have ⟨r, converted, hasMatch⟩ := (valid rule listed).converted
  rw [converted, Option.getD_some] at isSent
  exact isSent ▸ hasMatch

/-- Any other rule arrives without one. -/
theorem lacks_of_not_valid (invalid : ¬∀ rule ∈ delivery.faultInjection.httpFaultInjections,
      rule.Valid parse) :
    ∃ rule ∈ (delivery.config parse hash).httpFaultInjections,
      rule.match_ = none := by
  by_contra all
  apply invalid
  intro rule listed
  have arrives : ((convertHTTPFaultInjection parse rule).getD .empty) ∈
      (delivery.config parse hash).httpFaultInjections := by
    rw [Delivery.rules_config]
    exact List.mem_map_of_mem listed
  cases converted : convertHTTPFaultInjection parse rule with
  | none =>
    rw [converted] at arrives
    exact absurd ⟨_, arrives, rfl⟩ all
  | some r =>
    rw [converted] at arrives
    apply valid_of_converted converted
    rw [← Option.ne_none_iff_isSome]
    exact fun lacks => all ⟨r, arrives, lacks⟩

variable {rule : Spec.HTTPFaultInjection} {fi : Spec.Injection}

/-- A rule keeps its name, and what its match lists something for. -/
theorem asks_of_converted (converted : convertHTTPFaultInjection parse rule = some r) :
    r.name = rule.name ∧ ∀ kind, r.asks kind = rule.asks kind := by
  simp only [convertHTTPFaultInjection, Option.bind_eq_bind, Option.bind_eq_some_iff,
    Option.pure_def, Option.some.injEq] at converted
  obtain ⟨delay, -, abort, -, rfl⟩ := converted
  refine ⟨rfl, fun kind => ?_⟩
  unfold HTTPFaultInjection.asks Spec.HTTPFaultInjection.asks
  cases rule.match_ with
  | none => rfl
  | some match_ => cases kind <;> simp [convertMatch]

/-- Rules that stand in a store are valid, and do not displace each other. -/
theorem Present.registrable (present : Present parse m fi) : Registrable parse fi := by
  constructor
  · intro rule member
    obtain ⟨r, converted, ⟨kind, asks⟩, -⟩ := present rule member
    apply valid_of_converted converted
    cases isMatch : r.match_ with
    | none => cases kind <;> simp [HTTPFaultInjection.asks, isMatch] at asks
    | some match_ => rfl
  · intro rule member
    obtain ⟨r, converted, ⟨kind, asks⟩, -⟩ := present rule member
    exact ⟨kind, (asks_of_converted converted).2 kind ▸ asks⟩
  · intro rule member other member' kind sameName asks asks'
    obtain ⟨r, converted, -, stored⟩ := present rule member
    obtain ⟨r', converted', -, stored'⟩ := present other member'
    obtain ⟨name, same⟩ := asks_of_converted converted
    obtain ⟨name', same'⟩ := asks_of_converted converted'
    have found := stored kind ((same kind).trans asks)
    rw [name, sameName, ← name', stored' kind ((same' kind).trans asks')] at found
    rw [converted, converted', found]

/-- A configuration has a rule that no other one of its name displaces under its key. -/
theorem Registrable.lastAt (registrable : Registrable parse delivery.faultInjection)
    (member : rule ∈ delivery.faultInjection.httpFaultInjections)
    (converted : convertHTTPFaultInjection parse rule = some r) (asks : r.asks kind = true) :
    (delivery.config parse hash).lastAt kind
      (ruleKey delivery.faultInjection.name r.name) = some r := by
  have arrives : r ∈ (delivery.config parse hash).httpFaultInjections := by
    rw [Delivery.rules_config]
    exact List.mem_map.mpr ⟨rule, member, by rw [converted, Option.getD_some]⟩
  obtain ⟨last, found⟩ := Config.exists_lastAt arrives asks
  obtain ⟨listed, lastAsks, key⟩ := Config.key_of_lastAt found
  rw [Delivery.rules_config] at listed
  obtain ⟨other, member', isLast⟩ := List.mem_map.mp listed
  cases converted' : convertHTTPFaultInjection parse other with
  | none =>
    -- what arrives in its place asks for nothing
    rw [converted', Option.getD_none] at isLast
    rw [← isLast] at lastAsks
    cases kind <;> cases lastAsks
  | some r' =>
    rw [converted', Option.getD_some] at isLast
    subst isLast
    obtain ⟨name, same⟩ := asks_of_converted converted
    obtain ⟨name', same'⟩ := asks_of_converted converted'
    have sameName : r.name = r'.name :=
      (ruleKey_inj delivery.faultInjection.plain delivery.faultInjection.plain key).2
    have equal := registrable.distinct rule member other member' kind
      (by rw [← name, ← name', sameName]) (by rw [← same, asks]) (by rw [← same', lastAsks])
    rw [converted, converted', Option.some.injEq] at equal
    exact found.trans (congrArg some equal.symm)

section

variable (inStep : m.InStep compile)

include inStep

/-- In a manager in step, a rule under a key of an object is the one that the configuration held
under its name has there. -/
theorem Manager.InStep.lookup_of_held {held : Config}
    (found : m.faultInjectionMap.lookup fi.name = some held) (rule : String) :
    (m.faultInjectionStore.rulesFor kind).lookup (ruleKey fi.name rule) =
      held.lastAt kind (ruleKey fi.name rule) := by
  rw [inStep.mirrors kind, configName_ruleKey fi.plain, found, Option.bind_some]

/-- The case of a recorded update. -/
theorem allOrNothing_recorded (update : delivery.option = .update)
    (recorded : m.Recorded (delivery.config parse hash)) :
    AllOrNothing compile parse hash m delivery ↔
      Admissible parse hash m delivery := by
  have ⟨message, ran⟩ := @sync_recorded compile m _ update recorded
  have succeeds : Succeeds compile parse hash m delivery := ⟨_, _, _, ran, rfl⟩
  obtain ⟨held, found, same⟩ := recorded
  constructor
  · intro whole
    have present := whole.all update succeeds
    rw [Effect.after_of_ok ran] at present
    refine ⟨fun _ => present.registrable, ?_⟩
    intro _ fi found' _ rule member r converted kind asks
    obtain ⟨r', converted', -, stored⟩ := present rule member
    obtain rfl : r' = r := Option.some.inj (converted'.symm.trans converted)
    rw [← inStep.lookup_of_held found']
    exact stored kind asks
  · intro admissible
    refine ⟨fun _ _ => ?_, fun _ fails => absurd succeeds fails⟩
    rw [Effect.after_of_ok ran]
    intro rule member
    have registrable := admissible.registrable update
    obtain ⟨r, converted, -⟩ := (registrable.valid rule member).converted
    obtain ⟨kind, asks⟩ := registrable.listed rule member
    refine ⟨r, converted, ⟨kind, (asks_of_converted converted).2 kind ▸ asks⟩, ?_⟩
    intro kind asks
    rw [inStep.lookup_of_held found]
    exact admissible.recorded update held found same rule member r converted kind asks

/-- The case of a new update. -/
theorem allOrNothing_new (update : delivery.option = .update)
    (new : ¬m.Recorded (delivery.config parse hash)) :
    AllOrNothing compile parse hash m delivery ↔
      Admissible parse hash m delivery := by
  have ⟨message, ran⟩ := @sync_update compile m _ inStep.named update new
  rw [EStateM.run_bind] at ran
  by_cases valid : ∀ rule ∈ delivery.faultInjection.httpFaultInjections, rule.Valid parse
  · rw [registerRules_ok (hasMatch_of_valid valid)] at ran
    constructor
    · intro whole
      have present := whole.all update ⟨_, _, _, ran, rfl⟩
      exact ⟨fun _ => present.registrable, fun _ fi found same => absurd ⟨fi, found, same⟩ new⟩
    · intro admissible
      have registrable := admissible.registrable update
      refine ⟨fun _ _ => ?_, fun _ fails => absurd ⟨_, _, _, ran, rfl⟩ fails⟩
      rw [Effect.after_of_ok ran]
      intro rule member
      obtain ⟨r, converted, -⟩ := (registrable.valid rule member).converted
      obtain ⟨kind, asks⟩ := registrable.listed rule member
      refine ⟨r, converted, ⟨kind, (asks_of_converted converted).2 kind ▸ asks⟩, ?_⟩
      intro kind asks
      have plain : ':' ∉ (delivery.config parse hash).name.toList := delivery.faultInjection.plain
      have owned : configName (ruleKey delivery.faultInjection.name r.name) =
          (delivery.config parse hash).name :=
        configName_ruleKey delivery.faultInjection.plain
      have stands := inStep.lookup_takenOver plain kind
        (ruleKey delivery.faultInjection.name r.name)
      rw [if_pos owned, registrable.lastAt member converted asks] at stands
      exact stands
  · have ⟨store, panicked⟩ := @registerRules_panics compile
      (delivery.config parse hash) (lacks_of_not_valid valid)
      ⟨m.faultInjectionMap.insert (delivery.config parse hash).name
        (delivery.config parse hash),
        m.cleared (delivery.config parse hash).name⟩
    rw [panicked] at ran
    apply iff_of_false
    · intro whole
      have fails : ¬Succeeds compile parse hash m delivery := by
        intro ⟨resp, err, m', returned, _⟩
        rw [ran] at returned
        cases returned
      have same := whole.nothing update fails
      rw [Effect.after_of_error ran] at same
      -- the configuration is recorded all the same
      have found := congrArg (fun m : Manager => m.faultInjectionMap.lookup
        (delivery.config parse hash).name) same
      dsimp only at found
      rw [AList.lookup_insert] at found
      exact new ⟨_, found.symm, rfl⟩
    · exact fun admissible => valid (admissible.registrable update).valid

/-- In a manager in step the updates that take effect as a whole are the admissible ones. -/
theorem Manager.InStep.allOrNothing_iff :
    AllOrNothing compile parse hash m delivery ↔
      Admissible parse hash m delivery := by
  by_cases update : delivery.option = .update
  · by_cases recorded : m.Recorded (delivery.config parse hash)
    · exact allOrNothing_recorded inStep update recorded
    · exact allOrNothing_new inStep update recorded
  · apply iff_of_true
    · exact ⟨fun isUpdate => absurd isUpdate update, fun isUpdate => absurd isUpdate update⟩
    · exact ⟨fun isUpdate => absurd isUpdate update, fun isUpdate => absurd isUpdate update⟩

end

end

/-- In a run from a new manager all updates take effect as a whole exactly when all of them are
admissible. -/
theorem allOrNothing_iff_admissible (compile : Compile) (parse : Parsers) (hash : Message → String)
    (deliveries : List Delivery) :
    EachStep (deliver compile parse hash)
        (AllOrNothing compile parse hash) .new deliveries ↔
      EachStep (deliver compile parse hash)
        (Admissible parse hash) .new deliveries := by
  apply @eachStep_iff_of_keeps _ _ _ (Manager.InStep compile)
  · intro m delivery _ inStep _
    exact inStep.allOrNothing_iff
  · intro m delivery m' inStep admissible delivered
    cases delivered
    apply inStep.sync delivery.faultInjection.plain
    intro update _
    exact hasMatch_of_valid (admissible.registrable update).valid
  · exact Manager.inStep_new

/-- A FaultInjection of two rules, the first of which has no match. -/
def unmatched : Spec.Injection where
  name := "faults"
  plain := by decide
  httpFaultInjections := [
    ⟨"first", none, none, none, none⟩,
    ⟨"second", none, none, some ⟨[], [⟨none, none, "GET", []⟩]⟩, none⟩]

/-- Its update panics and leaves the configuration recorded; the retry is answered with success
although neither rule is in the store. -/
theorem retry_succeeds_without_rules :
    ¬AllOrNothing (fun _ => none) .blind (fun _ => "hash") .new
      ⟨.update, unmatched⟩ ∧
    ∃ m, run (deliver (fun _ => none) .blind fun _ => "hash") .new
        [⟨.update, unmatched⟩] = some m ∧
      Succeeds (fun _ => none) .blind (fun _ => "hash") m
        ⟨.update, unmatched⟩ ∧
      ¬AllOrNothing (fun _ => none) .blind (fun _ => "hash") m
        ⟨.update, unmatched⟩ := by
  constructor
  · intro whole
    have fails : ¬Succeeds (fun _ => none) .blind (fun _ => "hash") .new ⟨.update, unmatched⟩ := by
      intro ⟨resp, err, m', returned, _⟩
      cases returned
    have same := congrArg (fun m : Manager => (m.faultInjectionMap.lookup "faults").isSome)
      (whole.nothing rfl fails)
    cases same
  · refine ⟨_, rfl, ⟨_, _, _, rfl, rfl⟩, ?_⟩
    intro whole
    have present := whole.all rfl ⟨_, _, _, rfl, rfl⟩
    obtain ⟨r, converted, -, stored⟩ := present _ (.tail _ List.mem_cons_self)
    cases converted
    cases stored .rest rfl

end CtrlMesh.FaultInjection
