import CtrlMesh.FaultInjection.InStep
import Mathlib.Data.List.Induction

/-!
# Fault injection over a history of configurations

Which rules match a request depends on the configurations held and not on how they came to be held:
after any sequence of `Sync` calls a manager finds the rules that a new one finds to which only the
configurations held were sent, in any order.
-/

namespace CtrlMesh.FaultInjection

open Labels Lib CircuitBreaker

/-- The manager after a history of calls. -/
def runSync (compile : Compile) (history : List Config) : Manager :=
  history.foldl (fun m config => Effect.after (sync compile config) m) .new

/-- A configuration with a name that Kubernetes admits, all of whose rules have a match. -/
structure Config.Regular (config : Config) : Prop where
  plain : ':' ∉ config.name.toList
  hasMatch : ∀ rule ∈ config.httpFaultInjections, rule.match_.isSome

section

variable {compile : Compile} {m : Manager} {history configs : List Config}

theorem runSync_concat (config : Config) :
    runSync compile (history ++ [config]) =
      Effect.after (sync compile config) (runSync compile history) := by
  simp [runSync]

/-- The maps are in step, and the configurations held were sent as updates and are regular. -/
structure Manager.Settled (compile : Compile) (m : Manager) : Prop where
  inStep : m.InStep compile
  updates : ∀ name fi, m.faultInjectionMap.lookup name = some fi →
    fi.option = .update ∧ fi.Regular

theorem Manager.Settled.sync {config : Config} (settled : m.Settled compile)
    (regular : config.Regular) : (Effect.after (sync compile config) m).Settled compile := by
  have hasMatch : config.option = .update → ¬m.Recorded config →
      ∀ rule ∈ config.httpFaultInjections, rule.match_.isSome := fun _ _ => regular.hasMatch
  refine ⟨settled.inStep.sync regular.plain hasMatch, ?_⟩
  rcases @after_sync_cases compile m config settled.inStep.named hasMatch with
    ⟨same, -⟩ | ⟨update, -, taken⟩ | ⟨-, gone⟩
  · rw [same]
    exact settled.updates
  · rw [taken]
    exact forall_lookup_insert settled.updates ⟨update, regular⟩
  · rw [gone]
    exact forall_lookup_erase settled.updates

theorem runSync_settled (regular : ∀ config ∈ history, config.Regular) :
    (runSync compile history).Settled compile := by
  have start : Manager.new.Settled compile := by
    refine ⟨Manager.inStep_new, ?_⟩
    intro name fi found
    simp [Manager.new] at found
  exact List.foldlRecOn history _ start fun _ settled config member =>
    settled.sync (regular config member)

/-- A new manager holds the configurations sent to it. -/
theorem map_fresh (updates : ∀ fi ∈ configs, fi.option = .update ∧ fi.Regular)
    (distinct : (configs.map (·.name)).Nodup) :
    (runSync compile configs).faultInjectionMap = insertAll (·.name) configs := by
  induction configs using List.reverseRecOn with
  | nil => rfl
  | append_singleton configs config ih =>
    have before : ∀ fi ∈ configs, fi.option = .update ∧ fi.Regular :=
      fun fi member => updates fi (List.mem_append_left _ member)
    obtain ⟨update, regular⟩ := updates config (by simp)
    rw [List.map_append, List.nodup_append] at distinct
    have held := ih before distinct.1
    have unknown : ¬(runSync compile configs).Recorded config := by
      rintro ⟨fi, found, -⟩
      rw [held] at found
      obtain ⟨member, same⟩ := (lookup_insertAll distinct.1).mp found
      exact distinct.2.2 fi.name (List.mem_map_of_mem member) config.name (by simp) same
    have settled : (runSync compile configs).Settled compile :=
      runSync_settled fun fi member => (before fi member).2
    rw [runSync_concat, insertAll, List.foldl_append]
    rcases @after_sync_cases compile _ config settled.inStep.named
      (fun _ _ => regular.hasMatch) with ⟨-, known, -⟩ | ⟨-, -, taken⟩ | ⟨delete, -⟩
    · exact absurd (known update) unknown
    · rw [taken, held]
      rfl
    · rw [update] at delete
      cases delete

section Matching

variable {s s' : Store}

theorem Store.matchContent_congr {mc : MatchContent} {content : String}
    (same : mc.regex ≠ "" → s.regexMap.lookup mc.regex = s'.regexMap.lookup mc.regex) :
    s.matchContent mc content = s'.matchContent mc content := by
  unfold Store.matchContent
  by_cases written : mc.regex = ""
  · simp [written]
  · rw [same written]

theorem Store.matchOptional_congr {mc : Option MatchContent} {content : String}
    (same : ∀ c, mc = some c → c.regex ≠ "" →
      s.regexMap.lookup c.regex = s'.regexMap.lookup c.regex) :
    s.matchOptional mc content = s'.matchOptional mc content := by
  cases mc with
  | none => rfl
  | some c => exact Store.matchContent_congr (same c rfl)

/-- Stores that keep the expressions of a match agree on it. -/
theorem Store.matchRest_congr {match_ : Match} {url : URL} {method : String}
    (ready : ∀ httpMatch ∈ match_.httpMatch, httpMatch.Ready compile s.regexMap)
    (ready' : ∀ httpMatch ∈ match_.httpMatch, httpMatch.Ready compile s'.regexMap) :
    s.matchRest match_ url method = s'.matchRest match_ url method := by
  rw [Bool.eq_iff_iff, Store.matchRest, Store.matchRest, List.any_eq_true, List.any_eq_true]
  apply exists_congr
  intro httpMatch
  apply and_congr_right
  intro member
  have same : ∀ c, httpMatch.path = some c ∨ httpMatch.host = some c → c.regex ≠ "" →
      s.regexMap.lookup c.regex = s'.regexMap.lookup c.regex := by
    intro c listed written
    have known := ready httpMatch member c listed written
    have known' := ready' httpMatch member c listed written
    exact known.trans known'.symm
  rw [Store.matchOptional_congr fun c isHost => same c (.inr isHost),
    Store.matchOptional_congr fun c isPath => same c (.inl isPath)]

end Matching

/-- Managers that hold the same configurations find the same rules. -/
theorem Manager.InStep.matches_perm {m' : Manager} (inStep : m.InStep compile)
    (inStep' : m'.InStep compile)
    (same : ∀ name, m.faultInjectionMap.lookup name = m'.faultInjectionMap.lookup name) :
    (∀ url method, (m.matchHTTPFaultInjection url method).Perm
      (m'.matchHTTPFaultInjection url method)) ∧
    ∀ ns apiGroup resource verb, (m.matchResourceFaultInjection ns apiGroup resource verb).Perm
      (m'.matchResourceFaultInjection ns apiGroup resource verb) := by
  have entries : ∀ kind, (m.faultInjectionStore.rulesFor kind).entries.Perm
      (m'.faultInjectionStore.rulesFor kind).entries :=
    fun kind => (inStep.mirrors kind).perm (inStep'.mirrors kind) same
  constructor
  · intro url method
    have perm := ((entries .rest).map (·.2)).filter fun rule =>
      rule.match_.any (m.faultInjectionStore.matchRest · url method)
    -- both stores keep the expressions of a rule that both have
    have agree : ∀ rule ∈ (m'.faultInjectionStore.restMatchRules.entries.map (·.2)),
        rule.match_.any (m.faultInjectionStore.matchRest · url method) =
          rule.match_.any (m'.faultInjectionStore.matchRest · url method) := by
      intro rule member
      have ⟨⟨key, stored⟩, listed', isRule⟩ := List.mem_map.mp member
      have listed := (entries .rest).mem_iff.mpr listed'
      have found := AList.mem_lookup_iff.mpr listed
      have found' := AList.mem_lookup_iff.mpr listed'
      subst isRule
      cases isMatch : stored.match_ with
      | none => rfl
      | some match_ =>
        exact Store.matchRest_congr (inStep.ready.ready key stored found match_ isMatch)
          (inStep'.ready.ready key stored found' match_ isMatch)
    exact perm.trans (.of_eq (List.filter_congr agree))
  · intro ns apiGroup resource verb
    exact ((entries .resources).map (·.2)).filter _

/-- A manager finds the rules that a new one finds with the configurations it holds. -/
theorem matches_fresh (compile : Compile) {history : List Config}
    (regular : ∀ config ∈ history, config.Regular) {configs : List Config}
    (current : configs.Perm ((runSync compile history).faultInjectionMap.entries.map (·.2))) :
    (∀ url method, ((runSync compile history).matchHTTPFaultInjection url method).Perm
      ((runSync compile configs).matchHTTPFaultInjection url method)) ∧
    ∀ ns apiGroup resource verb,
      ((runSync compile history).matchResourceFaultInjection ns apiGroup resource verb).Perm
        ((runSync compile configs).matchResourceFaultInjection ns apiGroup resource verb) := by
  have settled : (runSync compile history).Settled compile := runSync_settled regular
  have named : ∀ name fi, (runSync compile history).faultInjectionMap.lookup name = some fi →
      fi.name = name := fun name fi found => (settled.inStep.named name fi found).1
  have updates : ∀ fi ∈ configs, fi.option = .update ∧ fi.Regular := fun fi member =>
    settled.updates fi.name fi ((mem_values_iff named current).mp member)
  have fresh : (runSync compile configs).Settled compile :=
    runSync_settled fun fi member => (updates fi member).2
  refine settled.inStep.matches_perm fresh.inStep fun name => ?_
  rw [map_fresh updates (nodup_names named current), lookup_values named current]

/-- A configuration of one rule, which matches a host. The one that replaces it has a rule of the
same name that matches pods. -/
def hostConfig : Config where
  httpFaultInjections := [⟨none, none, some ⟨[], [⟨some ⟨"", "test[a-z]+"⟩, none, "", []⟩]⟩, "slow",
    none⟩]
  option := .update
  configHash := "first"
  name := "faults"

/-- The configuration that replaces it. -/
def podConfig : Config where
  httpFaultInjections := [⟨none, none, some ⟨[⟨["*"], [], ["pod"], ["delete"]⟩], []⟩, "slow", none⟩]
  option := .update
  configHash := "second"
  name := "faults"

theorem matches_fresh_podConfig :
    (∀ url method,
      ((runSync (fun _ => none) [hostConfig, podConfig]).matchHTTPFaultInjection url method).Perm
        ((runSync (fun _ => none) [podConfig]).matchHTTPFaultInjection url method)) ∧
    ∀ ns apiGroup resource verb,
      ((runSync (fun _ => none) [hostConfig, podConfig]).matchResourceFaultInjection ns apiGroup
        resource verb).Perm
        ((runSync (fun _ => none) [podConfig]).matchResourceFaultInjection ns apiGroup resource
          verb) := by
  apply matches_fresh (fun _ => none)
  · intro config member
    have either : config = hostConfig ∨ config = podConfig := by simpa using member
    rcases either with rfl | rfl
    · exact ⟨by decide, by decide⟩
    · exact ⟨by decide, by decide⟩
  · exact List.Perm.refl [podConfig]

end

end CtrlMesh.FaultInjection
