import CtrlMesh.Labels.TextRoundTrip
import CtrlMesh.Lib.Guard
import CtrlMesh.Sharding.AutoSharding

/-!
# Admission of ShardingConfigs

The validating webhook of `pkg/webhook/shardingconfig`. What apimachinery says about a selector that
is not valid is left out of the error. `enableForceValidate` is a constant of the package and false,
so `validateConfigResource` admits everything.
-/

namespace CtrlMesh.Webhook

open Labels Lib Api Sharding

/-- The API group and resource pairs that the loops over the limits visit, in their order. -/
def resourcePairs (limits : List ObjectLimiter) : List (String × String) :=
  limits.flatMap fun limit => limit.relatedResources.flatMap fun group =>
    group.resources.flatMap fun resource => group.apiGroups.map fun api => (api, resource)

/-- The text of a pair in `resourceSet`. -/
def resourceText (pair : String × String) : String := pair.1 ++ "/" ++ pair.2

/-- The body of these loops, from the texts seen so far on. -/
def checkResources : List String → List (String × String) → Except String Unit
  | _, [] => pure ()
  | resourceSet, (api, resource) :: pairs => do
    refuse (resourceText ("*", resource) ∈ resourceSet ∨ resourceText (api, resource) ∈ resourceSet)
      (resource ++ " has conflict resource limits")
    checkResources (resourceText (api, resource) :: resourceSet) pairs

/-- The last part of `validate`. -/
def checkServers (spec : ShardingConfigSpec) : Except String Unit := do
  whenSome spec.controller fun controller =>
    refuse (controller.leaderElectionName = "") "leaderElectionName for controller can not be empty"
  whenSome spec.webhook fun webhook => do
    refuse (webhook.certDir = "") "certDir for webhook can not be empty"
    refuse (webhook.port ≤ 0) "port for webhook must be bigger than 0"

/-- The check of the selector. -/
def checkSelector (sorter : Sorter) (spec : ShardingConfigSpec) : Except String Unit :=
  match labelSelectorAsSelector sorter spec.selector with
  | none => throw "invalid selector"
  | some selector =>
    refuse ((selector.empty ∨ selector.text = []) ∧ spec.root = none)
      "invalid selector can not be empty"

/-- The check of the limits. -/
def checkLimits (spec : ShardingConfigSpec) : Except String Unit :=
  match spec.limits with
  | none => refuse (spec.root = none) "invalid nil limits"
  | some limits => do
    checkResources [] (resourcePairs limits)
    checkServers spec

/-- `validate`. Without limits a root is not asked for more. -/
def validate (sorter : Sorter) (obj : ShardingConfig) : Except String Unit := do
  whenSome obj.spec.root validateRootConfig
  checkSelector sorter obj.spec
  checkLimits obj.spec

/-- `validateUpdate`. -/
def validateUpdate (obj oldObj : ShardingConfig) : Except String Unit :=
  refuse (obj.spec.selector ≠ oldObj.spec.selector) "selector can not be modified"

/-- `ctrlmesh.CtrlmeshIgnoreValidateLabel`. -/
def ignoreValidateLabel : String := "ctrlmesh.kusionstack.io/ignore-validate"

/-- `ValidatingHandler.Handle` for a decoded object; an update has an old one. -/
def handle (sorter : Sorter) (obj : ShardingConfig) (oldObj : Option ShardingConfig) :
    Except String Unit :=
  if ignoreValidateLabel ∈ obj.metadata.labels then pure ()
  else do
    validate sorter obj
    whenSome oldObj (validateUpdate obj)

/-- A pair after another one is neither that one nor covered by its wildcard. -/
def Distinct (earlier later : String × String) : Prop :=
  resourceText earlier ≠ resourceText ("*", later.2) ∧ resourceText earlier ≠ resourceText later

/-- No pair conflicts with one before it. -/
def Unconflicted (limits : List ObjectLimiter) : Prop := (resourcePairs limits).Pairwise Distinct

/-- Every server of the operator is configured. -/
def Served (spec : ShardingConfigSpec) : Prop :=
  (∀ controller ∈ spec.controller, controller.leaderElectionName ≠ "") ∧
    ∀ webhook ∈ spec.webhook, webhook.certDir ≠ "" ∧ 0 < webhook.port

theorem checkResources_iff (resourceSet : List String) (pairs : List (String × String)) :
    checkResources resourceSet pairs = .ok () ↔
      (∀ pair ∈ pairs, resourceText ("*", pair.2) ∉ resourceSet ∧ resourceText pair ∉ resourceSet) ∧
        pairs.Pairwise Distinct := by
  induction pairs generalizing resourceSet with
  | nil => exact iff_of_true rfl ⟨nofun, .nil⟩
  | cons pair pairs ih =>
    have distinct (later : String × String) :
        (resourceText ("*", later.2) ∉ resourceText pair :: resourceSet ∧
          resourceText later ∉ resourceText pair :: resourceSet) ↔ Distinct pair later ∧
            resourceText ("*", later.2) ∉ resourceSet ∧ resourceText later ∉ resourceSet := by
      simp only [List.mem_cons, not_or, Distinct, ne_eq, eq_comm]
      tauto
    rw [checkResources, seq_ok, refuse_ok, ih, List.forall_mem_cons, List.pairwise_cons, not_or]
    simp only [distinct]
    constructor
    · rintro ⟨free, later, pairwise⟩
      exact ⟨⟨free, fun other member => (later other member).2⟩,
        fun other member => (later other member).1, pairwise⟩
    · rintro ⟨⟨free, outside⟩, first, pairwise⟩
      exact ⟨free, fun other member => ⟨first other member, outside other member⟩, pairwise⟩

theorem checkResources_nil (limits : List ObjectLimiter) :
    checkResources [] (resourcePairs limits) = .ok () ↔ Unconflicted limits := by
  rw [checkResources_iff]
  simp [Unconflicted]

theorem checkServers_iff (spec : ShardingConfigSpec) :
    checkServers spec = .ok () ↔ Served spec := by
  simp only [checkServers, seq_ok, whenSome_ok, refuse_ok, Served, ne_eq, not_le]

/-- Every requirement of the selector is valid; a nil one has none. -/
def ValidSelector (ps : Option LabelSelector) : Prop :=
  ∀ sel ∈ ps, (∀ r ∈ sel.labelRequirements, r.isValid = true) ∧
    ∀ e ∈ sel.matchExpressions, ∃ r, e.asRequirement = some r ∧ r.isValid = true

variable {sel : LabelSelector} {sorter : Sorter} {spec : ShardingConfigSpec}

theorem validSelector_some : ValidSelector (some sel) ↔
    ∃ reqs, sel.asRequirements = some reqs ∧ ∀ r ∈ reqs, r.isValid = true := by
  rw [LabelSelector.exists_asRequirements]
  simp only [ValidSelector, Option.mem_def, Option.some.injEq, forall_eq']

/-- The conversion succeeds on the valid selectors, with their requirements in some order. -/
theorem labelSelectorAsSelector_iff {selector : Selector} :
    labelSelectorAsSelector sorter (some sel) = some selector ↔
      ∃ reqs, sel.asRequirements = some reqs ∧ (∀ r ∈ reqs, r.isValid = true) ∧
        .requirements (sorter.sort reqs) = selector := by
  dsimp only [labelSelectorAsSelector]
  by_cases empty : sel.matchLabels.entries.length + sel.matchExpressions.length = 0
  · have sorted : sorter.sort [] = [] := (sorter.perm []).eq_nil
    rw [if_pos empty, LabelSelector.asRequirements_empty empty]
    simp [Selector.everything, sorted]
  · rw [if_neg empty]
    cases sel.asRequirements with
    | none => simp
    | some reqs => simp [Selector.everything, Selector.add]

theorem exists_labelSelectorAsSelector (sorter : Sorter) {ps : Option LabelSelector} :
    (∃ selector, labelSelectorAsSelector sorter ps = some selector) ↔ ValidSelector ps := by
  cases ps with
  | none => exact iff_of_true ⟨.nothing, rfl⟩ nofun
  | some sel =>
    rw [validSelector_some]
    simp only [labelSelectorAsSelector_iff]
    exact ⟨fun ⟨_, reqs, found, valid, _⟩ => ⟨reqs, found, valid⟩,
      fun ⟨reqs, found, valid⟩ => ⟨_, reqs, found, valid, rfl⟩⟩

theorem checkSelector_iff :
    checkSelector sorter spec = .ok () ↔
      ∃ selector, labelSelectorAsSelector sorter spec.selector = some selector ∧
        ¬((selector.empty ∨ selector.text = []) ∧ spec.root = none) := by
  unfold checkSelector
  cases labelSelectorAsSelector sorter spec.selector with
  | none => exact iff_of_false nofun nofun
  | some selector => simp [refuse_ok]

/-- A root may have any valid selector. -/
theorem checkSelector_root {root : ShardingConfigRoot} (isRoot : spec.root = some root) :
    checkSelector sorter spec = .ok () ↔ ValidSelector spec.selector := by
  rw [checkSelector_iff, ← exists_labelSelectorAsSelector sorter]
  simp [isRoot]

/-- A requirement keeps the text of a selector from being empty. -/
theorem text_ne_nil {reqs : List Requirement} (some : reqs ≠ [])
    (valid : ∀ r ∈ reqs, r.isValid = true) : (Selector.requirements reqs).text ≠ [] := by
  obtain ⟨r, reqs, rfl⟩ := List.exists_cons_of_ne_nil some
  have named : r.key.toList ≠ [] := (Requirement.plain_key (valid r List.mem_cons_self)).1
  have written : r.text ≠ [] := by
    unfold Requirement.text
    split <;> simp [named]
  cases reqs with
  | nil => simpa [Selector.text, joinComma, List.intercalate] using written
  | cons second reqs => simp [Selector.text, joinComma_cons_cons]

/-- Any other object needs a valid one with a requirement. -/
theorem checkSelector_some (isSel : spec.selector = some sel) (asks : sel.matchExpressions ≠ []) :
    checkSelector sorter spec = .ok () ↔ ValidSelector (some sel) := by
  rw [checkSelector_iff, isSel, ← exists_labelSelectorAsSelector sorter]
  refine exists_congr fun selector => and_iff_left_of_imp fun converted => ?_
  obtain ⟨reqs, found, valid, rfl⟩ := labelSelectorAsSelector_iff.mp converted
  have perm := sorter.perm reqs
  have some : sorter.sort reqs ≠ [] := by
    obtain ⟨exprs, mapped, same⟩ := Option.bind_eq_some_iff.mp found
    cases same
    rw [ne_eq, ← List.perm_nil, perm.congr_left, List.perm_nil, List.append_eq_nil_iff]
    rintro ⟨-, rfl⟩
    obtain ⟨e, rest, split⟩ := List.exists_cons_of_ne_nil asks
    simp [split, List.mapM_cons, Option.bind_eq_some_iff] at mapped
  have written := text_ne_nil some fun r member => valid r (perm.mem_iff.mp member)
  simp [Selector.empty, some, written]

theorem validate_ok {obj : ShardingConfig} : validate sorter obj = .ok () ↔
    (∀ root ∈ obj.spec.root, validateRootConfig root = .ok ()) ∧
      checkSelector sorter obj.spec = .ok () ∧ checkLimits obj.spec = .ok () := by
  simp only [validate, seq_ok, whenSome_ok]

theorem checkLimits_some {limits : List ObjectLimiter} (isLimits : spec.limits = some limits) :
    checkLimits spec = .ok () ↔ Unconflicted limits ∧ Served spec := by
  simp only [checkLimits, isLimits, seq_ok, checkResources_nil, checkServers_iff]

end CtrlMesh.Webhook
