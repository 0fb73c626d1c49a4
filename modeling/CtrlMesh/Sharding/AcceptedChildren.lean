import CtrlMesh.Sharding.Partition
import CtrlMesh.Webhook.ShardingConfig

/-!
# Children of accepted roots

Which accepted roots generate children that the webhook accepts as well. The webhook looks at a root
less closely than at other objects: it may have no canary settings, counts may be negative, its
resource selector is not checked, and without limits of its own neither are its servers. All of this
shows in the children.
-/

namespace CtrlMesh.Sharding

open Labels Api Webhook

/-- The name of a pod of the StatefulSet. -/
def podName (spec : ShardingConfigRoot) (i : Int) : String :=
  spec.targetStatefulSet ++ "-" ++ toString i

/-- The number of pods that the children select together. -/
def podCount (auto : AutoConfig) (replicas : Int) : Int :=
  replicas + auto.everyShardReplicas * max auto.shardingSize 0

/-- What the children of a root need of it, for the replicas of its canary. -/
structure Fit (root : ShardingConfig) (spec : ShardingConfigRoot) (auto : AutoConfig)
    (replicas : Int) : Prop where
  canaryPods : 0 < replicas
  normalPods : 0 < auto.shardingSize → 0 < auto.everyShardReplicas
  names : ∀ i, 0 ≤ i → i < podCount auto replicas → isValidLabelValue (podName spec i) = true
  resources : spec.resourceSelector ≠ []
  unconflicted : Unconflicted spec.resourceSelector
  served : Served root.spec

section

variable {flags : Flags} {rootHash : RootHash} {sorter : Sorter}
  {root : ShardingConfig} {spec : ShardingConfigRoot} {auto : AutoConfig} {hash name : String}
  {names : List String} {limits : List ObjectLimiter} {s t replicas : Int}

theorem mem_genNameInRange {value : String} :
    value ∈ genNameInRange spec.targetStatefulSet s t ↔
      ∃ i, s ≤ i ∧ i ≤ t ∧ podName spec i = value := by
  simp only [genNameInRange, List.mem_map, mem_intsFrom, podName, and_assoc]

theorem genNameInRange_ne_nil {stem : String} : genNameInRange stem s t ≠ [] ↔ s ≤ t := by
  simp only [genNameInRange, intsFrom, ne_eq, List.map_eq_nil_iff, List.range_eq_nil]
  omega

/-- The selector of a child is valid if the pod names are label values and there is one. -/
theorem validSelector_child (valid : ValidSelector root.spec.selector) :
    ValidSelector (some (childSelector root names)) ↔
      names ≠ [] ∧ ∀ value ∈ names, isValidLabelValue value = true := by
  have old : ValidSelector (some (root.spec.selector.getD {})) := by
    cases isSel : root.spec.selector with
    | none => simp [ValidSelector, LabelSelector.labelRequirements]
    | some sel => exact isSel ▸ valid
  have key : isQualifiedName "statefulset.kubernetes.io/pod-name" = true := by decide
  have pods : (Requirement.mk "statefulset.kubernetes.io/pod-name" .in_ names).isValid = true ↔
      names ≠ [] ∧ ∀ value ∈ names, isValidLabelValue value = true := by
    rw [Requirement.isValid_iff, Operator.admits_set (.inl rfl)]
    exact and_iff_right key
  obtain ⟨labels, exprs⟩ := old _ rfl
  rw [← pods]
  constructor
  · intro child
    obtain ⟨r, converted, fits⟩ := (child _ rfl).2 _ (List.mem_append_right _ List.mem_cons_self)
    cases converted
    exact fits
  · rintro fits sel ⟨⟩
    refine ⟨labels, List.forall_mem_append.mpr ⟨exprs, ?_⟩⟩
    exact List.forall_mem_singleton.mpr ⟨_, rfl, fits⟩

theorem validate_childOf (valid : ValidSelector root.spec.selector) :
    validate sorter (childOf hash root name names limits) = .ok () ↔
      (names ≠ [] ∧ ∀ value ∈ names, isValidLabelValue value = true) ∧
        limits ≠ [] ∧ Unconflicted limits ∧ Served root.spec := by
  have asks : (childSelector root names).matchExpressions ≠ [] := by simp [childSelector]
  have noRoot : ∀ root' ∈ (childOf hash root name names limits).spec.root,
      validateRootConfig root' = .ok () := by simp [childOf]
  have served : Served (childOf hash root name names limits).spec ↔ Served root.spec := .rfl
  rw [validate_ok, and_iff_right noRoot, checkSelector_some rfl asks, validSelector_child valid]
  refine and_congr_right fun _ => ?_
  cases limits with
  | nil =>
    have unlimited : checkLimits (childOf hash root name names []).spec =
        .error "invalid nil limits" := rfl
    simp [unlimited]
  | cons limit limits =>
    rw [checkLimits_some (show _ = some (limit :: limits) from rfl), served]
    simp

/-- A child does not have the label that turns the webhook off. -/
theorem handle_childOf : handle sorter (childOf hash root name names limits) none =
    validate sorter (childOf hash root name names limits) := by
  have other : ignoreValidateLabel ≠ autoShardingRootLabel := by decide
  have checked : ignoreValidateLabel ∉ (childOf hash root name names limits).metadata.labels :=
    fun labelled => other (AList.mem_keys.mp labelled |> List.mem_singleton.mp)
  rw [handle, if_neg checked]
  cases validate sorter (childOf hash root name names limits) <;> rfl

/-- The expressions added to a limit leave its resources alone. -/
theorem unconflicted_restrict (origin : List ObjectLimiter)
    (exprs : List LabelSelectorRequirement) :
    Unconflicted (origin.map fun limiter => restrict limiter exprs) ↔ Unconflicted origin := by
  have same : resourcePairs (origin.map fun limiter => restrict limiter exprs) =
      resourcePairs origin := by
    simp [resourcePairs, List.flatMap_map, restrict]
  rw [Unconflicted, same, Unconflicted]

/-- The canary and the normal children together select every pod up to the count, and no other. -/
theorem pods_covered (canaryPods : 0 ≤ replicas)
    (normalPods : 0 < auto.shardingSize → 0 < auto.everyShardReplicas) (good : Int → Prop) :
    ((∀ i, 0 ≤ i → i ≤ replicas - 1 → good i) ∧ ∀ id ∈ intsFrom 1 auto.shardingSize, ∀ i,
      replicas + auto.everyShardReplicas * (id - 1) ≤ i →
        i ≤ replicas + auto.everyShardReplicas * id - 1 → good i) ↔
      ∀ i, 0 ≤ i → i < podCount auto replicas → good i := by
  unfold podCount
  generalize auto.everyShardReplicas = every at *
  generalize auto.shardingSize = size at *
  simp only [mem_intsFrom]
  constructor
  · rintro ⟨canary, normal⟩ i low high
    by_cases first : i < replicas
    · exact canary i low (by omega)
    · have shards : 0 < size := by
        by_contra none
        rw [max_eq_right (by omega)] at high
        omega
      have positive := normalPods shards
      rw [max_eq_left (by omega)] at high
      have quotient : every * ((i - replicas) / every) ≤ i - replicas :=
        Int.mul_ediv_self_le (ne_of_gt positive)
      have next : i - replicas < every * ((i - replicas) / every + 1) := by
        rw [mul_add, mul_one]
        exact Int.lt_mul_ediv_self_add positive
      have atLeast : 0 ≤ (i - replicas) / every := Int.ediv_nonneg (by omega) (by omega)
      have below : (i - replicas) / every < size :=
        Int.ediv_lt_of_lt_mul positive (by rw [mul_comm]; omega)
      refine normal ((i - replicas) / every + 1) ⟨by omega, by omega⟩ i ?_ ?_
      · rw [add_sub_cancel_right]
        omega
      · omega
  · intro all
    constructor
    · intro i low high
      have more : 0 ≤ every * max size 0 := by
        by_cases shards : 0 < size
        · exact mul_nonneg (le_of_lt (normalPods shards)) (le_max_right _ _)
        · rw [max_eq_right (by omega), mul_zero]
      exact all i low (by omega)
    · intro id bounds i low high
      have positive := normalPods (by omega)
      have below : 0 ≤ every * (id - 1) := mul_nonneg (by omega) (by omega)
      have above : every * id ≤ every * max size 0 :=
        mul_le_mul_of_nonneg_left (le_max_of_le_left bounds.2) (by omega)
      exact all i (by omega) (by omega)

/-- What the root needs for a child that selects a range of pods. -/
theorem validate_range (valid : ValidSelector root.spec.selector)
    {exprs : List LabelSelectorRequirement} :
    validate sorter (childOf hash root name (genNameInRange spec.targetStatefulSet s t)
        (spec.resourceSelector.map fun limiter => restrict limiter exprs)) = .ok () ↔
      (s ≤ t ∧ ∀ i, s ≤ i → i ≤ t → isValidLabelValue (podName spec i) = true) ∧
        spec.resourceSelector ≠ [] ∧ Unconflicted spec.resourceSelector ∧ Served root.spec := by
  rw [validate_childOf valid, genNameInRange_ne_nil, unconflicted_restrict, ne_eq,
    List.map_eq_nil_iff]
  simp only [mem_genNameInRange, forall_exists_index, and_imp]
  refine and_congr_left fun _ => and_congr_right fun _ => ⟨fun all i low high => ?_, ?_⟩
  · exact all _ i low high rfl
  · rintro all _ i low high rfl
    exact all i low high

/-- The children of an accepted root are accepted exactly when the root is fit for them. -/
theorem validate_children {canary : CanaryConfig} (valid : ValidSelector root.spec.selector) :
    (∀ child ∈ canaryChild flags hash root spec canary replicas ::
        (intsFrom 1 auto.shardingSize).map (normalChild flags hash root spec auto canary replicas),
      validate sorter child = .ok ()) ↔ Fit root spec auto replicas := by
  rw [List.forall_mem_cons, List.forall_mem_map]
  simp only [canaryChild, normalChild, genCanaryLimits, genShardingGlobalLimits,
    validate_range valid]
  constructor
  · rintro ⟨⟨⟨some, canaryNames⟩, resources, unconflicted, served⟩, normal⟩
    have canaryPods : 0 < replicas := by omega
    have normalPods : 0 < auto.shardingSize → 0 < auto.everyShardReplicas := by
      intro shards
      have nonempty := (normal 1 (mem_intsFrom.mpr ⟨le_rfl, by omega⟩)).1.1
      omega
    refine ⟨canaryPods, normalPods, ?_, resources, unconflicted, served⟩
    exact (pods_covered canaryPods.le normalPods _).mp
      ⟨canaryNames, fun id member => (normal id member).1.2⟩
  · intro fit
    obtain ⟨canaryNames, normalNames⟩ :=
      (pods_covered fit.canaryPods.le fit.normalPods _).mpr fit.names
    have shared := And.intro fit.resources (And.intro fit.unconflicted fit.served)
    refine ⟨⟨⟨by have := fit.canaryPods; omega, canaryNames⟩, shared⟩, fun id member => ?_⟩
    have positive := fit.normalPods (by have := mem_intsFrom.mp member; omega)
    have next : auto.everyShardReplicas * id =
        auto.everyShardReplicas * (id - 1) + auto.everyShardReplicas := by
      rw [mul_sub, mul_one, sub_add_cancel]
    exact ⟨⟨by omega, normalNames id member⟩, shared⟩

end

/-- An accepted root generates accepted children, without a nil dereference, exactly when it asks
for no automatic sharding or has canary settings and is fit for the children. -/
theorem getChild_acceptable_iff (sorter : Sorter) (flags : Flags)
    (rootHash : RootHash) (root : ShardingConfig) (spec : ShardingConfigRoot)
    (isRoot : root.spec.root = some spec) (accepted : validate sorter root = .ok ()) :
    (∃ children, getChild flags rootHash root = some children ∧ ∀ child ∈ children,
        validate sorter child = .ok () ∧ handle sorter child none = .ok ()) ↔
      ∀ auto ∈ spec.auto, ∃ canary ∈ spec.canary, ∃ replicas ∈ canary.replicas,
        Fit root spec auto replicas := by
  obtain ⟨checked, selector, -⟩ := validate_ok.mp accepted
  have valid : ValidSelector root.spec.selector := (checkSelector_root isRoot).mp selector
  have rootOk : validateRootConfig spec = .ok () := checked spec isRoot
  cases isAuto : spec.auto with
  | none =>
    have none : getChild flags rootHash root = some [] := by simp [getChild, isRoot, isAuto]
    exact iff_of_true ⟨[], none, by simp⟩ (by simp)
  | some auto =>
    simp only [Option.mem_def, Option.some.injEq, forall_eq']
    constructor
    · rintro ⟨children, returned, all⟩
      obtain ⟨canary, replicas, isCanary, isReplicas, rfl⟩ :=
        getChild_accepted isRoot rootOk isAuto returned
      exact ⟨canary, isCanary, replicas, isReplicas,
        (validate_children valid).mp fun child member => (all child member).1⟩
    · rintro ⟨canary, isCanary, replicas, isReplicas, fit⟩
      have returns : (getChild flags rootHash root).isSome := by
        have canary' : spec.canary = some canary := isCanary
        have replicas' : canary.replicas = some replicas := isReplicas
        by_cases wanted : wantsCanary canary = true <;>
          simp [getChild, isRoot, isAuto, canary', replicas', wanted]
      obtain ⟨children, returned⟩ := Option.isSome_iff_exists.mp returns
      obtain ⟨canary', replicas', isCanary', isReplicas', rfl⟩ :=
        getChild_accepted isRoot rootOk isAuto returned
      rw [Option.mem_unique isCanary' isCanary] at isReplicas' returned
      rw [Option.mem_unique isReplicas' isReplicas] at returned
      have all := (@validate_children flags sorter root spec auto (rootHash spec) replicas canary
        valid).mpr fit
      refine ⟨_, returned, fun child member => ⟨all child member, ?_⟩⟩
      have handled : handle sorter child none = validate sorter child := by
        rcases List.mem_cons.mp member with rfl | member
        · exact handle_childOf
        · obtain ⟨id, -, rfl⟩ := List.mem_map.mp member
          exact handle_childOf
      rw [handled]
      exact all child member

/-- One shard with two pods, next to the canary if there is one. -/
def plainSpec (canary : Option CanaryConfig) : ShardingConfigRoot where
  disable := none
  namePrefix := "test"
  targetStatefulSet := "sts-name"
  canary := canary
  auto := some { shardingSize := 1, everyShardReplicas := 2 }
  resourceSelector := [{ relatedResources := [], selector := none }]

/-- A root of two shards. -/
def plainRoot (canary : Option CanaryConfig) : ShardingConfig where
  metadata := { name := "root", namespace_ := "test" }
  spec := {
    selector := none, controller := none, webhook := none, limits := none
    root := some (plainSpec canary) }

/-- A canary for one namespace. -/
def plainCanary : CanaryConfig where
  replicas := some 1
  inNamespaces := ["ns1"]
  inShardHash := []

/-- The children of a root with a canary. -/
theorem getChild_acceptable_plain :
    validate .stable (plainRoot (some plainCanary)) = .ok () ∧
      ((∃ children, getChild {} (fun _ => "hash") (plainRoot (some plainCanary)) = some children ∧
          ∀ child ∈ children, validate .stable child = .ok () ∧
            handle .stable child none = .ok ()) ↔
        ∀ auto ∈ (plainSpec (some plainCanary)).auto,
          ∃ canary ∈ (plainSpec (some plainCanary)).canary, ∃ replicas ∈ canary.replicas,
            Fit (plainRoot (some plainCanary)) (plainSpec (some plainCanary)) auto replicas) :=
  ⟨by decide,
    getChild_acceptable_iff .stable {} (fun _ => "hash") (plainRoot (some plainCanary)) _ rfl
    (by decide)⟩

/-- The accepted root without canary settings makes the generator write through a nil pointer. -/
theorem getChild_panics_on_accepted :
    ¬∀ (sorter : Sorter) (flags : Flags) (rootHash : RootHash)
      (root : ShardingConfig), root.spec.root.isSome → validate sorter root = .ok () →
      ∃ children, getChild flags rootHash root = some children ∧ ∀ child ∈ children,
        validate sorter child = .ok () ∧ handle sorter child none = .ok () := by
  intro all
  obtain ⟨children, returned, -⟩ :=
    all .stable {} (fun _ => "hash") (plainRoot none) rfl (by decide)
  have panics : getChild {} (fun _ => "hash") (plainRoot none) = none := rfl
  rw [panics] at returned
  cases returned

end CtrlMesh.Sharding
