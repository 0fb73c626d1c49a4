import CtrlMesh.Labels.Merge
import CtrlMesh.Sharding.AcceptedChildren
import CtrlMesh.Sharding.Layout
import CtrlMesh.Webhook.PodInjector

/-!
# The pods of one root are divided among its children

The canary child takes the first pods of the StatefulSet, the normal children the next ones, each
the same number of them. The pod webhook looks for the child of a created pod by the names that the
children list.
-/

namespace CtrlMesh.Sharding

open Labels Api Webhook

/-- The pods of the canary, as `getChild` counts them: none without a namespace or a hash, whatever
its replicas are. -/
def canaryReplicas (canary : CanaryConfig) : Int :=
  if wantsCanary canary then canary.replicas.getD 0 else 0

section

variable {flags : Flags} {rootHash : RootHash} {root : ShardingConfig}
  {spec : ShardingConfigRoot} {auto : AutoConfig} {canary : CanaryConfig} {shapes : List Shape}

/-- The first and the last pod of a normal child. -/
def normalPods (spec : ShardingConfigRoot) (auto : AutoConfig) (replicas id : Int) : List String :=
  genNameInRange spec.targetStatefulSet (replicas + auto.everyShardReplicas * (id - 1))
    (replicas + auto.everyShardReplicas * id - 1)

variable {replicas id s t : Int}

/-- The numbers of these pods do not wrap around as long as the count of all pods fits into an
`int`. -/
theorem podRange64_eq {every size : Int} (low : 0 ≤ replicas) (pods : 1 ≤ every) (first : 1 ≤ id)
    (last : id ≤ size) (fits : replicas + size * every < 2 ^ 63) :
    (podRange64 (.ofInt replicas) (.ofInt every) (.ofInt id)).1.toInt =
        replicas + every * (id - 1) ∧
      (podRange64 (.ofInt replicas) (.ofInt every) (.ofInt id)).2.toInt =
        replicas + every * id - 1 := by
  have start : 0 ≤ every * (id - 1) := mul_nonneg (by omega) (by omega)
  have next : every * id = every * (id - 1) + every := by ring
  have bound : every * id ≤ size * every := by
    rw [mul_comm size]
    exact mul_le_mul_of_nonneg_left last (by omega)
  have one : (1 : Int64) = .ofInt 1 := rfl
  simp only [podRange64, one, ← Int64.ofInt_add, ← Int64.ofInt_mul, ← Int64.ofInt_sub]
  constructor
  · exact Int64.toInt_ofInt_of_le (by omega) (by omega)
  · exact Int64.toInt_ofInt_of_le (by omega) (by omega)

/-- The lists of pod names, in the order of the children. -/
theorem pods_layout (isAuto : spec.auto = some auto) (isCanary : spec.canary = some canary)
    (laidOut : layout flags spec = some shapes) :
    shapes.map (·.pods) =
      (if wantsCanary canary then
        [genNameInRange spec.targetStatefulSet 0 (canaryReplicas canary - 1)] else []) ++
      (intsFrom 1 auto.shardingSize).map (normalPods spec auto (canaryReplicas canary)) := by
  unfold layout at laidOut
  simp only [isAuto, isCanary, Option.bind_eq_bind, Option.bind_some] at laidOut
  by_cases wanted : wantsCanary canary = true
  · rw [if_pos wanted] at laidOut
    obtain ⟨replicas, isReplicas, laidOut⟩ := Option.bind_eq_some_iff.mp laidOut
    cases laidOut
    have count : canaryReplicas canary = replicas := by simp [canaryReplicas, wanted, isReplicas]
    rw [if_pos wanted, count, List.map_cons, List.map_map]
    rfl
  · rw [if_neg wanted] at laidOut
    cases laidOut
    have count : canaryReplicas canary = 0 := by simp [canaryReplicas, wanted]
    rw [if_neg wanted, count, List.map_map]
    rfl

/-- A canary is laid out whenever shards are. -/
theorem exists_canary (isAuto : spec.auto = some auto) (laidOut : layout flags spec = some shapes) :
    ∃ canary, spec.canary = some canary := by
  unfold layout at laidOut
  rw [isAuto] at laidOut
  obtain ⟨canary, isCanary, -⟩ := Option.bind_eq_some_iff.mp laidOut
  exact ⟨canary, isCanary⟩

/-- Pods of different ordinals have different names. -/
theorem podName_inj {i j : Int} : podName spec i = podName spec j ↔ i = j := by
  rw [podName, podName, String.append_right_inj, toString_inj]

/-- No name comes twice. -/
theorem nodup_genNameInRange {stem : String} : (genNameInRange stem s t).Nodup := by
  apply (nodup_intsFrom).map
  intro i j same
  rw [String.append_right_inj] at same
  exact toString_inj.mp same

/-- Pods of one range are not in a range that starts after it. -/
theorem genNameInRange_disjoint {s' t' : Int} (apart : t < s') :
    ∀ name ∈ genNameInRange spec.targetStatefulSet s t,
      name ∉ genNameInRange spec.targetStatefulSet s' t' := by
  intro name first second
  obtain ⟨i, -, high, isFirst⟩ := mem_genNameInRange.mp first
  obtain ⟨j, low, -, isSecond⟩ := mem_genNameInRange.mp second
  have same : i = j := podName_inj.mp (isFirst.trans isSecond.symm)
  omega

/-- The pods of an earlier normal child are before those of a later one, if it has any. -/
theorem normalPods_disjoint {left right : Int} (less : left < right) :
    ∀ name ∈ normalPods spec auto replicas left, name ∉ normalPods spec auto replicas right := by
  intro name first
  obtain ⟨i, low, high, -⟩ := mem_genNameInRange.mp first
  have positive : 0 < auto.everyShardReplicas := by
    have width : auto.everyShardReplicas * left =
        auto.everyShardReplicas * (left - 1) + auto.everyShardReplicas := by ring
    omega
  have below : auto.everyShardReplicas * left ≤ auto.everyShardReplicas * (right - 1) :=
    mul_le_mul_of_nonneg_left (by omega) (by omega)
  exact genNameInRange_disjoint (by omega) name first

/-- The canary's pods are before those of the normal children. -/
theorem canaryPods_disjoint (some : 1 ≤ id) :
    ∀ name ∈ genNameInRange spec.targetStatefulSet 0 (replicas - 1),
      name ∉ normalPods spec auto replicas id := by
  intro name first second
  obtain ⟨j, low, high, -⟩ := mem_genNameInRange.mp second
  have positive : 0 < auto.everyShardReplicas := by
    have width : auto.everyShardReplicas * id =
        auto.everyShardReplicas * (id - 1) + auto.everyShardReplicas := by ring
    omega
  have before : 0 ≤ auto.everyShardReplicas * (id - 1) := mul_nonneg (by omega) (by omega)
  exact genNameInRange_disjoint (by omega) name first second

/-- No pod is listed twice, neither in two shapes nor in one. -/
theorem pods_apart (laidOut : layout flags spec = some shapes) :
    shapes.Pairwise (fun left right => ∀ name ∈ left.pods, name ∉ right.pods) ∧
      ∀ shape ∈ shapes, shape.pods.Nodup := by
  cases isAuto : spec.auto with
  | none =>
    have empty : shapes = [] := by simpa [layout, isAuto] using laidOut.symm
    simp [empty]
  | some auto =>
    obtain ⟨canary, isCanary⟩ := exists_canary isAuto laidOut
    have pods := pods_layout isAuto isCanary laidOut
    have normals : ((intsFrom 1 auto.shardingSize).map
        (normalPods spec auto (canaryReplicas canary))).Pairwise
          fun left right => ∀ name ∈ left, name ∉ right := by
      rw [List.pairwise_map]
      exact (intsFrom_pairwise).imp normalPods_disjoint
    constructor
    · rw [← List.pairwise_map (f := Shape.pods) (R := fun left right => ∀ name ∈ left,
        name ∉ right), pods]
      apply List.pairwise_append.mpr
      refine ⟨by split <;> simp, normals, ?_⟩
      intro left first right second
      split at first
      · rw [List.mem_singleton.mp first]
        obtain ⟨id, inRange, rfl⟩ := List.mem_map.mp second
        exact canaryPods_disjoint (mem_intsFrom.mp inRange).1
      · simp at first
    · intro shape member
      have listed : shape.pods ∈ shapes.map (·.pods) := List.mem_map_of_mem member
      rw [pods, List.mem_append] at listed
      cases listed with
      | inl first =>
        split at first
        · rw [List.mem_singleton.mp first]
          exact nodup_genNameInRange
        · simp at first
      | inr second =>
        obtain ⟨id, -, isPods⟩ := List.mem_map.mp second
        rw [← isPods]
        exact nodup_genNameInRange

/-- Together the children list the pods up to the count of the root, and no other. -/
theorem mem_pods_iff (isAuto : spec.auto = some auto) (isCanary : spec.canary = some canary)
    (laidOut : layout flags spec = some shapes) (canaryPods : 0 ≤ canaryReplicas canary)
    (shards : 1 ≤ auto.shardingSize) (every : 1 ≤ auto.everyShardReplicas) (name : String) :
    (∃ shape ∈ shapes, name ∈ shape.pods) ↔
      ∃ k, 0 ≤ k ∧ k < canaryReplicas canary + auto.shardingSize * auto.everyShardReplicas ∧
        name = podName spec k := by
  have pods := pods_layout isAuto isCanary laidOut
  have total : podCount auto (canaryReplicas canary) =
      canaryReplicas canary + auto.shardingSize * auto.everyShardReplicas := by
    rw [podCount, max_eq_left (by omega), mul_comm]
  have first : (∃ names ∈ (if wantsCanary canary then
        [genNameInRange spec.targetStatefulSet 0 (canaryReplicas canary - 1)] else []),
      name ∈ names) ↔ ∃ i, 0 ≤ i ∧ i ≤ canaryReplicas canary - 1 ∧ podName spec i = name := by
    by_cases wanted : wantsCanary canary = true
    · simp [wanted, mem_genNameInRange]
    · have count : canaryReplicas canary = 0 := by simp [canaryReplicas, wanted]
      have none : ¬∃ i, 0 ≤ i ∧ i ≤ canaryReplicas canary - 1 ∧ podName spec i = name := by
        intro ⟨i, low, high, _⟩
        omega
      rw [if_neg wanted]
      exact iff_of_false (by simp) none
  have normal : (∃ names ∈ (intsFrom 1 auto.shardingSize).map
        (normalPods spec auto (canaryReplicas canary)), name ∈ names) ↔
      ∃ id ∈ intsFrom 1 auto.shardingSize, ∃ i,
        canaryReplicas canary + auto.everyShardReplicas * (id - 1) ≤ i ∧
          i ≤ canaryReplicas canary + auto.everyShardReplicas * id - 1 ∧
            podName spec i = name := by
    simp [normalPods, mem_genNameInRange]
  have covered := not_congr (@pods_covered auto _ canaryPods (fun _ => by omega)
    fun i => podName spec i ≠ name)
  simp only [total, not_and_or, not_forall, not_not, exists_prop] at covered
  calc (∃ shape ∈ shapes, name ∈ shape.pods)
      ↔ ∃ names ∈ shapes.map (·.pods), name ∈ names := by simp
    _ ↔ _ := by
      simp only [pods, List.mem_append, or_and_right, exists_or, first, normal]
      exact covered
    _ ↔ _ := by simp only [eq_comm]

/-- The pods a child lists are those of its shape. -/
theorem podNames_child (shape : Shape) (hash : String) :
    podNames (shape.child hash root) = shape.pods := by
  simp [podNames, Shape.child, childOf, childSelector]

/-- A child claims the pods it lists, if all names it lists are label values. -/
theorem claimsPod_child {shape : Shape} {hash name : String} {podLabels : LabelSet}
    (labelled : podLabels.lookup "statefulset.kubernetes.io/pod-name" = some name)
    (base : labelSelectorMatches root.spec.selector podLabels = some true) :
    claimsPod podLabels (shape.child hash root) = true ↔
      name ∈ shape.pods ∧ ∀ value ∈ shape.pods, isValidLabelValue value = true := by
  cases isSelector : root.spec.selector with
  | none => simp [isSelector, labelSelectorMatches] at base
  | some sel =>
    rw [isSelector, labelSelectorMatches_eq_some_iff] at base
    obtain ⟨valid, accepts⟩ := base
    have old : ValidSelector root.spec.selector := by
      intro other same
      rw [isSelector] at same
      cases same
      exact valid
    have accepted : (childSelector root shape.pods).matchesLabels podLabels = true ↔
        name ∈ shape.pods := by
      obtain ⟨labels, exprs⟩ := (LabelSelector.matches_iff sel podLabels).mp accepts
      rw [LabelSelector.matches_iff]
      simp only [childSelector, isSelector, Option.getD_some, List.forall_mem_append,
        List.forall_mem_singleton, LabelSelectorRequirement.in_matches, labelled,
        Option.some.injEq, exists_eq_right']
      rw [and_iff_right labels, and_iff_right exprs]
    have selected : claimsPod podLabels (shape.child hash root) = true ↔
        ValidSelector (some (childSelector root shape.pods)) ∧
          (childSelector root shape.pods).matchesLabels podLabels = true := by
      have isChild : (shape.child hash root).spec.selector =
          some (childSelector root shape.pods) := rfl
      have noRoot : (shape.child hash root).spec.root = none := rfl
      simp only [claimsPod, isChild, noRoot, Option.isNone_none, Bool.true_and, beq_iff_eq,
        labelSelectorMatches_eq_some_iff, ValidSelector, Option.mem_def, Option.some.injEq,
        forall_eq']
    rw [selected, accepted, validSelector_child old]
    constructor
    · rintro ⟨⟨-, values⟩, member⟩
      exact ⟨member, values⟩
    · rintro ⟨member, values⟩
      exact ⟨⟨List.ne_nil_of_mem member, values⟩, member⟩

/-- Of items that exclude one another, at most one has a property. -/
theorem filter_eq_singleton {α : Type} {p : α → Bool} {items : List α} {item : α}
    (apart : items.Pairwise fun left right => ¬(p left = true ∧ p right = true))
    (member : item ∈ items) (holds : p item = true) : items.filter p = [item] := by
  induction items with
  | nil => simp at member
  | cons head items ih =>
    have ⟨others, later⟩ := List.pairwise_cons.mp apart
    by_cases here : p head = true
    · have isHead : item = head := by
        cases List.mem_cons.mp member with
        | inl same => exact same
        | inr tail => exact absurd ⟨here, holds⟩ (others item tail)
      have rest : items.filter p = [] := by
        apply List.filter_eq_nil_iff.mpr
        intro other tail also
        exact others other tail ⟨here, also⟩
      rw [List.filter_cons_of_pos here, rest, isHead]
    · have tail : item ∈ items := by
        cases List.mem_cons.mp member with
        | inl same => exact absurd (same ▸ holds) here
        | inr tail => exact tail
      rw [List.filter_cons_of_neg here]
      exact ih later tail

/-- In any order, an item is the only one with the property exactly when it has it. -/
theorem filter_eq_singleton_iff {α : Type} {p : α → Bool} {items others : List α} {item : α}
    (apart : items.Pairwise fun left right => ¬(p left = true ∧ p right = true))
    (order : others.Perm items) (member : item ∈ items) :
    others.filter p = [item] ↔ p item = true := by
  constructor
  · intro only
    have kept : item ∈ others.filter p := by rw [only]; exact List.mem_singleton_self item
    exact (List.mem_filter.mp kept).2
  · intro holds
    have only := filter_eq_singleton apart member holds
    apply List.perm_singleton.mp
    rw [← only]
    exact order.filter p

end

/-- For every root with children: no pod is listed twice. With canary pods, shards and replicas
whose count fits into an `int` no number wraps around, the children list the pods of the StatefulSet
up to their number, and the webhook finds the child of such a pod, whatever the order of the
children, exactly when the child lists label values only. -/
theorem getChild_splits (flags : Flags) (rootHash : RootHash)
    (root : ShardingConfig) (spec : ShardingConfigRoot) (children : List ShardingConfig)
    (isRoot : root.spec.root = some spec)
    (returned : getChild flags rootHash root = some children) :
    children.Pairwise (fun left right => ∀ name ∈ podNames left, name ∉ podNames right) ∧
    (∀ child ∈ children, (podNames child).Nodup) ∧
    ∀ auto canary, spec.auto = some auto → spec.canary = some canary →
      0 ≤ canaryReplicas canary → 1 ≤ auto.shardingSize → 1 ≤ auto.everyShardReplicas →
      canaryReplicas canary + auto.shardingSize * auto.everyShardReplicas < 2 ^ 63 →
      (∀ id, 1 ≤ id → id ≤ auto.shardingSize →
        (podRange64 (.ofInt (canaryReplicas canary)) (.ofInt auto.everyShardReplicas)
            (.ofInt id)).1.toInt = canaryReplicas canary + auto.everyShardReplicas * (id - 1) ∧
        (podRange64 (.ofInt (canaryReplicas canary)) (.ofInt auto.everyShardReplicas)
            (.ofInt id)).2.toInt = canaryReplicas canary + auto.everyShardReplicas * id - 1) ∧
      (∀ name, (∃ child ∈ children, name ∈ podNames child) ↔
        ∃ k, 0 ≤ k ∧ k < canaryReplicas canary + auto.shardingSize * auto.everyShardReplicas ∧
          name = podName spec k) ∧
      ∀ k podLabels, 0 ≤ k →
        k < canaryReplicas canary + auto.shardingSize * auto.everyShardReplicas →
        podLabels.lookup "statefulset.kubernetes.io/pod-name" = some (podName spec k) →
        labelSelectorMatches root.spec.selector podLabels = some true →
        ∃ child ∈ children, podName spec k ∈ podNames child ∧
          ∀ items, items.Perm children →
            (injectByShardingConfig podLabels items = .ok child ↔
              ∀ name ∈ podNames child, isValidLabelValue name = true) := by
  rw [getChild_eq_layout isRoot] at returned
  obtain ⟨shapes, laidOut, rfl⟩ := Option.map_eq_some_iff.mp returned
  have ⟨apart, once⟩ := pods_apart laidOut
  have members : ∀ name, (∃ child ∈ shapes.map (·.child (rootHash spec) root),
      name ∈ podNames child) ↔ ∃ shape ∈ shapes, name ∈ shape.pods := by
    intro name
    simp [podNames_child]
  refine ⟨?_, ?_, ?_⟩
  · rw [List.pairwise_map]
    simpa only [podNames_child] using apart
  · simpa only [List.forall_mem_map, podNames_child] using once
  intro auto canary isAuto isCanary canaryPods shards every fits
  refine ⟨fun id first last => podRange64_eq canaryPods every first last fits, ?_⟩
  have union := mem_pods_iff isAuto isCanary laidOut canaryPods shards every
  refine ⟨fun name => (members name).trans (union name), ?_⟩
  intro k podLabels low high labelled base
  obtain ⟨shape, member, listed⟩ := (union (podName spec k)).mpr ⟨k, low, high, rfl⟩
  refine ⟨shape.child (rootHash spec) root, List.mem_map_of_mem member, ?_, ?_⟩
  · rw [podNames_child]
    exact listed
  intro items order
  have exclusive : (shapes.map (·.child (rootHash spec) root)).Pairwise fun left right =>
      ¬(claimsPod podLabels left = true ∧ claimsPod podLabels right = true) := by
    rw [List.pairwise_map]
    apply apart.imp
    intro left right disjoint ⟨first, second⟩
    exact disjoint _ ((claimsPod_child labelled base).mp first).1
      ((claimsPod_child labelled base).mp second).1
  rw [injectByShardingConfig_ok, filter_eq_singleton_iff exclusive order
    (List.mem_map_of_mem member), claimsPod_child labelled base, podNames_child]
  exact and_iff_right listed

/-- The root of a StatefulSet with one canary pod and one shard of the given number of pods. -/
def splitRoot (stem : String) (every : Int) : ShardingConfigRoot where
  disable := none
  namePrefix := "shard"
  targetStatefulSet := stem
  canary := some { replicas := some 1, inNamespaces := ["canary"], inShardHash := [] }
  auto := some { everyShardReplicas := every, shardingSize := 1 }
  resourceSelector := []

/-- A ShardingConfig with this root, for all pods of the namespace. -/
def splitConfig (spec : ShardingConfigRoot) : ShardingConfig where
  metadata := { name := "root", namespace_ := "ns" }
  spec := {
    selector := some {}, controller := none, webhook := none, limits := none, root := some spec }

/-- The first pod of the shard, with its label. -/
def podLabels (spec : ShardingConfigRoot) : LabelSet :=
  AList.singleton "statefulset.kubernetes.io/pod-name" (podName spec 1)

/-- The webhook finds the child for the pod `sts-1` of three pods. -/
theorem getChild_splits_three :
    ∃ child ∈ (getChild {} (fun _ => "hash") (splitConfig (splitRoot "sts" 2))).getD [],
      injectByShardingConfig (podLabels (splitRoot "sts" 2))
        ((getChild {} (fun _ => "hash") (splitConfig (splitRoot "sts" 2))).getD []) =
          .ok child := by
  have split := (getChild_splits {} (fun _ => "hash") (splitConfig (splitRoot "sts" 2)) _ _
    rfl rfl).2.2 _ _ rfl rfl (by decide) (by decide) (by decide) (by decide)
  obtain ⟨child, member, -, found⟩ := split.2.2 1 (podLabels (splitRoot "sts" 2)) (by decide)
    (by decide) (by decide) (by decide)
  refine ⟨child, member, (found _ (List.Perm.refl _)).mpr ?_⟩
  intro name listed
  obtain ⟨k, low, high, rfl⟩ := (split.2.1 name).mp ⟨child, member, listed⟩
  have three : k < 3 := high
  have few : k = 0 ∨ k = 1 ∨ k = 2 := by omega
  rcases few with rfl | rfl | rfl <;> decide

/-- A name that leaves room for one digit in a label value. -/
def longName : String := "statefulset-with-a-name-of-sixty-one-characters-aaaaaaaaaaaaa"

/-- The shard of eleven pods lists a name that is too long for a label value, so its selector is
passed over and none of its pods is let in. -/
theorem long_names_not_found :
    ¬∀ (flags : Flags) (rootHash : RootHash) (root : ShardingConfig)
      (spec : ShardingConfigRoot) (children : List ShardingConfig) (auto : AutoConfig)
      (canary : CanaryConfig) (replicas k : Int) (podLabels : LabelSet),
      root.spec.root = some spec → getChild flags rootHash root = some children →
      spec.auto = some auto → spec.canary = some canary → canary.replicas = some replicas →
      0 ≤ replicas → 1 ≤ auto.shardingSize → 1 ≤ auto.everyShardReplicas → 0 ≤ k →
      replicas + auto.shardingSize * auto.everyShardReplicas < 2 ^ 63 →
      k < replicas + auto.shardingSize * auto.everyShardReplicas →
      podLabels.lookup "statefulset.kubernetes.io/pod-name" = some (podName spec k) →
      labelSelectorMatches root.spec.selector podLabels = some true →
      ∃ child, injectByShardingConfig podLabels children = .ok child := by
  intro found
  obtain ⟨child, injected⟩ := found {} (fun _ => "hash") (splitConfig (splitRoot longName 10))
    (splitRoot longName 10) _ _ _ 1 1 (podLabels (splitRoot longName 10)) rfl rfl rfl rfl rfl
    (by decide) (by decide) (by decide) (by decide) (by decide) (by decide) (by decide) (by decide)
  have only := injectByShardingConfig_ok.mp injected
  have kept := only.symm ▸ List.mem_singleton_self child
  have ⟨member, claimed⟩ := List.mem_filter.mp kept
  have shapes : ∃ shape ∈ [canaryShape {} (splitRoot longName 10)
        { replicas := some 1, inNamespaces := ["canary"], inShardHash := [] } 1,
      normalShape {} (splitRoot longName 10) { everyShardReplicas := 10, shardingSize := 1 }
        { replicas := some 1, inNamespaces := ["canary"], inShardHash := [] } 1 1],
      Shape.child shape "hash" (splitConfig (splitRoot longName 10)) = child :=
    List.mem_map.mp member
  obtain ⟨shape, isShape, rfl⟩ := shapes
  have labelled : (podLabels (splitRoot longName 10)).lookup "statefulset.kubernetes.io/pod-name" =
      some (podName (splitRoot longName 10) 1) := by decide
  have ⟨listed, values⟩ := (claimsPod_child labelled (by decide)).mp claimed
  cases List.mem_cons.mp isShape with
  | inl canary =>
    rw [canary] at listed
    revert listed
    decide
  | inr normal =>
    rw [List.mem_singleton.mp normal] at values
    have last := values (podName (splitRoot longName 10) 10) (by decide)
    revert last
    decide

end CtrlMesh.Sharding
