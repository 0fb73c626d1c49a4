import CtrlMesh.Lib.Decimal
import CtrlMesh.Sharding.AutoSharding

/-!
# The shards of one root divide its objects

Every child refines each limit of its root by label expressions over the namespace label and the
shard-hash label. The 32 hash buckets are divided among the normal children by `getRange`; the
canary child takes some namespaces and hashes away from them. This module proves which objects
some child admits and that no two children with pods admit the same object.
-/

namespace CtrlMesh.Sharding

open Labels Api Lib

/-- Whether a limiter admits an object with these labels. -/
def admits (limiter : ObjectLimiter) (ls : LabelSet) : Bool :=
  match limiter.selector with
  | none => true
  | some selector => selector.matchesLabels ls

/-- Whether the limit at index `j` of a config admits an object with these labels. -/
def limitAdmits (cfg : ShardingConfig) (j : Nat) (ls : LabelSet) : Bool :=
  match (cfg.spec.limits.getD [])[j]? with
  | none => false
  | some limiter => admits limiter ls

/-- The pod names a generated child lists: the values of the expression appended last. -/
def podNames (cfg : ShardingConfig) : List String :=
  match cfg.spec.selector with
  | none => []
  | some selector => ((selector.matchExpressions.getLast?).map (·.values)).getD []

variable {s t k : Int}

/-- The ordinals from the first to the last. -/
@[simp]
theorem mem_intsFrom {i : Int} : i ∈ intsFrom s t ↔ s ≤ i ∧ i ≤ t := by
  simp only [intsFrom, List.mem_map, List.mem_range]
  constructor
  · rintro ⟨k, bound, rfl⟩
    omega
  · intro bounds
    exact ⟨(i - s).toNat, by omega, by omega⟩

/-- A range lists its integers in ascending order, each once. -/
theorem intsFrom_pairwise : (intsFrom s t).Pairwise (· < ·) := by
  rw [intsFrom, List.pairwise_map]
  exact List.pairwise_lt_range.imp fun less => by omega

/-- Decimal numerals of different integers differ. -/
theorem toString_inj {a b : Int} : toString a = toString b ↔ a = b := by
  rw [Lib.toString_eq_decimal, Lib.toString_eq_decimal, String.ofList_inj,
    Lib.decimal_injective.eq_iff]

variable {shardingSize all : Int}

/-- The batch of one shard holds exactly the buckets between its two ends. -/
theorem mem_getRange {id : Int} (inside : k < all) :
    toString k ∈ (getRange id shardingSize all).2.2 ↔
      batchSize shardingSize all * (id - 1) ≤ k ∧ k < batchSize shardingSize all * id := by
  have member : toString k ∈ (getRange id shardingSize all).2.2 ↔
      k ∈ intsFrom (getRange id shardingSize all).1
        (min (getRange id shardingSize all).2.1 (all - 1)) := by
    simp only [getRange, List.mem_map, toString_inj, exists_eq_right]
  rw [member, mem_intsFrom]
  dsimp only [getRange]
  split <;> omega

/-- Two shards never share a bucket. -/
theorem getRange_disjoint {left right : Int} (less : left < right)
    (size : 0 ≤ batchSize shardingSize all) {value : String}
    (first : value ∈ (getRange left shardingSize all).2.2) :
    value ∉ (getRange right shardingSize all).2.2 := by
  intro second
  obtain ⟨k, kRange, rfl⟩ := List.mem_map.mp first
  have inside : k < all := by
    have := (mem_intsFrom.mp kRange).2
    omega
  have upper := ((mem_getRange inside).mp first).2
  have lower := ((mem_getRange inside).mp second).1
  have step : batchSize shardingSize all * left ≤ batchSize shardingSize all * (right - 1) :=
    Int.mul_le_mul_of_nonneg_left (by omega) size
  omega

/-- The rounded quotient of two positive integers is positive. -/
theorem batchSize_pos (shards : 0 < shardingSize) (buckets : 0 < all) :
    0 < batchSize shardingSize all := by
  have numerator : 0 < Binary64.ofInt all := Binary64.ofRat_pos (by exact_mod_cast buckets)
  have denominator : 0 < Binary64.ofInt shardingSize :=
    Binary64.ofRat_pos (by exact_mod_cast shards)
  exact Int.ceil_pos.mpr (Binary64.ofRat_pos (div_pos numerator denominator))

/-- The batches of all shards together reach the last of the 32 buckets. -/
theorem batchSize_reaches (shards : 0 < shardingSize) :
    32 ≤ batchSize shardingSize 32 * shardingSize := by
  have positive := batchSize_pos shards (show (0 : Int) < 32 by decide)
  by_cases small : shardingSize < 32
  · have exact : ∀ n ∈ intsFrom 1 31, 32 ≤ batchSize n 32 * n := by decide +kernel
    exact exact shardingSize (mem_intsFrom.mpr ⟨by omega, by omega⟩)
  · nlinarith only [positive, small, shards]

/-- Every bucket lies in the batch of some shard. -/
theorem getRange_covers (shards : 0 < shardingSize) (low : 0 ≤ k) (high : k < 32) :
    ∃ id ∈ intsFrom 1 shardingSize, toString k ∈ (getRange id shardingSize 32).2.2 := by
  have positive := batchSize_pos shards (show (0 : Int) < 32 by decide)
  have reaches := batchSize_reaches shards
  let size := batchSize shardingSize 32
  have quotient : size * (k / size) ≤ k := Int.mul_ediv_self_le (ne_of_gt positive)
  have remainder : k < size * (k / size) + size := Int.lt_mul_ediv_self_add positive
  have nonnegative : 0 ≤ k / size := Int.ediv_nonneg low positive.le
  have below : k / size < shardingSize := by
    apply Int.ediv_lt_of_lt_mul positive
    rw [Int.mul_comm]
    exact lt_of_lt_of_le high reaches
  refine ⟨k / size + 1, mem_intsFrom.mpr ⟨by omega, by omega⟩, (mem_getRange high).mpr ⟨?_, ?_⟩⟩
  · simpa using quotient
  · simpa only [Int.mul_add, Int.mul_one] using remainder

/-- The jump in the loop over `target` skips nothing, so every element of `data` is kept. -/
theorem clearSame_eq (data target : List String) : clearSame data target = data := by
  simp [clearSame, ← List.flatMap_def]

variable {ls : LabelSet} {hash : String} {root : ShardingConfig} {j : Nat} {flags : Flags}
  {canary : CanaryConfig} {replicas : Int} {spec : ShardingConfigRoot} {auto : AutoConfig}

/-- A restricted limiter admits what the original admits and the added expressions accept. -/
theorem admits_restrict (limiter : ObjectLimiter) (exprs : List LabelSelectorRequirement) :
    admits (restrict limiter exprs) ls = true ↔
      admits limiter ls = true ∧ ∀ e ∈ exprs, e.matchesLabels ls = true := by
  cases selector : limiter.selector with
  | none => simp [admits, restrict, selector, LabelSelector.matchesLabels, AList.empty_entries]
  | some selector => simp [admits, restrict, selector, LabelSelector.matchesLabels, and_assoc]

/-- A child whose limits are the root's, each restricted by the same expressions. -/
theorem limitAdmits_childOf (name : String) (names : List String) (origin : List ObjectLimiter)
    (exprs : List LabelSelectorRequirement) :
    limitAdmits (childOf hash root name names (origin.map (restrict · exprs))) j ls = true ↔
      (∃ limiter, origin[j]? = some limiter ∧ admits limiter ls = true) ∧
        ∀ e ∈ exprs, e.matchesLabels ls = true := by
  have limits (items : List ObjectLimiter) : (appended items).getD [] = items := by
    cases items <;> rfl
  simp only [limitAdmits, childOf, limits, List.getElem?_map]
  cases origin[j]? with
  | none => simp
  | some limiter => simp [admits_restrict]

/-- What the canary expressions ask of an object. -/
theorem canaryExprs_match :
    (∀ e ∈ canaryExprs flags canary, e.matchesLabels ls = true) ↔
      (canary.inNamespaces ≠ [] →
        ∃ ns ∈ canary.inNamespaces, ls.lookup flags.namespaceShardLabel = some ns) ∧
      (canary.inShardHash ≠ [] →
        ∃ hash ∈ canary.inShardHash, ls.lookup flags.shardHashLabel = some hash) := by
  by_cases spaces : canary.inNamespaces = [] <;> by_cases hashes : canary.inShardHash = [] <;>
    simp [canaryExprs, spaces, hashes, List.length_pos_iff]

/-- What the expressions of a normal child ask of an object. -/
theorem normalExprs_match (batch : List String) :
    (∀ e ∈ normalExprs flags canary replicas batch, e.matchesLabels ls = true) ↔
      (0 < replicas →
        (∀ ns ∈ canary.inNamespaces, ls.lookup flags.namespaceShardLabel ≠ some ns) ∧
        ∀ hash ∈ canary.inShardHash, ls.lookup flags.shardHashLabel ≠ some hash) ∧
      ∃ hash ∈ batch, ls.lookup flags.shardHashLabel = some hash := by
  by_cases pods : 0 < replicas
  · by_cases spaces : canary.inNamespaces = [] <;> by_cases hashes : canary.inShardHash = [] <;>
      simp [normalExprs, pods, spaces, hashes, List.length_pos_iff, and_assoc]
  · simp [normalExprs, pods]

/-- The objects a normal child admits under limit `j`. -/
theorem limitAdmits_normal (flags : Flags) (hash : String) (root : ShardingConfig)
    (spec : ShardingConfigRoot) (auto : AutoConfig) (canary : CanaryConfig) (replicas id : Int)
    (j : Nat) (ls : LabelSet) :
    limitAdmits (normalChild flags hash root spec auto canary replicas id) j ls = true ↔
      (∃ limiter, spec.resourceSelector[j]? = some limiter ∧ admits limiter ls = true) ∧
      (0 < replicas →
        (∀ ns ∈ canary.inNamespaces, ls.lookup flags.namespaceShardLabel ≠ some ns) ∧
        ∀ hash ∈ canary.inShardHash, ls.lookup flags.shardHashLabel ≠ some hash) ∧
      ∃ hash ∈ (getRange id auto.shardingSize 32).2.2,
        ls.lookup flags.shardHashLabel = some hash := by
  simp only [normalChild, genShardingGlobalLimits, clearSame_eq, ite_self]
  rw [limitAdmits_childOf, normalExprs_match]

/-- The objects the canary child admits under limit `j`. -/
theorem limitAdmits_canary (flags : Flags) (hash : String) (root : ShardingConfig)
    (spec : ShardingConfigRoot) (canary : CanaryConfig) (replicas : Int) (j : Nat) (ls : LabelSet) :
    limitAdmits (canaryChild flags hash root spec canary replicas) j ls = true ↔
      (∃ limiter, spec.resourceSelector[j]? = some limiter ∧ admits limiter ls = true) ∧
      (canary.inNamespaces ≠ [] →
        ∃ ns ∈ canary.inNamespaces, ls.lookup flags.namespaceShardLabel = some ns) ∧
      (canary.inShardHash ≠ [] →
        ∃ hash ∈ canary.inShardHash, ls.lookup flags.shardHashLabel = some hash) := by
  rw [canaryChild, genCanaryLimits, limitAdmits_childOf, canaryExprs_match]

/-- What the webhook has checked of an accepted canary. -/
theorem accepted_canary (accepted : validateRootConfig spec = .ok ())
    (isCanary : spec.canary = some canary) :
    (canary.inNamespaces ≠ [] ∨ canary.inShardHash ≠ []) ∧
      ∃ replicas, canary.replicas = some replicas := by
  by_cases lists : canary.inShardHash.length = 0 ∧ canary.inNamespaces.length = 0
  · simp [validateRootConfig, isCanary, lists, bind, Except.bind, throw, throwThe,
      MonadExceptOf.throw] at accepted
  · cases isReplicas : canary.replicas with
    | none =>
      simp [validateRootConfig, isCanary, if_neg lists, isReplicas, bind, Except.bind, throw,
        throwThe, MonadExceptOf.throw, -List.length_eq_zero_iff] at accepted
    | some replicas =>
      refine ⟨?_, replicas, rfl⟩
      rw [List.length_eq_zero_iff, List.length_eq_zero_iff] at lists
      tauto

/-- The children of an accepted root: the canary, then the normal ones in order. -/
theorem getChild_accepted {rootHash : RootHash} {children : List ShardingConfig}
    (isRoot : root.spec.root = some spec) (accepted : validateRootConfig spec = .ok ())
    (isAuto : spec.auto = some auto) (returned : getChild flags rootHash root = some children) :
    ∃ canary replicas, spec.canary = some canary ∧ canary.replicas = some replicas ∧
      children = canaryChild flags (rootHash spec) root spec canary replicas ::
        (intsFrom 1 auto.shardingSize).map
          (normalChild flags (rootHash spec) root spec auto canary replicas) := by
  cases isCanary : spec.canary with
  | none => simp [getChild, isRoot, isAuto, isCanary] at returned
  | some canary =>
    obtain ⟨lists, replicas, isReplicas⟩ := accepted_canary accepted isCanary
    have wanted : wantsCanary canary = true := by
      simpa [wantsCanary, isReplicas, List.length_pos_iff] using lists
    refine ⟨canary, replicas, rfl, isReplicas, ?_⟩
    simpa [getChild, isRoot, isAuto, isCanary, wanted, isReplicas] using returned.symm

/-- The objects the division strands: a canary with pods names both namespaces and hashes, and the
object is in the one list but not in the other. -/
def Stranded (canary : CanaryConfig) (ns hash : String) : Prop :=
  canary.inNamespaces ≠ [] ∧ canary.inShardHash ≠ [] ∧
    (∃ replicas, canary.replicas = some replicas ∧ 0 < replicas) ∧
    ¬(ns ∈ canary.inNamespaces ↔ hash ∈ canary.inShardHash)

/-- An object the root selects is admitted by some child exactly when the canary's two lists do
not strand it. -/
theorem getChild_covers_iff (flags : Flags) (rootHash : RootHash)
    {root : ShardingConfig} {spec : ShardingConfigRoot} {auto : AutoConfig}
    {children : List ShardingConfig} (isRoot : root.spec.root = some spec)
    (accepted : validateRootConfig spec = .ok ()) (isAuto : spec.auto = some auto)
    (size : 1 ≤ auto.shardingSize) (returned : getChild flags rootHash root = some children)
    {j : Nat} {limiter : ObjectLimiter} (listed : spec.resourceSelector[j]? = some limiter)
    {ls : LabelSet} (admitted : admits limiter ls = true) {ns : String} {k : Int}
    (named : ls.lookup flags.namespaceShardLabel = some ns) (low : 0 ≤ k) (high : k < 32)
    (hashed : ls.lookup flags.shardHashLabel = some (toString k)) :
    (∃ child ∈ children, limitAdmits child j ls = true) ↔
      ∀ canary, spec.canary = some canary → ¬Stranded canary ns (toString k) := by
  obtain ⟨canary, replicas, isCanary, isReplicas, rfl⟩ :=
    getChild_accepted isRoot accepted isAuto returned
  have selected : ∃ limiter, spec.resourceSelector[j]? = some limiter ∧
      admits limiter ls = true := ⟨limiter, listed, admitted⟩
  obtain ⟨id, inRange, inBatch⟩ := getRange_covers (show 0 < auto.shardingSize by omega) low high
  simp only [isCanary, Option.some.injEq, forall_eq', Stranded, isReplicas, exists_eq_left']
  constructor
  · rintro ⟨child, member, admitsChild⟩ ⟨spaces, hashes, pods, differ⟩
    rcases List.mem_cons.mp member with rfl | member
    · -- The canary asks for both lists.
      obtain ⟨-, bySpace, byHash⟩ := (limitAdmits_canary ..).mp admitsChild
      obtain ⟨other, inSpaces, sameSpace⟩ := bySpace spaces
      obtain ⟨value, inHashes, sameHash⟩ := byHash hashes
      rw [named, Option.some.injEq] at sameSpace
      rw [hashed, Option.some.injEq] at sameHash
      subst sameSpace sameHash
      exact differ ⟨fun _ => inHashes, fun _ => inSpaces⟩
    · -- A normal child refuses both.
      obtain ⟨other, -, rfl⟩ := List.mem_map.mp member
      obtain ⟨-, excluded, -⟩ := (limitAdmits_normal ..).mp admitsChild
      obtain ⟨notSpace, notHash⟩ := excluded pods
      exact differ ⟨fun inSpaces => absurd named (notSpace ns inSpaces),
        fun inHashes => absurd hashed (notHash _ inHashes)⟩
  · intro kept
    by_cases outside : 0 < replicas → ns ∉ canary.inNamespaces ∧ toString k ∉ canary.inShardHash
    · -- No list of a canary with pods names the object: its bucket's child admits it.
      refine ⟨_, List.mem_cons_of_mem _ (List.mem_map_of_mem inRange),
        (limitAdmits_normal ..).mpr ⟨selected, ?_, toString k, inBatch, hashed⟩⟩
      intro pods
      obtain ⟨notSpace, notHash⟩ := outside pods
      refine ⟨fun other inSpaces same => ?_, fun other inHashes same => ?_⟩
      · rw [named, Option.some.injEq] at same
        exact notSpace (same ▸ inSpaces)
      · rw [hashed, Option.some.injEq] at same
        exact notHash (same ▸ inHashes)
    · -- Otherwise the object is in every list the canary sets.
      push Not at outside
      obtain ⟨pods, named'⟩ := outside
      refine ⟨_, List.mem_cons_self, (limitAdmits_canary ..).mpr ⟨selected, ?_, ?_⟩⟩
      · intro spaces
        refine ⟨ns, ?_, named⟩
        by_contra missing
        have inHashes := named' missing
        exact kept ⟨spaces, List.ne_nil_of_mem inHashes, pods,
          fun same => missing (same.mpr inHashes)⟩
      · intro hashes
        refine ⟨toString k, ?_, hashed⟩
        by_contra missing
        have inSpaces : ns ∈ canary.inNamespaces := by
          by_contra absent
          exact missing (named' absent)
        exact kept ⟨List.ne_nil_of_mem inSpaces, hashes, pods,
          fun same => missing (same.mp inSpaces)⟩

/-- A root with one canary pod that names one namespace and one hash. -/
def sampleRoot : ShardingConfig where
  metadata := { name := "root", namespace_ := "test" }
  spec := {
    selector := none
    controller := none
    webhook := none
    limits := none
    root := some {
      disable := none
      namePrefix := "test"
      targetStatefulSet := "sts-name"
      canary := some { replicas := some 1, inNamespaces := ["ns1"], inShardHash := ["0"] }
      auto := some { shardingSize := 2, everyShardReplicas := 2 }
      resourceSelector := [{ relatedResources := [], selector := none }] } }

/-- The labels of an object in namespace `ns1` with the given hash. -/
def sampleLabels (hash : String) : LabelSet :=
  (AList.singleton "ctrlmesh.kusionstack.io/shard-hash" hash).insert
    "ctrlmesh.kusionstack.io/namespace" "ns1"

/-- The object of namespace `ns1` with hash 0 is in both lists of the canary. -/
theorem getChild_covers_sample :
    (∃ child ∈ (getChild {} (fun _ => "hash") sampleRoot).getD [],
      limitAdmits child 0 (sampleLabels "0") = true) ↔
      ∀ canary, (sampleRoot.spec.root.bind (·.canary)) = some canary →
        ¬Stranded canary "ns1" (toString (0 : Int)) :=
  getChild_covers_iff {} (fun _ => "hash") (show sampleRoot.spec.root = some _ from rfl) rfl
    (show _ = some ⟨2, 2⟩ from rfl) (by decide) rfl (show _ = some ⟨[], none⟩ from rfl) rfl
    (by decide) (by decide) (by decide) (by decide)

/-- Some accepted roots leave an object without a shard: in the sample root the object of
namespace `ns1` with hash 1. -/
theorem getChild_strands_object :
    ¬∀ (flags : Flags) (rootHash : RootHash) (root : ShardingConfig)
      (spec : ShardingConfigRoot) (auto : AutoConfig) (children : List ShardingConfig)
      (j : Nat) (limiter : ObjectLimiter) (ls : LabelSet) (ns : String) (k : Int),
      root.spec.root = some spec → validateRootConfig spec = .ok () → spec.auto = some auto →
      1 ≤ auto.shardingSize → getChild flags rootHash root = some children →
      spec.resourceSelector[j]? = some limiter → admits limiter ls = true →
      ls.lookup flags.namespaceShardLabel = some ns → 0 ≤ k → k < 32 →
      ls.lookup flags.shardHashLabel = some (toString k) →
      ∃ child ∈ children, limitAdmits child j ls = true := by
  intro covered
  obtain ⟨child, member, admitted⟩ := covered {} (fun _ => "hash") sampleRoot _ ⟨2, 2⟩ _ 0
    ⟨[], none⟩ (sampleLabels "1") "ns1" 1 rfl rfl rfl (by decide) rfl rfl rfl (by decide)
    (by decide) (by decide) (by decide)
  have refused : ∀ child ∈ (getChild {} (fun _ => "hash") sampleRoot).getD [],
      limitAdmits child 0 (sampleLabels "1") = false := by decide +kernel
  rw [refused child member] at admitted
  contradiction

/-- Two normal children of one root never admit the same object. -/
theorem normal_exclusive {left right : Int} (less : left < right) (size : 0 < auto.shardingSize)
    (first : limitAdmits (normalChild flags hash root spec auto canary replicas left) j ls = true) :
    limitAdmits (normalChild flags hash root spec auto canary replicas right) j ls ≠ true := by
  intro second
  obtain ⟨-, -, value, inLeft, found⟩ := (limitAdmits_normal ..).mp first
  obtain ⟨-, -, other, inRight, found'⟩ := (limitAdmits_normal ..).mp second
  obtain rfl := Option.some.inj (found.symm.trans found')
  exact getRange_disjoint less (batchSize_pos size (by decide)).le inLeft inRight

/-- A canary child with pods and a normal child never admit the same object. -/
theorem canary_exclusive {id : Int} (pods : 0 < replicas) (wanted : wantsCanary canary = true)
    (first : limitAdmits (canaryChild flags hash root spec canary replicas) j ls = true) :
    limitAdmits (normalChild flags hash root spec auto canary replicas id) j ls ≠ true := by
  intro second
  obtain ⟨-, bySpace, byHash⟩ := (limitAdmits_canary ..).mp first
  obtain ⟨-, excluded, -⟩ := (limitAdmits_normal ..).mp second
  obtain ⟨notSpace, notHash⟩ := excluded pods
  have lists : canary.inNamespaces ≠ [] ∨ canary.inShardHash ≠ [] := by
    simp only [wantsCanary, Bool.and_eq_true, Bool.or_eq_true, decide_eq_true_eq] at wanted
    exact wanted.2.imp List.length_pos_iff.mp List.length_pos_iff.mp
  rcases lists with spaces | hashes
  · obtain ⟨ns, inSpaces, found⟩ := bySpace spaces
    exact notSpace ns inSpaces found
  · obtain ⟨value, inHashes, found⟩ := byHash hashes
    exact notHash value inHashes found

/-- The canary child lists pods only when it has replicas. -/
theorem podNames_canary
    (listed : podNames (canaryChild flags hash root spec canary replicas) ≠ []) :
    0 < replicas := by
  have names : podNames (canaryChild flags hash root spec canary replicas) =
      genNameInRange spec.targetStatefulSet 0 (replicas - 1) := by
    simp [podNames, canaryChild, childOf, childSelector]
  rw [names, genNameInRange, ne_eq, List.map_eq_nil_iff, ← ne_eq] at listed
  obtain ⟨i, member⟩ := List.exists_mem_of_ne_nil _ listed
  have := mem_intsFrom.mp member
  omega

/-- The normal children of a root exclude one another pairwise. -/
theorem normals_exclusive :
    ((intsFrom 1 auto.shardingSize).map
      (normalChild flags hash root spec auto canary replicas)).Pairwise fun left right =>
        ∀ j ls, ¬(limitAdmits left j ls = true ∧ limitAdmits right j ls = true) := by
  rw [List.pairwise_map]
  refine (List.pairwise_iff_forall_sublist.mpr ?_)
  intro left right sublist j ls ⟨first, second⟩
  have inside := mem_intsFrom.mp (sublist.subset List.mem_cons_self)
  have less := List.pairwise_iff_forall_sublist.mp intsFrom_pairwise sublist
  exact normal_exclusive less (by omega) first second

/-- No object is admitted by two children of one root that both list pods, under any limit. -/
theorem getChild_exclusive (flags : Flags) (rootHash : RootHash)
    {root : ShardingConfig} {spec : ShardingConfigRoot} {children : List ShardingConfig}
    (isRoot : root.spec.root = some spec) (accepted : validateRootConfig spec = .ok ())
    (returned : getChild flags rootHash root = some children) :
    children.Pairwise fun left right => podNames left ≠ [] → podNames right ≠ [] →
      ∀ j ls, ¬(limitAdmits left j ls = true ∧ limitAdmits right j ls = true) := by
  cases isAuto : spec.auto with
  | none =>
    have empty : children = [] := by simpa [getChild, isRoot, isAuto] using returned.symm
    simp [empty]
  | some auto =>
    obtain ⟨canary, replicas, isCanary, isReplicas, rfl⟩ :=
      getChild_accepted isRoot accepted isAuto returned
    have wanted : wantsCanary canary = true := by
      simpa [wantsCanary, isReplicas, List.length_pos_iff] using
        (accepted_canary accepted isCanary).1
    refine List.pairwise_cons.mpr ⟨?_, ?_⟩
    · intro child member listed _ j ls ⟨first, second⟩
      obtain ⟨id, -, rfl⟩ := List.mem_map.mp member
      have pods := podNames_canary listed
      exact canary_exclusive pods wanted first second
    · exact (normals_exclusive).imp
        fun exclusive _ _ => exclusive

/-- The sample root has three children with pods. -/
theorem getChild_exclusive_sample :
    ((getChild {} (fun _ => "hash") sampleRoot).getD []).Pairwise fun left right =>
      podNames left ≠ [] → podNames right ≠ [] →
        ∀ j ls, ¬(limitAdmits left j ls = true ∧ limitAdmits right j ls = true) :=
  getChild_exclusive {} (fun _ => "hash") (show sampleRoot.spec.root = some _ from rfl) rfl rfl

end CtrlMesh.Sharding
