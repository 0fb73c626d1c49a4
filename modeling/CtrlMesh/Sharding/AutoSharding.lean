import CtrlMesh.Api.ShardingConfig
import CtrlMesh.Lib.Binary64

/-!
# Generating the children of a root ShardingConfig

`getChild` of `auto_sharding.go` and its helpers, and the root checks of the validating webhook.
`GetMD5Hash(DumpJSON(root))` is the parameter `rootHash`. A nil dereference is `none`. An `int` is
unbounded here where the number of pods fits into one: every count below is the length of a list the
code builds in memory.
-/

namespace CtrlMesh.Sharding

open Labels Api Lib

/-- The type of `GetMD5Hash(DumpJSON(root))`. -/
abbrev RootHash := ShardingConfigRoot → String

/-- `validateRootConfig`, with its error texts. -/
def validateRootConfig (root : ShardingConfigRoot) : Except String Unit := do
  if let some canary := root.canary then
    if canary.inShardHash.length = 0 ∧ canary.inNamespaces.length = 0 then
      throw "canary config must have at least one inShardHash or inNamespaces"
    if canary.replicas = none then
      throw "canary shard replicas must not be nil"
  if let some auto := root.auto then
    if auto.everyShardReplicas = 0 ∨ auto.shardingSize = 0 then
      throw "illegal root auto config"

/-- The integers `s, s + 1, …, t`: the values of `for i := s; i <= t; i++`. -/
def intsFrom (s t : Int) : List Int :=
  (List.range (t + 1 - s).toNat).map fun (i : Nat) => s + (i : Int)

/-- `genNameInRange`. -/
def genNameInRange (stem : String) (s t : Int) : List String :=
  (intsFrom s t).map fun i => stem ++ "-" ++ toString i

/-- `int(math.Ceil(float64(all) / float64(shardingSize)))`. -/
def batchSize (shardingSize all : Int) : Int :=
  ⌈Binary64.div (Binary64.ofInt all) (Binary64.ofInt shardingSize)⌉

/-- `getRange`, where the products fit into an `int`: `getRange64_batch`. -/
def getRange (id shardingSize all : Int) : Int × Int × List String :=
  let s := batchSize shardingSize all * (id - 1)
  let last := batchSize shardingSize all * id - 1
  let t := if last > all - 1 then all else last
  (s, t, (intsFrom s (min t (all - 1))).map toString)

/-- `getRange` for every `int`, with products that wrap around. Only a batch size of `2 ^ 63` does
not fit `int(batchSize)`; amd64 makes it the least `int`, as `Int64.ofInt` does. -/
def getRange64 (id shardingSize all : Int64) : Int64 × Int64 × List String :=
  let size := Int64.ofInt (batchSize shardingSize.toInt all.toInt)
  let s := size * (id - 1)
  let last := size * id - 1
  let t := if last > all - 1 then all else last
  (s, t, (intsFrom s.toInt (min t.toInt (all.toInt - 1))).map toString)

/-- `clearSame`. The `continue` continues the inner loop. -/
def clearSame (data target : List String) : List String := Id.run do
  let mut result := []
  for id in data do
    for targetId in target do
      if id = targetId then
        continue
    result := result ++ [id]
  return result

/-- A copy of a limiter's selector with further expressions appended; nil starts empty. -/
def restrict (limiter : ObjectLimiter) (exprs : List LabelSelectorRequirement) : ObjectLimiter :=
  let selector := limiter.selector.getD {}
  { limiter with
    selector := some { selector with matchExpressions := selector.matchExpressions ++ exprs } }

/-- The expressions `genCanaryLimits` appends to every limit. -/
def canaryExprs (flags : Flags) (canary : CanaryConfig) : List LabelSelectorRequirement :=
  (if canary.inNamespaces.length > 0 then
    [⟨flags.namespaceShardLabel, .in_, canary.inNamespaces⟩] else []) ++
  (if canary.inShardHash.length > 0 then
    [⟨flags.shardHashLabel, .in_, canary.inShardHash⟩] else [])

/-- `genCanaryLimits`. -/
def genCanaryLimits (flags : Flags) (canary : CanaryConfig) (origin : List ObjectLimiter) :
    List ObjectLimiter :=
  origin.map fun limiter => restrict limiter (canaryExprs flags canary)

/-- The expressions `genShardingGlobalLimits` appends to every limit, for the canary settings and
the replica count in force. -/
def normalExprs (flags : Flags) (canary : CanaryConfig) (replicas : Int) (batch : List String) :
    List LabelSelectorRequirement :=
  (if canary.inNamespaces.length > 0 ∧ replicas > 0 then
    [⟨flags.namespaceShardLabel, .notIn, canary.inNamespaces⟩] else []) ++
  (if canary.inShardHash.length > 0 ∧ replicas > 0 then
    [⟨flags.shardHashLabel, .notIn, canary.inShardHash⟩] else []) ++
  [⟨flags.shardHashLabel, .in_, batch⟩]

/-- `genShardingGlobalLimits`. Its nil checks of the canary never fail: `getChild` has read
`Canary.Replicas` before. -/
def genShardingGlobalLimits (flags : Flags) (canary : CanaryConfig) (replicas : Int)
    (batch : List String) (origin : List ObjectLimiter) : List ObjectLimiter :=
  let batch := if canary.inShardHash.length > 0 then clearSame batch canary.inShardHash else batch
  origin.map fun limiter => restrict limiter (normalExprs flags canary replicas batch)

/-- A slice built by `append` from nil: nil when nothing was appended. -/
def appended {α : Type} (items : List α) : Option (List α) :=
  if items.isEmpty then none else some items

/-- The pod selector of a child: the root's with the pod names appended. -/
def childSelector (root : ShardingConfig) (names : List String) : LabelSelector :=
  let selector := root.spec.selector.getD {}
  { selector with matchExpressions := selector.matchExpressions ++
      [⟨"statefulset.kubernetes.io/pod-name", .in_, names⟩] }

/-- The child object both branches of `getChild` build. -/
def childOf (hash : String) (root : ShardingConfig) (name : String) (names : List String)
    (limits : List ObjectLimiter) : ShardingConfig where
  metadata := {
    name := name
    namespace_ := root.metadata.namespace_
    annotations := AList.singleton autoShardingHashAnno hash
    labels := AList.singleton autoShardingRootLabel root.metadata.name }
  spec := {
    selector := some (childSelector root names)
    controller := root.spec.controller
    webhook := root.spec.webhook
    limits := appended limits
    root := none }

/-- The guard of the canary branch of `getChild`. -/
def wantsCanary (canary : CanaryConfig) : Bool :=
  canary.replicas.isSome && (canary.inNamespaces.length > 0 || canary.inShardHash.length > 0)

/-- The canary child. -/
def canaryChild (flags : Flags) (hash : String) (root : ShardingConfig)
    (spec : ShardingConfigRoot) (canary : CanaryConfig) (replicas : Int) : ShardingConfig :=
  childOf hash root (spec.namePrefix ++ "-0-canary")
    (genNameInRange spec.targetStatefulSet 0 (replicas - 1))
    (genCanaryLimits flags canary spec.resourceSelector)

/-- The numbers of the first and the last pod of a normal child, as `getChild` computes them with
`int`s. -/
def podRange64 (replicas everyShardReplicas id : Int64) : Int64 × Int64 :=
  (replicas + everyShardReplicas * (id - 1), replicas + everyShardReplicas * id - 1)

/-- The normal child with number `id`, where the numbers of its pods fit into an `int`:
`podRange64_eq`. -/
def normalChild (flags : Flags) (hash : String) (root : ShardingConfig)
    (spec : ShardingConfigRoot) (auto : AutoConfig) (canary : CanaryConfig) (replicas id : Int) :
    ShardingConfig :=
  childOf hash root (spec.namePrefix ++ "-" ++ toString id ++ "-normal")
    (genNameInRange spec.targetStatefulSet (replicas + auto.everyShardReplicas * (id - 1))
      (replicas + auto.everyShardReplicas * id - 1))
    (genShardingGlobalLimits flags canary replicas (getRange id auto.shardingSize 32).2.2
      spec.resourceSelector)

/-- `getChild`. Without a canary the else branch writes through a nil pointer. An unwanted one gets
zero replicas, which the normal children then read. -/
def getChild (flags : Flags) (rootHash : RootHash) (root : ShardingConfig) :
    Option (List ShardingConfig) := do
  let spec ← root.spec.root
  match spec.auto with
  | none => some []
  | some auto =>
    let hash := rootHash spec
    let canary ← spec.canary
    let normal := fun (canary : CanaryConfig) (replicas : Int) =>
      (intsFrom 1 auto.shardingSize).map (normalChild flags hash root spec auto canary replicas)
    if wantsCanary canary then
      let replicas ← canary.replicas
      some (canaryChild flags hash root spec canary replicas :: normal canary replicas)
    else
      some (normal { canary with replicas := some 0 } 0)

end CtrlMesh.Sharding
