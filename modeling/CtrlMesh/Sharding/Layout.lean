import CtrlMesh.Sharding.Partition

/-!
# What a root lays out for its children

The names, the pods and the limits of the children depend on `Spec.Root` alone. The rest of a child
is taken from the root object: its namespace and name, its pod selector and its servers.
-/

namespace CtrlMesh.Sharding

open Labels Api

/-- The part of a child that `Spec.Root` determines. -/
structure Shape where
  name : String
  pods : List String
  limits : List ObjectLimiter
  deriving DecidableEq

/-- The child of this shape. -/
def Shape.child (shape : Shape) (hash : String) (root : ShardingConfig) : ShardingConfig :=
  childOf hash root shape.name shape.pods shape.limits

variable (flags : Flags)

/-- The shape of the canary child. -/
def canaryShape (spec : ShardingConfigRoot) (canary : CanaryConfig) (replicas : Int) : Shape where
  name := spec.namePrefix ++ "-0-canary"
  pods := genNameInRange spec.targetStatefulSet 0 (replicas - 1)
  limits := genCanaryLimits flags canary spec.resourceSelector

/-- The shape of a normal child. -/
def normalShape (spec : ShardingConfigRoot) (auto : AutoConfig) (canary : CanaryConfig)
    (replicas id : Int) : Shape where
  name := spec.namePrefix ++ "-" ++ toString id ++ "-normal"
  pods := genNameInRange spec.targetStatefulSet (replicas + auto.everyShardReplicas * (id - 1))
    (replicas + auto.everyShardReplicas * id - 1)
  limits := genShardingGlobalLimits flags canary replicas (getRange id auto.shardingSize 32).2.2
    spec.resourceSelector

/-- The shapes of the children, in the order of `getChild`. -/
def layout (spec : ShardingConfigRoot) : Option (List Shape) :=
  match spec.auto with
  | none => some []
  | some auto => do
    let canary ← spec.canary
    let normal := fun (canary : CanaryConfig) (replicas : Int) =>
      (intsFrom 1 auto.shardingSize).map (normalShape flags spec auto canary replicas)
    if wantsCanary canary then
      let replicas ← canary.replicas
      some (canaryShape flags spec canary replicas :: normal canary replicas)
    else
      some (normal { canary with replicas := some 0 } 0)

variable {flags} {rootHash : RootHash} {root : ShardingConfig}
  {spec : ShardingConfigRoot}

/-- The children are those of the shapes. -/
theorem getChild_eq_layout (isRoot : root.spec.root = some spec) :
    getChild flags rootHash root =
      (layout flags spec).map fun shapes => shapes.map (·.child (rootHash spec) root) := by
  simp only [getChild, layout, isRoot, Option.bind_eq_bind, Option.bind_some]
  cases isAuto : spec.auto with
  | none => rfl
  | some auto =>
    cases isCanary : spec.canary with
    | none => rfl
    | some canary =>
      dsimp only [Option.bind_some]
      split
      · cases canary.replicas with
        | none => rfl
        | some replicas =>
          simp only [Option.bind_some, Option.map_some, List.map_cons, List.map_map]
          rfl
      · simp only [Option.map_some, List.map_map]
        rfl

/-- No ordinal comes twice. -/
theorem nodup_intsFrom {s t : Int} : (intsFrom s t).Nodup :=
  (intsFrom_pairwise).imp ne_of_lt

/-- The numbers of the normal children tell them apart. -/
theorem normalName_inj {stem : String} {i j : Int}
    (same : stem ++ "-" ++ toString i ++ "-normal" = stem ++ "-" ++ toString j ++ "-normal") :
    i = j := by
  rw [String.append_left_inj, String.append_right_inj] at same
  exact toString_inj.mp same

/-- The canary has a name of its own. -/
theorem canaryName_ne {stem : String} {i : Int} :
    stem ++ "-0-canary" ≠ stem ++ "-" ++ toString i ++ "-normal" := by
  intro same
  have last := congrArg (fun text => text.toList.getLast?) same
  simp [List.getLast?_cons] at last

/-- No two children have the same name. -/
theorem nodup_layout {shapes : List Shape} (laidOut : layout flags spec = some shapes) :
    (shapes.map (·.name)).Nodup := by
  unfold layout at laidOut
  cases isAuto : spec.auto with
  | none =>
    rw [isAuto] at laidOut
    cases laidOut
    exact List.nodup_nil
  | some auto =>
    have normal : ∀ canary replicas, (((intsFrom 1 auto.shardingSize).map
        (normalShape flags spec auto canary replicas)).map (·.name)).Nodup := by
      intro canary replicas
      rw [List.map_map]
      exact (nodup_intsFrom).map fun i j same => normalName_inj same
    rw [isAuto] at laidOut
    obtain ⟨canary, -, laidOut⟩ := Option.bind_eq_some_iff.mp laidOut
    split at laidOut
    · obtain ⟨replicas, -, laidOut⟩ := Option.bind_eq_some_iff.mp laidOut
      cases laidOut
      rw [List.map_cons, List.nodup_cons]
      refine ⟨?_, normal canary replicas⟩
      rw [List.map_map, List.mem_map]
      rintro ⟨id, -, same⟩
      exact canaryName_ne same.symm
    · cases laidOut
      exact normal _ _

end CtrlMesh.Sharding
