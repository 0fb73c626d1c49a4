import CtrlMesh.Sharding.Layout
import CtrlMesh.Sharding.RootReconcile
import CtrlMesh.Webhook.ShardingConfig

/-!
# What a successful pass leaves behind

A pass for a root keeps the old children whose hash annotation is that of `Spec.Root` and creates
the ones whose names it has not met. The hash does not cover the rest of the root, and the names are
met in every namespace: a kept child can carry the servers of an earlier version of the root, and a
child can be missing because a root of the same name has one elsewhere.
-/

namespace CtrlMesh.Sharding

open Labels Api Lib Lib.Effect Webhook

/-- The config carries the name of the root in its label. -/
def Labelled (root cfg : ShardingConfig) : Prop :=
  cfg.metadata.labels.lookup autoShardingRootLabel = some root.metadata.name

/-- The labelled config has the hash of the root's specification. -/
def Current (rootHash : RootHash) (root cfg : ShardingConfig) : Prop :=
  Labelled root cfg ∧ ∃ spec, root.spec.root = some spec ∧ hashAnno cfg = rootHash spec

/-- The configs of the root's namespace that carry its name are those it describes: the same names
with the same specifications. -/
def Described (flags : Flags) (rootHash : RootHash) (root : ShardingConfig)
    (server : Server) : Prop :=
  ∃ children, getChild flags rootHash root = some children ∧
    (∀ cfg ∈ server.configs.items, cfg.metadata.namespace_ = root.metadata.namespace_ →
      Labelled root cfg → ∃ child ∈ children, child.metadata.name = cfg.metadata.name ∧
        child.spec = cfg.spec) ∧
    ∀ child ∈ children, ∃ cfg ∈ server.configs.items,
      cfg.metadata.namespace_ = root.metadata.namespace_ ∧ Labelled root cfg ∧
        cfg.metadata.name = child.metadata.name ∧ cfg.spec = child.spec

/-- Every config that carries the root's name was generated from one of the given roots. -/
def Written (flags : Flags) (rootHash : RootHash)
    (versions : List ShardingConfig)
    (root : ShardingConfig) (server : Server) : Prop :=
  ∀ cfg ∈ server.configs.items, Labelled root cfg →
    ∃ v ∈ versions, ∃ children, getChild flags rootHash v = some children ∧ cfg ∈ children

/-- The hash tells the specification of the root from those of the given roots. -/
def CollisionFree (rootHash : RootHash) (versions : List ShardingConfig)
    (root : ShardingConfig) : Prop :=
  ∀ v ∈ versions, ∀ spec spec', v.spec.root = some spec → root.spec.root = some spec' →
    rootHash spec = rootHash spec' → spec = spec'

variable {new cfg : ShardingConfig}

section Pass

variable {flags : Flags} {rootHash : RootHash}
  {childHash : List String → String} {root : ShardingConfig} {server : Server}

theorem yields_deletes {cfgs : List ShardingConfig} (distinct : cfgs.Nodup)
    (stored : ∀ cfg ∈ cfgs, cfg ∈ server.configs.items ∧ cfg.metadata.finalizers = []) :
    Yields (forM cfgs Client.delete) server fun _ server' =>
      ∀ x, x ∈ server'.configs.items ↔ x ∈ server.configs.items ∧ x ∉ cfgs := by
  induction cfgs generalizing server with
  | nil => exact yields_pure (by simp)
  | cons cfg rest ih =>
    obtain ⟨fresh, distinct⟩ := List.nodup_cons.mp distinct
    obtain ⟨⟨present, bare⟩, stored⟩ := List.forall_mem_cons.mp stored
    rw [List.forM_cons]
    refine yields_bind (Client.yields_delete present bare) fun _ middle deleted => ?_
    refine yields_mono (ih distinct fun other member => ?_) fun _ server' removed x => ?_
    · refine ⟨(deleted other).mpr ⟨(stored other member).1, ?_⟩, (stored other member).2⟩
      rintro rfl
      exact fresh member
    · rw [removed, deleted, List.mem_cons, not_or, and_assoc]

variable {children : List ShardingConfig} {spec : ShardingConfigRoot}

/-- The loop that creates the children whose names are not among the old ones. -/
theorem yields_creates {oldNames : List String} :
    Yields (forM children fun cfg =>
      if oldNames.contains cfg.metadata.name then pure () else Client.create cfg) server
      fun _ server' =>
        (∀ child ∈ children, child.metadata.name ∉ oldNames →
          ∀ x ∈ server.configs.items, x.key ≠ child.key) ∧
        ∀ x, x ∈ server'.configs.items ↔ x ∈ server.configs.items ∨
          ∃ child ∈ children, child.metadata.name ∉ oldNames ∧ x = { child with child := [] } := by
  induction children generalizing server with
  | nil => exact yields_pure (by simp)
  | cons cfg rest ih =>
    rw [List.forM_cons]
    by_cases old : cfg.metadata.name ∈ oldNames
    · rw [if_pos (by simpa using old)]
      refine yields_bind (yields_pure rfl : Yields _ server fun _ server' => server' = server) ?_
      rintro _ _ rfl
      refine yields_mono ih fun _ server' ⟨free, created⟩ => ⟨?_, fun x => ?_⟩
      · exact List.forall_mem_cons.mpr ⟨fun new => absurd old new, free⟩
      · simp [created, old]
    · rw [if_neg (by simpa using old)]
      refine yields_bind Client.yields_create fun _ middle ⟨fresh, added⟩ => ?_
      refine yields_mono ih fun _ server' ⟨free, created⟩ => ⟨?_, fun x => ?_⟩
      · refine List.forall_mem_cons.mpr ⟨fun _ => fresh, fun child member new x inside => ?_⟩
        exact free child member new x ((added x).mpr (.inr inside))
      · simp only [created, added, List.mem_cons, exists_eq_or_imp, old, not_false_eq_true,
          true_and]
        tauto

/-- The object under the root's key has the root's labels. -/
def RootAt (root : ShardingConfig) (server : Server) : Prop :=
  ∃ r ∈ server.configs.items, r.key = root.key ∧ r.metadata.labels = root.metadata.labels

/-- Two servers have the same objects, but for the root. -/
def SameBut (root : ShardingConfig) (server server' : Server) : Prop :=
  RootAt root server' ∧
    ∀ x, x.key ≠ root.key → (x ∈ server'.configs.items ↔ x ∈ server.configs.items)

theorem sameBut_put {server' : Server} {r : ShardingConfig}
    (written : server'.configs = server.configs.put r) (isKey : r.key = root.key)
    (labels : r.metadata.labels = root.metadata.labels) : SameBut root server server' := by
  refine ⟨⟨r, ?_, isKey, labels⟩, fun x other => ?_⟩
  · rw [written, Registry.mem_put]
    exact .inl rfl
  · rw [written, Registry.mem_put, isKey]
    constructor
    · rintro (rfl | ⟨member, -⟩)
      · exact absurd isKey other
      · exact member
    · exact fun member => .inr ⟨member, other⟩

theorem yields_protect (stored : server.configs.find root.key = some root) :
    Yields (protect root) server fun new server' =>
      new.key = root.key ∧ new.spec = root.spec ∧ SameBut root server server' := by
  unfold protect
  split
  · next changed =>
    have held : (addFinalizers root protectFinalizer).1.metadata.finalizers ≠ [] := by
      have bare := addFinalizers_changed.mp changed
      simp [addFinalizers, bare]
    have labels : (addFinalizers root protectFinalizer).1.metadata.labels =
        root.metadata.labels := by
      unfold addFinalizers
      split <;> rfl
    refine yields_mono (Client.yields_update held) ?_
    rintro new server' ⟨old, -, isNew, written⟩
    subst isNew
    have isKey := @addFinalizers_key root protectFinalizer
    exact ⟨isKey, addFinalizers_spec, sameBut_put written isKey labels⟩
  · exact yields_pure ⟨rfl, rfl, ⟨root, (Registry.find_some stored).1, rfl, rfl⟩, fun _ _ => .rfl⟩

theorem yields_writeSynced (isKey : new.key = root.key) (at_ : RootAt root server) :
    Yields (writeSynced childHash new children) server fun _ server' =>
      SameBut root server server' := by
  unfold writeSynced
  split
  · refine yields_bind Client.yields_updateStatus fun _ server' ⟨old, found, written⟩ => ?_
    refine yields_pure ?_
    obtain ⟨r, member, isRoot, labels⟩ := at_
    obtain ⟨member', isOld⟩ := Registry.find_some found
    rw [syncStatus_key, isKey, ← isRoot] at isOld
    obtain rfl := Registry.eq_of_key_eq member' member isOld
    exact sameBut_put written isRoot labels
  · exact yields_pure ⟨at_, fun _ _ => .rfl⟩

/-- The old children that a pass keeps have this name. -/
def KeptName (rootHash : RootHash) (root : ShardingConfig) (server : Server)
    (name : String) : Prop :=
  ∃ cfg ∈ server.configs.items, Current rootHash root cfg ∧ cfg.metadata.name = name

/-- What a pass makes of the objects but for the root: outdated children are gone, and children
whose names are not kept are new. -/
structure Passed (flags : Flags) (rootHash : RootHash) (root : ShardingConfig)
    (server server' : Server) : Prop where
  rootAt : RootAt root server'
  items : ∃ children, getChild flags rootHash root = some children ∧
    (∀ child ∈ children, ¬KeptName rootHash root server child.metadata.name →
      child.key ≠ root.key) ∧
    ∀ x, x.key ≠ root.key → (x ∈ server'.configs.items ↔
      (x ∈ server.configs.items ∧ (Labelled root x → Current rootHash root x)) ∨
        ∃ child ∈ children, ¬KeptName rootHash root server child.metadata.name ∧ x = child)

theorem getChild_congr (isKey : new.key = root.key) (isSpec : new.spec = root.spec) :
    getChild flags rootHash new = getChild flags rootHash root := by
  have names : new.metadata.name = root.metadata.name := congrArg Prod.snd isKey
  have spaces : new.metadata.namespace_ = root.metadata.namespace_ := congrArg Prod.fst isKey
  cases isRoot : root.spec.root with
  | none => simp [getChild, isSpec, isRoot]
  | some spec =>
    rw [getChild_eq_layout isRoot, getChild_eq_layout (isSpec ▸ isRoot)]
    simp only [Shape.child, childOf, childSelector, names, spaces, isSpec]

/-- A child is stored as it is generated. -/
theorem child_of_mem (returned : getChild flags rootHash root = some children)
    {child : ShardingConfig} (member : child ∈ children) :
    ∃ spec shapes shape, root.spec.root = some spec ∧ layout flags spec = some shapes ∧
      shape ∈ shapes ∧ child = shape.child (rootHash spec) root := by
  cases isRoot : root.spec.root with
  | none => simp [getChild, isRoot] at returned
  | some spec =>
    rw [getChild_eq_layout isRoot] at returned
    obtain ⟨shapes, laidOut, rfl⟩ := Option.map_eq_some_iff.mp returned
    obtain ⟨shape, inside, rfl⟩ := List.mem_map.mp member
    exact ⟨spec, shapes, shape, rfl, laidOut, inside, rfl⟩

theorem yields_createChildren (isKey : new.key = root.key) (isSpec : new.spec = root.spec)
    {names : List String} (rootAt : RootAt root server) :
    Yields (createChildren flags rootHash childHash new names) server fun _ server' =>
      RootAt root server' ∧ ∃ children, getChild flags rootHash root = some children ∧
        (∀ child ∈ children, child.metadata.name ∉ names → child.key ≠ root.key) ∧
        ∀ x, x.key ≠ root.key → (x ∈ server'.configs.items ↔ x ∈ server.configs.items ∨
          ∃ child ∈ children, child.metadata.name ∉ names ∧ x = child) := by
  cases returned : getChild flags rootHash root with
  | none =>
    intro _ _ ran
    rw [createChildren, getChild_congr isKey isSpec, returned] at ran
    cases ran
  | some children =>
    have unfolded : createChildren flags rootHash childHash new names = (do
        forM children fun cfg =>
          if names.contains cfg.metadata.name then pure () else Client.create cfg
        writeSynced childHash new children) := by
      simp [createChildren, getChild_congr isKey isSpec, returned, orPanic]
    rw [unfolded]
    obtain ⟨r, rootIn, isR, labels⟩ := rootAt
    refine yields_bind yields_creates fun _ full ⟨free, created⟩ => ?_
    have rootFull : RootAt root full := ⟨r, (created r).mpr (.inl rootIn), isR, labels⟩
    refine yields_mono (yields_writeSynced isKey rootFull) fun _ server' ⟨rootAt, last⟩ => ?_
    refine ⟨rootAt, children, rfl, fun child member new => ?_, fun x apart => ?_⟩
    · rw [← isR]
      exact (free child member new r rootIn).symm
    · rw [last x apart, created]
      refine or_congr_right (exists_congr fun child => and_congr_right fun member => ?_)
      obtain ⟨_, _, shape, -, -, -, rfl⟩ := child_of_mem returned member
      exact .rfl

/-- The old children of the root: those to delete, and those to keep. -/
def oldChildren (root : ShardingConfig) (server : Server) : List ShardingConfig :=
  server.configs.items.filter fun cfg =>
    cfg.metadata.labels.lookup autoShardingRootLabel = some root.metadata.name

theorem mem_oldChildren :
    cfg ∈ oldChildren root server ↔ cfg ∈ server.configs.items ∧ Labelled root cfg := by
  simp [oldChildren, Labelled]

theorem current_iff (isRoot : root.spec.root = some spec) :
    Current rootHash root cfg ↔ Labelled root cfg ∧ hashAnno cfg = rootHash spec := by
  simp [Current, isRoot]

/-- The part of a pass after the listing, for a root in use. -/
theorem yields_generate {shielded : Server} (isRoot : root.spec.root = some spec)
    (isKey : new.key = root.key) (isSpec : new.spec = root.spec)
    (same : SameBut root server shielded)
    (generated : ∀ cfg ∈ server.configs.items, Labelled root cfg →
      cfg.metadata.finalizers = [] ∧ cfg.key ≠ root.key) :
    Yields (generate flags rootHash childHash new (oldChildren root server)) shielded
      fun _ server' => Passed flags rootHash root server server' := by
  obtain ⟨⟨r, rootIn, isR, labels⟩, others⟩ := same
  generalize isOutdated : (oldChildren root server).filter
    (fun cfg => hashAnno cfg ≠ rootHash spec) = outdated
  generalize isNames : ((oldChildren root server).filter
    (fun cfg => hashAnno cfg = rootHash spec)).map (·.metadata.name) = names
  have unfolded : generate flags rootHash childHash new (oldChildren root server) = (do
      forM outdated Client.delete
      createChildren flags rootHash childHash new names) := by
    rw [← isOutdated, ← isNames]
    simp [generate, isSpec, isRoot, orPanic, prune_eq]
  have mem_outdated : ∀ {cfg}, cfg ∈ outdated ↔
      (cfg ∈ server.configs.items ∧ Labelled root cfg) ∧ hashAnno cfg ≠ rootHash spec := by
    intro cfg
    rw [← isOutdated, List.mem_filter, mem_oldChildren, decide_eq_true_eq]
  have mem_names : ∀ {name}, name ∈ names ↔ KeptName rootHash root server name := by
    intro name
    simp only [← isNames, List.mem_map, List.mem_filter, mem_oldChildren, decide_eq_true_eq,
      KeptName, current_iff isRoot, and_assoc]
  have distinct : outdated.Nodup := by
    rw [← isOutdated]
    exact ((List.Nodup.of_map _ server.configs.distinct).filter _).filter _
  rw [unfolded]
  refine yields_bind (yields_deletes distinct fun cfg member => ?_) fun _ pruned prunedItems => ?_
  · obtain ⟨⟨stored, labelled⟩, -⟩ := mem_outdated.mp member
    obtain ⟨bare, apart⟩ := generated cfg stored labelled
    exact ⟨(others cfg apart).mpr stored, bare⟩
  have rootPruned : r ∈ pruned.configs.items := by
    refine (prunedItems r).mpr ⟨rootIn, fun member => ?_⟩
    obtain ⟨⟨stored, labelled⟩, -⟩ := mem_outdated.mp member
    exact (generated r stored labelled).2 isR
  refine yields_mono (yields_createChildren isKey isSpec ⟨r, rootPruned, isR, labels⟩) ?_
  rintro _ server' ⟨rootAt, children, returned, free, created⟩
  refine ⟨rootAt, children, returned, fun child member new => ?_, fun x apart => ?_⟩
  · exact free child member (mt mem_names.mp new)
  · rw [created x apart, prunedItems, others x apart]
    simp only [mem_names]
    refine or_congr_left (and_congr_right fun stored => ?_)
    rw [mem_outdated, current_iff isRoot]
    tauto

theorem yields_autoSharding (stored : server.configs.find root.key = some root)
    (inUse : retired root = some false) (answered : server.faults.head? ≠ some (some .notFound))
    (generated : ∀ cfg ∈ server.configs.items, Labelled root cfg →
      cfg.metadata.finalizers = [] ∧ cfg.key ≠ root.key) :
    Yields (autoSharding flags rootHash childHash root) server fun _ server' =>
      Passed flags rootHash root server server' := by
  have unfolded : autoSharding flags rootHash childHash root = (do
      let oldCfgs ← Client.ignoreNotFound
        (Client.listLabelled autoShardingRootLabel root.metadata.name) []
      let new ← protect root
      generate flags rootHash childHash new oldCfgs) := by
    simp [autoSharding, inUse, orPanic]
  rw [unfolded]
  refine yields_bind (Client.yields_listLabelled answered) ?_
  rintro _ listed ⟨sameConfigs, rfl⟩
  refine yields_bind (yields_protect (by rw [sameConfigs]; exact stored)) ?_
  rintro new shielded ⟨isKey, isSpec, same⟩
  have same' : SameBut root server shielded := by
    unfold SameBut at same ⊢
    rwa [sameConfigs] at same
  obtain ⟨spec, isRoot⟩ : ∃ spec, root.spec.root = some spec := by
    cases isRoot : root.spec.root with
    | none => simp [retired, isRoot] at inUse
    | some spec => exact ⟨spec, rfl⟩
  exact yields_generate isRoot isKey isSpec same' generated

end Pass

/-- The config has the servers of the root, and the root's pod selector with some pods added. -/
def Fresh (root cfg : ShardingConfig) : Prop :=
  cfg.spec.controller = root.spec.controller ∧ cfg.spec.webhook = root.spec.webhook ∧
    ∃ pods, cfg.spec.selector = some (childSelector root pods)

section Converges

variable {flags : Flags} {rootHash : RootHash} {versions : List ShardingConfig}
  {root v : ShardingConfig} {spec : ShardingConfigRoot} {server server' : Server} {shape : Shape}
  {hash current version : String}

theorem childSelector_congr {pods pods' : List String}
    (same : childSelector v pods = childSelector root pods') :
    childSelector v pods = childSelector root pods := by
  have exprs := congrArg LabelSelector.matchExpressions same
  obtain ⟨-, last⟩ := List.append_inj' exprs rfl
  have isPods : pods = pods' := congrArg LabelSelectorRequirement.values
    (List.singleton_inj.mp last)
  rw [same, isPods]

theorem lookup_singleton (key value : String) :
    (AList.singleton key value : StringMap String).lookup key = some value :=
  List.dlookup_cons_eq _ _ _

theorem hashAnno_child : hashAnno (shape.child hash v) = hash := by
  simp [hashAnno, Shape.child, childOf, lookup_singleton]

theorem labelled_child :
    Labelled root (shape.child hash v) ↔ v.metadata.name = root.metadata.name := by
  simp [Labelled, Shape.child, childOf, lookup_singleton]

/-- The labelled configs are not the root, and have no finalizers. -/
theorem Written.generated (written : Written flags rootHash versions root server)
    (stored : server.configs.find root.key = some root) (isRoot : root.spec.root = some spec) :
    ∀ cfg ∈ server.configs.items, Labelled root cfg →
      cfg.metadata.finalizers = [] ∧ cfg.key ≠ root.key := by
  intro cfg member labelled
  obtain ⟨v, -, children, returned, inside⟩ := written cfg member labelled
  obtain ⟨_, _, shape, -, -, -, isChild⟩ := child_of_mem returned inside
  refine ⟨by rw [isChild]; rfl, fun isKey => ?_⟩
  have isCfg : cfg = root := Registry.eq_of_key_eq member (Registry.find_some stored).1 isKey
  have childless : cfg.spec.root = none := by
    rw [isChild]
    rfl
  rw [isCfg, isRoot] at childless
  cases childless

/-- A current config has one of the shapes the root lays out. -/
theorem Written.exists_shape (written : Written flags rootHash versions root server)
    (collisionFree : CollisionFree rootHash versions root) (isRoot : root.spec.root = some spec)
    {shapes : List Shape} (laidOut : layout flags spec = some shapes)
    (member : cfg ∈ server.configs.items) (current : Current rootHash root cfg) :
    ∃ v, ∃ shape ∈ shapes, v.metadata.name = root.metadata.name ∧
      cfg = shape.child (rootHash spec) v := by
  obtain ⟨labelled, hashed⟩ := (current_iff isRoot).mp current
  obtain ⟨v, isVersion, children, returned, inside⟩ := written cfg member labelled
  obtain ⟨spec', shapes', shape, isRoot', laidOut', isShape, rfl⟩ := child_of_mem returned inside
  rw [hashAnno_child] at hashed
  obtain rfl := collisionFree v isVersion spec' spec isRoot' isRoot hashed
  obtain rfl := Option.some.inj (laidOut.symm.trans laidOut')
  exact ⟨v, shape, isShape, labelled_child.mp labelled, rfl⟩

/-- A fresh config of the root's namespace is the child of its shape. -/
theorem Shape.child_eq (isName : v.metadata.name = root.metadata.name)
    (isSpace : (shape.child hash v).metadata.namespace_ = root.metadata.namespace_)
    (fresh : Fresh root (shape.child hash v)) : shape.child hash v = shape.child hash root := by
  obtain ⟨controller, webhook, pods, selector⟩ := fresh
  have selectors := childSelector_congr (Option.some.inj selector)
  change v.metadata.namespace_ = _ at isSpace
  change v.spec.controller = _ at controller
  change v.spec.webhook = _ at webhook
  simp only [Shape.child, childOf, isName, isSpace, controller, webhook, selectors]

/-- After a pass the labelled configs are those described exactly when the kept ones of the root's
namespace are fresh, and others have a counterpart there. -/
theorem Passed.described_iff (passed : Passed flags rootHash root server server')
    (written : Written flags rootHash versions root server)
    (collisionFree : CollisionFree rootHash versions root)
    (stored : server.configs.find root.key = some root) (isRoot : root.spec.root = some spec) :
    Described flags rootHash root server' ↔
      (∀ cfg ∈ server.configs.items, Current rootHash root cfg →
        cfg.metadata.namespace_ = root.metadata.namespace_ → Fresh root cfg) ∧
      ∀ cfg ∈ server.configs.items, Current rootHash root cfg →
        cfg.metadata.namespace_ ≠ root.metadata.namespace_ → ∃ own ∈ server.configs.items,
          Current rootHash root own ∧ own.metadata.namespace_ = root.metadata.namespace_ ∧
            own.metadata.name = cfg.metadata.name := by
  have generated := written.generated stored isRoot
  obtain ⟨⟨r, rootIn, isR, labels⟩, children, returned, free, items⟩ := passed
  have returned' := returned
  rw [getChild_eq_layout isRoot] at returned'
  obtain ⟨shapes, laidOut, isChildren⟩ := Option.map_eq_some_iff.mp returned'
  have unlabelled : ¬Labelled root root := fun labelled =>
    (generated root (Registry.find_some stored).1 labelled).2 rfl
  -- A labelled object after the pass is not the root.
  have apart : ∀ x ∈ server'.configs.items, Labelled root x → x.key ≠ root.key := by
    intro x member labelled isKey
    obtain rfl := Registry.eq_of_key_eq member rootIn (isKey.trans isR.symm)
    rw [Labelled, labels] at labelled
    exact unlabelled labelled
  have keeps : ∀ cfg ∈ server.configs.items, Current rootHash root cfg →
      cfg ∈ server'.configs.items := by
    intro cfg member current
    exact (items cfg (generated cfg member current.1).2).mpr (.inl ⟨member, fun _ => current⟩)
  have mem_children : ∀ {cfg}, cfg ∈ children ↔
      ∃ shape ∈ shapes, shape.child (rootHash spec) root = cfg := by
    intro cfg
    rw [← isChildren, List.mem_map]
  constructor
  · rintro ⟨children', returned'', described, complete⟩
    obtain rfl := Option.some.inj (returned.symm.trans returned'')
    refine ⟨fun cfg member current isSpace => ?_, fun cfg member current foreign => ?_⟩
    · obtain ⟨child, isChild, -, same⟩ := described cfg (keeps cfg member current) isSpace current.1
      obtain ⟨shape, -, rfl⟩ := mem_children.mp isChild
      exact ⟨by rw [← same]; rfl, by rw [← same]; rfl, shape.pods, by rw [← same]; rfl⟩
    · obtain ⟨v, shape, isShape, -, isCfg⟩ :=
        written.exists_shape collisionFree isRoot laidOut member current
      obtain ⟨own, ownIn, isSpace, labelled, isName, -⟩ :=
        complete (shape.child (rootHash spec) root) (mem_children.mpr ⟨shape, isShape, rfl⟩)
      have isName' : own.metadata.name = cfg.metadata.name := by
        rw [isName, isCfg]
        rfl
      rcases (items own (apart own ownIn labelled)).mp ownIn with
        ⟨was, kept⟩ | ⟨child, -, new, same⟩
      · exact ⟨own, was, kept labelled, isSpace, isName'⟩
      · rw [← same, isName'] at new
        exact absurd ⟨cfg, member, current, rfl⟩ new
  · rintro ⟨fresh, counterpart⟩
    have isOwn : ∀ cfg ∈ server.configs.items, Current rootHash root cfg →
        cfg.metadata.namespace_ = root.metadata.namespace_ →
        ∃ shape ∈ shapes, shape.child (rootHash spec) root = cfg := by
      intro cfg member current isSpace
      have isFresh := fresh cfg member current isSpace
      obtain ⟨v, shape, isShape, isName, rfl⟩ :=
        written.exists_shape collisionFree isRoot laidOut member current
      exact ⟨shape, isShape, (Shape.child_eq isName isSpace isFresh).symm⟩
    refine ⟨children, returned, fun cfg member isSpace labelled => ?_, fun child isChild => ?_⟩
    · rcases (items cfg (apart cfg member labelled)).mp member with
        ⟨was, kept⟩ | ⟨child, isChild, -, rfl⟩
      · exact ⟨cfg, mem_children.mpr (isOwn cfg was (kept labelled) isSpace), rfl, rfl⟩
      · exact ⟨cfg, isChild, rfl, rfl⟩
    · obtain ⟨shape, isShape, rfl⟩ := mem_children.mp isChild
      by_cases kept : KeptName rootHash root server shape.name
      · obtain ⟨own, ownIn, current, isSpace, isName⟩ : ∃ own ∈ server.configs.items,
            Current rootHash root own ∧ own.metadata.namespace_ = root.metadata.namespace_ ∧
              own.metadata.name = shape.name := by
          obtain ⟨cfg, member, current, isName⟩ := kept
          by_cases isSpace : cfg.metadata.namespace_ = root.metadata.namespace_
          · exact ⟨cfg, member, current, isSpace, isName⟩
          · obtain ⟨own, ownIn, ownCurrent, ownSpace, ownName⟩ :=
              counterpart cfg member current isSpace
            exact ⟨own, ownIn, ownCurrent, ownSpace, ownName.trans isName⟩
        obtain ⟨shape', isShape', rfl⟩ := isOwn own ownIn current isSpace
        obtain rfl := List.inj_on_of_nodup_map (nodup_layout laidOut) isShape' isShape isName
        exact ⟨_, keeps _ ownIn current, isSpace, current.1, rfl, rfl⟩
      · refine ⟨shape.child (rootHash spec) root, ?_, rfl, labelled_child.mpr rfl, rfl, rfl⟩
        exact (items _ (free _ isChild kept)).mpr (.inr ⟨_, isChild, kept, rfl⟩)

/-- A successful pass for a root in use, over children that were all generated, leaves exactly the
described children if and only if the children it keeps are fresh, and whenever it keeps the name of
a child of another namespace the root's own namespace has that child too. -/
theorem autoSharding_described_iff (flags : Flags) (rootHash : RootHash)
    (childHash : List String → String) (versions : List ShardingConfig) (root : ShardingConfig)
    (server server' : Server) (written : Written flags rootHash versions root server)
    (collisionFree : CollisionFree rootHash versions root)
    (stored : server.configs.find root.key = some root) (inUse : retired root = some false)
    (answered : server.faults.head? ≠ some (some .notFound))
    (returned : (autoSharding flags rootHash childHash root).run server = .ok () server') :
    Described flags rootHash root server' ↔
      (∀ cfg ∈ server.configs.items, Current rootHash root cfg →
        cfg.metadata.namespace_ = root.metadata.namespace_ → Fresh root cfg) ∧
      ∀ cfg ∈ server.configs.items, Current rootHash root cfg →
        cfg.metadata.namespace_ ≠ root.metadata.namespace_ → ∃ own ∈ server.configs.items,
          Current rootHash root own ∧ own.metadata.namespace_ = root.metadata.namespace_ ∧
            own.metadata.name = cfg.metadata.name := by
  obtain ⟨spec, isRoot⟩ : ∃ spec, root.spec.root = some spec := by
    cases isRoot : root.spec.root with
    | none => simp [retired, isRoot] at inUse
    | some spec => exact ⟨spec, rfl⟩
  have passed : Passed flags rootHash root server server' :=
    yields_autoSharding stored inUse answered (written.generated stored isRoot) () server' returned
  exact passed.described_iff written collisionFree stored isRoot

end Converges

/-- A root with one canary and one normal child, for a leader election of the operator. -/
def electedRoot (leaderElectionName : String) : ShardingConfig where
  metadata := { name := "root", namespace_ := "test", finalizers := [protectFinalizer] }
  spec := {
    selector := none, controller := some ⟨leaderElectionName⟩, webhook := none, limits := none
    root := some {
      disable := none, namePrefix := "test", targetStatefulSet := "sts-name"
      canary := some { replicas := some 1, inNamespaces := ["ns1"], inShardHash := [] }
      auto := some { shardingSize := 1, everyShardReplicas := 2 }
      resourceSelector := [{ relatedResources := [], selector := none }] } }

/-- The children of that root. -/
def electedChildren (leaderElectionName : String) : List ShardingConfig :=
  (getChild {} (fun _ => "hash") (electedRoot leaderElectionName)).getD []

/-- The current root with the children of a version of it. -/
def electedServer (current version : String) (distinct :
    ((electedRoot current :: electedChildren version).map ShardingConfig.key).Nodup) : Server :=
  ⟨⟨electedRoot current :: electedChildren version, distinct⟩, 0, []⟩

theorem written_elected {distinct} :
    Written {} (fun _ => "hash") [electedRoot version] (electedRoot current)
      (electedServer current version distinct) := by
  intro cfg member labelled
  rcases List.mem_cons.mp member with rfl | member
  · cases labelled
  · exact ⟨electedRoot version, List.mem_singleton.mpr rfl, electedChildren version, rfl, member⟩

theorem collisionFree_elected :
    CollisionFree (fun _ => "hash") [electedRoot version] (electedRoot current) := by
  intro v isVersion spec spec' isRoot isRoot' _
  obtain rfl := List.mem_singleton.mp isVersion
  exact Option.some.inj (isRoot.symm.trans isRoot')

theorem autoSharding_described_elected :
    Described {} (fun _ => "hash") (electedRoot "a") (electedServer "a" "a" (by decide)) ↔
      (∀ cfg ∈ (electedServer "a" "a" (by decide)).configs.items,
        Current (fun _ => "hash") (electedRoot "a") cfg →
        cfg.metadata.namespace_ = (electedRoot "a").metadata.namespace_ →
        Fresh (electedRoot "a") cfg) ∧
      ∀ cfg ∈ (electedServer "a" "a" (by decide)).configs.items,
        Current (fun _ => "hash") (electedRoot "a") cfg →
        cfg.metadata.namespace_ ≠ (electedRoot "a").metadata.namespace_ →
        ∃ own ∈ (electedServer "a" "a" (by decide)).configs.items,
          Current (fun _ => "hash") (electedRoot "a") own ∧
            own.metadata.namespace_ = (electedRoot "a").metadata.namespace_ ∧
            own.metadata.name = cfg.metadata.name :=
  autoSharding_described_iff {} (fun _ => "hash") (fun _ => "hash") [electedRoot "a"]
    (electedRoot "a") (electedServer "a" "a" (by decide)) (electedServer "a" "a" (by decide))
    written_elected collisionFree_elected rfl rfl (by decide) rfl

/-- The leader election of the root is changed from `a` to `b`, which the webhook accepts, and a
pass leaves the children with `a`. -/
theorem autoSharding_keeps_stale :
    ¬∀ (flags : Flags) (rootHash : RootHash) (childHash : List String → String)
      (sorter : Sorter) (versions : List ShardingConfig) (root : ShardingConfig)
      (server server' : Server), Written flags rootHash versions root server →
      (∀ v ∈ versions, v.key = root.key →
        validate sorter v = .ok () ∧ validateUpdate root v = .ok ()) →
      CollisionFree rootHash versions root →
      server.configs.find root.key = some root → retired root = some false →
      server.faults.head? ≠ some (some .notFound) →
      (autoSharding flags rootHash childHash root).run server = .ok () server' →
      Described flags rootHash root server' := by
  intro converges
  have accepted : ∀ v ∈ [electedRoot "a"], v.key = (electedRoot "b").key →
      validate .stable v = .ok () ∧ validateUpdate (electedRoot "b") v = .ok () := by
    intro v isVersion _
    obtain rfl := List.mem_singleton.mp isVersion
    decide
  obtain ⟨children, returned, described, -⟩ := converges {} (fun _ => "hash") (fun _ => "hash")
    .stable [electedRoot "a"] (electedRoot "b") (electedServer "b" "a" (by decide))
    (electedServer "b" "a" (by decide)) written_elected accepted collisionFree_elected rfl rfl
    (by decide) rfl
  have stale : ∃ cfg ∈ (electedServer "b" "a" (by decide)).configs.items,
      cfg.metadata.namespace_ = (electedRoot "b").metadata.namespace_ ∧
        Labelled (electedRoot "b") cfg ∧ cfg.spec.controller = some ⟨"a"⟩ :=
    ⟨_, .tail _ (.head _), rfl, rfl, rfl⟩
  obtain ⟨cfg, member, isSpace, labelled, elects⟩ := stale
  obtain ⟨child, isChild, -, same⟩ := described cfg member isSpace labelled
  obtain ⟨_, _, shape, -, -, -, rfl⟩ := child_of_mem returned isChild
  rw [← same] at elects
  exact absurd elects (by simp [Shape.child, childOf, electedRoot])

end CtrlMesh.Sharding
