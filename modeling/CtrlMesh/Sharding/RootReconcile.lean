import CtrlMesh.Api.Server
import CtrlMesh.Sharding.AutoSharding

/-!
# Reconciling a root ShardingConfig

`AutoSharding` of `auto_sharding.go` as a client of the API server, and which objects of other
namespaces it can change. The list of old children is taken by label over all namespaces, so a
root also finds the children of every other root of its name.
-/

namespace CtrlMesh.Sharding

open Labels Api Lib Lib.Effect

/-- `clearStatus`: the new object and whether it changed. -/
def clearStatus (cfg : ShardingConfig) : ShardingConfig × Bool :=
  if cfg.child.length > 0 then ({ cfg with child := [] }, true) else (cfg, false)

/-- The loop of `clearFinalizers` from index `i` on, for `n` more rounds. Its range is fixed, so
after removals an index can lie past the end: the code panics. -/
def clearFinalizersFrom (key : String) : Nat → Nat → List String → Bool →
    Option (List String × Bool)
  | _, 0, finalizers, res => some (finalizers, res)
  | i, n + 1, finalizers, res => do
    let finalizer ← finalizers[i]?
    if finalizer = key then
      clearFinalizersFrom key (i + 1) n (finalizers.eraseIdx i) true
    else
      clearFinalizersFrom key (i + 1) n finalizers res

/-- `clearFinalizers`. -/
def clearFinalizers (finalizers : List String) (key : String) : Option (List String × Bool) :=
  clearFinalizersFrom key 0 finalizers.length finalizers false

/-- `syncStatus`; `childHash` is `GetMD5Hash(DumpJSON(_))` of a list of names. -/
def syncStatus (childHash : List String → String) (root : ShardingConfig)
    (children : List ShardingConfig) : ShardingConfig × Bool :=
  let names := children.map (·.metadata.name)
  if childHash root.child ≠ childHash names then ({ root with child := names }, true)
  else (root, false)

/-- The value of a Go expression that may dereference nil. -/
def orPanic {α : Type} : Option α → Client α
  | none => throw .panicked
  | some a => pure a

/-- `root.DeletionTimestamp != nil || (root.Spec.Root.Disable != nil && *root.Spec.Root.Disable)`,
which reads `Spec.Root` only when the object is not being deleted. -/
def retired (root : ShardingConfig) : Option Bool :=
  if root.metadata.deletionTimestamp.isSome then some true
  else root.spec.root.map fun spec => spec.disable == some true

/-- `clearStatus` and the status update that follows it. -/
def writeCleared (root : ShardingConfig) : Client ShardingConfig :=
  if (clearStatus root).2 then
    Client.ignoreNotFound (Client.updateStatus (clearStatus root).1) (clearStatus root).1
  else pure root

/-- The branch of a deleted or disabled root. -/
def retire (root : ShardingConfig) (oldCfgs : List ShardingConfig) : Client Unit := do
  forM oldCfgs Client.delete
  let root ← writeCleared root
  let (finalizers, removed) ← orPanic (clearFinalizers root.metadata.finalizers protectFinalizer)
  if removed then
    discard (Client.update
      { root with metadata := { root.metadata with finalizers := finalizers } })

/-- The hash annotation of a config, empty when it has none. -/
def hashAnno (cfg : ShardingConfig) : String :=
  (cfg.metadata.annotations.lookup autoShardingHashAnno).getD ""

/-- The loop over the old children: the outdated ones are deleted, the names of the others are the
keys of `oldMap`. -/
def prune (newHash : String) : List ShardingConfig → Client (List String)
  | [] => pure []
  | cfg :: rest =>
    if hashAnno cfg ≠ newHash then do
      Client.delete cfg
      prune newHash rest
    else do
      let names ← prune newHash rest
      pure (cfg.metadata.name :: names)

/-- `addFinalizers`. -/
def addFinalizers (cfg : ShardingConfig) (key : String) : ShardingConfig × Bool :=
  if key ∈ cfg.metadata.finalizers then (cfg, false)
  else ({ cfg with metadata := { cfg.metadata with
    finalizers := cfg.metadata.finalizers ++ [key] } }, true)

/-- `addFinalizers` and the update that follows it. -/
def protect (root : ShardingConfig) : Client ShardingConfig :=
  if (addFinalizers root protectFinalizer).2 then
    Client.update (addFinalizers root protectFinalizer).1
  else pure root

section Pass

variable (flags : Flags) (rootHash : RootHash)
  (childHash : List String → String)

/-- `syncStatus` and the status update that follows it. -/
def writeSynced (root : ShardingConfig) (children : List ShardingConfig) : Client Unit :=
  if (syncStatus childHash root children).2 then
    discard (Client.updateStatus (syncStatus childHash root children).1)
  else pure ()

/-- The part of the pass after the loop over the old children. -/
def createChildren (root : ShardingConfig) (oldNames : List String) : Client Unit := do
  let newCfg ← orPanic (getChild flags rootHash root)
  forM newCfg fun cfg =>
    if oldNames.contains cfg.metadata.name then pure () else Client.create cfg
  writeSynced childHash root newCfg

/-- The branch of a root in use, once it is protected. -/
def generate (root : ShardingConfig) (oldCfgs : List ShardingConfig) : Client Unit := do
  let spec ← orPanic root.spec.root
  let oldNames ← prune (rootHash spec) oldCfgs
  createChildren flags rootHash childHash root oldNames

/-- `ShardingConfigReconciler.AutoSharding`. -/
def autoSharding (root : ShardingConfig) : Client Unit := do
  let oldCfgs ← Client.ignoreNotFound
    (Client.listLabelled autoShardingRootLabel root.metadata.name) []
  if ← orPanic (retired root) then
    retire root oldCfgs
  else
    let root ← protect root
    generate flags rootHash childHash root oldCfgs

end Pass

/-- The pass deletes the outdated old children, then reads the names of the others. -/
theorem prune_eq (newHash : String) (cfgs : List ShardingConfig) :
    prune newHash cfgs = (do
      forM (cfgs.filter fun cfg => hashAnno cfg ≠ newHash) Client.delete
      pure ((cfgs.filter fun cfg => hashAnno cfg = newHash).map (·.metadata.name))) := by
  induction cfgs with
  | nil => rfl
  | cons cfg rest ih =>
    by_cases same : hashAnno cfg = newHash
    · simp [prune, same, ih]
    · simp [prune, same, ih]

/-- Deleting stored objects one after another, without a fault, deletes each of them. -/
theorem run_deletes {cfgs : List ShardingConfig} {server : Server} (clear : server.faults = [])
    (present : ∀ cfg ∈ cfgs, (server.configs.find cfg.key).isSome)
    (distinct : (cfgs.map ShardingConfig.key).Nodup) :
    ∃ server', (forM cfgs Client.delete).run server = .ok () server' ∧
      (∀ cfg ∈ cfgs, server'.configs.find cfg.key =
        (server.configs.find cfg.key).bind (Server.deleted server.clock)) ∧
      ∀ k, k ∉ cfgs.map ShardingConfig.key → server'.configs.find k = server.configs.find k := by
  induction cfgs generalizing server with
  | nil => exact ⟨server, rfl, by simp, fun _ _ => rfl⟩
  | cons cfg rest ih =>
    rw [List.map_cons, List.nodup_cons] at distinct
    obtain ⟨old, found⟩ := Option.isSome_iff_exists.mp (present cfg List.mem_cons_self)
    obtain ⟨-, same⟩ := Registry.find_some found
    have others : ∀ other ∈ rest, other.key ≠ old.key := by
      rintro other member hit
      exact distinct.1 (same ▸ hit ▸ List.mem_map_of_mem member)
    obtain ⟨server', ran, removed, kept⟩ :=
      @ih { server with configs := server.remove old } clear (fun other member => by
        rw [Client.find_remove (others other member)]
        exact present other (List.mem_cons_of_mem cfg member)) distinct.2
    refine ⟨server', ?_, ?_, ?_⟩
    · rw [List.forM_cons, EStateM.run_bind, Client.run_delete clear found]
      exact ran
    · intro other member
      rcases List.mem_cons.mp member with rfl | member
      · rw [kept _ distinct.1, found, ← same]
        exact Client.find_remove_self
      · rw [removed other member, Client.find_remove (others other member)]
    · intro k outside
      rw [List.map_cons, List.mem_cons, not_or] at outside
      rw [kept k outside.2]
      exact Client.find_remove (same ▸ outside.1)

variable {cfgs : List ShardingConfig} {watched : NamespacedName → Prop} {key : String}

section Foreign

variable {flags : Flags} {rootHash : RootHash}
  {childHash : List String → String} {root : ShardingConfig} {before : Server}

/-- The keys outside the root's namespace. -/
def Foreign (root : ShardingConfig) (k : NamespacedName) : Prop := k.1 ≠ root.metadata.namespace_

theorem foreign_congr {new : ShardingConfig} (same : new.key = root.key) :
    Foreign new = Foreign root := by
  have space : new.metadata.namespace_ = root.metadata.namespace_ := congrArg Prod.fst same
  unfold Foreign
  rw [space]

/-- A deletion of the object would change it. -/
def Deletable (server : Server) (cfg : ShardingConfig) : Prop :=
  Server.deleted server.clock cfg ≠ some cfg

theorem upholds_orPanic {α : Type} {inv : Server → Prop} {value : Option α} :
    Upholds inv (orPanic value) fun a => value = some a := by
  cases value with
  | none => exact upholds_throw
  | some a => exact upholds_pure rfl

/-- A loop that deletes no foreign object, or only marked ones, changes none. -/
theorem upholds_deletes (harmless : ∀ cfg ∈ cfgs,
      Foreign root cfg.key → before.configs.find cfg.key = some cfg ∧ ¬Deletable before cfg) :
    Upholds (Client.Agrees (Foreign root) before) (forM cfgs Client.delete) fun _ => True := by
  refine upholds_forM fun cfg member => Client.upholds_delete fun foreign => ?_
  obtain ⟨found, marked⟩ := harmless cfg member foreign
  exact ⟨found, not_not.mp marked⟩

variable {cfg : ShardingConfig}

theorem clearStatus_key : (clearStatus cfg).1.key = cfg.key := by
  unfold clearStatus
  split <;> rfl

/-- After its deletions a retired root writes only itself. -/
theorem upholds_retire_nil (foreign : ∀ k, watched k → Foreign root k) :
    Upholds (Client.Agrees watched before) (retire root []) fun _ => True := by
  have own : ¬watched root.key := fun holds => foreign _ holds rfl
  have ownCleared : ¬watched (clearStatus root).1.key := by rwa [clearStatus_key]
  have cleared : Upholds (Client.Agrees watched before) (writeCleared root)
      fun new => new.key = root.key := by
    refine upholds_ite (fun _ => ?_) fun _ => upholds_pure rfl
    refine Client.upholds_ignoreNotFound ?_ clearStatus_key
    exact upholds_mono (Client.upholds_updateStatus ownCleared)
      fun _ same => same.trans clearStatus_key
  refine upholds_bind (upholds_forM (by simp)) fun _ _ => ?_
  refine upholds_bind cleared fun new same => ?_
  refine upholds_bind upholds_orPanic fun result _ => ?_
  refine upholds_ite (fun _ => ?_) fun _ => upholds_pure trivial
  refine upholds_bind (Client.upholds_update ?_) fun _ _ => upholds_pure trivial
  exact fun holds => own (same ▸ holds)

theorem retire_eq : retire root cfgs = (do forM cfgs Client.delete; retire root []) := by
  simp [retire]

theorem upholds_retire (harmless : ∀ cfg ∈ cfgs,
      Foreign root cfg.key → before.configs.find cfg.key = some cfg ∧ ¬Deletable before cfg) :
    Upholds (Client.Agrees (Foreign root) before) (retire root cfgs) fun _ => True := by
  rw [retire_eq]
  exact upholds_bind (upholds_deletes harmless) fun _ _ =>
    upholds_retire_nil fun _ foreign => foreign

theorem addFinalizers_key (key : String) : (addFinalizers root key).1.key = root.key := by
  unfold addFinalizers
  split <;> rfl

theorem addFinalizers_spec : (addFinalizers root key).1.spec = root.spec := by
  unfold addFinalizers
  split <;> rfl

theorem addFinalizers_changed :
    (addFinalizers root key).2 = true ↔ key ∉ root.metadata.finalizers := by
  unfold addFinalizers
  split <;> simp [*]

theorem upholds_protect : Upholds (Client.Agrees (Foreign root) before) (protect root)
    fun new => new.key = root.key ∧ new.spec = root.spec := by
  refine upholds_ite (fun _ => ?_) fun _ => upholds_pure ⟨rfl, rfl⟩
  have own : ¬Foreign root (addFinalizers root protectFinalizer).1.key := by
    rw [addFinalizers_key]
    exact fun foreign => foreign rfl
  exact upholds_mono (Client.upholds_update own) fun new same =>
    ⟨same.1.trans (addFinalizers_key _), same.2.trans (addFinalizers_spec)⟩

/-- Every child is in the namespace of its root. -/
theorem getChild_namespace {children : List ShardingConfig}
    (returned : getChild flags rootHash root = some children) {child : ShardingConfig}
    (member : child ∈ children) : child.metadata.namespace_ = root.metadata.namespace_ := by
  unfold getChild at returned
  cases isRoot : root.spec.root with
  | none => simp [isRoot] at returned
  | some spec =>
    cases isAuto : spec.auto with
    | none =>
      have empty : children = [] := by simpa [isRoot, isAuto] using returned.symm
      simp [empty] at member
    | some auto =>
      simp only [isRoot, isAuto, Option.bind_eq_bind, Option.bind_some, Option.bind_eq_some_iff]
        at returned
      obtain ⟨canary, -, returned⟩ := returned
      split at returned
      · obtain ⟨replicas, -, returned⟩ := Option.bind_eq_some_iff.mp returned
        cases returned
        rcases List.mem_cons.mp member with rfl | member
        · rfl
        · obtain ⟨id, -, rfl⟩ := List.mem_map.mp member
          rfl
      · cases returned
        obtain ⟨id, -, rfl⟩ := List.mem_map.mp member
        rfl

theorem syncStatus_key (children : List ShardingConfig) :
    (syncStatus childHash root children).1.key = root.key := by
  dsimp only [syncStatus]
  split <;> rfl

/-- After its deletions a root in use writes only its own namespace. -/
theorem upholds_createChildren (foreign : ∀ k, watched k → Foreign root k) (names : List String) :
    Upholds (Client.Agrees watched before) (createChildren flags rootHash childHash root names)
      fun _ => True := by
  refine upholds_bind upholds_orPanic fun children returned => ?_
  refine upholds_bind (upholds_forM fun child member => ?_) fun _ _ => ?_
  · refine upholds_ite (fun _ => upholds_pure trivial) fun _ => Client.upholds_create ?_
    exact fun holds => foreign _ holds (getChild_namespace returned member)
  · refine upholds_ite (fun _ => ?_) fun _ => upholds_pure trivial
    refine upholds_bind (Client.upholds_updateStatus ?_) fun _ _ => upholds_pure trivial
    rw [syncStatus_key]
    exact fun holds => foreign _ holds rfl

theorem upholds_generate (harmless : ∀ cfg ∈ cfgs, ∀ spec,
      root.spec.root = some spec → hashAnno cfg ≠ rootHash spec → Foreign root cfg.key →
      before.configs.find cfg.key = some cfg ∧ ¬Deletable before cfg) :
    Upholds (Client.Agrees (Foreign root) before) (generate flags rootHash childHash root cfgs)
      fun _ => True := by
  refine upholds_bind upholds_orPanic fun spec isRoot => ?_
  rw [prune_eq, bind_assoc]
  refine upholds_bind (upholds_deletes fun cfg member foreign => ?_) fun _ _ => ?_
  · obtain ⟨listed, outdated⟩ := List.mem_filter.mp member
    exact harmless cfg listed spec isRoot (by simpa using outdated) foreign
  rw [pure_bind]
  exact upholds_createChildren (fun _ foreign => foreign) _

/-- The pass reaches the loop that deletes the old child. -/
def Reaps (rootHash : RootHash) (server : Server) (root cfg : ShardingConfig) :
    Prop :=
  retired root = some true ∨
    retired root = some false ∧
      (protectFinalizer ∈ root.metadata.finalizers ∨ (server.configs.find root.key).isSome) ∧
      ∃ spec, root.spec.root = some spec ∧ hashAnno cfg ≠ rootHash spec

/-- The children of other namespaces that carry the root's name and are deleted with its own. -/
def Trespass (rootHash : RootHash) (server : Server)
    (root cfg : ShardingConfig) : Prop :=
  Foreign root cfg.key ∧
    cfg.metadata.labels.lookup autoShardingRootLabel = some root.metadata.name ∧
    Deletable server cfg ∧ Reaps rootHash server root cfg

/-- What the pass does once it has listed the old children. -/
theorem upholds_autoSharding (branches : ∀ cfgs : List ShardingConfig,
      (∀ cfg ∈ cfgs, cfg.metadata.labels.lookup autoShardingRootLabel = some root.metadata.name ∧
        (watched cfg.key → before.configs.find cfg.key = some cfg)) → ∀ isRetired,
      retired root = some isRetired → Upholds (Client.Agrees watched before)
        (if isRetired then retire root cfgs
          else do generate flags rootHash childHash (← protect root) cfgs) fun _ => True) :
    Upholds (Client.Agrees watched before) (autoSharding flags rootHash childHash root)
      fun _ => True := by
  refine upholds_bind (Client.upholds_ignoreNotFound Client.upholds_listLabelled (by simp)) ?_
  intro cfgs listed
  exact upholds_bind upholds_orPanic fun isRetired decided =>
    branches cfgs listed isRetired decided

/-- A root that is neither protected nor stored cannot be protected. -/
theorem upholds_protect_absent (bare : protectFinalizer ∉ root.metadata.finalizers)
    (absent : before.configs.find root.key = none) :
    Upholds (Client.Agrees (fun _ => True) before) (protect root) fun _ => False := by
  refine upholds_ite (fun _ => ?_) fun kept => ?_
  · refine Client.upholds_onStored fun old server result configs agrees _ present _ => ?_
    rw [agrees.find _ trivial, addFinalizers_key] at present
    exact absurd (absent.symm.trans present) (by simp)
  · exact absurd (addFinalizers_changed.mpr bare) kept

/-- Without a trespass no pass changes another namespace, whatever calls fail. -/
theorem autoSharding_keeps_foreign
    (own : ∀ cfg ∈ before.configs.items, ¬Trespass rootHash before root cfg) :
    Client.Agrees (Foreign root) before
      (after (autoSharding flags rootHash childHash root) before) := by
  by_cases reached : retired root = some true ∨ protectFinalizer ∈ root.metadata.finalizers ∨
      (before.configs.find root.key).isSome
  · refine (upholds_autoSharding (fun cfgs listed isRetired decided => ?_) before ⟨rfl, ?_⟩).1
    · have kept : ∀ cfg ∈ cfgs, Reaps rootHash before root cfg → Foreign root cfg.key →
          before.configs.find cfg.key = some cfg ∧ ¬Deletable before cfg := by
        intro cfg member reaped foreign
        obtain ⟨labelled, present⟩ := listed cfg member
        have found := present foreign
        refine ⟨found, fun deletable => ?_⟩
        exact own cfg (Registry.find_some found).1 ⟨foreign, labelled, deletable, reaped⟩
      cases isRetired with
      | true => exact upholds_retire fun cfg member => kept cfg member (.inl decided)
      | false =>
        have reached : protectFinalizer ∈ root.metadata.finalizers ∨
            (before.configs.find root.key).isSome := by simpa [decided] using reached
        refine upholds_bind upholds_protect fun new same => ?_
        rw [← foreign_congr same.1] at kept ⊢
        refine upholds_generate fun cfg member spec isRoot outdated => kept cfg member (.inr ?_)
        exact ⟨decided, reached, spec, same.2 ▸ isRoot, outdated⟩
    · exact fun _ _ => rfl
  · rw [not_or, not_or] at reached
    obtain ⟨inUse, bare, absent⟩ := reached
    have kept : Client.Agrees (fun _ => True) before
        (after (autoSharding flags rootHash childHash root) before) := by
      refine (upholds_autoSharding (fun cfgs _ isRetired decided => ?_) before ⟨rfl, ?_⟩).1
      · cases isRetired with
        | true => exact absurd decided inUse
        | false =>
          exact upholds_bind (upholds_protect_absent bare (by simpa using absent))
            fun _ impossible => impossible.elim
      · exact fun _ _ => rfl
    exact ⟨kept.clock, fun k _ => kept.find k trivial⟩

/-- Without faults a root that is protected or stored becomes protected. -/
theorem run_protect (clear : before.faults = [])
    (reached : protectFinalizer ∈ root.metadata.finalizers ∨
      (before.configs.find root.key).isSome) :
    ∃ new server, (protect root).run before = .ok new server ∧ server.faults = [] ∧
      (∀ k, (before.configs.find k).isSome → (server.configs.find k).isSome) ∧
      new.key = root.key ∧ new.spec = root.spec ∧ Client.Agrees (Foreign root) before server := by
  by_cases has : protectFinalizer ∈ root.metadata.finalizers
  · have ran : (protect root).run before = .ok root before := by
      simp [protect, addFinalizers_changed, has]
    exact ⟨root, before, ran, clear, fun _ => id, rfl, rfl, rfl, fun _ _ => rfl⟩
  · obtain ⟨old, found⟩ := Option.isSome_iff_exists.mp (reached.resolve_left has)
    rw [← addFinalizers_key protectFinalizer] at found
    have held : (addFinalizers root protectFinalizer).1.metadata.finalizers ≠ [] := by
      simp [addFinalizers, has]
    have ran : (protect root).run before = (Client.update _).run before :=
      congrArg (EStateM.run · before) (if_pos (addFinalizers_changed.mpr has))
    rw [Client.run_update clear found held] at ran
    obtain ⟨upheld, same⟩ := upholds_protect before ⟨rfl, fun _ _ => rfl⟩
    rw [after_of_ok ran] at upheld
    exact ⟨_, _, ran, clear, fun k => Registry.isSome_find_put, (same _ _ ran).1,
      (same _ _ ran).2, upheld⟩

/-- A loop that deletes the object changes it, and the rest of the pass does not restore it. -/
theorem after_deletes_ne {server : Server} {rest : Client Unit} (clear : server.faults = [])
    (present : ∀ other ∈ cfgs, (server.configs.find other.key).isSome)
    (distinct : (cfgs.map ShardingConfig.key).Nodup) (inside : cfg ∈ cfgs)
    (found : server.configs.find cfg.key = some cfg) (deletable : Deletable server cfg)
    (kept : ∀ server', Upholds (Client.Agrees (· = cfg.key) server') rest fun _ => True) :
    (after (do forM cfgs Client.delete; rest) server).configs.find cfg.key ≠ some cfg := by
  obtain ⟨server', ran, removed, -⟩ := run_deletes clear present distinct
  rw [after_bind ran, (kept server' server' ⟨rfl, fun _ _ => rfl⟩).1.find _ rfl,
    removed cfg inside, found]
  exact deletable

/-- A trespass changes the object when no call fails. -/
theorem autoSharding_trespasses (clear : before.faults = []) (member : cfg ∈ before.configs.items)
    (trespass : Trespass rootHash before root cfg) :
    (after (autoSharding flags rootHash childHash root) before).configs.find cfg.key ≠
      some cfg := by
  obtain ⟨foreign, labelled, deletable, reaped⟩ := trespass
  have listed := Client.run_listLabelled clear autoShardingRootLabel root.metadata.name
  generalize isCfgs : before.configs.items.filter (fun cfg =>
    cfg.metadata.labels.lookup autoShardingRootLabel = some root.metadata.name) = cfgs at listed
  have inside : cfg ∈ cfgs := by
    rw [← isCfgs]
    exact List.mem_filter.mpr ⟨member, by simpa using labelled⟩
  have sublist : cfgs.Sublist before.configs.items := isCfgs ▸ List.filter_sublist
  have distinct : (cfgs.map ShardingConfig.key).Nodup :=
    before.configs.distinct.sublist (sublist.map _)
  have present : ∀ other ∈ cfgs, (before.configs.find other.key).isSome :=
    fun other inCfgs => by rw [Registry.mem_iff_find.mp (sublist.subset inCfgs)]; rfl
  have found := Registry.mem_iff_find.mp member
  have only : ∀ k, k = cfg.key → Foreign root k := fun k same => same ▸ foreign
  rw [autoSharding, Client.ignoreNotFound, after_bind (run_tryCatch_ok listed)]
  rcases reaped with isRetired | ⟨inUse, reached, spec, isRoot, outdated⟩
  · rw [isRetired, after_bind (show (orPanic (some true)).run before = .ok true before from rfl)]
    change (after (retire root cfgs) before).configs.find cfg.key ≠ some cfg
    rw [retire_eq]
    exact after_deletes_ne clear present distinct inside found deletable
      fun _ => upholds_retire_nil only
  · obtain ⟨new, server, ran, clear', still, sameKey, sameSpec, agrees⟩ := run_protect clear reached
    rw [inUse, after_bind (show (orPanic (some false)).run before = .ok false before from rfl)]
    change (after (protect root >>= fun new => generate flags rootHash childHash new cfgs)
      before).configs.find cfg.key ≠ some cfg
    rw [after_bind ran, generate, sameSpec, isRoot,
      after_bind (show (orPanic (some spec)).run server = .ok spec server from rfl), prune_eq,
      bind_assoc]
    refine after_deletes_ne clear' ?_ (distinct.sublist (List.filter_sublist.map _)) ?_ ?_ ?_ ?_
    · exact fun other inFilter => still _ (present other (List.mem_filter.mp inFilter).1)
    · exact List.mem_filter.mpr ⟨inside, by simpa using outdated⟩
    · rw [agrees.find _ foreign, found]
    · unfold Deletable
      rw [agrees.clock]
      exact deletable
    · rw [← foreign_congr sameKey] at only
      exact fun _ => upholds_createChildren only _

/-- A pass leaves every other namespace as it was, whatever calls fail, exactly when no child of
another namespace that carries the root's name is due for deletion. -/
theorem autoSharding_foreign_iff (flags : Flags) (rootHash : RootHash)
    (childHash : List String → String) (server : Server) (root : ShardingConfig) :
    (∀ faults k, k.1 ≠ root.metadata.namespace_ →
      (after (autoSharding flags rootHash childHash root)
        { server with faults := faults }).configs.find k = server.configs.find k) ↔
      ∀ cfg ∈ server.configs.items, ¬Trespass rootHash server root cfg := by
  constructor
  · intro unchanged cfg member trespass
    have kept := unchanged [] cfg.key trespass.1
    rw [Registry.mem_iff_find.mp member] at kept
    have clear : ({ server with faults := [] } : Server).faults = [] := rfl
    exact autoSharding_trespasses clear member trespass kept
  · intro own faults k foreign
    have agrees : Client.Agrees (Foreign root) { server with faults := faults } (after
        (autoSharding flags rootHash childHash root) { server with faults := faults }) :=
      autoSharding_keeps_foreign own
    exact agrees.find k foreign

end Foreign

/-- A root being deleted; the root of another namespace may have the same name. -/
def twinRoot (space : String) : ShardingConfig where
  metadata := {
    name := "root", namespace_ := space
    finalizers := [protectFinalizer], deletionTimestamp := some 0 }
  spec := {
    selector := none, controller := none, webhook := none, limits := none
    root := some {
      disable := none, namePrefix := "test", targetStatefulSet := "sts-name"
      canary := none, auto := none, resourceSelector := [] } }

/-- A child of `root` by its label. -/
def twinChild (space : String) : ShardingConfig where
  metadata := {
    name := "test-1-normal", namespace_ := space
    labels := AList.singleton autoShardingRootLabel "root" }
  spec := { selector := none, controller := none, webhook := none, limits := none, root := none }

/-- Deleting a root deletes the children of the root of the same name in another namespace. -/
theorem autoSharding_deletes_foreign :
    ¬∀ (flags : Flags) (rootHash : RootHash) (childHash : List String → String)
      (server : Server) (root : ShardingConfig) (k : NamespacedName),
      k.1 ≠ root.metadata.namespace_ →
      (after (autoSharding flags rootHash childHash root) server).configs.find k =
        server.configs.find k := by
  intro unchanged
  have kept := unchanged {} (fun _ => "hash") (fun _ => "hash")
    ⟨⟨[twinRoot "ns1", twinChild "ns2"], by decide⟩, 0, []⟩ (twinRoot "ns1")
    ("ns2", "test-1-normal") (by decide)
  revert kept
  decide

end CtrlMesh.Sharding
