import CtrlMesh.Rollout.Upgrade

/-!
# Shard by shard

A pass goes over the shards in the order of their names and stops at the first one that does not
stand at the new revision as a whole. What it has of a shard are the pods whose first owner is the
StatefulSet. So it goes shard by shard unless a pod that the StatefulSet controls has another first
owner: such a pod holds nothing up, neither the next shard nor the end of the rollout.
-/

namespace CtrlMesh.Rollout

open Labels Lib Api

variable {e : Expectations} {o : Outcomes} {holder : Option String} {sts : StatefulSet}
  {pods : List Pod} {po : Pod} {w : World} {ns rollType : String}

/-- The pods of a shard: those the StatefulSet controls under the label of a ShardingConfig. -/
def shardPods (w : World) (sts : StatefulSet) (ns configName : String) : List Pod :=
  (stsPods w sts ns).filter fun po =>
    po.labels.lookup shardingConfigInjectedKey = some configName

/-- The StatefulSet is the first owner of the pod. -/
def FirstOwned (sts : StatefulSet) (po : Pod) : Prop :=
  po.ownerReferences.head?.any (·.name = sts.name) = true

/-- A pass has the pods of a shard whose first owner is the StatefulSet. -/
theorem mem_shardingPods {name : String} : po ∈ shardingPods w sts ns name ↔
    po ∈ shardPods w sts ns name ∧ FirstOwned sts po := by
  simp only [shardingPods, shardPods, FirstOwned, List.mem_filter, Bool.and_eq_true]
  tauto

/-- Every pod of the shard stands. -/
def ShardStands (w : World) (sts : StatefulSet) (ns : String) (cfg : ShardingConfig) : Prop :=
  ∀ po ∈ shardPods w sts ns cfg.metadata.name, Stands w.rollingDeleteExpectation sts po

/-- Every pod that a pass has of the shard stands. -/
def Settled (w : World) (sts : StatefulSet) (ns : String) (cfg : ShardingConfig) : Prop :=
  ∀ po ∈ shardingPods w sts ns cfg.metadata.name, Stands w.rollingDeleteExpectation sts po

/-- The ShardingConfig exists in the namespace, and the roll type of the StatefulSet asks for it. -/
structure InScope (w : World) (sts : StatefulSet) (ns : String) (cfg : ShardingConfig) : Prop where
  stored : cfg ∈ w.configs.items
  here : cfg.metadata.namespace_ = ns
  asked : ∃ rollType, sts.labels.lookup inRollingLabel = some rollType ∧
    inScope rollType cfg.metadata.name = true

/-- The shard is left alone, or what the pass has of it stands. -/
def Passed (w : World) (sts : StatefulSet) (ns rollType : String) (cfg : ShardingConfig) : Prop :=
  inScope rollType cfg.metadata.name = true → Settled w sts ns cfg

/-- The upgrade of the shard. -/
def shardUpgrade (w : World) (o : Outcomes) (sts : StatefulSet) (ns : String)
    (cfg : ShardingConfig) : Upgrade :=
  upgrade w.rollingDeleteExpectation o (getHolderIdentity w o cfg) sts
    (shardingPods w sts ns cfg.metadata.name)

/-- The ways the loop over the shards can end: past all of them, or at the upgrade of one. -/
inductive Rolled (w : World) (o : Outcomes) (sts : StatefulSet) (ns rollType : String)
    (configs : List ShardingConfig) : Bool → List Effect → Prop where
  | passes (all : ∀ cfg ∈ configs, Passed w sts ns rollType cfg) :
      Rolled w o sts ns rollType configs true []
  | stops (before : List ShardingConfig) (cfg : ShardingConfig) (after : List ShardingConfig)
      (split : configs = before ++ cfg :: after)
      (asked : inScope rollType cfg.metadata.name = true)
      (earlier : ∀ other ∈ before, Passed w sts ns rollType other)
      (unsettled : ¬Settled w sts ns cfg) :
      Rolled w o sts ns rollType configs false (shardUpgrade w o sts ns cfg).effects

variable {finish changed : Bool} {cfg other : ShardingConfig} {dump : Dump} {upgraded : List String}
  {pass : Pass} {configs : List ShardingConfig} {key : NamespacedName}

theorem Rolled.cons {effects : List Effect}
    (rolled : Rolled w o sts ns rollType configs finish effects)
    (passed : Passed w sts ns rollType cfg) :
    Rolled w o sts ns rollType (cfg :: configs) finish effects := by
  cases rolled with
  | passes all => exact .passes (List.forall_mem_cons.mpr ⟨passed, all⟩)
  | stops before cfg' after split asked earlier unsettled =>
    refine .stops (cfg :: before) cfg' after (by rw [split]; rfl) asked ?_ unsettled
    exact List.forall_mem_cons.mpr ⟨passed, earlier⟩

theorem rolled_of_rollShards :
    Rolled w o sts ns rollType configs
      (rollShards w o sts ns rollType w.rollingDeleteExpectation configs).finish
      (rollShards w o sts ns rollType w.rollingDeleteExpectation configs).effects := by
  induction configs with
  | nil => exact .passes (by simp)
  | cons cfg configs ih =>
    rw [rollShards]
    cases asked : inScope rollType cfg.metadata.name with
    | false => exact ih.cons (fun inside => absurd inside (by simp [asked]))
    | true =>
      simp only [Bool.not_true, Bool.false_eq_true, if_false]
      split
      next finished =>
        have settled : Settled w sts ns cfg := finish_iff.mp finished
        rw [upgrade_of_stand settled]
        exact ih.cons fun _ => settled
      next unfinished =>
        have unsettled : ¬Settled w sts ns cfg := mt finish_iff.mpr unfinished
        rw [Bool.not_eq_true] at unfinished
        rw [unfinished]
        exact .stops [] cfg configs rfl asked (by simp) unsettled

theorem mem_allConfigs : cfg ∈ allConfigs w sts ns ↔
    cfg ∈ w.configs.items ∧ cfg.metadata.namespace_ = ns ∧
      shardingPods w sts ns cfg.metadata.name ≠ [] := by
  simp [allConfigs, List.mem_insertionSort]

/-- A shard that sorts before another one of the list comes before it. -/
theorem mem_before {before after : List ShardingConfig}
    (split : allConfigs w sts ns = before ++ cfg :: after) (member : other ∈ allConfigs w sts ns)
    (smaller : other.metadata.name < cfg.metadata.name) : other ∈ before := by
  have total : Std.Total fun left right : ShardingConfig =>
      left.metadata.name ≤ right.metadata.name := ⟨fun _ _ => le_total _ _⟩
  have trans : IsTrans ShardingConfig fun left right =>
      left.metadata.name ≤ right.metadata.name := ⟨fun _ _ _ => le_trans⟩
  have sorted : (allConfigs w sts ns).Pairwise
      fun left right => left.metadata.name ≤ right.metadata.name :=
    List.pairwise_insertionSort _ _
  rw [split, List.pairwise_append, List.pairwise_cons] at sorted
  rw [split, List.mem_append, List.mem_cons] at member
  rcases member with inside | rfl | later
  · exact inside
  · exact absurd smaller (lt_irrefl _)
  · exact absurd smaller (not_lt.mpr (sorted.2.1.1 other later))

/-- One ShardingConfig has the name in the namespace. -/
theorem eq_of_name (scope : InScope w sts ns cfg) (scope' : InScope w sts ns other)
    (same : cfg.metadata.name = other.metadata.name) : cfg = other :=
  List.inj_on_of_nodup_map w.configs.distinct scope.stored scope'.stored
    (Prod.ext (scope.here.trans scope'.here.symm) same)

theorem upgrade_annotations (annotations : Option (StringMap String)) :
    upgrade e o holder { sts with annotations := annotations } pods =
      upgrade e o holder sts pods := by
  rw [upgrade, upgrade, examine_eq, examine_eq]
  rfl

theorem rollShards_annotations {annotations : Option (StringMap String)}
    (configs : List ShardingConfig) :
    rollShards w o { sts with annotations := annotations } ns rollType e configs =
      rollShards w o sts ns rollType e configs := by
  induction configs generalizing e with
  | nil => rfl
  | cons cfg configs ih =>
    simp only [rollShards, ih, upgrade_annotations]
    rfl

/-- The object differs from the StatefulSet in its annotations only, which the loop over the shards
does not read. -/
theorem setExpectedRevision_spec {revisions : StringMap String} {sts' : StatefulSet}
    (set : setExpectedRevision dump sts revisions = some (sts', changed)) :
    sts'.labels = sts.labels ∧
      rollShards w o sts' ns rollType e (allConfigs w sts' ns) =
        rollShards w o sts ns rollType e (allConfigs w sts ns) := by
  unfold setExpectedRevision at set
  dsimp only at set
  split at set
  · cases set
    exact ⟨rfl, rfl⟩
  · obtain ⟨annotations, -, same⟩ := Option.map_eq_some_iff.mp set
    cases same
    exact ⟨rfl, rollShards_annotations _⟩

theorem labels_updateRolloutAnno : (updateRolloutAnno dump sts upgraded).1.labels = sts.labels := by
  unfold updateRolloutAnno
  generalize (if upgraded = [] then "" else dump.names upgraded) = val
  cases sts.annotations with
  | none => rfl
  | some annotations =>
    dsimp only
    split <;> rfl

/-- The end of a pass does nothing to pods. -/
theorem effects_atEnd : (atEnd dump o sts upgraded finish pass).effects = pass.effects := by
  simp only [atEnd, apply_ite Pass.effects, ite_self]

/-- What the pass sends goes without the label of the rollout. -/
def Pass.Unlabels (pass : Pass) : Prop :=
  ∃ sent ∈ pass.updates, sent.labels.lookup inRollingLabel = none

/-- The end of a pass takes the label off exactly if the rollout has finished. -/
theorem unlabels_atEnd (labelled : sts.labels.lookup inRollingLabel = some rollType)
    (early : ¬pass.Unlabels) :
    (atEnd dump o sts upgraded finish pass).Unlabels ↔ finish = true := by
  have kept := @labels_updateRolloutAnno sts dump upgraded
  unfold atEnd
  generalize updateRolloutAnno dump sts upgraded = marked at kept
  obtain ⟨marked, updateAnno⟩ := marked
  rw [← kept] at labelled
  cases finish with
  | true =>
    refine iff_of_true ⟨(deleteLabel marked inRollingLabel).1, ?_, ?_⟩ rfl
    · simp [deleteLabel, labelled]
    · simp [deleteLabel]
  | false =>
    refine iff_of_false ?_ Bool.false_ne_true
    rintro ⟨sent, member, gone⟩
    simp only [Bool.false_eq_true, if_false] at member
    split at member
    · rcases List.mem_append.mp member with earlier | last
      · exact early ⟨sent, earlier, gone⟩
      · rw [List.mem_singleton.mp last, labelled] at gone
        cases gone
    · exact early ⟨sent, member, gone⟩

/-- What a pass over shards may do: delete outdated pods of one shard in scope, before which all
shards stand, and take the label off where all shards stand. -/
structure ShardByShard (w : World) (sts : StatefulSet) (ns : String) (pass : Pass) : Prop where
  oneShard : (∀ po error, .delete po error ∉ pass.effects) ∨ ∃ cfg, InScope w sts ns cfg ∧
    (∀ po error, .delete po error ∈ pass.effects →
      po ∈ shardPods w sts ns cfg.metadata.name ∧ isUpdatedRevision sts po = false) ∧
    ∀ other, InScope w sts ns other → other.metadata.name < cfg.metadata.name →
      ShardStands w sts ns other
  unlabelled : pass.Unlabels → ∀ cfg, InScope w sts ns cfg → ShardStands w sts ns cfg

/-- The pass comes to its loop over the shards. -/
structure Rolls (dump : Dump) (w : World) (key : NamespacedName) (o : Outcomes)
    (sts : StatefulSet) (rollType : String) : Prop where
  labelled : sts.labels.lookup inRollingLabel = some rollType
  stays : sts.deleting = false
  created : sts.replicas = some sts.currentReplicas
  read : o.getStatefulSet = none ∧ o.listConfigs = none ∧ o.listPods = none
  items : ((listed w sts key.1).isEmpty && o.nilItems) = false
  complete : (stsPods w sts key.1).length = sts.currentReplicas
  expected : ∃ set ∈ setExpectedRevision dump sts (expectedPodRevision w sts key.1 rollType),
    set.2 = true → o.update = none

/-- A pass that comes to the shard deletes pods of it. -/
structure Deletes (w : World) (o : Outcomes) (sts : StatefulSet) (ns : String)
    (cfg : ShardingConfig) : Prop where
  rest : AtRest w.rollingDeleteExpectation sts (shardingPods w sts ns cfg.metadata.name)
  outdated : ∃ po ∈ shardingPods w sts ns cfg.metadata.name, isUpdatedRevision sts po = false
  held : (getHolderIdentity w o cfg).isSome = true

/-- The pods that a pass has let it go past the shard: to its end, or to delete pods of a later
shard. -/
def GoesPast (w : World) (o : Outcomes) (sts : StatefulSet) (ns : String) (cfg : ShardingConfig) :
    Prop :=
  (∀ other, InScope w sts ns other → Settled w sts ns other) ∨
    ∃ later, InScope w sts ns later ∧ cfg.metadata.name < later.metadata.name ∧
      Deletes w o sts ns later ∧
      ∀ other, InScope w sts ns other → other.metadata.name < later.metadata.name →
        Settled w sts ns other

/-- The pods that a pass does not have stand in every shard it goes past. -/
def OthersStand (w : World) (o : Outcomes) (sts : StatefulSet) (ns : String) : Prop :=
  ∀ cfg, InScope w sts ns cfg → GoesPast w o sts ns cfg →
    ∀ po ∈ shardPods w sts ns cfg.metadata.name,
      FirstOwned sts po ∨ Stands w.rollingDeleteExpectation sts po

theorem deletes_iff : Deletes w o sts ns cfg ↔
    ∃ po error, .delete po error ∈ (shardUpgrade w o sts ns cfg).effects := by
  rw [shardUpgrade, exists_delete_iff]
  exact ⟨fun ⟨rest, outdated, held⟩ => ⟨rest, outdated, held⟩,
    fun ⟨rest, outdated, held⟩ => ⟨rest, outdated, held⟩⟩

theorem OthersStand.shardStands (others : OthersStand w o sts ns) (scope : InScope w sts ns cfg)
    (past : GoesPast w o sts ns cfg) (settled : Settled w sts ns cfg) :
    ShardStands w sts ns cfg := by
  intro po member
  rcases others cfg scope past po member with owned | stands
  · exact settled po (mem_shardingPods.mpr ⟨member, owned⟩)
  · exact stands

section Loop

variable (labelled : sts.labels.lookup inRollingLabel = some rollType)

include labelled

theorem InScope.of_label (scope : InScope w sts ns cfg) :
    inScope rollType cfg.metadata.name = true := by
  obtain ⟨rollType', same, asked⟩ := scope.asked
  rw [labelled] at same
  cases same
  exact asked

/-- A shard in scope is settled if the loop passes it whenever it has pods. -/
theorem settled_of_passed (scope : InScope w sts ns cfg)
    (passed : cfg ∈ allConfigs w sts ns → Passed w sts ns rollType cfg) : Settled w sts ns cfg := by
  intro po member
  refine passed (mem_allConfigs.mpr ⟨scope.stored, scope.here, ?_⟩) (scope.of_label labelled) po
    member
  exact List.ne_nil_of_mem member

/-- A pass that does what the loop does, and takes the label off where the loop finishes, goes shard
by shard exactly if the pods it does not have stand. -/
theorem shardByShard_iff_of_rolled {effects : List Effect}
    (rolled : Rolled w o sts ns rollType (allConfigs w sts ns) finish effects)
    (does : pass.effects = effects) (unlabels : pass.Unlabels ↔ finish = true) :
    ShardByShard w sts ns pass ↔ OthersStand w o sts ns := by
  cases rolled with
  | passes all =>
    have settled : ∀ cfg, InScope w sts ns cfg → Settled w sts ns cfg :=
      fun cfg scope => settled_of_passed labelled scope (all cfg)
    refine ⟨fun holds cfg scope _ po inside => .inr ?_, fun others => ⟨.inl ?_, ?_⟩⟩
    · exact holds.unlabelled (unlabels.mpr rfl) cfg scope po inside
    · simp [does]
    · exact fun _ cfg scope => others.shardStands scope (.inl settled) (settled cfg scope)
  | stops before cfg after split asked earlier unsettled =>
    have listed : cfg ∈ allConfigs w sts ns := by simp [split]
    obtain ⟨stored, here, -⟩ := mem_allConfigs.mp listed
    have scope : InScope w sts ns cfg := ⟨stored, here, rollType, labelled, asked⟩
    have settled : ∀ other, InScope w sts ns other → other.metadata.name < cfg.metadata.name →
        Settled w sts ns other := fun other scope smaller =>
      settled_of_passed labelled scope fun member => earlier other (mem_before split member smaller)
    constructor
    · intro holds other scope' past po inside
      rcases past with all | ⟨later, scope'', smaller, deletes, allBefore⟩
      · exact absurd (all cfg scope) unsettled
      -- The shard whose pods go is the one the loop stops at.
      have same : later = cfg := by
        refine eq_of_name scope'' scope (le_antisymm (not_lt.mp fun after => ?_)
          (not_lt.mp fun before => ?_))
        · exact unsettled (allBefore cfg scope after)
        · obtain ⟨po, member, outdated⟩ := deletes.outdated
          have updated := (settled later scope'' before po member).updated
          rw [outdated] at updated
          cases updated
      subst same
      obtain ⟨gone, error, effect⟩ := deletes_iff.mp deletes
      rw [← does] at effect
      rcases holds.oneShard with nothing | ⟨shard, _, deleted, stand⟩
      · exact absurd effect (nothing gone error)
      · have label := (List.mem_filter.mp (deleted gone error effect).1).2
        rw [does] at effect
        have label' := (List.mem_filter.mp (mem_shardingPods.mp (outdated_of_delete effect).1).1).2
        have sameShard : shard.metadata.name = later.metadata.name := by
          simp only [decide_eq_true_eq] at label label'
          exact Option.some.inj (label.symm.trans label')
        exact .inr (stand other scope' (sameShard ▸ smaller) po inside)
    · intro others
      refine ⟨?_, fun gone => by cases unlabels.mp gone⟩
      by_cases deletes : Deletes w o sts ns cfg
      · refine .inr ⟨cfg, scope, fun po error effect => ?_, fun other scope' smaller => ?_⟩
        · rw [does] at effect
          obtain ⟨member, outdated⟩ := outdated_of_delete effect
          exact ⟨(mem_shardingPods.mp member).1, outdated⟩
        · exact others.shardStands scope' (.inr ⟨cfg, scope, smaller, deletes, settled⟩)
            (settled other scope' smaller)
      · refine .inl fun po error effect => deletes (deletes_iff.mpr ⟨po, error, ?_⟩)
        rwa [does] at effect

end Loop

/-- What goes out before the loop has the label. -/
theorem not_unlabels_early (labelled : sts.labels.lookup inRollingLabel = some rollType)
    (early : pass.updates = if changed then [sts] else []) : ¬pass.Unlabels := by
  rintro ⟨sent, member, gone⟩
  rw [early] at member
  cases changed with
  | true =>
    rw [List.mem_singleton.mp member, labelled] at gone
    cases gone
  | false => cases member

/-- A pass that comes to the loop does what the loop does. -/
theorem Rolls.reconcile_spec (rolls : Rolls dump w key o sts rollType)
    (found : w.statefulSets.find key = some sts) (onDelete : sts.updateStrategy = .onDelete) :
    (reconcile dump w key o).effects = (rollShards w o sts key.1 rollType
        w.rollingDeleteExpectation (allConfigs w sts key.1)).effects ∧
      ((reconcile dump w key o).Unlabels ↔ (rollShards w o sts key.1 rollType
        w.rollingDeleteExpectation (allConfigs w sts key.1)).finish = true) := by
  obtain ⟨read, readConfigs, readPods⟩ := rolls.read
  have rollsOut : reconcile dump w key o = rollOut dump w o sts key.1 rollType := by
    simp only [reconcile, found, read, readConfigs, readPods, rolls.created, rolls.stays,
      rolls.labelled, onDelete, rolls.items, rolls.complete, Bool.false_eq_true, if_false, ne_eq,
      not_true_eq_false]
  obtain ⟨⟨sts', changed⟩, set, sent⟩ := rolls.expected
  obtain ⟨labels, same⟩ := @setExpectedRevision_spec w.rollingDeleteExpectation o sts w key.1
    rollType _ dump _ _ set
  have labelled := rolls.labelled
  rw [← labels] at labelled
  have unfailed : (if changed = true then o.update else none) = none := by
    cases changed with
    | true => exact sent rfl
    | false => rfl
  rw [rollsOut, rollOut, set]
  dsimp only
  rw [unfailed, same]
  exact ⟨effects_atEnd, unlabels_atEnd labelled (not_unlabels_early labelled rfl)⟩

/-- A pass comes to the loop, or does nothing to pods and keeps the label. -/
theorem rolls_or_quiet (found : w.statefulSets.find key = some sts)
    (onDelete : sts.updateStrategy = .onDelete) :
    (∃ rollType, Rolls dump w key o sts rollType) ∨
      (reconcile dump w key o).effects = [] ∧ ¬(reconcile dump w key o).Unlabels := by
  have nothing {pass : Pass} (untouched : pass.effects = []) (unsent : pass.updates = []) :
      pass.effects = [] ∧ ¬pass.Unlabels := ⟨untouched, by simp [Pass.Unlabels, unsent]⟩
  unfold reconcile
  rw [found]
  cases read : o.getStatefulSet with
  | some error => cases error <;> exact .inr (nothing rfl rfl)
  | none =>
    dsimp only
    split
    · exact .inr (nothing rfl rfl)
    next replicas hasReplicas =>
    split
    · exact .inr (nothing rfl rfl)
    next stays =>
    split
    · exact .inr (nothing rfl rfl)
    next created =>
    split
    · exact .inr (nothing rfl rfl)
    next rollType labelled =>
    rw [if_neg (not_not_intro onDelete)]
    split
    · exact .inr (nothing rfl rfl)
    · exact .inr (nothing rfl rfl)
    next readConfigs readPods =>
    split
    · exact .inr (nothing rfl rfl)
    next items =>
    split
    · exact .inr (nothing rfl rfl)
    next complete =>
    rw [Decidable.not_not] at created complete
    rw [← created] at hasReplicas complete
    unfold rollOut
    dsimp only
    cases set : setExpectedRevision dump sts (expectedPodRevision w sts key.1 rollType) with
    | none =>
      refine .inr ⟨effects_atEnd, mt (unlabels_atEnd labelled ?_).mp Bool.false_ne_true⟩
      exact (nothing rfl rfl).2
    | some result =>
      obtain ⟨sts', changed⟩ := result
      have labels := (@setExpectedRevision_spec w.rollingDeleteExpectation o sts w key.1 rollType
        _ dump _ _ set).1
      have labelled' : sts'.labels.lookup inRollingLabel = some rollType := by rw [labels, labelled]
      dsimp only
      split
      · refine .inr ⟨effects_atEnd, mt (unlabels_atEnd labelled' ?_).mp Bool.false_ne_true⟩
        exact not_unlabels_early labelled' rfl
      next unfailed =>
        refine .inl ⟨rollType, labelled, by simpa using stays, hasReplicas,
          ⟨read, readConfigs, readPods⟩, by simpa using items, complete, (sts', changed), set, ?_⟩
        rintro rfl
        exact unfailed

/-- A ShardingConfig of `app`. -/
def appShard (name : String) : ShardingConfig where
  metadata := { namespace_ := "ns", name := name }
  spec := ⟨none, some ⟨"lock"⟩, none, none, none⟩

/-- Two shards of one pod each. -/
def appWorld (first second : Pod) (distinct : ([first, second].map Pod.key).Nodup) : World where
  statefulSets := ⟨[appSet 2], by decide⟩
  configs := ⟨[appShard "second", appShard "first"], by decide⟩
  pods := ⟨[first, second], distinct⟩
  leases := fun _ => some (some "app-1_4f2c")
  rollingDeleteExpectation := ∅

/-- Texts of the annotations. -/
def appDump : Dump := ⟨fun names => ",".intercalate names, fun revision _ => revision⟩

/-- A pod of the first shard that a backup owns as well, and in the first place. -/
def backedUp : Pod :=
  { appPod "first" "app-0" "old" with ownerReferences := [⟨"backup", false⟩, ⟨"app", true⟩] }

end CtrlMesh.Rollout
