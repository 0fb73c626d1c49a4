import CtrlMesh.Proxy.Injector
import CtrlMesh.Webhook.ShardingConfig
import Mathlib.Data.Fintype.EquivFin

/-!
# Limits that concern the same resource

The webhook refuses limits of which two concern the same resource. It compares the texts of group
and resource pairs one after the other, while the proxy reads a list that is exactly `["*"]` as
every value. So a wildcard group after a named one, and any wildcard resource, go unnoticed. Nor
does the webhook ask for the wildcard to stand alone, which the proxy takes for granted.
-/

namespace CtrlMesh.Webhook

open Labels Api Proxy

/-- A related resource of the limit covers the resource, as the proxy decides it. -/
def covers (gr : GroupResource) (limit : ObjectLimiter) : Bool :=
  isGRMatchedAPIResources gr (generateAPIResources limit.relatedResources)

/-- At most one of the limits covers the resource. -/
def AtMostOne (gr : GroupResource) (limits : List ObjectLimiter) : Prop :=
  (limits.filter (covers gr)).length ≤ 1

/-- Some value is in both lists, where a list of the wildcard alone has every value. -/
def Meet (left right : List String) : Prop :=
  left = ["*"] ∧ right ≠ [] ∨ right = ["*"] ∧ left ≠ [] ∨ ∃ x ∈ left, x ∈ right

/-- The list has values and none of them is the wildcard. -/
def Named (list : List String) : Prop := list ≠ [] ∧ "*" ∉ list

/-- Two related resources, the second of a later limit, meet without a text in common: by a wildcard
group after named ones, or a wildcard resource before or after them. -/
def Overlooked (earlier later : ResourceGroup) : Prop :=
  (later.apiGroups = ["*"] ∧ Named earlier.apiGroups ∧
      ∃ resource ∈ earlier.resources, resource ∈ later.resources) ∨
    (earlier.resources = ["*"] ∧ Named later.resources ∨
        later.resources = ["*"] ∧ Named earlier.resources) ∧
      Meet earlier.apiGroups later.apiGroups

/-- The check overlooks that two limits cover the same resource. -/
def OverlooksLimits (earlier later : ObjectLimiter) : Prop :=
  ∃ first ∈ earlier.relatedResources, ∃ second ∈ later.relatedResources, Overlooked first second

variable {list : List String} {gr : GroupResource} {limit : ObjectLimiter} {resource : String}
  {limits : List ObjectLimiter}

theorem containsString_iff {x : String} :
    containsString x list "*" = true ↔ list = ["*"] ∨ x ∈ list := by
  simp [containsString]

theorem exists_containsString_iff {left right : List String} :
    (∃ x, containsString x left "*" = true ∧ containsString x right "*" = true) ↔
      Meet left right := by
  simp only [containsString_iff]
  constructor
  · rintro ⟨x, rfl | inLeft, rfl | inRight⟩
    · exact .inl ⟨rfl, by simp⟩
    · exact .inl ⟨rfl, List.ne_nil_of_mem inRight⟩
    · exact .inr (.inl ⟨rfl, List.ne_nil_of_mem inLeft⟩)
    · exact .inr (.inr ⟨x, inLeft, inRight⟩)
  · rintro (⟨wild, some⟩ | ⟨wild, some⟩ | ⟨x, inLeft, inRight⟩)
    · obtain ⟨x, member⟩ := List.exists_mem_of_ne_nil right some
      exact ⟨x, .inl wild, .inr member⟩
    · obtain ⟨x, member⟩ := List.exists_mem_of_ne_nil left some
      exact ⟨x, .inr member, .inl wild⟩
    · exact ⟨x, .inr inLeft, .inr inRight⟩

theorem covers_iff : covers gr limit = true ↔
    ∃ group ∈ limit.relatedResources, containsString gr.group group.apiGroups "*" = true ∧
      containsString gr.resource group.resources "*" = true := by
  simp [covers, isGRMatchedAPIResources, generateAPIResources]

/-- Two limits cover a common resource exactly when two of their related resources meet. -/
theorem exists_covers_iff {earlier later : ObjectLimiter} :
    (∃ gr, covers gr earlier = true ∧ covers gr later = true) ↔
      ∃ first ∈ earlier.relatedResources, ∃ second ∈ later.relatedResources,
        Meet first.apiGroups second.apiGroups ∧ Meet first.resources second.resources := by
  simp only [covers_iff, ← exists_containsString_iff]
  constructor
  · rintro ⟨gr, ⟨first, inFirst, group, resource⟩, second, inSecond, group', resource'⟩
    exact ⟨first, inFirst, second, inSecond, ⟨gr.group, group, group'⟩,
      ⟨gr.resource, resource, resource'⟩⟩
  · rintro ⟨first, inFirst, second, inSecond, ⟨group, left, right⟩, resource, left', right'⟩
    exact ⟨⟨group, resource⟩, ⟨first, inFirst, left, left'⟩, second, inSecond, right, right'⟩

/-- The pairs of one limit. -/
def limitPairs (limit : ObjectLimiter) : List (String × String) :=
  limit.relatedResources.flatMap fun group =>
    group.resources.flatMap fun resource => group.apiGroups.map fun api => (api, resource)

/-- No pair of the later limit conflicts with one of the earlier. -/
def Apart (earlier later : ObjectLimiter) : Prop :=
  ∀ pair ∈ limitPairs earlier, ∀ pair' ∈ limitPairs later, Distinct pair pair'

theorem mem_limitPairs {group : ResourceGroup} {api : String}
    (inLimit : group ∈ limit.relatedResources) (isApi : api ∈ group.apiGroups)
    (isResource : resource ∈ group.resources) : (api, resource) ∈ limitPairs limit := by
  simp only [limitPairs, List.mem_flatMap, List.mem_map, Prod.mk.injEq]
  exact ⟨group, inLimit, resource, isResource, api, isApi, rfl, rfl⟩

theorem apart_of_unconflicted (unconflicted : Unconflicted limits) : limits.Pairwise Apart :=
  (List.pairwise_flatMap.mp unconflicted).2

variable {earlier later : ObjectLimiter} {first second : ResourceGroup}

/-- Where a resource is named by both sides, only a wildcard group after named ones is left. -/
theorem Apart.groups_of_common (apart : Apart earlier later)
    (inEarlier : first ∈ earlier.relatedResources) (inLater : second ∈ later.relatedResources)
    (inFirst : resource ∈ first.resources) (inSecond : resource ∈ second.resources)
    (groups : Meet first.apiGroups second.apiGroups) :
    second.apiGroups = ["*"] ∧ Named first.apiGroups := by
  have distinct : ∀ api ∈ first.apiGroups, ∀ api' ∈ second.apiGroups,
      Distinct (api, resource) (api', resource) := fun api isApi api' isApi' =>
    apart _ (mem_limitPairs inEarlier isApi inFirst) _ (mem_limitPairs inLater isApi' inSecond)
  rcases groups with ⟨wild, some⟩ | ⟨wild, some⟩ | ⟨api, isApi, isApi'⟩
  · obtain ⟨api', isApi'⟩ := List.exists_mem_of_ne_nil _ some
    exact absurd rfl (distinct "*" (by simp [wild]) api' isApi').1
  · refine ⟨wild, some, fun starred => ?_⟩
    exact absurd rfl (distinct "*" starred "*" (by simp [wild])).1
  · exact absurd rfl (distinct api isApi api isApi').2

/-- Related resources that passed the check meet exactly where it overlooks them. -/
theorem Apart.meet_iff (apart : Apart earlier later) (inEarlier : first ∈ earlier.relatedResources)
    (inLater : second ∈ later.relatedResources) :
    Meet first.apiGroups second.apiGroups ∧ Meet first.resources second.resources ↔
      Overlooked first second := by
  have common : Meet first.apiGroups second.apiGroups →
      (∃ resource ∈ first.resources, resource ∈ second.resources) → Overlooked first second := by
    rintro groups ⟨resource, inFirst, inSecond⟩
    obtain ⟨wild, named⟩ := apart.groups_of_common inEarlier inLater inFirst inSecond groups
    exact .inl ⟨wild, named, resource, inFirst, inSecond⟩
  constructor
  · rintro ⟨groups, ⟨wild, some⟩ | ⟨wild, some⟩ | shared⟩
    · by_cases starred : "*" ∈ second.resources
      · exact common groups ⟨"*", by simp [wild], starred⟩
      · exact .inr ⟨.inl ⟨wild, some, starred⟩, groups⟩
    · by_cases starred : "*" ∈ first.resources
      · exact common groups ⟨"*", starred, by simp [wild]⟩
      · exact .inr ⟨.inr ⟨wild, some, starred⟩, groups⟩
    · exact common groups shared
  · rintro (⟨wild, named, shared⟩ | ⟨⟨wild, named⟩ | ⟨wild, named⟩, groups⟩)
    · exact ⟨.inr (.inl ⟨wild, named.1⟩), .inr (.inr shared)⟩
    · exact ⟨groups, .inl ⟨wild, named.1⟩⟩
    · exact ⟨groups, .inr (.inl ⟨wild, named.1⟩)⟩

/-- Limits that passed the check share a resource exactly where it overlooks them. -/
theorem Apart.covers_iff (apart : Apart earlier later) :
    (∃ gr, covers gr earlier = true ∧ covers gr later = true) ↔ OverlooksLimits earlier later := by
  rw [exists_covers_iff]
  constructor
  · rintro ⟨first, inFirst, second, inSecond, meet⟩
    exact ⟨first, inFirst, second, inSecond, (apart.meet_iff inFirst inSecond).mp meet⟩
  · rintro ⟨first, inFirst, second, inSecond, overlooked⟩
    exact ⟨first, inFirst, second, inSecond, (apart.meet_iff inFirst inSecond).mpr overlooked⟩

theorem atMostOne_iff_pairwise :
    AtMostOne gr limits ↔ limits.Pairwise fun earlier later =>
      ¬(covers gr earlier = true ∧ covers gr later = true) := by
  unfold AtMostOne
  induction limits with
  | nil => simp
  | cons limit limits ih =>
    rw [List.pairwise_cons, ← ih]
    by_cases covered : covers gr limit = true
    · rw [List.filter_cons_of_pos covered, List.length_cons]
      have zero : (limits.filter (covers gr)).length + 1 ≤ 1 ↔
          (limits.filter (covers gr)).length = 0 := by omega
      have none : (limits.filter (covers gr)).length + 1 ≤ 1 ↔
          ∀ later ∈ limits, ¬covers gr later = true := by
        rw [zero, List.length_eq_zero_iff, List.filter_eq_nil_iff]
      simp only [covered, true_and, none]
      constructor
      · intro uncovered
        refine ⟨uncovered, ?_⟩
        rw [List.filter_eq_nil_iff.mpr uncovered]
        simp
      · exact And.left
    · rw [List.filter_cons_of_neg covered]
      simp [covered]

/-- An accepted object has at most one limit for every resource exactly when its limits meet in none
of the ways that the check overlooks. -/
theorem validate_atMostOne_iff (sorter : Sorter) (cfg : ShardingConfig)
    (accepted : validate sorter cfg = .ok ()) :
    (∀ gr, AtMostOne gr (cfg.spec.limits.getD [])) ↔
      (cfg.spec.limits.getD []).Pairwise fun earlier later => ¬OverlooksLimits earlier later := by
  have apart : (cfg.spec.limits.getD []).Pairwise Apart := by
    cases isLimits : cfg.spec.limits with
    | none => exact .nil
    | some limits =>
      have checked := (validate_ok.mp accepted).2.2
      exact apart_of_unconflicted ((checkLimits_some isLimits).mp checked).1
  simp only [atMostOne_iff_pairwise]
  constructor
  · intro once
    rw [List.pairwise_iff_forall_sublist] at apart ⊢
    intro earlier later inOrder overlooks
    obtain ⟨gr, both⟩ := (apart inOrder).covers_iff.mpr overlooks
    exact (once gr).forall_sublist inOrder both
  · intro noticed gr
    refine (apart.and noticed).imp fun both => ?_
    exact fun covered => both.2 (both.1.covers_iff.mp ⟨gr, covered⟩)

/-- An object with these limits, each with one related resource. -/
def overlapping (groups : List ResourceGroup) : ShardingConfig where
  metadata := { name := "shard", namespace_ := "ns" }
  spec := {
    selector := some { matchLabels := AList.singleton "app" "operator" }
    controller := none
    webhook := none
    limits := some (groups.map fun group => ⟨[group], none⟩)
    root := none }

theorem validate_atMostOne_split :
    validate .stable (overlapping [⟨["pods"], [""]⟩, ⟨["deployments"], ["*"]⟩]) = .ok () ∧
      ((∀ gr, AtMostOne gr [⟨[⟨["pods"], [""]⟩], none⟩, ⟨[⟨["deployments"], ["*"]⟩], none⟩]) ↔
        List.Pairwise (fun earlier later => ¬OverlooksLimits earlier later)
          [⟨[⟨["pods"], [""]⟩], none⟩, ⟨[⟨["deployments"], ["*"]⟩], none⟩]) :=
  ⟨by decide, validate_atMostOne_iff .stable
    (overlapping [⟨["pods"], [""]⟩, ⟨["deployments"], ["*"]⟩]) (by decide)⟩

/-- The deployments of a group, and then those of every group: both limits concern the former. -/
theorem accepts_overlapping_limits :
    ¬∀ (sorter : Sorter) (cfg : ShardingConfig), validate sorter cfg = .ok () →
      ∀ gr, AtMostOne gr (cfg.spec.limits.getD []) := by
  intro rejects
  have once := rejects .stable
    (overlapping [⟨["deployments"], ["apps"]⟩, ⟨["deployments"], ["*"]⟩]) (by decide)
    ⟨"apps", "deployments"⟩
  revert once
  unfold AtMostOne
  decide

/-- The lists of groups and of resources in the limits of an object. -/
def limitLists (cfg : ShardingConfig) : List (List String) :=
  (cfg.spec.limits.getD []).flatMap fun limit =>
    limit.relatedResources.flatMap fun group => [group.apiGroups, group.resources]

/-- The proxy reads a list as its comment says: the wildcard in it has every value. -/
def ReadsWildcard (list : List String) : Prop :=
  ∀ x, containsString x list "*" = true ↔ x ∈ list ∨ "*" ∈ list

theorem readsWildcard_iff : ReadsWildcard list ↔ ("*" ∈ list → list = ["*"]) := by
  simp only [ReadsWildcard, containsString_iff]
  constructor
  · intro reads starred
    -- A value outside the list is read as one of it only by the first test.
    obtain ⟨x, fresh⟩ := Infinite.exists_notMem_finset list.toFinset
    rw [List.mem_toFinset] at fresh
    have wild : list = ["*"] ∨ x ∈ list := (reads x).mpr (.inr starred)
    exact wild.resolve_right fresh
  · intro alone x
    constructor
    · rintro (wild | member)
      · exact .inr (by simp [wild])
      · exact .inl member
    · rintro (member | starred)
      · exact .inr member
      · exact .inl (alone starred)

/-- The lists of an accepted object are all read as meant exactly when a wildcard is the only member
of its list. -/
theorem validate_readsWildcard_iff (sorter : Sorter) (cfg : ShardingConfig) :
    (validate sorter cfg = .ok () → ∀ list ∈ limitLists cfg, ReadsWildcard list) ↔
      (validate sorter cfg = .ok () → ∀ list ∈ limitLists cfg, "*" ∈ list → list = ["*"]) := by
  refine imp_congr_right fun _ => ?_
  exact forall₂_congr fun list _ => readsWildcard_iff

/-- A named group and then the wildcard: the object is accepted, and the proxy applies its limit to
the named group only. -/
theorem accepts_mixed_wildcard :
    ¬∀ (sorter : Sorter) (cfg : ShardingConfig), validate sorter cfg = .ok () →
      ∀ list ∈ limitLists cfg, ∀ x, containsString x list "*" = true ↔ x ∈ list ∨ "*" ∈ list := by
  intro reads
  have all := (reads .stable (overlapping [⟨["deployments"], ["apps", "*"]⟩]) (by decide)
    ["apps", "*"] (by decide) "batch").mpr (.inr (by decide))
  revert all
  decide

end CtrlMesh.Webhook
