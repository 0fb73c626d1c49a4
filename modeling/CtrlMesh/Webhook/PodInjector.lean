import CtrlMesh.Api.ShardingConfig
import CtrlMesh.Labels.Text

/-!
# Injection of the proxy into pods

The mutating webhook of `pkg/webhook/pod`: the ShardingConfig a created pod belongs to. Some of what
the webhook then changes in the pod is in `Webhook.PickVolume`, `Webhook.PodEnv` and
`Webhook.FakeKubeConfig`.
-/

namespace CtrlMesh.Webhook

open Labels Api

/-- The loop of `injectByShardingConfig` over the configs of the namespace, with the match so far. A
config whose selector is not valid is passed over. -/
def matchedCfg (podLabels : LabelSet) :
    Option ShardingConfig → List ShardingConfig → Except String (Option ShardingConfig)
  | matched, [] => .ok matched
  | matched, cfg :: items =>
    if cfg.spec.root.isSome then matchedCfg podLabels matched items
    else match labelSelectorMatches cfg.spec.selector podLabels with
      | some true => match matched with
        | some first => .error ("multiple ShardingConfig " ++ first.metadata.name ++ " " ++
            cfg.metadata.name ++ " matched")
        | none => matchedCfg podLabels (some cfg) items
      | _ => matchedCfg podLabels matched items

/-- `MutatingHandler.injectByShardingConfig`, up to the config it injects. -/
def injectByShardingConfig (podLabels : LabelSet) (items : List ShardingConfig) :
    Except String ShardingConfig := do
  match ← matchedCfg podLabels none items with
  | some cfg => .ok cfg
  | none => .error ("can not find ShardingConfig to inject proxy container, if don't need it " ++
      "please disable ctrlmesh webhook label")

/-- Whether the loop counts the config as matched. -/
def claimsPod (podLabels : LabelSet) (cfg : ShardingConfig) : Bool :=
  cfg.spec.root.isNone && labelSelectorMatches cfg.spec.selector podLabels == some true

variable {podLabels : LabelSet} {cfg : ShardingConfig} {items : List ShardingConfig}

/-- With a config in hand, the loop must not meet another one. -/
theorem matchedCfg_some (first : ShardingConfig) :
    matchedCfg podLabels (some first) items = .ok (some cfg) ↔
      items.filter (claimsPod podLabels) = [] ∧ first = cfg := by
  induction items with
  | nil => simp [matchedCfg]
  | cons head items ih =>
    cases isRoot : head.spec.root with
    | some root => simp [matchedCfg, claimsPod, isRoot, ih]
    | none =>
      cases answer : labelSelectorMatches head.spec.selector podLabels with
      | none => simp [matchedCfg, claimsPod, isRoot, answer, ih]
      | some accepts => cases accepts <;> simp [matchedCfg, claimsPod, isRoot, answer, ih]

/-- From nothing, the loop finds a config if it is the only one. -/
theorem matchedCfg_none :
    matchedCfg podLabels none items = .ok (some cfg) ↔
      items.filter (claimsPod podLabels) = [cfg] := by
  induction items with
  | nil => simp [matchedCfg]
  | cons head items ih =>
    cases isRoot : head.spec.root with
    | some root => simp [matchedCfg, claimsPod, isRoot, ih]
    | none =>
      cases answer : labelSelectorMatches head.spec.selector podLabels with
      | none => simp [matchedCfg, claimsPod, isRoot, answer, ih]
      | some accepts =>
        cases accepts with
        | false => simp [matchedCfg, claimsPod, isRoot, answer, ih]
        | true =>
          have claimed : claimsPod podLabels head = true := by simp [claimsPod, isRoot, answer]
          have next : matchedCfg podLabels none (head :: items) =
              matchedCfg podLabels (some head) items := by simp [matchedCfg, isRoot, answer]
          rw [next, matchedCfg_some, List.filter_cons_of_pos claimed, List.cons.injEq, and_comm]

/-- The webhook injects a config into a pod exactly when no other one claims the pod. -/
theorem injectByShardingConfig_ok :
    injectByShardingConfig podLabels items = .ok cfg ↔
      items.filter (claimsPod podLabels) = [cfg] := by
  rw [← matchedCfg_none]
  unfold injectByShardingConfig
  cases matchedCfg podLabels none items with
  | error text => simp [bind, Except.bind]
  | ok matched => cases matched <;> simp [bind, Except.bind]

end CtrlMesh.Webhook
