import CtrlMesh.Proxy.SpecManager
import CtrlMesh.Proxy.Storage
import CtrlMesh.Webhook.ShardingConfig

/-!
# From the webhook to the proxy

A ShardingConfig that the webhook accepts is turned into a specification, sent, and received by the
proxies of its pods. The manager then waits until they report its hash. A proxy ignores a
specification without limits, which is what becomes of a list of limits that is empty but not nil.
-/

namespace CtrlMesh.Proxy

open Labels Api Webhook

/-- What arrives of a specification that is sent over the wire. -/
def transport (spec : ProxySpec) : Option ProxySpec := proxySpec.unmarshal (proxySpec.marshal spec)

/-- The proxy reports that it expects the hash. -/
def SpecManager.Reports (sm : SpecManager) (hash : String) : Prop :=
  ∃ status metaState, sm.getStatus = some status ∧ status.metaState = some metaState ∧
    metaState.expectedHash = hash

/-- The wire carries every spec unchanged. -/
theorem transport_eq {spec : ProxySpec} : transport spec = some spec :=
  proxySpec.unmarshal_marshal spec

/-- A specification that is taken over or only expected is reported. -/
theorem SpecManager.reports_updateSpec (sm : SpecManager) {spec : ProxySpec} :
    (sm.updateSpec spec).Reports spec.hash := by
  unfold updateSpec
  cases loadable : checkLoadable sm.currentSpec spec with
  | ok _ => exact ⟨_, _, rfl, rfl, rfl⟩
  | error reason =>
    cases held : sm.currentSpec with
    | none =>
      rw [held] at loadable
      cases loadable
    | some current => exact ⟨_, _, by simp only [getStatus, Option.map_some]; rfl, rfl, rfl⟩

/-- A new manager reports no hash. -/
theorem SpecManager.not_reports_new {hash : String} : ¬new.Reports hash := by
  rintro ⟨status, metaState, reported, -⟩
  cases reported

/-- What is sent for an accepted object is reported by every proxy that receives it exactly when the
object has a limit. -/
theorem reports_sent_iff (sorter : Sorter) (enc : Encoder) (cfg : ShardingConfig)
    (noRoot : cfg.spec.root = none) (accepted : validate sorter cfg = .ok ()) :
    (∀ sm : SpecManager, ∃ spec, transport (generateProtoConfig enc cfg) = some spec ∧
      (sm.recv spec).Reports (generateProtoConfig enc cfg).hash) ↔
      cfg.spec.limits ≠ some [] := by
  have limited : cfg.spec.limits ≠ none := by
    intro none
    have checked := (validate_ok.mp accepted).2.2
    simp [checkLimits, none, noRoot, CtrlMesh.Lib.refuse_ok] at checked
  obtain ⟨limits, isLimits⟩ := Option.ne_none_iff_exists'.mp limited
  generalize sent : generateProtoConfig enc cfg = spec
  have hasMeta : spec.specMeta.isNone = false := by rw [← sent]; rfl
  have empty : spec.limits.isEmpty = limits.isEmpty := by
    rw [← sent]
    simp [generateProtoConfig, isLimits]
  rw [isLimits]
  constructor
  · intro reports same
    obtain ⟨spec', arrived, reported⟩ := reports .new
    rw [transport_eq, Option.some.injEq] at arrived
    cases same
    rw [← arrived, SpecManager.recv, hasMeta, empty] at reported
    exact SpecManager.not_reports_new reported
  · intro some sm
    have received : sm.recv spec = sm.updateSpec spec := by
      have none : limits.isEmpty = false := by
        cases limits with
        | nil => exact absurd rfl some
        | cons limit limits => rfl
      rw [SpecManager.recv, hasMeta, empty, none]
      rfl
    exact ⟨spec, transport_eq, received ▸ sm.reports_updateSpec⟩

/-- An object that the webhook accepts. -/
def limitedConfig (limits : List ObjectLimiter) : ShardingConfig where
  metadata := { name := "shard", namespace_ := "ns" }
  spec := {
    selector := some { matchLabels := AList.singleton "app" "operator" }
    controller := none, webhook := none, limits := some limits, root := none }

/-- A valid configuration with one limit. -/
theorem reports_sent_limited :
    validate .stable (limitedConfig [⟨[], none⟩]) = .ok () ∧
      ((∀ sm : SpecManager, ∃ spec,
          transport (generateProtoConfig (.fixed "hash")
            (limitedConfig [⟨[], none⟩])) = some spec ∧
          (sm.recv spec).Reports (generateProtoConfig (.fixed "hash")
            (limitedConfig [⟨[], none⟩])).hash) ↔
        (limitedConfig [⟨[], none⟩]).spec.limits ≠ some []) :=
  ⟨by decide, reports_sent_iff .stable _ _ rfl (by decide)⟩

/-- An accepted object with an empty list of limits is never reported. -/
theorem empty_limits_unreported :
    ¬∀ (sorter : Sorter) (enc : Encoder) (cfg : ShardingConfig), cfg.spec.root = none →
      validate sorter cfg = .ok () →
      ∀ sm : SpecManager, ∃ spec, transport (generateProtoConfig enc cfg) = some spec ∧
        (sm.recv spec).Reports (generateProtoConfig enc cfg).hash := by
  intro all
  obtain ⟨spec, arrived, reported⟩ :=
    all .stable (.fixed "hash") (limitedConfig []) rfl (by decide) .new
  rw [transport_eq, Option.some.injEq] at arrived
  rw [← arrived] at reported
  exact SpecManager.not_reports_new reported

end CtrlMesh.Proxy
