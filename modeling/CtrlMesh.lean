import CtrlMesh.CircuitBreaker.Orphans
import CtrlMesh.Proxy.Delivery
import CtrlMesh.CircuitBreaker.VerdictOrder
import CtrlMesh.CircuitBreaker.InterceptOrder
import CtrlMesh.Sharding.Convergence
import CtrlMesh.Sharding.Expectations
import CtrlMesh.Proxy.LoadedFilter
import CtrlMesh.Webhook.LimitOverlap
import CtrlMesh.LeaderElection.Forwarding
import CtrlMesh.Sharding.PodSplit
import CtrlMesh.CircuitBreaker.EarlyRecovery
import CtrlMesh.FaultInjection.AllOrNothing
import CtrlMesh.Rollout.ShardByShard
import CtrlMesh.Rollout.LeaderLast
import CtrlMesh.Rollout.DeleteExpectations
import CtrlMesh.ManagerState.Controller
import CtrlMesh.Sharding.ActionOrder
import CtrlMesh.Proxy.QueryFrame
import CtrlMesh.Proxy.TrimUrl
import CtrlMesh.CircuitBreaker.RestPriority
import CtrlMesh.CircuitBreaker.Snapshot
import CtrlMesh.FaultInjection.Injector
import CtrlMesh.FaultInjection.ConvertInjective
import CtrlMesh.Sharding.Buckets
import CtrlMesh.Sharding.Finalizers
import CtrlMesh.Rollout.ExpectedRevision
import CtrlMesh.Webhook.PickVolume
import CtrlMesh.Targets.ObservedGeneration
import CtrlMesh.Webhook.FakeKubeConfig
import CtrlMesh.Webhook.PodEnv
import CtrlMesh.Targets.Disabled
import CtrlMesh.Webhook.CertAgreement
import CtrlMesh.Webhook.ResourceLabels
