import CtrlMesh.Labels.Selector

/-!
# The ShardingConfig resource

The API types of `pkg/apis/ctrlmesh/v1alpha1/shardingconfig_types.go` and the command-line label
names of `pkg/apis/ctrlmesh/types.go`. A Go pointer is an `Option`; a slice whose nil value the
code tells from an empty one is an `Option` of a list. Type metadata and the user-agent override
are read by no modelled function and left out.
-/

namespace CtrlMesh.Api

open Labels

/-- `metav1.ObjectMeta`, the fields the mesh reads or writes. An object whose deletion was requested
stays until its finalizers are gone. -/
structure ObjectMeta where
  name : String
  namespace_ : String
  labels : StringMap String := ∅
  annotations : StringMap String := ∅
  finalizers : List String := []
  deletionTimestamp : Option Int := none
  deriving DecidableEq

/-- `ResourceGroup`. -/
structure ResourceGroup where
  resources : List String
  apiGroups : List String
  deriving DecidableEq

/-- The objects of some resources a shard may see. No related resource means every resource; a nil
selector admits every object. -/
structure ObjectLimiter where
  relatedResources : List ResourceGroup
  selector : Option LabelSelector
  deriving DecidableEq

/-- `CanaryConfig` of a root. -/
structure CanaryConfig where
  replicas : Option Int
  inNamespaces : List String
  inShardHash : List String
  deriving DecidableEq

/-- `AutoConfig` of a root. -/
structure AutoConfig where
  shardingSize : Int
  everyShardReplicas : Int
  deriving DecidableEq

/-- How the children of a root are generated. -/
structure ShardingConfigRoot where
  disable : Option Bool
  namePrefix : String
  targetStatefulSet : String
  canary : Option CanaryConfig
  auto : Option AutoConfig
  resourceSelector : List ObjectLimiter
  deriving DecidableEq

/-- `ShardingConfigControllerConfiguration`. -/
structure ControllerConfiguration where
  leaderElectionName : String
  deriving DecidableEq

/-- `ShardingConfigWebhookConfiguration`. -/
structure WebhookConfiguration where
  certDir : String
  port : Int
  deriving DecidableEq

/-- The validating webhook tells nil limits from an empty list. -/
structure ShardingConfigSpec where
  selector : Option LabelSelector
  controller : Option ControllerConfiguration
  webhook : Option WebhookConfiguration
  limits : Option (List ObjectLimiter)
  root : Option ShardingConfigRoot
  deriving DecidableEq

/-- A ShardingConfig; `child` is `Status.Root.Child`, the names of the generated children. -/
structure ShardingConfig where
  metadata : ObjectMeta
  spec : ShardingConfigSpec
  child : List String := []
  deriving DecidableEq

/-- The label keys set by flags at start-up. -/
structure Flags where
  shardHashLabel : String := "ctrlmesh.kusionstack.io/shard-hash"
  namespaceShardLabel : String := "ctrlmesh.kusionstack.io/namespace"

/-- `ctrlmesh.CtrlmeshAutoShardingRootLabel`. -/
def autoShardingRootLabel : String := "ctrlmesh.kusionstack.io/auto-sharding-root"

/-- `ctrlmesh.CtrlmeshAutoShardingHashAnno`. -/
def autoShardingHashAnno : String := "ctrlmesh.kusionstack.io/auto-sharding-hash"

/-- `ctrlmesh.ProtectFinalizer`. -/
def protectFinalizer : String := "finalizer.ctrlmesh.kusionstack.io/protected"

end CtrlMesh.Api
