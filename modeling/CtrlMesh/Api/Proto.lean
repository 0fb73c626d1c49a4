import CtrlMesh.Api.ShardingConfig

/-!
# The proxy specification

The messages of `ctrlmesh.proto` a proxy is configured with, and `generateProtoConfig`, which
builds them from a ShardingConfig.
-/

namespace CtrlMesh.Api

open Labels

/-- A set of resources by groups and names. -/
structure APIGroupResource where
  apiGroups : List String
  resources : List String
  deriving DecidableEq

/-- `objectSelector` is the JSON text of a label selector. -/
structure Limit where
  objectSelector : String
  resources : List APIGroupResource
  deriving DecidableEq

/-- `Endpoint`: a pod of a shard. -/
structure Endpoint where
  name : String
  ip : String
  shardName : String
  limits : List Limit
  deriving DecidableEq

/-- `SpecMeta`: the shard and the hash. -/
structure SpecMeta where
  shardName : String
  hash : String
  deriving DecidableEq

/-- `ProxySpec`: what the manager sends. -/
structure ProxySpec where
  specMeta : Option SpecMeta
  limits : List Limit
  endpoints : List Endpoint
  deriving DecidableEq

/-- `generateAPIResources`. -/
def generateAPIResources (resources : List ResourceGroup) : List APIGroupResource :=
  resources.map fun resource => ⟨resource.apiGroups, resource.resources⟩

/-- How the manager writes texts: a selector as JSON, nil included, and the limits as the MD5 sum of
their JSON text. -/
structure Encoder where
  dumpJSON : Option LabelSelector → String
  hash : List Limit → String

/-- The same texts for all. -/
abbrev Encoder.fixed (hash : String) : Encoder := ⟨fun _ => "null", fun _ => hash⟩

/-- `generateProtoConfig`. -/
def generateProtoConfig (enc : Encoder) (cfg : ShardingConfig) : ProxySpec :=
  let limits := (cfg.spec.limits.getD []).map fun limit =>
    { objectSelector := enc.dumpJSON limit.selector
      resources := generateAPIResources limit.relatedResources : Limit }
  { specMeta := some { shardName := cfg.metadata.name, hash := enc.hash limits }
    limits := limits
    endpoints := [] }

end CtrlMesh.Api
