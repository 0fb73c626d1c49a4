import CtrlMesh.Labels.Selector

/-!
# Pods as the webhook changes them

The parts of a pod that the functions of `pkg/webhook/pod/injector.go` read and write. A nil map is
read like an empty one and a nil list is an empty one; none of these functions writes into a map.
-/

namespace CtrlMesh.Webhook

open Labels

/-- `v1.VolumeMount`. -/
structure VolumeMount where
  name : String
  mountPath : String
  readOnly : Bool := false
  deriving DecidableEq

/-- A source of the value is text here: it is copied and never read. -/
structure EnvVar where
  name : String
  value : String
  valueFrom : Option String := none
  deriving DecidableEq

/-- `v1.ConfigMapVolumeSource`. -/
structure ConfigMapVolumeSource where
  name : String
  defaultMode : Option Int
  deriving DecidableEq

/-- A volume that is not backed by a config map has none here. -/
structure Volume where
  name : String
  configMap : Option ConfigMapVolumeSource
  deriving DecidableEq

/-- `v1.Container`. -/
@[ext]
structure Container where
  name : String
  args : List String := []
  env : List EnvVar := []
  volumeMounts : List VolumeMount := []
  deriving DecidableEq

/-- `v1.Pod`. -/
structure Pod where
  labels : StringMap String := ∅
  annotations : StringMap String := ∅
  volumes : List Volume := []
  containers : List Container := []
  deriving DecidableEq

end CtrlMesh.Webhook
