import CtrlMesh.FaultInjection.InStep
import CtrlMesh.FaultInjection.Convert
import CtrlMesh.Targets.Reconciler

/-!
# FaultInjections as a kind of configuration

`faultinject_controller.go` as an instance of the controller of `Targets.Reconciler`. Its texts of
an UPDATE speak of circuit breakers. A proxy reports nothing but success, and a `Sync` that panics
keeps what it had changed.
-/

namespace CtrlMesh.Targets

open Labels FaultInjection

/-- `FaultInjectionSpec`. No function of the controller reads `disabled`. -/
structure FaultInjectionSpec where
  selector : Option LabelSelector
  disabled : Bool
  httpFaultInjections : List Spec.HTTPFaultInjection

/-- `CtrlmeshFaultInjectionDisableKey`. -/
def ctrlmeshFaultInjectionDisableKey : String := "faultinjection.ctrlmesh.kusionstack.io/disable"

section

variable (compile : Compile) (parse : Parsers) (hash : FaultInjection.Message → String)

/-- The manager after a call of `Sync`, and what the call comes to at the other end. -/
def syncFault (m : Manager) (message : FaultInjection.Message) :
    Manager × Except String (Response Unit) :=
  match (FaultInjection.sync compile message.transported).run m with
  | .ok (resp, none) m => (m, .ok ⟨resp.success, resp.message, ()⟩)
  | .ok (_, some error) m => (m, .error error)
  | .error _ m => (m, .error "panic")

/-- A DELETE never panics. -/
theorem syncFault_delete {m : Manager} {name : String} :
    ∃ answer, (syncFault compile m ⟨[], .delete, "", name⟩).2 = .ok answer ∧
      answer.success = true := by
  unfold syncFault FaultInjection.sync
  rw [EStateM.run_bind, EStateM.run_get]
  dsimp only [Message.transported]
  cases m.faultInjectionMap.lookup name with
  | none => exact ⟨_, rfl, rfl⟩
  | some fi =>
    dsimp only
    rw [EStateM.run_bind, unregisterRules_run]
    exact ⟨_, rfl, rfl⟩

/-- The kind of the FaultInjections. Their names have no colon, like all names the API server
admits. -/
@[reducible] def faults : Kind where
  Spec := FaultInjectionSpec
  Config := FaultInjection.Message
  Manager := Manager
  Report := Unit
  decEqReport := inferInstance
  noReport := ()
  Named := fun name => ':' ∉ name.toList
  disableKey := ctrlmeshFaultInjectionDisableKey
  updateNoun := "circuit breaker"
  disableNoun := "fault injection"
  selector := (·.selector)
  convert := fun name plain spec =>
    convertFaultInjection parse hash ⟨name, plain, spec.httpFaultInjections⟩
  configHash := (·.configHash)
  update := ({ · with option := .update })
  withdraw := fun name => ⟨[], .delete, "", name⟩
  configName := (·.name)
  sync := fun m _ message => syncFault compile m message
  holds := fun m name => (m.faultInjectionMap.lookup name).isSome
  withdrawn := fun _ _ _ => syncFault_delete compile

end

end CtrlMesh.Targets
