import CtrlMesh.Lib.Run
import CtrlMesh.Proxy.SpecManager
import CtrlMesh.Proxy.Storage

/-!
# The specification manager over its files

`newSpecManager` and `UpdateSpec` of `proto_manager.go` together with the writes they make. A write
that fails is a panic, and a process that is killed between its writes has not made the later ones;
both leave the files as they are and no specification manager. What the files come to hold is said
by a journal: the specifications that were written to each of them, in order.
-/

namespace CtrlMesh.Proxy.Process

open Labels Lib Api Lib.Wire

/-- Which writes of a call are not made. -/
structure Faults where
  expected : Bool
  current : Bool
  deriving DecidableEq

/-- The storage of a proxy, and its specification manager while the process runs. -/
structure State where
  storage : Storage
  specManager : Option SpecManager

/-- `UpdateSpec`. -/
def updateSpec (storage : Storage) (sm : SpecManager) (spec : ProxySpec) (faults : Faults) :
    State :=
  match storage.writeExpectedSpec faults.expected spec with
  | .error _ => ⟨storage, none⟩
  | .ok storage =>
    match SpecManager.checkLoadable sm.currentSpec spec with
    | .error _ => ⟨storage, some (sm.updateSpec spec)⟩
    | .ok _ =>
      match storage.writeCurrentSpec faults.current spec with
      | .error _ => ⟨storage, none⟩
      | .ok storage => ⟨storage, some (sm.updateSpec spec)⟩

/-- `newSpecManager`, over the contents of the two files. An error of `loadData` is only logged. -/
def newSpecManager (expected current : Bytes) (faults : Faults) : State :=
  match (newStorage expected current).loadData with
  | (.error _, storage) => ⟨storage, some .new⟩
  | (.ok (expectedSpec, currentSpec), storage) =>
    let sm := { SpecManager.new with currentSpec := currentSpec }
    match expectedSpec with
    | none => ⟨storage, some sm⟩
    | some spec => updateSpec storage sm spec faults

/-- The first process of a proxy finds no files. -/
def State.start : State := newSpecManager [] [] ⟨false, false⟩

/-- A specification arrives for a ShardingConfig, or the process is replaced by a new one. -/
inductive Event where
  | update (cfg : ShardingConfig) (faults : Faults)
  | restart (faults : Faults)

section Step

variable (enc : Encoder)

/-- A process that has stopped takes no specification. -/
def step (w : State) : Event → Option State
  | .update cfg faults => w.specManager.map fun sm =>
    updateSpec w.storage sm (generateProtoConfig enc cfg) faults
  | .restart faults => some (newSpecManager w.storage.expectedSpecFile.content
    w.storage.currentSpecFile.content faults)

end Step

/-- The specifications written to the two files, and the specification manager. -/
structure Journal where
  expected : List ProxySpec
  current : List ProxySpec
  specManager : Option SpecManager
  deriving DecidableEq

namespace Journal

/-- Nothing written, and a new process. -/
def start : Journal := ⟨[], [], some .new⟩

/-- `UpdateSpec`, with its writes listed. -/
def updateSpec (j : Journal) (sm : SpecManager) (spec : ProxySpec) (faults : Faults) : Journal :=
  if faults.expected then { j with specManager := none }
  else
    match SpecManager.checkLoadable sm.currentSpec spec with
    | .error _ => ⟨j.expected ++ [spec], j.current, some (sm.updateSpec spec)⟩
    | .ok _ =>
      if faults.current then ⟨j.expected ++ [spec], j.current, none⟩
      else ⟨j.expected ++ [spec], j.current ++ [spec], some (sm.updateSpec spec)⟩

/-- A new process loads the merge of what was written to each file. -/
def restart (j : Journal) (faults : Faults) : Journal :=
  let sm := { SpecManager.new with currentSpec := merged j.current }
  match merged j.expected with
  | none => { j with specManager := some sm }
  | some spec => j.updateSpec sm spec faults

/-- What an event makes of the proxy. -/
def step (enc : Encoder) (j : Journal) :
    Event → Option Journal
  | .update cfg faults => j.specManager.map fun sm =>
    j.updateSpec sm (generateProtoConfig enc cfg) faults
  | .restart faults => some (j.restart faults)

end Journal

/-- The files hold what the journal says. -/
structure Keeps (w : State) (j : Journal) : Prop where
  files : w.storage.Holds j.expected j.current
  specManager : w.specManager = j.specManager

section Refinement

variable {w : State} {j : Journal} {storage : Storage} {sm : SpecManager}
  {enc : Encoder}

theorem keeps_updateSpec (files : storage.Holds j.expected j.current) {spec : ProxySpec}
    {faults : Faults} :
    Keeps (updateSpec storage sm spec faults) (j.updateSpec sm spec faults) := by
  obtain ⟨unexpected, uncurrent⟩ := faults
  cases unexpected with
  | true => exact ⟨files, rfl⟩
  | false =>
    have expected : (storage.step (.writeExpected false spec)).Holds (j.expected ++ [spec])
        j.current :=
      ⟨files.expectedFile.write spec, files.currentFile⟩
    unfold updateSpec Journal.updateSpec
    rw [if_neg Bool.false_ne_true]
    cases SpecManager.checkLoadable sm.currentSpec spec with
    | error reason => exact ⟨expected, rfl⟩
    | ok loadable =>
      cases uncurrent with
      | true => exact ⟨expected, rfl⟩
      | false =>
        exact ⟨⟨expected.expectedFile, expected.currentFile.write spec⟩, rfl⟩

theorem loadData_eq (files : storage.Holds j.expected j.current) :
    (newStorage storage.expectedSpecFile.content storage.currentSpecFile.content).loadData =
      (.ok (merged j.expected, merged j.current), storage.restart) := by
  refine Prod.ext ?_ rfl
  simp only [newStorage, Storage.loadData, File.openFile, File.readAll, List.drop_zero,
    files.expectedFile.content, files.currentFile.content, parseSpec_concat]
  rfl

theorem keeps_restart (keeps : Keeps w j) {faults : Faults} :
    Keeps (newSpecManager w.storage.expectedSpecFile.content w.storage.currentSpecFile.content
      faults) (j.restart faults) := by
  have files : w.storage.restart.Holds j.expected j.current := by
    have expected := keeps.files.expectedFile.reopen
    have current := keeps.files.currentFile.reopen
    rw [List.append_nil] at expected current
    exact ⟨expected, current⟩
  unfold newSpecManager Journal.restart
  rw [loadData_eq keeps.files]
  dsimp only
  cases merged j.expected with
  | none => exact ⟨files, rfl⟩
  | some spec => exact keeps_updateSpec files

theorem keeps_start : Keeps .start .start :=
  ⟨⟨⟨rfl, rfl⟩, ⟨rfl, rfl⟩⟩, rfl⟩

/-- The journal says what every step does. -/
theorem keeps_step (w : State) (j : Journal) {event : Event} (keeps : Keeps w j) :
    Option.Rel Keeps (step enc w event) (j.step enc event) := by
  cases event with
  | update cfg faults =>
    simp only [step, Journal.step, keeps.specManager]
    cases j.specManager with
    | none => exact .none
    | some sm => exact .some (keeps_updateSpec keeps.files)
  | restart faults => exact .some (keeps_restart keeps)

/-- The journal says what every run does. -/
theorem keeps_run {events : List Event} :
    Option.Rel Keeps (Lib.run (step enc) .start events)
      (Lib.run (Journal.step enc) .start events) :=
  run_rel keeps_step keeps_start events

end Refinement

end CtrlMesh.Proxy.Process
