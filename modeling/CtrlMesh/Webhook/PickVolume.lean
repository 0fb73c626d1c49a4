import CtrlMesh.Lib.Slice
import CtrlMesh.Webhook.Pod

/-!
# Taking a volume out of the containers

`pickVolume` of `injector.go`. Its loop variable is a copy of a container, so the shortened slice
of mounts goes into the copy and is lost, while the cells it was made from are those of the pod.
The pod sees the mounts moved up and the last of them twice.
-/

namespace CtrlMesh.Webhook

open Lib

/-- A container as it lies in memory. -/
structure StoredContainer where
  name : String
  volumeMounts : Slice
  deriving DecidableEq

/-- A pod in memory; its containers may share arrays. -/
structure StoredPod where
  memory : Memory VolumeMount
  containers : List StoredContainer
  holds : ∀ c ∈ containers, memory.Holds c.volumeMounts

/-- The mounts of each container, as the pod holds them. -/
def StoredPod.mounts (pod : StoredPod) : List (List VolumeMount) :=
  pod.containers.map fun c => pod.memory.view c.volumeMounts

/-- One round of `pickVolume`: the memory it leaves. The slice it puts into its copy of the
container is dropped. -/
def pickFrom (name : String) (memory : Memory VolumeMount) (c : StoredContainer) :
    Memory VolumeMount :=
  match (memory.view c.volumeMounts).findIdx? (·.name = name) with
  | none => memory
  | some i => (memory.removeAt c.volumeMounts i).1

section Round

variable {name : String} {memory : Memory VolumeMount} {c : StoredContainer} {s : Slice}

theorem index_lt (holds : memory.Holds c.volumeMounts) {i : Nat}
    (found : (memory.view c.volumeMounts).findIdx? (·.name = name) = some i) :
    i < c.volumeMounts.length := by
  obtain ⟨inside, -⟩ := List.findIdx?_eq_some_iff_getElem.mp found
  rwa [holds.length_view] at inside

/-- A round moves no slice out of its array. -/
theorem holds_pickFrom (holds : memory.Holds c.volumeMounts) (other : memory.Holds s) :
    (pickFrom name memory c).Holds s := by
  unfold pickFrom
  split
  · exact other
  · next i found => exact holds.removeAt (index_lt holds found) other

/-- A round changes nothing for containers with another array. -/
theorem view_pickFrom_of_ne (holds : memory.Holds c.volumeMounts)
    (other : s.array ≠ c.volumeMounts.array) : (pickFrom name memory c).view s = memory.view s := by
  unfold pickFrom
  split
  · rfl
  · next i found => exact Memory.view_removeAt_of_ne holds (index_lt holds found) other

/-- A round without a hit leaves the memory alone. -/
theorem pickFrom_of_absent (absent : ∀ mount ∈ memory.view c.volumeMounts, mount.name ≠ name) :
    pickFrom name memory c = memory := by
  have missed : (memory.view c.volumeMounts).findIdx? (·.name = name) = none := by
    simpa [List.findIdx?_eq_none_iff] using absent
  simp only [pickFrom, missed]

end Round

variable {containers : List StoredContainer} {name : String} {s : Slice}
  {memory : Memory VolumeMount}

theorem holds_pickLoop (each : ∀ c ∈ containers, memory.Holds c.volumeMounts)
    (holds : memory.Holds s) : (containers.foldl (pickFrom name) memory).Holds s := by
  induction containers generalizing memory with
  | nil => exact holds
  | cons c containers ih =>
    rw [List.forall_mem_cons] at each
    obtain ⟨first, later⟩ := each
    exact ih (fun other member => holds_pickFrom first (later other member))
      (holds_pickFrom first holds)

/-- `pickVolume`. The containers of the pod keep their slices. -/
def pickVolume (pod : StoredPod) (name : String) : StoredPod where
  memory := pod.containers.foldl (pickFrom name) pod.memory
  containers := pod.containers
  holds := fun c member => holds_pickLoop pod.holds (pod.holds c member)

section Pods

variable (pod : StoredPod) (name : String)

/-- No container gets fewer mounts. -/
theorem map_length_mounts_pickVolume :
    (pickVolume pod name).mounts.map List.length = pod.mounts.map List.length := by
  simp only [StoredPod.mounts, List.map_map]
  refine List.map_congr_left fun c member => ?_
  have before := (pod.holds c member).length_view
  have after := ((pickVolume pod name).holds c member).length_view
  simp only [Function.comp_apply]
  rw [before]
  exact after

/-- Without a mount of the name nothing happens. -/
theorem pickLoop_of_absent {memory : Memory VolumeMount}
    (absent : ∀ c ∈ containers, ∀ mount ∈ memory.view c.volumeMounts, mount.name ≠ name) :
    containers.foldl (pickFrom name) memory = memory := by
  induction containers with
  | nil => rfl
  | cons c containers ih =>
    rw [List.forall_mem_cons] at absent
    rw [List.foldl_cons, pickFrom_of_absent absent.1]
    exact ih absent.2

/-- `pickVolume` removes the first mount of the name from every container exactly if there is none
to remove: the slices of the pod stay as long as they were. -/
theorem pickVolume_removes_iff :
    (pickVolume pod name).mounts = pod.mounts.map (·.eraseP (·.name = name)) ↔
      ∀ mounts ∈ pod.mounts, ∀ mount ∈ mounts, mount.name ≠ name := by
  constructor
  · intro removed mounts member mount listed hit
    have lengths := map_length_mounts_pickVolume pod name
    rw [removed, List.map_map] at lengths
    have same := List.map_inj_left.mp lengths mounts member
    have shorter : (mounts.eraseP (·.name = name)).length = mounts.length - 1 :=
      List.length_eraseP_of_mem listed (by simpa using hit)
    have some : 0 < mounts.length := List.length_pos_of_mem listed
    simp only [Function.comp_apply] at same
    omega
  · intro absent
    have each : ∀ c ∈ pod.containers, ∀ mount ∈ pod.memory.view c.volumeMounts,
        mount.name ≠ name := fun c member => absent _ (List.mem_map_of_mem member)
    have kept : (pickVolume pod name).mounts = pod.mounts := by
      have memory := pickLoop_of_absent name each
      simp only [StoredPod.mounts, pickVolume, memory]
    have erased : ∀ mounts ∈ pod.mounts, mounts.eraseP (·.name = name) = mounts := by
      intro mounts member
      apply List.eraseP_of_forall_not
      intro mount listed
      simpa using absent mounts member mount listed
    calc (pickVolume pod name).mounts = pod.mounts := kept
      _ = pod.mounts.map id := pod.mounts.map_id.symm
      _ = pod.mounts.map (·.eraseP (·.name = name)) :=
        List.map_congr_left fun mounts member => (erased mounts member).symm

end Pods

/-- The containers have arrays of their own, as they have after the pod was decoded. -/
def StoredPod.Separate (pod : StoredPod) : Prop :=
  (pod.containers.map (·.volumeMounts.array)).Nodup

/-- What becomes of the mounts of a container. -/
def picked (name : String) (mounts : List VolumeMount) : List VolumeMount :=
  match mounts.findIdx? (·.name = name) with
  | none => mounts
  | some i => mounts.eraseIdx i ++ mounts.getLast?.toList

theorem view_pickFrom {c : StoredContainer} (holds : memory.Holds c.volumeMounts) :
    (pickFrom name memory c).view c.volumeMounts = picked name (memory.view c.volumeMounts) := by
  unfold pickFrom picked
  cases found : (memory.view c.volumeMounts).findIdx? (·.name = name) with
  | none => rfl
  | some i => exact Memory.view_removeAt_stale holds (index_lt holds found)

/-- The rounds on other arrays do not matter to a container. -/
theorem view_pickLoop_of_notMem (each : ∀ c ∈ containers, memory.Holds c.volumeMounts)
    (others : s.array ∉ containers.map (·.volumeMounts.array)) :
    (containers.foldl (pickFrom name) memory).view s = memory.view s := by
  induction containers generalizing memory with
  | nil => rfl
  | cons c containers ih =>
    rw [List.forall_mem_cons] at each
    rw [List.map_cons, List.mem_cons, not_or] at others
    obtain ⟨first, later⟩ := each
    rw [List.foldl_cons, ih (fun other member => holds_pickFrom first (later other member))
      others.2, view_pickFrom_of_ne first others.1]

/-- The mounts behind the first hit move up and the last one is doubled. -/
theorem mounts_pickVolume (pod : StoredPod) (name : String) (separate : pod.Separate) :
    (pickVolume pod name).mounts = pod.mounts.map (picked name) := by
  have rounds : ∀ (containers : List StoredContainer) (memory : Memory VolumeMount),
      (∀ c ∈ containers, memory.Holds c.volumeMounts) →
      (containers.map (·.volumeMounts.array)).Nodup → ∀ c ∈ containers,
        (containers.foldl (pickFrom name) memory).view c.volumeMounts =
          picked name (memory.view c.volumeMounts) := by
    intro containers
    induction containers with
    | nil => simp
    | cons first containers ih =>
      intro memory each distinct c member
      rw [List.forall_mem_cons] at each
      rw [List.map_cons, List.nodup_cons] at distinct
      have still : ∀ other ∈ containers, (pickFrom name memory first).Holds other.volumeMounts :=
        fun other inside => holds_pickFrom each.1 (each.2 other inside)
      rw [List.foldl_cons]
      rcases List.mem_cons.mp member with rfl | inside
      · rw [view_pickLoop_of_notMem still distinct.1, view_pickFrom each.1]
      · have apart : c.volumeMounts.array ≠ first.volumeMounts.array := by
          intro same
          exact distinct.1 (same ▸ List.mem_map_of_mem inside)
        rw [ih _ still distinct.2 c inside, view_pickFrom_of_ne each.1 apart]
  simp only [StoredPod.mounts, List.map_map]
  exact List.map_congr_left fun c member => rounds _ _ pod.holds separate c member

/-- A pod with one container and these mounts. -/
def storedPod (mounts : List VolumeMount) : StoredPod where
  memory := ⟨fun _ => mounts, 1⟩
  containers := [⟨"app", ⟨0, 0, mounts.length, mounts.length⟩⟩]
  holds := by
    intro c member
    rw [List.mem_singleton] at member
    subst member
    exact ⟨le_rfl, by simp⟩

theorem mounts_pickVolume_twice :
    (pickVolume (storedPod [⟨"kubeconfig", "/a", true⟩, ⟨"certs", "/b", true⟩])
      "kubeconfig").mounts =
        [picked "kubeconfig" [⟨"kubeconfig", "/a", true⟩, ⟨"certs", "/b", true⟩]] :=
  mounts_pickVolume _ _ (List.nodup_singleton _)

/-- The mount of the kubeconfig is removed and the one behind it is there twice. -/
example : (pickVolume (storedPod [⟨"kubeconfig", "/a", true⟩, ⟨"certs", "/b", true⟩])
    "kubeconfig").mounts = [[⟨"certs", "/b", true⟩, ⟨"certs", "/b", true⟩]] := by decide

/-- A mount in the last place stays where it is. -/
theorem pickVolume_keeps_last :
    ¬∀ (pod : StoredPod) (name : String),
      (pickVolume pod name).mounts = pod.mounts.map (·.eraseP (·.name = name)) := by
  intro removes
  exact absurd (removes (storedPod [⟨"certs", "/b", true⟩, ⟨"kubeconfig", "/a", true⟩])
    "kubeconfig") (by decide)

end CtrlMesh.Webhook
