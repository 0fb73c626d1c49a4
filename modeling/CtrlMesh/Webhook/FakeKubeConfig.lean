import CtrlMesh.Webhook.Pod
import Mathlib.Tactic.Common

/-!
# The fake kubeconfig

`mountFakeKubeConfig` of `injector.go` points the containers of a pod to the proxy: each gets the
volume of the fake kubeconfig, an argument and a variable that name it. Two labels of the pod are
meant to keep the arguments and the variables as they are. The loops over arguments and variables
are alike, but an argument is also appended if its label is set.
-/

namespace CtrlMesh.Webhook

section Ensure

variable {α : Type}

/-- A loop that sets every element it looks for and tells whether there was one. It breaks at the
first element if it is disabled. -/
def setEach (disabled : Bool) (hit : α → Bool) (set : α → α) : List α → List α × Bool
  | [] => ([], false)
  | a :: items =>
    if disabled then (a :: items, false)
    else
      let (rest, found) := setEach disabled hit set items
      if hit a then (set a :: rest, true) else (a :: rest, found)

variable {items : List α}

theorem setEach_disabled (hit : α → Bool) (set : α → α) :
    setEach true hit set items = (items, false) := by
  cases items with
  | nil => rfl
  | cons a items => rfl

theorem setEach_enabled (hit : α → Bool) (set : α → α) :
    setEach false hit set items =
      (items.map fun a => if hit a then set a else a, items.any hit) := by
  induction items with
  | nil => rfl
  | cons a items ih =>
    cases found : hit a with
    | true => simp [setEach, ih, found]
    | false => simp [setEach, ih, found]

/-- The elements after the loop, with a new one if there was none. -/
def ensure (hit : α → Bool) (set : α → α) (new : α) (items : List α) : List α :=
  (items.map fun a => if hit a then set a else a) ++ if items.any hit then [] else [new]

/-- What is set or appended is found again, and setting it again changes nothing. -/
structure Settles (hit : α → Bool) (set : α → α) (new : α) : Prop where
  hitSet : ∀ a, hit a = true → hit (set a) = true
  setSet : ∀ a, hit a = true → set (set a) = set a
  hitNew : hit new = true
  setNew : set new = new

variable {hit : α → Bool} {set : α → α} {new : α}

theorem any_ensure (settles : Settles hit set new) : (ensure hit set new items).any hit = true := by
  unfold ensure
  cases present : items.any hit with
  | false => simp [settles.hitNew]
  | true =>
    obtain ⟨a, member, found⟩ := List.any_eq_true.mp present
    simp only [reduceIte, List.append_nil, List.any_eq_true]
    refine ⟨set a, List.mem_map.mpr ⟨a, member, if_pos found⟩, settles.hitSet a found⟩

/-- Every element that is found has been set. -/
theorem set_of_mem_ensure (settles : Settles hit set new) {a : α}
    (member : a ∈ ensure hit set new items) (found : hit a = true) : set a = a := by
  rcases List.mem_append.mp member with old | appended
  · obtain ⟨b, -, same⟩ := List.mem_map.mp old
    by_cases hitB : hit b = true
    · rw [if_pos hitB] at same
      rw [← same]
      exact settles.setSet b hitB
    · rw [if_neg hitB] at same
      exact absurd (same ▸ found) hitB
  · split at appended
    · exact absurd appended List.not_mem_nil
    · rw [List.mem_singleton] at appended
      rw [appended]
      exact settles.setNew

theorem ensure_ensure (settles : Settles hit set new) :
    ensure hit set new (ensure hit set new items) = ensure hit set new items := by
  have unchanged : ∀ a ∈ ensure hit set new items, (if hit a then set a else a) = a := by
    intro a member
    split
    · next found => exact set_of_mem_ensure settles member found
    · rfl
  conv_lhs => rw [ensure, any_ensure settles]
  rw [List.map_congr_left unchanged, List.map_id', if_pos rfl, List.append_nil]

end Ensure

/-- `ctrlmesh.CtrlmeshDisableFakeKubeconfigArgLabel`. -/
def disableFakeKubeconfigArgLabel : String :=
  "ctrlmesh.kusionstack.io/disable-fake-kubeconfig-arg"

/-- `ctrlmesh.CtrlmeshDisableFakeKubeconfigEnvLabel`. -/
def disableFakeKubeconfigEnvLabel : String :=
  "ctrlmesh.kusionstack.io/disable-fake-kubeconfig-env"

/-- The label of the pod is `true`. -/
def Pod.optsOut (pod : Pod) (label : String) : Bool := (pod.labels.lookup label).getD "" = "true"

/-- The path of a kubeconfig. -/
def kubeconfigPath (name : String) : String := "/etc/kubernetes/kubeconfig/" ++ name ++ ".yaml"

/-- The argument for a kubeconfig. -/
def kubeconfigArg (name : String) : String := "--kubeconfig=" ++ kubeconfigPath name

/-- Whether an argument names a kubeconfig. -/
def isKubeconfigArg (val : String) : Bool :=
  "--kubeconfig".toList.isPrefixOf val.toList || "-kubeconfig".toList.isPrefixOf val.toList

/-- `vm`. -/
def fakeMount (name : String) : VolumeMount where
  name := name
  mountPath := "/etc/kubernetes/kubeconfig"
  readOnly := true

/-- `fakeVol`. Its config map has a name of its own, whatever the name of the volume. -/
def fakeVol (name : String) : Volume where
  name := name
  configMap := some { name := "fake-kubeconfig", defaultMode := some 420 }

/-- The loop over the volumes: whether there is one of the name. -/
def findConfigMap (name : String) : Bool → List Volume → Except String Bool
  | findCm, [] => .ok findCm
  | findCm, vl :: volumes =>
    if vl.name = name then
      match vl.configMap with
      | none => .error ("conflict volume of " ++ name)
      | some configMap =>
        if configMap.name ≠ name then .error ("conflict volume of " ++ name)
        else findConfigMap name true volumes
    else findConfigMap name findCm volumes

/-- The body of the loop over the containers. -/
def pointToFake (name : String) (disableArg disableEnv : Bool) (c : Container) : Container :=
  let findVol := c.volumeMounts.any (·.name = name)
  let (args, hvArgs) := setEach disableArg isKubeconfigArg (fun _ => kubeconfigArg name) c.args
  let (env, findKubeconfigEnv) := setEach disableEnv (fun env => env.name = "KUBECONFIG")
    (fun env => { env with value := kubeconfigPath name }) c.env
  { c with
    volumeMounts := if !findVol then c.volumeMounts ++ [fakeMount name] else c.volumeMounts
    args := if !hvArgs then args ++ [kubeconfigArg name] else args
    env := if !findKubeconfigEnv && !disableEnv then
        env ++ [{ name := "KUBECONFIG", value := kubeconfigPath name }]
      else env }

/-- `mountFakeKubeConfig`: the pod afterwards, and the error. -/
def mountFakeKubeConfig (pod : Pod) (name : String) : Pod × Option String :=
  match findConfigMap name false pod.volumes with
  | .error error => (pod, some error)
  | .ok findCm =>
    ({ pod with
        volumes := if !findCm then pod.volumes ++ [fakeVol name] else pod.volumes
        containers := pod.containers.map (pointToFake name
          (pod.optsOut disableFakeKubeconfigArgLabel)
          (pod.optsOut disableFakeKubeconfigEnvLabel)) }, none)

section Containers

variable (name : String) (disableArg disableEnv : Bool) (c : Container)

theorem settles_mount : Settles (fun mount : VolumeMount => mount.name = name) id
    (fakeMount name) :=
  ⟨fun _ found => found, fun _ _ => rfl, by simp [fakeMount], rfl⟩

theorem isKubeconfigArg_kubeconfigArg : isKubeconfigArg (kubeconfigArg name) = true := by
  have starts : "--kubeconfig".toList.isPrefixOf (kubeconfigArg name).toList = true := by
    rw [List.isPrefixOf_iff_prefix]
    refine ⟨'=' :: (kubeconfigPath name).toList, ?_⟩
    rw [kubeconfigArg, String.toList_append]
    rfl
  simp only [isKubeconfigArg, starts, Bool.true_or]

theorem settles_arg : Settles isKubeconfigArg (fun _ => kubeconfigArg name) (kubeconfigArg name) :=
  ⟨fun _ _ => isKubeconfigArg_kubeconfigArg name, fun _ _ => rfl,
    isKubeconfigArg_kubeconfigArg name, rfl⟩

theorem settles_env : Settles (fun env : EnvVar => env.name = "KUBECONFIG")
    (fun env => { env with value := kubeconfigPath name })
    { name := "KUBECONFIG", value := kubeconfigPath name } :=
  ⟨fun _ found => found, fun _ _ => rfl, by simp, rfl⟩

theorem volumeMounts_pointToFake : (pointToFake name disableArg disableEnv c).volumeMounts =
    ensure (fun mount => mount.name = name) id (fakeMount name) c.volumeMounts := by
  have same : (c.volumeMounts.map fun mount =>
      if decide (mount.name = name) = true then id mount else mount) = c.volumeMounts := by
    simp
  rw [ensure, same]
  cases present : c.volumeMounts.any fun mount => mount.name = name with
  | true => simp [pointToFake, present]
  | false => simp [pointToFake, present]

/-- A disabled loop finds no argument, so one is appended. -/
theorem args_pointToFake : (pointToFake name disableArg disableEnv c).args =
    if disableArg then c.args ++ [kubeconfigArg name]
    else ensure isKubeconfigArg (fun _ => kubeconfigArg name) (kubeconfigArg name) c.args := by
  cases disableArg with
  | true => simp [pointToFake, setEach_disabled]
  | false =>
    cases present : c.args.any isKubeconfigArg with
    | true => simp [pointToFake, setEach_enabled, ensure, present]
    | false => simp [pointToFake, setEach_enabled, ensure, present]

theorem env_pointToFake : (pointToFake name disableArg disableEnv c).env =
    if disableEnv then c.env
    else ensure (fun env => env.name = "KUBECONFIG")
      (fun env => { env with value := kubeconfigPath name })
      { name := "KUBECONFIG", value := kubeconfigPath name } c.env := by
  cases disableEnv with
  | true => simp [pointToFake, setEach_disabled]
  | false =>
    cases present : c.env.any fun env => env.name = "KUBECONFIG" with
    | true => simp [pointToFake, setEach_enabled, ensure, present]
    | false => simp [pointToFake, setEach_enabled, ensure, present]

/-- A container whose arguments may be set settles at once. -/
theorem pointToFake_pointToFake :
    pointToFake name false disableEnv (pointToFake name false disableEnv c) =
      pointToFake name false disableEnv c := by
  apply Container.ext
  · rfl
  · rw [args_pointToFake, args_pointToFake]
    exact ensure_ensure (settles_arg name)
  · rw [env_pointToFake, env_pointToFake]
    cases disableEnv with
    | true => rfl
    | false => exact ensure_ensure (settles_env name)
  · rw [volumeMounts_pointToFake, volumeMounts_pointToFake]
    exact ensure_ensure (settles_mount name)

end Containers

section Volumes

variable {name : String}

/-- The volume is the one the function looks for. -/
def Volume.fits (name : String) (vl : Volume) : Bool :=
  vl.configMap.any (·.name = name)

/-- The loop ends well if every volume of the name fits. -/
theorem findConfigMap_eq (findCm : Bool) (volumes : List Volume) :
    findConfigMap name findCm volumes =
      if ∀ vl ∈ volumes, vl.name = name → vl.fits name = true then
        .ok (findCm || volumes.any (·.name = name))
      else .error ("conflict volume of " ++ name) := by
  induction volumes generalizing findCm with
  | nil => simp [findConfigMap]
  | cons vl volumes ih =>
    by_cases named : vl.name = name
    · cases isMap : vl.configMap with
      | none => simp [findConfigMap, named, isMap, Volume.fits]
      | some configMap =>
        by_cases same : configMap.name = name
        · simp [findConfigMap, named, isMap, same, ih, Volume.fits]
        · simp [findConfigMap, named, isMap, same, Volume.fits]
    · simp [findConfigMap, named, ih]

end Volumes

section OptOuts

variable {pod : Pod} {name : String}

/-- What a successful call should do to a pod. -/
structure Honours (pod : Pod) (name : String) : Prop where
  args : pod.optsOut disableFakeKubeconfigArgLabel = true →
    (mountFakeKubeConfig pod name).1.containers.map (·.args) = pod.containers.map (·.args)
  env : pod.optsOut disableFakeKubeconfigEnvLabel = true →
    (mountFakeKubeConfig pod name).1.containers.map (·.env) = pod.containers.map (·.env)
  again : (mountFakeKubeConfig (mountFakeKubeConfig pod name).1 name).1 =
    (mountFakeKubeConfig pod name).1

/-- The call succeeds if every volume of the name fits. -/
theorem mountFakeKubeConfig_succeeds_iff : (mountFakeKubeConfig pod name).2 = none ↔
    ∀ vl ∈ pod.volumes, vl.name = name → vl.fits name = true := by
  by_cases fits : ∀ vl ∈ pod.volumes, vl.name = name → vl.fits name = true
  · rw [mountFakeKubeConfig, findConfigMap_eq, if_pos fits]
    exact ⟨fun _ => fits, fun _ => rfl⟩
  · rw [mountFakeKubeConfig, findConfigMap_eq, if_neg fits]
    exact ⟨fun failed => absurd failed (by simp), fun all => absurd all fits⟩

section

variable (succeeds : (mountFakeKubeConfig pod name).2 = none)

include succeeds

/-- The pod after a successful call. -/
theorem mountFakeKubeConfig_of_succeeds :
    (mountFakeKubeConfig pod name).1 = { pod with
      volumes := pod.volumes ++ if pod.volumes.any (·.name = name) then [] else [fakeVol name]
      containers := pod.containers.map (pointToFake name
        (pod.optsOut disableFakeKubeconfigArgLabel)
        (pod.optsOut disableFakeKubeconfigEnvLabel)) } := by
  have fits := mountFakeKubeConfig_succeeds_iff.mp succeeds
  rw [mountFakeKubeConfig, findConfigMap_eq, if_pos fits, Bool.false_or]
  cases present : pod.volumes.any (·.name = name) with
  | true => simp
  | false => simp

/-- A second call finds the volume, but the one the first call made fits one name only. -/
theorem mountFakeKubeConfig_again_succeeds_iff :
    (mountFakeKubeConfig (mountFakeKubeConfig pod name).1 name).2 = none ↔
      name = "fake-kubeconfig" ∨ ∃ vl ∈ pod.volumes, vl.name = name := by
  have fits := mountFakeKubeConfig_succeeds_iff.mp succeeds
  rw [mountFakeKubeConfig_succeeds_iff, mountFakeKubeConfig_of_succeeds succeeds]
  cases present : pod.volumes.any (·.name = name) with
  | true =>
    have some : ∃ vl ∈ pod.volumes, vl.name = name := by simpa using present
    simpa [some] using fits
  | false =>
    have none : ∀ vl ∈ pod.volumes, vl.name ≠ name := by simpa using present
    constructor
    · intro all
      have own := all (fakeVol name) (by simp) rfl
      left
      simpa [Volume.fits, fakeVol, eq_comm] using own
    · rintro (rfl | ⟨vl, member, named⟩)
      · intro vl member named
        rcases List.mem_append.mp member with old | new
        · exact fits vl old named
        · obtain rfl : vl = fakeVol "fake-kubeconfig" := by simpa using new
          rfl
      · exact absurd named (none vl member)

/-- A second call that succeeds leaves the volumes as they are. -/
theorem volumes_again
    (again : (mountFakeKubeConfig (mountFakeKubeConfig pod name).1 name).2 = none) :
    (mountFakeKubeConfig (mountFakeKubeConfig pod name).1 name).1.volumes =
      (mountFakeKubeConfig pod name).1.volumes := by
  have present : (mountFakeKubeConfig pod name).1.volumes.any (·.name = name) = true := by
    rw [mountFakeKubeConfig_of_succeeds succeeds]
    cases old : pod.volumes.any (·.name = name) with
    | true => simp [old]
    | false => simp [fakeVol]
  rw [mountFakeKubeConfig_of_succeeds again]
  simp [present]

end

theorem optsOut_mounted (label : String) :
    (mountFakeKubeConfig pod name).1.optsOut label = pod.optsOut label := by
  unfold mountFakeKubeConfig
  split
  · rfl
  · rfl

/-- Without the label for arguments a second call leaves the pod as it is, whether it succeeds or
not. -/
theorem mountFakeKubeConfig_again (succeeds : (mountFakeKubeConfig pod name).2 = none)
    (settable : pod.optsOut disableFakeKubeconfigArgLabel = false ∨ pod.containers = []) :
    (mountFakeKubeConfig (mountFakeKubeConfig pod name).1 name).1 =
      (mountFakeKubeConfig pod name).1 := by
  cases failed : (mountFakeKubeConfig (mountFakeKubeConfig pod name).1 name).2 with
  | some error =>
    generalize (mountFakeKubeConfig pod name).1 = mounted at failed ⊢
    unfold mountFakeKubeConfig at failed ⊢
    cases found : findConfigMap name false mounted.volumes with
    | error message => rfl
    | ok findCm => simp [found] at failed
  | none =>
    have volumes := volumes_again succeeds failed
    have containers : (mountFakeKubeConfig (mountFakeKubeConfig pod name).1 name).1.containers =
        (mountFakeKubeConfig pod name).1.containers := by
      rw [mountFakeKubeConfig_of_succeeds failed]
      dsimp only
      rw [optsOut_mounted, optsOut_mounted, mountFakeKubeConfig_of_succeeds succeeds]
      rcases settable with enabled | empty
      · simp [enabled, pointToFake_pointToFake]
      · simp [empty]
    rw [mountFakeKubeConfig_of_succeeds failed] at volumes containers ⊢
    dsimp only at volumes containers
    rw [volumes, containers]

end OptOuts

/-- A successful call honours the labels, and a second one changes nothing, exactly if the label for
arguments is not set or there is no container. The second call succeeds exactly if the volume was
there before or has the name of its config map. -/
theorem mountFakeKubeConfig_honours_iff (pod : Pod) (name : String)
    (succeeds : (mountFakeKubeConfig pod name).2 = none) :
    (Honours pod name ↔
      ¬(pod.optsOut disableFakeKubeconfigArgLabel = true ∧ pod.containers ≠ [])) ∧
    ((mountFakeKubeConfig (mountFakeKubeConfig pod name).1 name).2 = none ↔
      name = "fake-kubeconfig" ∨ ∃ vl ∈ pod.volumes, vl.name = name) := by
  refine ⟨⟨?_, ?_⟩, mountFakeKubeConfig_again_succeeds_iff succeeds⟩
  · rintro honours ⟨optsOut, some⟩
    obtain ⟨c, rest, isCons⟩ := List.exists_cons_of_ne_nil some
    have kept := honours.args optsOut
    rw [mountFakeKubeConfig_of_succeeds succeeds, isCons, optsOut] at kept
    have first : (pointToFake name true (pod.optsOut disableFakeKubeconfigEnvLabel) c).args =
        c.args := (List.cons.inj kept).1
    rw [args_pointToFake, if_pos rfl] at first
    exact absurd (congrArg List.length first) (by simp)
  · intro settable
    have settable : pod.optsOut disableFakeKubeconfigArgLabel = false ∨ pod.containers = [] := by
      by_cases optsOut : pod.optsOut disableFakeKubeconfigArgLabel = true
      · right
        by_contra some
        exact settable ⟨optsOut, some⟩
      · left
        exact Bool.eq_false_of_not_eq_true optsOut
    refine ⟨fun optsOut => ?_, fun optsOut => ?_, mountFakeKubeConfig_again succeeds settable⟩
    · rw [mountFakeKubeConfig_of_succeeds succeeds]
      rcases settable with enabled | empty
      · rw [enabled] at optsOut
        cases optsOut
      · simp [empty]
    · rw [mountFakeKubeConfig_of_succeeds succeeds]
      simp [optsOut, env_pointToFake]

/-- A pod with one container and a label for its arguments. -/
def argPod (value : String) : Pod where
  labels := AList.singleton disableFakeKubeconfigArgLabel value
  containers := [{ name := "app", args := ["--kubeconfig=/root/config"] }]

/-- Without the label the argument is set, and the default volume is found again. -/
theorem mountFakeKubeConfig_honours_enabled :
    (Honours (argPod "false") "fake-kubeconfig" ↔
      ¬((argPod "false").optsOut disableFakeKubeconfigArgLabel = true ∧
        (argPod "false").containers ≠ [])) ∧
    ((mountFakeKubeConfig (mountFakeKubeConfig (argPod "false") "fake-kubeconfig").1
        "fake-kubeconfig").2 = none ↔
      "fake-kubeconfig" = "fake-kubeconfig" ∨
        ∃ vl ∈ (argPod "false").volumes, vl.name = "fake-kubeconfig") :=
  mountFakeKubeConfig_honours_iff (argPod "false") "fake-kubeconfig" (by decide)

/-- With the label an argument is appended by every call. -/
theorem mountFakeKubeConfig_appends_arg :
    ¬∀ (pod : Pod) (name : String), (mountFakeKubeConfig pod name).2 = none →
      Honours pod name := by
  intro honours
  have kept := (honours (argPod "true") "fake-kubeconfig" (by decide)).args (by decide)
  exact absurd kept (by decide)

end CtrlMesh.Webhook
