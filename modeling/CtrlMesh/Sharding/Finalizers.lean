import CtrlMesh.Lib.Slice
import CtrlMesh.Sharding.RootReconcile

/-!
# Releasing a retired root

`clearFinalizers` removes elements from the list it ranges over while the range stays as it was at
the start. A removal before the last round makes the last index lie past the end, so the code
panics unless the finalizer stands nowhere but in the last place. A retired root that is protected
in another place is never released.
-/

namespace CtrlMesh.Sharding

open Labels Api Lib Lib.Effect

section Loop

variable {key : String}

/-- Once the list is shorter than the range, the last round panics. -/
theorem clearFinalizersFrom_short {i n : Nat} {finalizers : List String} {res : Bool}
    (short : finalizers.length < i + n) (more : 0 < n) :
    clearFinalizersFrom key i n finalizers res = none := by
  induction n generalizing i finalizers res with
  | zero => omega
  | succ n ih =>
    cases read : finalizers[i]? with
    | none => simp [clearFinalizersFrom, read]
    | some finalizer =>
      have inside : i < finalizers.length := (List.getElem?_eq_some_iff.mp read).1
      have shorter : (finalizers.eraseIdx i).length < i + 1 + n := by
        rw [List.length_eraseIdx_of_lt inside]
        omega
      have next : finalizers.length < i + 1 + n := by omega
      have left : 0 < n := by omega
      simp [clearFinalizersFrom, read, ih shorter left, ih next left]

/-- The rounds from index `i` on, while nothing has been removed. -/
theorem clearFinalizersFrom_eq {n : Nat} (done rest : List String) (res : Bool)
    (count : rest.length = n) :
    clearFinalizersFrom key done.length n (done ++ rest) res =
      if key ∈ rest.dropLast then none
      else some (done ++ rest.filter (· ≠ key), res || decide (key ∈ rest)) := by
  induction n generalizing done rest with
  | zero =>
    obtain rfl := List.length_eq_zero_iff.mp count
    simp [clearFinalizersFrom]
  | succ n ih =>
    obtain ⟨finalizer, rest, rfl⟩ := List.exists_cons_of_length_eq_add_one count
    have count : rest.length = n := by simpa using count
    by_cases hit : finalizer = key
    · subst hit
      have removed : (done ++ finalizer :: rest).eraseIdx done.length = done ++ rest := by
        rw [List.eraseIdx_append_of_length_le le_rfl]
        simp
      cases rest with
      | nil =>
        obtain rfl : 0 = n := by simpa using count
        simp [clearFinalizersFrom, removed]
      | cons other rest =>
        -- Another round follows, and it is one too many.
        have short : (done ++ other :: rest).length < done.length + 1 + n := by
          rw [List.length_append, count]
          omega
        have more : 0 < n := by
          rw [← count]
          exact Nat.succ_pos _
        simp [clearFinalizersFrom, removed, clearFinalizersFrom_short short more]
    · have later : clearFinalizersFrom key done.length (n + 1) (done ++ finalizer :: rest) res =
          clearFinalizersFrom key (done ++ [finalizer]).length n ((done ++ [finalizer]) ++ rest)
            res := by
        simp [clearFinalizersFrom, hit]
      have apart : key ≠ finalizer := Ne.symm hit
      rw [later, ih (done ++ [finalizer]) rest count]
      cases rest with
      | nil => simp [hit, apart]
      | cons other rest => simp [hit, apart]

end Loop

/-- The loop returns unless the key stands before the last place, and is then exact. -/
theorem clearFinalizers_eq (finalizers : List String) (key : String) :
    clearFinalizers finalizers key =
      if key ∈ finalizers.dropLast then none
      else some (finalizers.filter (· ≠ key), decide (key ∈ finalizers)) := by
  have whole := @clearFinalizersFrom_eq key finalizers.length [] finalizers false rfl
  simpa [clearFinalizers] using whole

/-- `clearFinalizers` returns what it should exactly when the key stands nowhere but in the last
place. -/
theorem clearFinalizers_exact_iff (finalizers : List String) (key : String) :
    clearFinalizers finalizers key =
        some (finalizers.filter (· ≠ key), decide (key ∈ finalizers)) ↔
      key ∉ finalizers.dropLast := by
  rw [clearFinalizers_eq]
  by_cases early : key ∈ finalizers.dropLast
  · simp [early]
  · simp [early]

/-- A finalizer behind the removed one makes the loop read past the end. -/
theorem clearFinalizers_panics :
    ¬∀ (finalizers : List String) (key : String), clearFinalizers finalizers key =
      some (finalizers.filter (· ≠ key), decide (key ∈ finalizers)) := by
  intro exact
  exact absurd (exact [protectFinalizer, "foregroundDeletion"] protectFinalizer) (by decide)

/-- The stored object under a key has these finalizers. -/
def Pinned (key : NamespacedName) (finalizers : List String) (server : Server) : Prop :=
  ∃ cfg, server.configs.find key = some cfg ∧ cfg.metadata.finalizers = finalizers

section Pinning

variable {key : NamespacedName} {finalizers : List String} {root : ShardingConfig}

/-- The faults to come play no role. -/
theorem faultBlind_pinned : Client.FaultBlind (Pinned key finalizers) :=
  fun _ _ pinned => pinned

variable {cfg : ShardingConfig}

/-- A deletion only marks an object that has finalizers. -/
theorem upholds_delete_pinned (some : finalizers ≠ []) :
    Upholds (Pinned key finalizers) (Client.delete cfg) fun _ => True := by
  refine Client.upholds_request faultBlind_pinned fun server result configs pinned reply => ?_
  obtain ⟨held, found, same⟩ := pinned
  refine ⟨?_, trivial⟩
  unfold Server.delete at reply
  cases stored : server.stored cfg.key with
  | error error => rw [stored] at reply; cases reply
  | ok old =>
    rw [stored] at reply
    cases reply
    have present := Client.stored_ok stored
    by_cases hit : key = old.key
    · obtain ⟨-, oldKey⟩ := Registry.find_some present
      rw [hit, oldKey, present, Option.some.injEq] at found
      subst found
      have marks : Server.deleted server.clock old ≠ none := by
        rw [Server.deleted, if_neg (by rwa [same])]
        simp
      obtain ⟨marked, isMarked⟩ := Option.ne_none_iff_exists'.mp marks
      refine ⟨marked, ?_, ?_⟩
      · rw [hit, Client.find_remove_self, isMarked]
      · rw [Server.deleted, if_neg (by rwa [same])] at isMarked
        cases isMarked
        exact same
    · exact ⟨held, (Client.find_remove hit).trans found, same⟩

/-- A status update leaves the finalizers alone and returns the object with them. -/
theorem upholds_updateStatus_pinned (own : cfg.key = key) :
    Upholds (Pinned key finalizers) (Client.updateStatus cfg)
      fun new => new.metadata.finalizers = finalizers := by
  refine Client.upholds_request faultBlind_pinned fun server result configs pinned reply => ?_
  obtain ⟨held, found, same⟩ := pinned
  unfold Server.updateStatus Server.stored at reply
  rw [own, found] at reply
  cases reply
  refine ⟨⟨{ held with child := cfg.child }, ?_, same⟩, same⟩
  have heldKey : key = ({ held with child := cfg.child } : ShardingConfig).key :=
    (Registry.find_some found).2.symm
  rw [heldKey]
  exact Registry.find_put_self _

/-- Clearing the status keeps the finalizers. -/
theorem clearStatus_finalizers :
    (clearStatus cfg).1.metadata.finalizers = cfg.metadata.finalizers := by
  unfold clearStatus
  split <;> rfl

/-- The branch of a retired root panics at its finalizers, if no call has failed before. -/
theorem upholds_retire_pinned (own : root.metadata.finalizers = finalizers)
    (early : protectFinalizer ∈ finalizers.dropLast) {oldCfgs : List ShardingConfig} :
    Upholds (Pinned root.key finalizers) (retire root oldCfgs) fun _ => False := by
  have some : finalizers ≠ [] := by
    rintro rfl
    exact absurd early List.not_mem_nil
  have cleared : Upholds (Pinned root.key finalizers) (writeCleared root)
      fun new => new.metadata.finalizers = finalizers := by
    have same := clearStatus_finalizers.trans own
    refine upholds_ite (fun _ => ?_) fun _ => upholds_pure own
    exact Client.upholds_ignoreNotFound (upholds_updateStatus_pinned clearStatus_key) same
  refine upholds_bind (upholds_forM fun cfg _ => upholds_delete_pinned some) fun _ _ => ?_
  refine upholds_bind cleared fun new same => ?_
  have panics : clearFinalizers new.metadata.finalizers protectFinalizer = none := by
    rw [clearFinalizers_eq, same, if_pos early]
  rw [panics]
  exact upholds_bind upholds_throw fun _ impossible => impossible

/-- A pass over a retired root that has another finalizer behind the protecting one does not
return, whatever calls fail, and leaves the finalizers stored. -/
theorem upholds_autoSharding_pinned (flags : Flags) (rootHash : RootHash)
    (childHash : List String → String) (own : root.metadata.finalizers = finalizers)
    (early : protectFinalizer ∈ finalizers.dropLast) (isRetired : retired root = some true) :
    Upholds (Pinned root.key finalizers) (autoSharding flags rootHash childHash root)
      fun _ => False := by
  have listed : Upholds (Pinned root.key finalizers)
      (Client.listLabelled autoShardingRootLabel root.metadata.name) fun _ => True := by
    refine Client.upholds_request faultBlind_pinned fun server result configs pinned reply => ?_
    cases reply
    exact ⟨pinned, trivial⟩
  refine upholds_bind (Client.upholds_ignoreNotFound listed trivial) fun oldCfgs _ => ?_
  refine upholds_bind upholds_orPanic fun decided same => ?_
  obtain rfl := Option.some.inj (isRetired.symm.trans same)
  exact upholds_retire_pinned own early

/-- However often the controller comes back to such a root, it is never released. -/
theorem pinned_after_passes (flags : Flags) (rootHash : RootHash)
    (childHash : List String → String) (early : protectFinalizer ∈ finalizers.dropLast)
    (reads : List ShardingConfig) (each : ∀ root ∈ reads, root.key = key ∧
      root.metadata.finalizers = finalizers ∧ retired root = some true) {server : Server}
    (pinned : Pinned key finalizers server) :
    Pinned key finalizers (reads.foldl
      (fun server root => after (autoSharding flags rootHash childHash root) server) server) := by
  induction reads generalizing server with
  | nil => exact pinned
  | cons root reads ih =>
    rw [List.forall_mem_cons] at each
    obtain ⟨⟨rfl, own, isRetired⟩, later⟩ := each
    have passed := upholds_autoSharding_pinned flags rootHash childHash own early isRetired
    exact ih later (passed server pinned).1

end Pinning

/-- A root of two shards that was deleted in the foreground. -/
def foregroundRoot : ShardingConfig where
  metadata :=
    { name := "root", namespace_ := "shop", finalizers := [protectFinalizer, "foregroundDeletion"],
      deletionTimestamp := some 1 }
  spec := ⟨none, none, none, none,
    some ⟨none, "shard", "app", none, some ⟨2, 1⟩, [⟨[], some {}⟩]⟩⟩

/-- Two passes over this root. -/
theorem pinned_after_two_passes :
    Pinned foregroundRoot.key [protectFinalizer, "foregroundDeletion"]
      ([foregroundRoot, foregroundRoot].foldl
        (fun server root => after (autoSharding {} (fun _ => "") (fun _ => "") root) server)
        ⟨⟨[foregroundRoot], List.nodup_singleton _⟩, 1, []⟩) :=
  pinned_after_passes {} (fun _ => "") (fun _ => "") (by decide) [foregroundRoot, foregroundRoot]
    (by simp [foregroundRoot, retired]) ⟨foregroundRoot, by simp [Registry.find], rfl⟩

end CtrlMesh.Sharding
