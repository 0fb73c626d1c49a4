import CtrlMesh.LeaderElection.Handler
import Mathlib.Data.List.TakeWhile

/-!
# Forwarded locks

Under which name the handler forwards a lock request. A create is about the lock of its body, every
other request about the last segment of its path. Creating and reading the lock are redirected to
the lock of the shard. An update keeps the name it carries: its body is a lock that was read or
created before, and so it has the name of the shard's lock already.
-/

namespace CtrlMesh.LeaderElection

/-- The last segment of a path; slashes at its end do not count, as for `splitPath` of the request
info. -/
def lastSegment (path : List Char) : List Char :=
  ((path.reverse.dropWhile (· = '/')).takeWhile (· ≠ '/')).reverse

/-- A path is what stands before its last segment, the segment, and slashes. -/
theorem exists_eq_lastSegment {path : List Char} :
    ∃ before after, path = before ++ lastSegment path ++ after ∧ '/' ∉ lastSegment path ∧
      ∀ c ∈ after, c = '/' := by
  let trimmed := path.reverse.dropWhile (· = '/')
  let slashes := path.reverse.takeWhile (· = '/')
  have whole : path.reverse = slashes ++ (trimmed.takeWhile (· ≠ '/') ++
      trimmed.dropWhile (· ≠ '/')) := by
    rw [List.takeWhile_append_dropWhile, List.takeWhile_append_dropWhile]
  refine ⟨(trimmed.dropWhile (· ≠ '/')).reverse, slashes.reverse, ?_, ?_, ?_⟩
  · calc path = path.reverse.reverse := (List.reverse_reverse path).symm
      _ = _ := by
        rw [whole, List.reverse_append, List.reverse_append]
        rfl
  · intro slash
    have kept := List.mem_takeWhile_imp (List.mem_reverse.mp slash)
    simp at kept
  · intro c member
    have kept := List.mem_takeWhile_imp (List.mem_reverse.mp member)
    simpa using kept

/-- In front of slashes only, a name without slashes is the last occurrence of itself. -/
theorem lastIndex_slashes (before : List Char) {name after : List Char} (named : name ≠ [])
    (plain : '/' ∉ name) (slashes : ∀ c ∈ after, c = '/') :
    lastIndex (before ++ name ++ after) name = some before.length := by
  have length : (before ++ name ++ after).length = before.length + name.length + after.length := by
    rw [List.length_append, List.length_append]
  have some_char : 0 < name.length := List.length_pos_iff.mpr named
  apply lastIndexBelow_eq
  · omega
  · simp
  · -- a later occurrence would end in one of the slashes
    intro j later _
    rw [Bool.eq_false_iff]
    intro occurs
    obtain ⟨rest, split⟩ := List.isPrefixOf_iff_prefix.mp occurs
    have inName : (name ++ rest)[name.length - 1]? = name[name.length - 1]? :=
      List.getElem?_append_left (by omega)
    have inSlashes : (before ++ name ++ after)[j + (name.length - 1)]? =
        after[j + (name.length - 1) - (before ++ name).length]? := by
      apply List.getElem?_append_right
      rw [List.length_append]
      omega
    have last : name[name.length - 1]? = some name[name.length - 1] :=
      List.getElem?_eq_getElem (by omega)
    rw [split, List.getElem?_drop, inSlashes, last] at inName
    have slash := slashes _ (List.mem_of_getElem? inName)
    exact plain (slash ▸ List.getElem_mem (by omega))

/-- Replacing the last segment of a path. -/
theorem lastReplace_lastSegment (path new : List Char) :
    ∃ before after, path = before ++ lastSegment path ++ after ∧ (∀ c ∈ after, c = '/') ∧
      lastReplace path (lastSegment path) new = before ++ new ++ after := by
  obtain ⟨before, after, isPath, plain, slashes⟩ := exists_eq_lastSegment
  by_cases unnamed : lastSegment path = []
  · refine ⟨path, [], by simp [unnamed], nofun, ?_⟩
    have replaced := lastReplace_append path [] new
    simpa [unnamed] using replaced
  · refine ⟨before, after, isPath, slashes, ?_⟩
    have index := lastIndex_slashes before unnamed plain slashes
    rw [← isPath] at index
    have front : path.take before.length = before := by
      calc path.take before.length
          = (before ++ (lastSegment path ++ after)).take before.length := by
            rw [← List.append_assoc, ← isPath]
        _ = before := List.take_left
    have back : path.drop (before.length + (lastSegment path).length) = after := by
      calc path.drop (before.length + (lastSegment path).length)
          = (before ++ lastSegment path ++ after).drop (before ++ lastSegment path).length := by
            rw [← isPath, List.length_append]
        _ = after := List.drop_left
    simp only [lastReplace, index, front, back]

section Shard

variable {h : Handler} {req : RequestInfo} {r : Request}

/-- The lock of a shard never has the name of the lock itself. -/
theorem setSubsetIntoName_ne {name subset : String} : setSubsetIntoName name subset ≠ name := by
  intro same
  have lengths := congrArg String.length same
  have dashes : "---".length = 3 := by decide
  simp only [setSubsetIntoName, String.length_append] at lengths
  omega

/-- Reading the lock reads the shard's lock, wherever the path has slashes at its end. -/
theorem Handler.handle_read (sharded : h.shardingConfig ≠ "") (watched : h.Watches req)
    (get : req.verb = "get") (named : req.name = h.lockName)
    (segment : lastSegment r.path = h.lockName.toList) :
    ∃ before after, (∀ c ∈ after, c = '/') ∧ r.path = before ++ h.lockName.toList ++ after ∧
      h.handle req r = { handled := true, request := { r with
        path := before ++ (setSubsetIntoName h.lockName h.shardingConfig).toList ++ after } } := by
  obtain ⟨before, after, isPath, slashes, replaced⟩ := lastReplace_lastSegment r.path
    (setSubsetIntoName h.lockName h.shardingConfig).toList
  rw [segment] at isPath replaced
  refine ⟨before, after, slashes, isPath, ?_⟩
  simp [handle, handleGet, watched.isResource, watched.whole, watched.here, watched.lockResource,
    get, named, sharded, replaced]

/-- An update of the lock, or of a lock of some shard, is let through as it is. -/
theorem Handler.handle_update (watched : h.Watches req) (update : req.verb = "update")
    (named : req.name = h.lockName ∨ ∃ subset, req.name = setSubsetIntoName h.lockName subset)
    {lock : Lock} {identity : String} (decoded : r.lock = .ok lock)
    (held : lock.holdIdentity = some identity) :
    h.handle req r = { handled := true, leads := some identity, request := r } := by
  have own : req.name = h.lockName ∨
      (h.lockName ++ "---").toList.isPrefixOf req.name.toList = true := by
    apply named.imp_right
    rintro ⟨subset, isName⟩
    rw [isName, List.isPrefixOf_iff_prefix, setSubsetIntoName]
    exact ⟨subset.toList, by simp⟩
  have other : ¬(req.name ≠ h.lockName ∧
      ¬(h.lockName ++ "---").toList.isPrefixOf req.name.toList = true) := by
    rintro ⟨notOwn, notPrefix⟩
    exact own.elim notOwn notPrefix
  have handled : h.handle req r = Handler.handleUpdate r := by
    simp only [handle, watched.isResource, watched.whole, watched.here, watched.lockResource,
      update, other]
    simp
  rw [handled, handleUpdate, decoded]
  simp only [held]

/-- A request passes the handler unchanged, or the case of its verb handles it. -/
theorem Handler.handle_cases (h : Handler) : h.handle req r = { handled := false, request := r } ∨
      (req.verb = "create" ∧ h.handle req r = h.handleCreate r) ∨
      (req.verb = "update" ∧ h.handle req r = Handler.handleUpdate r) ∨
      (req.verb = "get" ∧ h.handle req r = h.handleGet r) := by
  unfold handle
  split_ifs <;> simp [*]

/-- An update never leaves the handler with another name than it came with. -/
theorem Handler.request_update (update : req.verb = "update") : (h.handle req r).request = r := by
  have kept : (Handler.handleUpdate r).request = r := by
    unfold handleUpdate
    split
    · rfl
    · split <;> rfl
  rcases h.handle_cases with passed | ⟨create, -⟩ | ⟨-, handled⟩ | ⟨get, -⟩
  · rw [passed]
  · exact absurd (update.symm.trans create) (by decide)
  · rw [handled, kept]
  · exact absurd (update.symm.trans get) (by decide)

/-- A create leaves the handler as it came, or with the name of the shard's lock. -/
theorem Handler.request_create (h : Handler) (create : req.verb = "create") (r : Request) :
    (h.handle req r).request = r ∨
      ∃ lock : Lock, r.lock = .ok lock ∧ lock.name = h.lockName ∧ (h.handle req r).request =
        { r with lock := .ok { lock with name := h.shardLock } } := by
  rcases h.handle_cases with passed | ⟨-, handled⟩ | ⟨update, -⟩ | ⟨get, -⟩
  · exact .inl (by rw [passed])
  · rw [handled]
    unfold handleCreate
    cases decoded : r.lock with
    | error err => exact .inl rfl
    | ok lock =>
      by_cases named : lock.name = h.lockName
      · cases held : lock.holdIdentity with
        | none => exact .inl (by simp [named, held])
        | some identity => exact .inr ⟨lock, rfl, named, by simp [named, held]⟩
      · exact .inl (by simp [named])
  · exact absurd (create.symm.trans update) (by decide)
  · exact absurd (create.symm.trans get) (by decide)

/-- What the handler makes of a create or an update it leaves alone the second time. -/
theorem Handler.handle_again (sharded : h.shardingConfig ≠ "")
    (write : req.verb = "create" ∨ req.verb = "update") :
    (h.handle req (h.handle req r).request).request = (h.handle req r).request := by
  cases write with
  | inr update => exact request_update update
  | inl create =>
    cases h.request_create create r with
    | inl same => rw [same, same]
    | inr renamed =>
      obtain ⟨lock, -, -, isRequest⟩ := renamed
      -- the renamed lock is another lock to the handler
      cases h.request_create create (h.handle req r).request with
      | inl same => exact same
      | inr renamedAgain =>
        obtain ⟨other, decoded, named, -⟩ := renamedAgain
        rw [isRequest] at decoded
        cases decoded
        rw [shardLock, if_pos sharded] at named
        exact absurd named setSubsetIntoName_ne

/-- For every lock and every shard: creating the lock creates the shard's lock, reading it reads the
shard's lock, an update goes to the lock it names, and neither a create nor an update is renamed
twice. -/
theorem Handler.forwards (h : Handler) (sharded : h.shardingConfig ≠ "") (req : RequestInfo)
    (watched : h.Watches req) (r : Request) :
    (req.verb = "create" → ∀ lock identity, r.lock = .ok lock → lock.name = h.lockName →
      lock.holdIdentity = some identity →
      h.handle req r = { handled := true, leads := some identity, request := { r with
        lock := .ok { lock with name := setSubsetIntoName h.lockName h.shardingConfig } } }) ∧
    (req.verb = "get" → req.name = h.lockName → lastSegment r.path = h.lockName.toList →
      ∃ before after, (∀ c ∈ after, c = '/') ∧ r.path = before ++ h.lockName.toList ++ after ∧
        h.handle req r = { handled := true, request := { r with
          path := before ++ (setSubsetIntoName h.lockName h.shardingConfig).toList ++ after } }) ∧
    (req.verb = "update" → ∀ lock identity, r.lock = .ok lock →
      lock.holdIdentity = some identity →
      (req.name = h.lockName ∨ ∃ subset, req.name = setSubsetIntoName h.lockName subset) →
      h.handle req r = { handled := true, leads := some identity, request := r }) ∧
    (req.verb = "create" ∨ req.verb = "update" →
      (h.handle req (h.handle req r).request).request = (h.handle req r).request) := by
  refine ⟨?_, ?_, ?_, ?_⟩
  · intro create lock identity decoded named held
    have created := handle_create watched create decoded named held
    rwa [shardLock, if_pos sharded] at created
  · exact handle_read sharded watched
  · intro update lock identity decoded held named
    exact handle_update watched update named decoded held
  · exact handle_again sharded

end Shard

/-- A request of the pod for the Lease of the given name. -/
def leaseRequest (verb podNamespace name : String) : RequestInfo where
  isResourceRequest := true
  verb := verb
  apiGroup := "coordination.k8s.io"
  apiVersion := "v1"
  namespace_ := podNamespace
  resource := "leases"
  subresource := ""
  name := name

/-- The sample shard reads `lock---shard` when its pod asks for `lock`. -/
theorem Handler.forwards_read :
    ∃ before after, (∀ c ∈ after, c = '/') ∧
      "/leases/lock/".toList = before ++ "lock".toList ++ after ∧
      Handler.handle ⟨"ns", "lock", "shard"⟩ (leaseRequest "get" "ns" "lock")
          ⟨"/leases/lock/".toList, .error ""⟩ =
        { handled := true
          request := ⟨before ++ "lock---shard".toList ++ after, .error ""⟩ } :=
  (Handler.forwards ⟨"ns", "lock", "shard"⟩ (by decide) (leaseRequest "get" "ns" "lock")
    ⟨rfl, rfl, rfl, rfl⟩ ⟨"/leases/lock/".toList, .error ""⟩).2.1 rfl rfl (by decide)

/-- An update that names the lock itself is not redirected to the lock of the shard. -/
theorem Handler.update_not_redirected :
    ¬∀ (h : Handler) (req : RequestInfo) (r : Request) (lock : Lock) (identity : String),
      h.shardingConfig ≠ "" → h.Watches req → req.verb = "update" → req.name = h.lockName →
      lastSegment r.path = h.lockName.toList → r.lock = .ok lock → lock.name = h.lockName →
      lock.holdIdentity = some identity →
      lastSegment (h.handle req r).request.path =
        (setSubsetIntoName h.lockName h.shardingConfig).toList := by
  intro redirected
  have segment := redirected ⟨"ns", "lock", "shard"⟩ (leaseRequest "update" "ns" "lock")
    ⟨"/leases/lock".toList, .ok ⟨"lock", some "pod-0"⟩⟩ ⟨"lock", some "pod-0"⟩ "pod-0"
    (by decide) ⟨rfl, rfl, rfl, rfl⟩ rfl rfl (by decide) rfl rfl rfl
  revert segment
  decide

end CtrlMesh.LeaderElection
