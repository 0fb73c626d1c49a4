import CtrlMesh.CircuitBreaker.Controller

/-!
# What proxies hold, and what the controller knows of it

`clear` finds the proxies that hold a configuration through the status of the object and through the
cache. The invariant says that it finds them all: a configuration that a proxy holds belongs to an
object that still has the finalizer, some list names the pod under the pod's address, and the cache
knows about it. It is stated for any lists: within a pass, the entries written so far and the
entries still to be visited take the place of the stored status.
-/

namespace CtrlMesh.CircuitBreaker.Controller

open Labels Lib Api

/-- The proxy of the pod holds the configuration. -/
def Pod.Holds (po : Pod) (name : String) : Prop := name ∈ po.proxy.breakerMap

/-- The proxy of the pod holds no configuration. -/
def Pod.Idle (po : Pod) : Prop := po.proxy.breakerMap.keys = []

instance (po : Pod) (name : String) : Decidable (po.Holds name) :=
  inferInstanceAs (Decidable (name ∈ po.proxy.breakerMap))

instance (po : Pod) : Decidable po.Idle :=
  inferInstanceAs (Decidable (po.proxy.breakerMap.keys = []))

theorem Pod.Idle.not_holds {po : Pod} (idle : po.Idle) (name : String) : ¬po.Holds name := by
  intro holds
  have member : name ∈ po.proxy.breakerMap.keys := AList.mem_keys.mp holds
  rw [idle] at member
  exact List.not_mem_nil member

/-- Some entry has the name and the address of the pod. -/
def Lists (entries : List TargetStatus) (po : Pod) : Prop :=
  ∃ st ∈ entries, st.podName = po.name ∧ st.podIP = po.podIP

instance (entries : List TargetStatus) (po : Pod) : Decidable (Lists entries po) :=
  inferInstanceAs (Decidable (∃ st ∈ entries, st.podName = po.name ∧ st.podIP = po.podIP))

variable {entries : List TargetStatus} {gained : Pod → String → Prop}

theorem Lists.mono {entries' : List TargetStatus} {po : Pod} (lists : Lists entries po)
    (within : ∀ st ∈ entries, st ∈ entries') : Lists entries' po := by
  obtain ⟨st, member, same⟩ := lists
  exact ⟨st, within st member, same⟩

/-- The entries of the stored object. -/
def World.listing (w : World) (key : NamespacedName) : List TargetStatus :=
  ((w.breakers.find key).map (·.status.targetStatus)).getD []

/-- The object is stored and has the finalizer. -/
def World.Guarded (w : World) (key : NamespacedName) : Prop :=
  ∃ cb, w.breakers.find key = some cb ∧ cb.hasFinalizer = true

/-- What is known of a configuration that the proxy of a pod holds. -/
structure Covered (listed : NamespacedName → List TargetStatus) (w : World) (po : Pod)
    (name : String) : Prop where
  guarded : w.Guarded (po.namespace_, name)
  listed : Lists (listed (po.namespace_, name)) po
  cached : w.cache.has po.namespace_ po.name name = true
  addressed : po.podIP ≠ ""

/-- What proxies hold is covered, addresses are not shared, and namespaces have no slash. -/
structure Sound (listed : NamespacedName → List TargetStatus) (w : World) : Prop where
  covered : ∀ po ∈ w.pods.items, ∀ name, po.Holds name → Covered listed w po name
  address : ∀ po ∈ w.pods.items, ∀ po' ∈ w.pods.items, po.podIP = po'.podIP → po.podIP ≠ "" →
    po.key = po'.key
  plain : ∀ po ∈ w.pods.items, '/' ∉ po.namespace_.toList

/-- Pods of the second world are pods of the first whose proxies hold nothing new but what was
gained. -/
def Grown (gained : Pod → String → Prop) (w w' : World) : Prop :=
  ∀ po' ∈ w'.pods.items, ∃ po ∈ w.pods.items, ∃ proxy, po' = { po with proxy := proxy } ∧
    ∀ name, po'.Holds name → po.Holds name ∨ gained po name

/-- Proxies lost configurations, and nothing else changed. -/
structure Withdrawn (w w' : World) : Prop where
  breakers : w'.breakers = w.breakers
  cache : w'.cache = w.cache
  pods : Grown (fun _ _ => False) w w'

theorem Grown.refl (w : World) : Grown gained w w :=
  fun po member => ⟨po, member, po.proxy, rfl, fun _ holds => .inl holds⟩

theorem Grown.trans {w w' w'' : World} (first : Grown gained w w')
    (second : Grown (fun _ _ => False) w' w'') : Grown gained w w'' := by
  intro po'' member
  obtain ⟨po', member', proxy, rfl, kept'⟩ := second po'' member
  obtain ⟨po, inside, _, rfl, kept⟩ := first po' member'
  refine ⟨po, inside, proxy, rfl, fun name holds => kept name ?_⟩
  exact (kept' name holds).resolve_right id

theorem Withdrawn.refl (w : World) : Withdrawn w w := ⟨rfl, rfl, .refl w⟩

section

variable {listed listed' : NamespacedName → List TargetStatus} {w w' : World} {po : Pod}
  {ns podName name : String} {key : NamespacedName}

theorem Sound.of_grown (sound : Sound listed w) (grown : Grown gained w w')
    (covered : ∀ po ∈ w'.pods.items, ∀ name, po.Holds name → Covered listed' w' po name) :
    Sound listed' w' := by
  refine ⟨covered, fun po member po' member' same addressed => ?_, fun po member => ?_⟩
  · obtain ⟨before, inside, _, rfl, -⟩ := grown po member
    obtain ⟨before', inside', _, rfl, -⟩ := grown po' member'
    exact sound.address before inside before' inside' same addressed
  · obtain ⟨before, inside, _, rfl, -⟩ := grown po member
    exact sound.plain before inside

/-- Everything but the pods may change as long as what the proxies hold stays covered. -/
theorem Sound.recover (sound : Sound listed w) (pods : w'.pods = w.pods)
    (keeps : ∀ po ∈ w.pods.items, ∀ name, po.Holds name → Covered listed w po name →
      Covered listed' w' po name) : Sound listed' w' := by
  have grown : Grown (fun _ _ => False) w w' := by
    intro po member
    rw [pods] at member
    exact ⟨po, member, po.proxy, rfl, fun _ holds => .inl holds⟩
  refine sound.of_grown grown fun po member name holds => ?_
  rw [pods] at member
  exact keeps po member name holds (sound.covered po member name holds)

/-- The entries of one object may change as long as the pods that hold its configuration stay
listed. -/
theorem Sound.relist {entries' : List TargetStatus}
    (sound : Sound (Function.update listed key entries) w)
    (keeps : ∀ po ∈ w.pods.items, po.namespace_ = key.1 → po.Holds key.2 → Lists entries po →
      Lists entries' po) : Sound (Function.update listed key entries') w := by
  refine sound.recover rfl fun po member name holds covered => { covered with listed := ?_ }
  have lists := covered.listed
  by_cases same : (po.namespace_, name) = key
  · subst same
    rw [Function.update_self] at lists ⊢
    exact keeps po member rfl holds lists
  · rwa [Function.update_of_ne same] at lists ⊢

theorem Sound.withdraw (sound : Sound listed w) (withdrawn : Withdrawn w w') : Sound listed w' := by
  refine sound.of_grown withdrawn.pods fun po member name holds => ?_
  obtain ⟨before, inside, _, rfl, kept⟩ := withdrawn.pods po member
  have covered := sound.covered before inside name ((kept name holds).resolve_right id)
  obtain ⟨cb, found, guarded⟩ := covered.guarded
  refine ⟨⟨cb, by rwa [withdrawn.breakers], guarded⟩, covered.listed, ?_, covered.addressed⟩
  rw [withdrawn.cache]
  exact covered.cached

theorem Sound.key_eq (sound : Sound listed w) (member : po ∈ w.pods.items) (plain : '/' ∉ ns.toList)
    (same : cacheKey po.namespace_ po.name = cacheKey ns podName) : po.key = (ns, podName) := by
  obtain ⟨rfl, rfl⟩ := cacheKey_inj (sound.plain po member) plain same
  rfl

/-- A pod whose proxy holds nothing may be forgotten. -/
theorem Sound.deletePod (sound : Sound listed w) (plain : '/' ∉ ns.toList)
    (idle : ∀ po ∈ w.pods.items, po.key = (ns, podName) → po.Idle) :
    Sound listed { w with cache := w.cache.deletePod ns podName } := by
  refine sound.recover rfl fun po member name holds covered => { covered with cached := ?_ }
  have other : cacheKey po.namespace_ po.name ≠ cacheKey ns podName := by
    intro same
    exact (idle po member (sound.key_eq member plain same)).not_holds name holds
  rw [PodCache.has_deletePod other]
  exact covered.cached

/-- So may a configuration that the proxy of the pod does not hold. -/
theorem Sound.deleteName (sound : Sound listed w) (plain : '/' ∉ ns.toList)
    (clean : ∀ po ∈ w.pods.items, po.key = (ns, podName) → ¬po.Holds name) :
    Sound listed { w with cache := w.cache.deleteName ns podName name } := by
  refine sound.recover rfl fun po member other holds covered => { covered with cached := ?_ }
  have different : cacheKey po.namespace_ po.name ≠ cacheKey ns podName ∨ other ≠ name := by
    by_contra! both
    obtain ⟨same, rfl⟩ := both
    exact clean po member (sound.key_eq member plain same) holds
  rw [PodCache.has_deleteName different]
  exact covered.cached

variable {compile : Compile} {hash : Config → String} {proxy : Manager}
  {ip : String} {rpc : Rpc}

theorem mem_setProxy {po' : Pod} : po' ∈ (w.setProxy po proxy).pods.items ↔
    po' = { po with proxy := proxy } ∨ po' ∈ w.pods.items ∧ po'.key ≠ po.key :=
  Registry.mem_put

/-- What a pod that an address leads to is like. -/
theorem podAt_some (found : w.podAt ip = some po) :
    po ∈ w.pods.items ∧ po.podIP = ip ∧ ip ≠ "" := by
  have hit := List.find?_some found
  rw [decide_eq_true_eq] at hit
  exact ⟨List.mem_of_find?_eq_some found, hit.2⟩

/-- The process at the address of a pod is its proxy. -/
theorem Sound.podAt_eq (sound : Sound listed w) (member : po ∈ w.pods.items)
    (proxied : po.hasProxyContainer = true) (addressed : po.podIP ≠ "") :
    w.podAt po.podIP = some po := by
  cases found : w.podAt po.podIP with
  | none =>
    have missed := List.find?_eq_none.mp found po member
    simp [proxied, addressed] at missed
  | some other =>
    obtain ⟨inside, same, -⟩ := podAt_some found
    have keys : other.key = po.key :=
      sound.address other inside po member same (by rw [same]; exact addressed)
    rw [Registry.eq_of_key_eq inside member keys]

theorem Grown.setProxy (grown : Grown gained w w') (member : po ∈ w.pods.items)
    (within : ∀ name, name ∈ proxy.breakerMap → po.Holds name ∨ gained po name) :
    Grown gained w (w'.setProxy po proxy) := by
  intro po' member'
  obtain rfl | ⟨inside, -⟩ := mem_setProxy.mp member'
  · exact ⟨po, member, proxy, rfl, within⟩
  · exact grown po' inside

theorem Withdrawn.setProxy (member : po ∈ w.pods.items)
    (within : ∀ name, name ∈ proxy.breakerMap → po.Holds name) :
    Withdrawn w (w.setProxy po proxy) :=
  ⟨rfl, rfl, (Grown.refl w).setProxy member fun name holds => .inl (within name holds)⟩

/-- What a call that withdraws a configuration does. -/
theorem Withdrawn.disableConfig {result : Except String Unit}
    (called : disableConfig compile w ip name rpc = (w', result)) : Withdrawn w w' := by
  obtain rfl : (Controller.disableConfig compile w ip name rpc).1 = w' := congrArg Prod.fst called
  unfold Controller.disableConfig World.sendConfig
  cases found : w.podAt ip with
  | none => exact .refl w
  | some po =>
    have member : po ∈ w.pods.items := (podAt_some found).1
    have within (now : Int) : Withdrawn w
        (w.setProxy po (po.proxy.synced compile now ⟨.delete, name, "", [], []⟩)) :=
      .setProxy member fun other holds => ((Manager.mem_synced_delete rfl).mp holds).2
    cases rpc with
    | lost error => exact .refl w
    | unanswered now error => exact within now
    | answered now => exact within now

/-- Once it is acknowledged, the process at the address does not hold the configuration. -/
theorem Sound.disableConfig (sound : Sound listed w) {answer : Unit}
    (called : disableConfig compile w ip name rpc = (w', .ok answer)) (member : po ∈ w'.pods.items)
    (at_ : po.podIP = ip) : ¬po.Holds name := by
  unfold Controller.disableConfig World.sendConfig at called
  cases found : w.podAt ip with
  | none => simp [found] at called
  | some target =>
    obtain ⟨inside, same, addressed⟩ := podAt_some found
    cases rpc with
    | lost error => simp [found] at called
    | unanswered now error => simp [found] at called
    | answered now =>
      simp only [found, Manager.syncAnswer, if_true] at called
      obtain ⟨rfl, -⟩ := Prod.mk.inj called
      obtain rfl | ⟨within, other⟩ := mem_setProxy.mp member
      · intro holds
        exact ((Manager.mem_synced_delete rfl).mp holds).1 rfl
      · exact absurd (sound.address po within target inside (at_.trans same.symm)
          (by rw [at_]; exact addressed)) other

/-- How the call that hands a configuration to the process at an address ends. -/
theorem syncPodConfig_eq {cb : Config} (found : w.podAt ip = some po) :
    syncPodConfig compile w cb ip rpc =
      match rpc with
      | .lost error => (w, .error error)
      | .unanswered now error =>
        (w.setProxy po (po.proxy.synced compile now { cb with option := .update }), .error error)
      | .answered now =>
        (w.setProxy po (po.proxy.synced compile now { cb with option := .update }),
          .ok ((po.proxy.synced compile now { cb with option := .update }).snapshot cb.name)) := by
  cases rpc <;> simp [syncPodConfig, World.sendConfig, found, Manager.syncAnswer]

/-- A configuration handed to a pod that is listed, and noted in the cache. -/
theorem Sound.sync (sound : Sound listed w) (member : po ∈ w.pods.items) (addressed : po.podIP ≠ "")
    (guarded : w.Guarded (po.namespace_, name)) (lists : Lists (listed (po.namespace_, name)) po)
    (within : ∀ other, other ∈ proxy.breakerMap → other = name ∨ po.Holds other) :
    Sound listed { w.setProxy po proxy with cache := w.cache.add po.namespace_ po.name name } := by
  have grown : Grown (fun _ other => other = name) w (w.setProxy po proxy) :=
    (Grown.refl w).setProxy member fun other holds => (within other holds).symm
  refine sound.of_grown grown fun po' member' other holds => ?_
  obtain rfl | ⟨inside, -⟩ := mem_setProxy.mp member'
  · by_cases same : other = name
    · subst same
      exact ⟨guarded, lists, PodCache.has_add_self, addressed⟩
    · have held : po.Holds other := (within other holds).resolve_left same
      have covered := sound.covered po member other held
      exact ⟨covered.guarded, covered.listed, PodCache.has_add covered.cached, covered.addressed⟩
  · have covered := sound.covered po' inside other holds
    exact ⟨covered.guarded, covered.listed, PodCache.has_add covered.cached, covered.addressed⟩

/-- An entry may go from the list when the pod at its address does not hold the configuration. -/
theorem Sound.drop {before after : List TargetStatus} {st : TargetStatus}
    (sound : Sound (Function.update listed key (before ++ st :: after)) w)
    (clean : ∀ po ∈ w.pods.items, po.key = (key.1, st.podName) → po.podIP = st.podIP →
      ¬po.Holds key.2) : Sound (Function.update listed key (before ++ after)) w := by
  refine sound.relist fun po member space holds lists => ?_
  obtain ⟨entry, inside, named, addressed⟩ := lists
  obtain early | rfl | late := by simpa [or_assoc] using inside
  · exact ⟨entry, List.mem_append_left _ early, named, addressed⟩
  · exact absurd holds (clean po member (Prod.ext space named.symm) addressed.symm)
  · exact ⟨entry, List.mem_append_right _ late, named, addressed⟩

/-- A pod that is not listed does not hold the configuration. -/
theorem Sound.not_holds (sound : Sound (Function.update listed key entries) w)
    (unlisted : podName ∉ entries.map (·.podName)) (member : po ∈ w.pods.items)
    (same : po.key = (key.1, podName)) : ¬po.Holds key.2 := by
  intro holds
  have covered := sound.covered po member key.2 holds
  obtain ⟨space, named⟩ := Prod.mk.inj same
  have lists := covered.listed
  rw [space, Function.update_self] at lists
  obtain ⟨st, inside, entry, -⟩ := lists
  exact unlisted (List.mem_map.mpr ⟨st, inside, entry.trans named⟩)

/-- A walk over the entries `old` for the configuration `key`, started in `w`: those of `kept` could
not be withdrawn, those of `rest` are still to be visited, and the pods of `fixed` stay listed. -/
structure Visiting (listed : NamespacedName → List TargetStatus) (key : NamespacedName) (w : World)
    (fixed old kept rest : List TargetStatus) (w' : World) : Prop where
  plain : '/' ∉ key.1.toList
  distinct : ((fixed ++ old).map (·.podName)).Nodup
  breakers : w'.breakers = w.breakers
  pods : Grown (fun _ _ => False) w w'
  sublist : (kept ++ rest).Sublist old
  sound : Sound (Function.update listed key (fixed ++ kept ++ rest)) w'

namespace Visiting

variable {fixed old kept rest : List TargetStatus} {st : TargetStatus} {w'' : World}

theorem withdraw (visiting : Visiting listed key w fixed old kept rest w')
    (withdrawn : Withdrawn w' w'') : Visiting listed key w fixed old kept rest w'' :=
  { visiting with
    breakers := withdrawn.breakers.trans visiting.breakers
    pods := visiting.pods.trans withdrawn.pods
    sound := visiting.sound.withdraw withdrawn }

section

variable (visiting : Visiting listed key w fixed old kept (st :: rest) w')

include visiting

theorem keep : Visiting listed key w fixed old (kept ++ [st]) rest w' :=
  { visiting with
    sublist := by simpa using visiting.sublist
    sound := by simpa using visiting.sound }

theorem drop (clean : ∀ po ∈ w'.pods.items, po.key = (key.1, st.podName) → po.podIP = st.podIP →
      ¬po.Holds key.2) : Visiting listed key w fixed old kept rest w' :=
  { visiting with
    sublist := ((List.sublist_cons_self st rest).append_left kept).trans visiting.sublist
    sound := visiting.sound.drop clean }

/-- Once the pod of an entry is clean, the entry goes, and the cache forgets the configuration. -/
theorem forget (clean : ∀ po ∈ w'.pods.items, po.key = (key.1, st.podName) → po.podIP = st.podIP →
      ¬po.Holds key.2) :
    Visiting listed key w fixed old kept rest
      { w' with cache := w'.cache.deleteName key.1 st.podName key.2 } := by
  have next := visiting.drop clean
  have sublist : (fixed ++ (kept ++ st :: rest)).Sublist (fixed ++ old) :=
    visiting.sublist.append_left fixed
  have nodup := visiting.distinct.sublist (sublist.map (·.podName))
  have unlisted : st.podName ∉ (fixed ++ kept ++ rest).map (·.podName) := by
    rw [← List.append_assoc, List.map_append, List.map_cons, List.nodup_middle,
      List.nodup_cons] at nodup
    rw [List.map_append]
    exact nodup.1
  refine { next with sound := next.sound.deleteName visiting.plain ?_ }
  exact fun po member same => next.sound.not_holds unlisted member same

theorem disable {answer : Unit}
    (called : disableConfig compile w' st.podIP key.2 rpc = (w'', .ok answer)) :
    Visiting listed key w fixed old kept rest
      { w'' with cache := w''.cache.deleteName key.1 st.podName key.2 } := by
  have next := visiting.withdraw (.disableConfig called)
  refine next.forget fun po member _ at_ => ?_
  exact visiting.sound.disableConfig called member at_

end

end Visiting

section Clear

variable {cb : Breaker} {o : Outcomes} {kept rest old : List TargetStatus}
  {st : TargetStatus} {failed : Bool}

/-- One entry of `clear`. -/
theorem Visiting.clearTarget (compile : Compile) (o : Outcomes) (failed : Bool)
    (visiting : Visiting listed cb.key w [] old kept (st :: rest) w')
    (clean : ∀ po ∈ w.pods.items, po.key = (cb.metadata.namespace_, st.podName) →
      isProxyAvailable po = false → ¬po.Holds cb.metadata.name) :
    ∃ kept', Visiting listed cb.key w [] old kept' rest
        (clearTarget compile cb o (w', failed) st).1 ∧
      ((clearTarget compile cb o (w', failed) st).2 = false → failed = false ∧ kept' = kept) := by
  dsimp only [Controller.clearTarget]
  split
  · next unknown =>
    refine ⟨kept, visiting.drop fun po member same _ holds => ?_, fun quiet => ⟨quiet, rfl⟩⟩
    have cached := (visiting.sound.covered po member _ holds).cached
    obtain ⟨space, named⟩ := Prod.mk.inj same
    rw [space, named] at cached
    rw [Bool.not_eq_true'] at unknown
    exact Bool.false_ne_true (unknown.symm.trans cached)
  split
  · exact ⟨kept ++ [st], visiting.keep, nofun⟩
  split
  · next found =>
    refine ⟨kept, visiting.forget fun po member same _ => ?_, fun quiet => ⟨quiet, rfl⟩⟩
    rw [Registry.mem_iff_find, same] at member
    exact absurd (found.symm.trans member) nofun
  · next po found =>
    split
    · next unavailable =>
      refine ⟨kept, visiting.drop fun po' member same _ holds => ?_, fun quiet => ⟨quiet, rfl⟩⟩
      rw [Registry.mem_iff_find, same] at member
      obtain rfl := Option.some.inj (found.symm.trans member)
      rw [Bool.not_eq_true'] at unavailable
      obtain ⟨before, inside, _, rfl, kept⟩ := visiting.pods po (Registry.find_some found).1
      exact clean before inside same unavailable ((kept _ holds).resolve_right id)
    · split
      · next called => exact ⟨kept ++ [st], (visiting.withdraw (.disableConfig called)).keep, nofun⟩
      · next called => exact ⟨kept, visiting.disable called, fun quiet => ⟨quiet, rfl⟩⟩

/-- The walk of `clear`: without an error, every entry could be given up. -/
theorem Visiting.clear (compile : Compile) (o : Outcomes) (failed : Bool)
    (visiting : Visiting listed cb.key w [] old kept rest w')
    (clean : ∀ st ∈ rest, ∀ po ∈ w.pods.items, po.key = (cb.metadata.namespace_, st.podName) →
      isProxyAvailable po = false → ¬po.Holds cb.metadata.name) :
    ∃ kept', Visiting listed cb.key w [] old kept' []
        (rest.foldl (Controller.clearTarget compile cb o) (w', failed)).1 ∧
      ((rest.foldl (Controller.clearTarget compile cb o) (w', failed)).2 = false →
        failed = false ∧ kept' = kept) := by
  induction rest generalizing w' kept failed with
  | nil => exact ⟨kept, visiting, fun quiet => ⟨quiet, rfl⟩⟩
  | cons st rest ih =>
    obtain ⟨kept', next, quiet⟩ := visiting.clearTarget compile o failed
      (clean st List.mem_cons_self)
    obtain ⟨kept'', last, quiet'⟩ := ih _ next fun st member => clean st (.tail _ member)
    refine ⟨kept'', last, fun done => ?_⟩
    obtain ⟨unfailed, rfl⟩ := quiet' done
    exact quiet unfailed

end Clear

section Drop

variable {cb : Breaker} {o : Outcomes} {fixed kept rest old : List TargetStatus}
  {st : TargetStatus} {failed : Bool}

/-- One entry of the second loop. -/
theorem Visiting.dropTarget (visiting : Visiting listed cb.key w fixed old kept (st :: rest) w')
    (idle : ∀ po ∈ w.pods.items, po.key = (cb.metadata.namespace_, st.podName) →
      isProxyAvailable po = false → po.Idle) :
    Visiting listed cb.key w fixed old (dropTarget compile cb o (w', kept, failed) st).2.1 rest
      (dropTarget compile cb o (w', kept, failed) st).1 := by
  dsimp only [Controller.dropTarget]
  split
  · exact visiting.keep
  split
  · next found =>
    refine visiting.drop fun po member same _ => ?_
    rw [Registry.mem_iff_find, same] at member
    exact absurd (found.symm.trans member) nofun
  · next po found =>
    obtain ⟨member, same⟩ := Registry.find_some found
    obtain ⟨space, named⟩ := Prod.mk.inj same
    split
    · next unavailable =>
      rw [Bool.not_eq_true'] at unavailable
      obtain ⟨before, inside, _, rfl, kept⟩ := visiting.pods po member
      have nothing : ∀ po' ∈ w'.pods.items, po'.key = (cb.metadata.namespace_, st.podName) →
          po'.Idle := by
        intro po' member' same'
        obtain rfl := Registry.eq_of_key_eq member' member (same'.trans same.symm)
        refine List.eq_nil_iff_forall_not_mem.mpr fun name inside' => ?_
        have holds := (kept name (AList.mem_keys.mpr inside')).resolve_right id
        exact (idle before inside same unavailable).not_holds name holds
      have next := visiting.drop fun po' member' same' _ => (nothing po' member' same').not_holds _
      rw [space, named]
      exact { next with sound := next.sound.deletePod visiting.plain nothing }
    · split
      · next called => exact (visiting.withdraw (.disableConfig called)).keep
      · next called =>
        rw [named]
        exact visiting.disable called

theorem Visiting.dropTargets (compile : Compile) (o : Outcomes) (failed : Bool)
    (visiting : Visiting listed cb.key w fixed old kept rest w')
    (idle : ∀ st ∈ rest, ∀ po ∈ w.pods.items, po.key = (cb.metadata.namespace_, st.podName) →
      isProxyAvailable po = false → po.Idle) :
    Visiting listed cb.key w fixed old
      (rest.foldl (Controller.dropTarget compile cb o) (w', kept, failed)).2.1 []
      (rest.foldl (Controller.dropTarget compile cb o) (w', kept, failed)).1 := by
  induction rest generalizing w' kept failed with
  | nil => exact visiting
  | cons st rest ih =>
    exact ih _ (visiting.dropTarget (idle st List.mem_cons_self))
      fun st member => idle st (.tail _ member)

end Drop

/-- The call reaches the proxy. -/
def Rpc.arrives : Rpc → Bool
  | .lost _ => false
  | _ => true

/-- The call reaches the proxy, but its answer does not come back. -/
def Rpc.isUnanswered : Rpc → Bool
  | .unanswered _ _ => true
  | _ => false

/-- What the proxies can gain in a pass for `cb` over the listed pods. -/
def Gained (cb : Breaker) (o : Outcomes) (podList : List Pod) (po : Pod) (name : String) :
    Prop :=
  name = cb.metadata.name ∧ po ∈ podList ∧ isProxyAvailable po = true ∧
    (o.sync po.name).arrives = true

/-- The first loop is safe if pods whose proxy is not available hold nothing, and a call without an
answer only reaches a proxy that holds the configuration. -/
structure SafeSync (cb : Breaker) (o : Outcomes) (podList : List Pod) : Prop where
  idle : ∀ po ∈ podList, isProxyAvailable po = false → po.Idle
  answered : ∀ po ∈ podList, isProxyAvailable po = true →
    (o.sync po.name).isUnanswered = true → po.Holds cb.metadata.name

/-- The first loop for `cb`, started in `w`, after it has handled the pods of `done`. -/
structure Syncing (listed : NamespacedName → List TargetStatus) (cb : Breaker) (o : Outcomes)
    (w : World) (done rest : List Pod) (targets : List TargetStatus) (w' : World) : Prop where
  breakers : w'.breakers = w.breakers
  pods : Grown (Gained cb o (w.podList cb)) w w'
  untouched : ∀ po ∈ rest, po ∈ w'.pods.items
  entries : targets.map (fun st => (st.podName, st.podIP)) = done.map fun po => (po.name, po.podIP)
  sound : Sound (Function.update listed cb.key (cb.status.targetStatus ++ targets)) w'

section Sync

variable {cb : Breaker} {o : Outcomes} {done rest : List Pod} {targets : List TargetStatus}
  {failed : Bool} {st : TargetStatus}

theorem mem_podList : po ∈ w.podList cb ↔ po ∈ w.pods.items ∧
    po.namespace_ = cb.metadata.namespace_ ∧ selects cb.spec.selector po.labels = true ∧
    po.hasProxyContainer = true := by
  simp [World.podList, and_assoc]

theorem podIP_ne_of_isProxyAvailable (available : isProxyAvailable po = true) : po.podIP ≠ "" := by
  simp only [isProxyAvailable, Bool.and_eq_true, bne_iff_ne] at available
  exact available.1.2

section

variable (syncing : Syncing listed cb o w done (po :: rest) targets w')

include syncing

/-- The pod handled next is listed as soon as its entry is written. -/
theorem Syncing.listing (st : TargetStatus) :
    Sound (Function.update listed cb.key (cb.status.targetStatus ++ (targets ++ [st]))) w' := by
  refine syncing.sound.relist fun po _ _ _ lists => lists.mono fun st member => ?_
  rw [← List.append_assoc]
  exact List.mem_append_left _ member

theorem Syncing.entries_snoc (named : st.podName = po.name) (addressed : st.podIP = po.podIP) :
    (targets ++ [st]).map (fun st => (st.podName, st.podIP)) =
      (done ++ [po]).map fun po => (po.name, po.podIP) := by
  rw [List.map_append, List.map_append, syncing.entries]
  simp [named, addressed]

/-- The pods that are still to be handled keep their proxies. -/
theorem Syncing.untouched_setProxy (distinct : ((po :: rest).map Pod.key).Nodup) :
    ∀ po' ∈ rest, po' ∈ (w'.setProxy po proxy).pods.items := by
  intro po' member
  refine mem_setProxy.mpr (.inr ⟨syncing.untouched po' (.tail _ member), fun same => ?_⟩)
  rw [List.map_cons, List.nodup_cons] at distinct
  exact distinct.1 (same ▸ List.mem_map_of_mem member)

end

/-- One pod of the first loop. -/
theorem Syncing.syncTarget (compile : Compile) (hash : Config → String) (failed : Bool)
    (syncing : Syncing listed cb o w done (po :: rest) targets w')
    (safe : SafeSync cb o (w.podList cb)) (guarded : w.Guarded cb.key)
    (distinct : ((po :: rest).map Pod.key).Nodup) (member : po ∈ w.podList cb) :
    Syncing listed cb o w (done ++ [po]) rest
      (syncTarget compile hash cb o (w', targets, failed) po).2.1
      (syncTarget compile hash cb o (w', targets, failed) po).1 := by
  obtain ⟨inside, space, -, proxied⟩ := mem_podList.mp member
  have present : po ∈ w'.pods.items := syncing.untouched po List.mem_cons_self
  have plain := syncing.sound.plain po present
  dsimp only [Controller.syncTarget]
  split
  · next unavailable =>
    rw [Bool.not_eq_true'] at unavailable
    refine ⟨syncing.breakers, syncing.pods, fun po' later => syncing.untouched po' (.tail _ later),
      syncing.entries_snoc rfl rfl, (syncing.listing _).deletePod plain fun po' member' same => ?_⟩
    obtain rfl := Registry.eq_of_key_eq member' present same
    exact safe.idle _ member unavailable
  · next available =>
    have available : isProxyAvailable po = true := by simpa using available
    have addressed := podIP_ne_of_isProxyAvailable available
    have within (now : Int) : ∀ name, name ∈ (po.proxy.synced compile now
          { convertCircuitBreaker hash cb with option := .update }).breakerMap →
        name = cb.metadata.name ∨ po.Holds name :=
      fun name holds => (Manager.mem_synced_update rfl).mp holds
    have grown (now : Int) (arrives : (o.sync po.name).arrives = true) :
        Grown (Gained cb o (w.podList cb)) w (w'.setProxy po (po.proxy.synced compile now
          { convertCircuitBreaker hash cb with option := .update })) := by
      refine syncing.pods.setProxy inside fun name holds => ?_
      obtain rfl | held := within now name holds
      · exact .inr ⟨rfl, member, available, arrives⟩
      · exact .inl held
    rw [syncPodConfig_eq (syncing.sound.podAt_eq present proxied addressed)]
    cases rpc : o.sync po.name with
    | lost error =>
      exact ⟨syncing.breakers, syncing.pods, fun po' later => syncing.untouched po' (.tail _ later),
        syncing.entries_snoc rfl rfl, syncing.listing _⟩
    | unanswered now error =>
      have held : po.Holds cb.metadata.name := safe.answered po member available (by rw [rpc]; rfl)
      refine ⟨syncing.breakers, grown now (by rw [rpc]; rfl), syncing.untouched_setProxy distinct,
        syncing.entries_snoc rfl rfl, (syncing.listing _).withdraw (.setProxy present ?_)⟩
      intro name holds
      obtain rfl | other := within now name holds
      · exact held
      · exact other
    | answered now =>
      refine ⟨syncing.breakers, grown now (by rw [rpc]; rfl), syncing.untouched_setProxy distinct,
        syncing.entries_snoc rfl rfl, ?_⟩
      refine (syncing.listing _).sync present addressed ?_ ?_ (within now)
      · rw [space]
        obtain ⟨stored, found, finalizer⟩ := guarded
        exact ⟨stored, by rw [syncing.breakers]; exact found, finalizer⟩
      · have key : (po.namespace_, cb.metadata.name) = cb.key := by rw [space]; rfl
        rw [key, Function.update_self]
        exact ⟨_, List.mem_append_right _ List.mem_concat_self, rfl, rfl⟩

theorem Syncing.syncTargets (compile : Compile) (hash : Config → String) (failed : Bool)
    (syncing : Syncing listed cb o w done rest targets w') (safe : SafeSync cb o (w.podList cb))
    (guarded : w.Guarded cb.key) (distinct : (rest.map Pod.key).Nodup)
    (members : ∀ po ∈ rest, po ∈ w.podList cb) :
    Syncing listed cb o w (done ++ rest) []
      (rest.foldl (Controller.syncTarget compile hash cb o) (w', targets, failed)).2.1
      (rest.foldl (Controller.syncTarget compile hash cb o) (w', targets, failed)).1 := by
  induction rest generalizing w' done targets failed with
  | nil => simpa using syncing
  | cons po rest ih =>
    have next := syncing.syncTarget compile hash failed safe guarded distinct
      (members po List.mem_cons_self)
    rw [List.append_cons]
    exact ih _ next (List.nodup_cons.mp distinct).2 fun po later => members po (.tail _ later)

end Sync

end

end CtrlMesh.CircuitBreaker.Controller
