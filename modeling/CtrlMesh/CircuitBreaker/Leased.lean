import CtrlMesh.CircuitBreaker.LimiterStore
import CtrlMesh.Lib.Assoc

/-!
# What the lease knows

The lease of the limiter store refers to the state objects it will close again. `Leased` says how
these objects and those of the store hang together; each write to the store or the lease keeps it.
-/

namespace CtrlMesh.CircuitBreaker

open Labels Lib

/-- The loop has not yet removed its object from the state set. -/
def Stage.Early (stage : Stage) : Prop := stage = .taken ∨ stage = .due

/-- How the objects of the store and those of the lease hang together. Of the objects ever under a
key, later ones have higher positions. -/
structure Leased (states : StringMap StateRef) (heap : List State) (lease : Lease) : Prop where
  stateKey : ∀ {key ref}, states.lookup key = some ref → ∃ st, heap[ref]? = some st ∧ st.key = key
  setKey : ∀ {key ref}, lease.stateSet.lookup key = some ref →
    ∃ st, heap[ref]? = some st ∧ st.key = key
  setHeld : ∀ {key ref}, lease.stateSet.lookup key = some ref →
    ref ∈ lease.stateQueue ∨ ∃ stage, lease.processing = some (ref, stage) ∧ stage.Early
  queued : ∀ {ref}, ref ∈ lease.stateQueue → ∃ key, lease.stateSet.lookup key = some ref
  early : ∀ {ref stage}, lease.processing = some (ref, stage) → stage.Early →
    ref ∉ lease.stateQueue ∧ ∃ key, lease.stateSet.lookup key = some ref
  processed : ∀ {ref stage}, lease.processing = some (ref, stage) →
    ∃ st, heap[ref]? = some st ∧ ∀ r, states.lookup st.key = some r → ref ≤ r
  older : ∀ {key old ref}, lease.stateSet.lookup key = some old → states.lookup key = some ref →
    old ≤ ref
  late : ∀ {ref stage st old}, lease.processing = some (ref, stage) → ¬stage.Early →
    heap[ref]? = some st → lease.stateSet.lookup st.key = some old → ref ≤ old
  opened : ∀ {key ref st}, states.lookup key = some ref → heap[ref]? = some st →
    st.state = .opened → st.recoverAt.isSome →
    lease.stateSet.lookup key = some ref ∨ lease.processing = some (ref, .removed)

namespace Leased

variable {states : StringMap StateRef} {heap : List State} {lease : Lease} {key : String}
  {ref : StateRef} {st : State}

/-- There are no objects to start with. -/
theorem start : Leased ∅ [] ⟨∅, ∅, none⟩ := by
  constructor <;> simp

section

variable (leased : Leased states heap lease)

include leased

/-- The key of an object is the one it is found under. -/
theorem key_eq (listed : states.lookup key = some ref) (object : heap[ref]? = some st) :
    st.key = key := by
  obtain ⟨st', object', same⟩ := leased.stateKey listed
  rw [object, Option.some.injEq] at object'
  rw [object', same]

/-- So is that of an object in the state set. -/
theorem setKey_eq (listed : lease.stateSet.lookup key = some ref) (object : heap[ref]? = some st) :
    st.key = key := by
  obtain ⟨st', object', same⟩ := leased.setKey listed
  rw [object, Option.some.injEq] at object'
  rw [object', same]

/-- A write to an object that keeps its key, and opens it only if the lease knows it. -/
theorem modify (ref : StateRef) {f : State → State} (keeps : ∀ st, (f st).key = st.key)
    (opens : ∀ st, heap[ref]? = some st → (f st).state = .opened → (f st).recoverAt.isSome →
      st.state = .opened ∧ st.recoverAt.isSome ∨
        ∀ key, states.lookup key = some ref → lease.stateSet.lookup key = some ref) :
    Leased states (heap.modify ref f) lease := by
  have lookup : ∀ {other : StateRef} {st : State}, heap[other]? = some st →
      ∃ st', (heap.modify ref f)[other]? = some st' ∧ st'.key = st.key := by
    intro other st object
    rw [List.getElem?_modify, object]
    by_cases same : ref = other
    · exact ⟨f st, by simp [same], keeps st⟩
    · exact ⟨st, by simp [same], rfl⟩
  have lookup' : ∀ {other : StateRef} {st' : State}, (heap.modify ref f)[other]? = some st' →
      ∃ st, heap[other]? = some st ∧ st'.key = st.key := by
    intro other st' object
    rw [List.getElem?_modify] at object
    obtain ⟨st, found, value⟩ := Option.map_eq_some_iff.mp object
    refine ⟨st, found, ?_⟩
    by_cases same : ref = other
    · simp only [same, if_true] at value
      rw [← value, keeps]
    · simp only [same, if_false] at value
      rw [← value]
  refine ⟨fun listed => ?_, fun listed => ?_, leased.setHeld, leased.queued, leased.early,
    fun processing => ?_, leased.older, fun processing notEarly object found => ?_,
    fun listed object isOpen sleeping => ?_⟩
  · obtain ⟨st, object, same⟩ := leased.stateKey listed
    obtain ⟨st', object', same'⟩ := lookup object
    exact ⟨st', object', same'.trans same⟩
  · obtain ⟨st, object, same⟩ := leased.setKey listed
    obtain ⟨st', object', same'⟩ := lookup object
    exact ⟨st', object', same'.trans same⟩
  · obtain ⟨st, object, newer⟩ := leased.processed processing
    obtain ⟨st', object', same'⟩ := lookup object
    exact ⟨st', object', same' ▸ newer⟩
  · obtain ⟨st, object', same⟩ := lookup' object
    exact leased.late processing notEarly object' (same ▸ found)
  · next key other st' =>
    rw [List.getElem?_modify] at object
    obtain ⟨st, found, value⟩ := Option.map_eq_some_iff.mp object
    by_cases same : ref = other
    · subst same
      simp only [if_true] at value
      subst value
      rcases opens st found isOpen sleeping with ⟨wasOpen, slept⟩ | known
      · exact leased.opened listed found wasOpen slept
      · exact .inl (known key listed)
    · simp only [same, if_false] at value
      exact leased.opened listed (value ▸ found) isOpen sleeping

/-- A new object under a key is newer than all others. -/
theorem insertNew (key : String) :
    Leased (states.insert key heap.length) (heap ++ [⟨key, .closed, none, none⟩]) lease := by
  have lookup : ∀ {ref : StateRef} {st : State}, heap[ref]? = some st →
      (heap ++ [⟨key, .closed, none, none⟩])[ref]? = some st := by
    intro ref st object
    have inside := (List.getElem?_eq_some_iff.mp object).1
    rw [List.getElem?_append_left inside, object]
  have below : ∀ {ref : StateRef} {st : State}, heap[ref]? = some st → ref < heap.length :=
    fun object => (List.getElem?_eq_some_iff.mp object).1
  refine ⟨fun found => ?_, fun found => ?_, leased.setHeld, leased.queued, leased.early,
    fun processing => ?_, fun known found => ?_, fun processing notEarly object found => ?_,
    fun found object isOpen sleeping => ?_⟩
  · rcases lookup_insert_eq_some.mp found with ⟨rfl, rfl⟩ | ⟨-, old⟩
    · exact ⟨⟨_, .closed, none, none⟩, by simp, rfl⟩
    · obtain ⟨st, object, same⟩ := leased.stateKey old
      exact ⟨st, lookup object, same⟩
  · obtain ⟨st, object, same⟩ := leased.setKey found
    exact ⟨st, lookup object, same⟩
  · obtain ⟨st, object, newer⟩ := leased.processed processing
    refine ⟨st, lookup object, fun r found => ?_⟩
    rcases lookup_insert_eq_some.mp found with ⟨-, rfl⟩ | ⟨-, old⟩
    · exact (below object).le
    · exact newer r old
  · obtain ⟨st, object, -⟩ := leased.setKey known
    rcases lookup_insert_eq_some.mp found with ⟨-, rfl⟩ | ⟨-, old⟩
    · exact (below object).le
    · exact leased.older known old
  · obtain ⟨st', object', -⟩ := leased.processed processing
    rw [lookup object', Option.some.injEq] at object
    exact leased.late processing notEarly object' (object ▸ found)
  · rcases lookup_insert_eq_some.mp found with ⟨-, rfl⟩ | ⟨-, old⟩
    · simp at object
      rw [← object] at isOpen
      cases isOpen
    · obtain ⟨st', object', -⟩ := leased.stateKey old
      rw [lookup object', Option.some.injEq] at object
      exact leased.opened old (object ▸ object') isOpen sleeping

/-- The store may forget any object. -/
theorem eraseState (key : String) : Leased (states.erase key) heap lease := by
  have listed : ∀ {other ref}, (states.erase key).lookup other = some ref →
      states.lookup other = some ref := fun found => (lookup_erase_eq_some.mp found).2
  refine ⟨fun found => leased.stateKey (listed found), leased.setKey, leased.setHeld,
    leased.queued, leased.early, fun processing => ?_,
    fun known found => leased.older known (listed found), leased.late,
    fun found => leased.opened (listed found)⟩
  obtain ⟨st, object, newer⟩ := leased.processed processing
  exact ⟨st, object, fun r found => newer r (listed found)⟩

/-- `registerState` puts an object in the queue whose key is free. -/
theorem enqueue (listed : states.lookup key = some ref) (free : lease.stateSet.lookup key = none) :
    Leased states heap { lease with
      stateSet := lease.stateSet.insert key ref
      stateQueue := insert ref lease.stateQueue } := by
  have kept : ∀ {other old}, lease.stateSet.lookup other = some old →
      (lease.stateSet.insert key ref).lookup other = some old := by
    intro other old found
    have different : other ≠ key := by
      rintro rfl
      rw [free] at found
      cases found
    rw [AList.lookup_insert_ne different, found]
  obtain ⟨st, object, keyed⟩ := leased.stateKey listed
  refine ⟨leased.stateKey, fun found => ?_, fun found => ?_, fun member => ?_,
    fun processing isEarly => ?_, leased.processed, fun found held => ?_,
    fun processing notEarly object' found => ?_, fun held object' isOpen sleeping => ?_⟩
  · rcases lookup_insert_eq_some.mp found with ⟨rfl, rfl⟩ | ⟨-, old⟩
    · exact ⟨st, object, keyed⟩
    · exact leased.setKey old
  · rcases lookup_insert_eq_some.mp found with ⟨rfl, rfl⟩ | ⟨-, old⟩
    · exact .inl (Finset.mem_insert_self _ _)
    · exact (leased.setHeld old).imp_left Finset.mem_insert_of_mem
  · rcases Finset.mem_insert.mp member with rfl | member
    · exact ⟨key, AList.lookup_insert _⟩
    · obtain ⟨other, found⟩ := leased.queued member
      exact ⟨other, kept found⟩
  · obtain ⟨absent, other, found⟩ := leased.early processing isEarly
    refine ⟨fun member => ?_, other, kept found⟩
    rcases Finset.mem_insert.mp member with rfl | member
    · have same : other = key := (leased.setKey_eq found object).symm.trans keyed
      rw [same, free] at found
      cases found
    · exact absent member
  · rcases lookup_insert_eq_some.mp found with ⟨rfl, rfl⟩ | ⟨-, old⟩
    · rw [listed, Option.some.injEq] at held
      exact held.le
    · exact leased.older old held
  · next other stage st' old =>
    rcases lookup_insert_eq_some.mp found with ⟨same, rfl⟩ | ⟨-, old⟩
    · obtain ⟨st'', object'', newer⟩ := leased.processed processing
      obtain rfl := Option.some.inj (object'.symm.trans object'')
      exact newer _ (same ▸ listed)
    · exact leased.late processing notEarly object' old
  · exact (leased.opened held object' isOpen sleeping).imp_left kept

/-- The loop takes an object out of the queue. -/
theorem take (member : ref ∈ lease.stateQueue) (idle : lease.processing = none) :
    Leased states heap { lease with
      stateQueue := lease.stateQueue.erase ref
      processing := some (ref, .taken) } := by
  obtain ⟨key, known⟩ := leased.queued member
  obtain ⟨st, object, keyed⟩ := leased.setKey known
  refine ⟨leased.stateKey, leased.setKey, fun {other old} found => ?_,
    fun queued => leased.queued (Finset.mem_of_mem_erase queued), fun processing _ => ?_,
    fun processing => ?_, leased.older, fun processing notEarly => ?_,
    fun held object' isOpen sleeping => ?_⟩
  · by_cases same : old = ref
    · exact .inr ⟨.taken, by rw [same], .inl rfl⟩
    · rcases leased.setHeld found with queued | ⟨stage, processing, -⟩
      · exact .inl (Finset.mem_erase.mpr ⟨same, queued⟩)
      · rw [idle] at processing
        cases processing
  · cases processing
    exact ⟨Finset.notMem_erase _ _, key, known⟩
  · cases processing
    exact ⟨st, object, fun r held => leased.older (keyed ▸ known) held⟩
  · cases processing
    exact absurd (.inl rfl) notEarly
  · rcases leased.opened held object' isOpen sleeping with found | processing
    · exact .inl found
    · rw [idle] at processing
      cases processing

/-- The loop goes on with its object. It leaves the stage `removed` with a closed one. -/
theorem advance {stage stage' : Stage} (current : lease.processing = some (ref, stage))
    (same : stage'.Early ↔ stage.Early)
    (closed : stage = .removed → ∀ st, heap[ref]? = some st → st.state ≠ .opened) :
    Leased states heap { lease with processing := some (ref, stage') } := by
  refine ⟨leased.stateKey, leased.setKey, fun found => ?_, leased.queued,
    fun processing isEarly => ?_, fun processing => ?_, leased.older,
    fun processing notEarly => ?_, fun held object isOpen sleeping => ?_⟩
  · rcases leased.setHeld found with queued | ⟨stage'', processing, isEarly⟩
    · exact .inl queued
    · rw [current] at processing
      cases processing
      exact .inr ⟨stage', rfl, same.mpr isEarly⟩
  · cases processing
    exact leased.early current (same.mp isEarly)
  · cases processing
    exact leased.processed current
  · cases processing
    exact leased.late current (fun isEarly => notEarly (same.mpr isEarly))
  · rcases leased.opened held object isOpen sleeping with found | processing
    · exact .inl found
    · rw [current] at processing
      cases processing
      exact absurd isOpen (closed rfl _ object)

/-- An object whose window was moved goes back into the queue. -/
theorem requeue (current : lease.processing = some (ref, .taken)) :
    Leased states heap { lease with
      stateQueue := insert ref lease.stateQueue
      processing := some (ref, .finished) } := by
  obtain ⟨-, key, known⟩ := leased.early current (.inl rfl)
  have notEarly : ¬Stage.Early .finished := by simp [Stage.Early]
  refine ⟨leased.stateKey, leased.setKey, fun found => ?_, fun member => ?_,
    fun processing isEarly => ?_, fun processing => ?_, leased.older,
    fun processing _ object found => ?_, fun held object isOpen sleeping => ?_⟩
  · rcases leased.setHeld found with queued | ⟨stage, processing, -⟩
    · exact .inl (Finset.mem_insert_of_mem queued)
    · rw [current] at processing
      cases processing
      exact .inl (Finset.mem_insert_self _ _)
  · rcases Finset.mem_insert.mp member with rfl | queued
    · exact ⟨key, known⟩
    · exact leased.queued queued
  · cases processing
    exact absurd isEarly notEarly
  · cases processing
    exact leased.processed current
  · cases processing
    rw [leased.setKey_eq known object, known, Option.some.injEq] at found
    exact found.le
  · rcases leased.opened held object isOpen sleeping with found | processing
    · exact .inl found
    · rw [current] at processing
      cases processing

/-- The object whose window is over leaves the state set. -/
theorem remove (object : heap[ref]? = some st) (current : lease.processing = some (ref, .due)) :
    Leased states heap { lease with
      stateSet := lease.stateSet.erase st.key
      processing := some (ref, .removed) } := by
  obtain ⟨absent, key, known⟩ := leased.early current (.inr rfl)
  obtain rfl := leased.setKey_eq known object
  have notEarly : ¬Stage.Early .removed := by simp [Stage.Early]
  refine ⟨leased.stateKey, fun found => leased.setKey (lookup_erase_eq_some.mp found).2,
    fun found => ?_, fun {old} queued => ?_, fun processing isEarly => ?_, fun processing => ?_,
    fun found => leased.older (lookup_erase_eq_some.mp found).2,
    fun processing _ object' found => ?_, fun {other old st'} held object' isOpen sleeping => ?_⟩
  · obtain ⟨different, found⟩ := lookup_erase_eq_some.mp found
    rcases leased.setHeld found with queued | ⟨stage, processing, -⟩
    · exact .inl queued
    · rw [current] at processing
      cases processing
      exact absurd (leased.setKey_eq found object).symm different
  · obtain ⟨other, found⟩ := leased.queued queued
    have different : other ≠ st.key := by
      rintro rfl
      rw [known, Option.some.injEq] at found
      exact absent (found ▸ queued)
    exact ⟨other, (AList.lookup_erase_ne different).trans found⟩
  · cases processing
    exact absurd isEarly notEarly
  · cases processing
    exact leased.processed current
  · cases processing
    rw [object, Option.some.injEq] at object'
    exact absurd (by rw [object']) (lookup_erase_eq_some.mp found).1
  · rcases leased.opened held object' isOpen sleeping with found | processing
    · by_cases same : other = st.key
      · rw [same, known, Option.some.injEq] at found
        exact .inr (by rw [found])
      · exact .inl ((AList.lookup_erase_ne same).trans found)
    · rw [current] at processing
      cases processing

/-- The loop is done with its object. -/
theorem finish (current : lease.processing = some (ref, .finished)) :
    Leased states heap { lease with processing := none } := by
  refine ⟨leased.stateKey, leased.setKey, fun found => ?_, leased.queued, nofun, nofun,
    leased.older, nofun, fun held object isOpen sleeping => ?_⟩
  · rcases leased.setHeld found with queued | ⟨stage, processing, isEarly⟩
    · exact .inl queued
    · rw [current] at processing
      cases processing
      simp [Stage.Early] at isEarly
  · rcases leased.opened held object isOpen sleeping with found | processing
    · exact .inl found
    · rw [current] at processing
      cases processing

end

end Leased

end CtrlMesh.CircuitBreaker
