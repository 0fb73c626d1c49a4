import CtrlMesh.CircuitBreaker.LimiterHistory
import CtrlMesh.Lib.LastWrite

/-!
# The verdict of a validation and the order of its rules

The matched rules come out of a Go map in no fixed order, and each of them may overwrite the result
of those before. A rule that is forced closed writes that the request is allowed; any other rule
whose breaker is open or whose limiter refuses writes that it is not. The last one decides.
-/

namespace CtrlMesh.CircuitBreaker

open Labels Lib

/-- Whether a validation allows the request; a nil dereference gives no verdict. -/
def Outcome.verdict : Outcome ValidateResult → Option Bool
  | .returned result => some result.allowed
  | .panicked => none

/-- What a rule writes into the verdict, for the state of its breaker and the word of its
limiter. -/
def RateLimiting.effect (limiting : RateLimiting) (state : BreakerState) (allow : Bool) :
    Option Bool :=
  match limiting.triggerPolicy with
  | .forceClosed => some true
  | .forceOpened => some false
  | .normal | .limiterOnly => if state = .opened ∨ allow = false then some false else none
  | .unnamed _ => if state = .opened then some false else none

namespace LimiterStore

/-- What the rule under a key writes into the verdict. -/
def effectAt (s : LimiterStore) (allow : String → Bool) (key : String) : Option Bool := do
  let limiting ← s.rules.lookup key
  let ref ← s.states.lookup key
  let st ← s.heap[ref]?
  limiting.effect st.state (allow key)

/-- The rule under the key is forced closed. -/
def ForcedClosed (s : LimiterStore) (key : String) : Prop :=
  ∃ limiting, s.rules.lookup key = some limiting ∧ limiting.triggerPolicy = .forceClosed

/-- The rule under the key is not forced closed, and it is forced open, its breaker is open, or its
limiter is asked and refuses. -/
def Denies (s : LimiterStore) (allow : String → Bool) (key : String) : Prop :=
  ∃ limiting ref st, s.rules.lookup key = some limiting ∧ s.states.lookup key = some ref ∧
    s.heap[ref]? = some st ∧ limiting.triggerPolicy ≠ .forceClosed ∧
    (limiting.triggerPolicy = .forceOpened ∨ st.state = .opened ∨
      allow key = false ∧
        (limiting.triggerPolicy = .normal ∨ limiting.triggerPolicy = .limiterOnly))

variable {s s' : LimiterStore} {key other : String} {ref : StateRef} {st : State}
  {limiting : RateLimiting} {word : String → Bool} {parse : Parsers} {now : Int}

theorem effectAt_eq (ruled : s.rules.lookup key = some limiting)
    (listed : s.states.lookup key = some ref) (object : s.heap[ref]? = some st) :
    s.effectAt word key = limiting.effect st.state (word key) := by
  simp [effectAt, ruled, listed, object]

variable {allow : Bool} {state : BreakerState}

/-- One round writes the effect of its rule. -/
theorem allowed_validateOne {result result' : ValidateResult} (object : s.heap[ref]? = some st)
    (returned : (validateOne parse now s result limiting ref allow).1 = .returned result') :
    result'.allowed = (limiting.effect st.state allow).getD result.allowed := by
  simp only [validateOne, object] at returned
  unfold RateLimiting.effect
  cases triggers : limiting.triggerPolicy with
  | forceOpened | forceClosed =>
    rw [triggers] at returned
    cases returned
    rfl
  | limiterOnly =>
    rw [triggers] at returned
    cases returned
    cases allow <;> cases st.state <;> rfl
  | unnamed value =>
    rw [triggers] at returned
    cases returned
    cases st.state <;> rfl
  | normal =>
    rw [triggers] at returned
    cases state : st.state with
    | opened =>
      simp only [state, if_true, reduceCtorEq, if_false] at returned
      cases returned
      rfl
    | closed =>
      cases allow with
      | true =>
        simp only [state, if_true, reduceCtorEq, if_false] at returned
        cases returned
        rfl
      | false =>
        simp only [state, if_true, reduceCtorEq, if_false, Bool.false_eq_true] at returned
        split at returned
        · cases returned
        · cases returned
          rfl

theorem Round.effectAt_eq (round : Round key ref s s') (keyed : s.Keyed)
    (listed : s.states.lookup key = some ref) (different : other ≠ key) :
    s'.effectAt word other = s.effectAt word other := by
  simp only [effectAt, round.rules, round.states]
  cases held : s.states.lookup other with
  | none => rfl
  | some r => simp [(round.object_eq keyed listed held different).2]

/-- The verdict is what the rules write last, unless one of them ends the validation. -/
theorem verdict_doValidation (keyed : s.Keyed) {keys : List String} (distinct : keys.Nodup)
    (result : ValidateResult) :
    ((∃ key ∈ keys, s.Panics word key) →
      (doValidation parse now word keys result s).1.verdict = none) ∧
    ((∀ key ∈ keys, ¬s.Panics word key) →
      (doValidation parse now word keys result s).1.verdict =
        some (lastWrite (s.effectAt word) result.allowed keys)) := by
  induction keys generalizing s result with
  | nil => exact ⟨by simp, fun _ => rfl⟩
  | cons key keys ih =>
    obtain ⟨fresh, distinct⟩ := List.nodup_cons.mp distinct
    by_cases panics : s.Panics word key
    · rw [doValidation_of_panics panics]
      exact ⟨fun _ => rfl, fun none => absurd panics (none key List.mem_cons_self)⟩
    · obtain ⟨limiting, ref, st, result', ruled, listed, object, round, returned, same⟩ :=
        doValidation_of_not_panics parse now keyed panics keys result
      have apart : ∀ other ∈ keys, other ≠ key := fun other member equal => fresh (equal ▸ member)
      have later : ∀ other ∈ keys, ((validateOne parse now s result limiting ref
          (word key)).2.Panics word other ↔ s.Panics word other) := fun other member =>
        round.panics_iff keyed listed (apart other member)
      have writes : ∀ init, lastWrite ((validateOne parse now s result limiting ref
          (word key)).2.effectAt word) init keys = lastWrite (s.effectAt word) init keys := by
        intro init
        apply List.foldl_ext
        intro _ other member
        rw [round.effectAt_eq keyed listed (apart other member)]
      obtain ⟨ends, goesOn⟩ := ih (round.keeps_keyed keyed listed) distinct result'
      rw [same]
      constructor
      · rintro ⟨other, member, panics'⟩
        rcases List.mem_cons.mp member with rfl | member
        · exact absurd panics' panics
        · exact ends ⟨other, member, (later other member).mpr panics'⟩
      · intro none
        rw [goesOn fun other member => mt (later other member).mp (none other (.tail _ member)),
          writes, allowed_validateOne object returned, lastWrite_cons,
          effectAt_eq ruled listed object]

theorem effect_eq_true_iff :
    limiting.effect state allow = some true ↔ limiting.triggerPolicy = .forceClosed := by
  unfold RateLimiting.effect
  cases limiting.triggerPolicy <;> cases state <;> cases allow <;> simp

theorem effect_eq_false_iff :
    limiting.effect state allow = some false ↔ limiting.triggerPolicy ≠ .forceClosed ∧
      (limiting.triggerPolicy = .forceOpened ∨ state = .opened ∨ allow = false ∧
        (limiting.triggerPolicy = .normal ∨ limiting.triggerPolicy = .limiterOnly)) := by
  unfold RateLimiting.effect
  cases limiting.triggerPolicy <;> cases state <;> cases allow <;> simp

/-- A rule whose round does not end the validation writes by its policy and its state. -/
theorem effectAt_iff (keyed : s.Keyed) (goesOn : ¬s.Panics word key) :
    (s.effectAt word key = some true ↔ s.ForcedClosed key) ∧
      (s.effectAt word key = some false ↔ s.Denies word key) := by
  obtain ⟨limiting, ref, st, ruled, listed, object⟩ := exists_of_not_panics keyed goesOn
  rw [effectAt_eq ruled listed object, effect_eq_true_iff, effect_eq_false_iff]
  simp [ForcedClosed, Denies, ruled, listed, object]

/-- The verdict is the same in every order of the matched rules exactly when some rule ends the
validation with a nil dereference, which it then does in every order, or not both a rule is forced
closed and another one denies the request. -/
theorem verdict_perm_iff (parse : Parsers) (now : Int) (s : LimiterStore) (keyed : s.Keyed)
    (allow : String → Bool) (keys : List String) (distinct : keys.Nodup) :
    (∀ order : List String, order.Perm keys →
      (doValidation parse now allow order ⟨true, "Default allow", ""⟩ s).1.verdict =
        (doValidation parse now allow keys ⟨true, "Default allow", ""⟩ s).1.verdict) ↔
      (∃ key ∈ keys, s.Panics allow key) ∨
        ¬((∃ key ∈ keys, s.ForcedClosed key) ∧ ∃ key ∈ keys, s.Denies allow key) := by
  by_cases ends : ∃ key ∈ keys, s.Panics allow key
  · refine iff_of_true (fun order perm => ?_) (.inl ends)
    obtain ⟨key, member, panics⟩ := ends
    rw [(verdict_doValidation keyed distinct _).1 ⟨key, member, panics⟩,
      (verdict_doValidation keyed (perm.nodup_iff.mpr distinct) _).1
        ⟨key, perm.mem_iff.mpr member, panics⟩]
  · have goesOn : ∀ key ∈ keys, ¬s.Panics allow key := fun key member panics =>
      ends ⟨key, member, panics⟩
    have verdicts : (∀ order : List String, order.Perm keys →
        (doValidation parse now allow order ⟨true, "Default allow", ""⟩ s).1.verdict =
          (doValidation parse now allow keys ⟨true, "Default allow", ""⟩ s).1.verdict) ↔
        ∀ order, order.Perm keys →
          lastWrite (s.effectAt allow) true order = lastWrite (s.effectAt allow) true keys := by
      refine forall₂_congr fun order perm => ?_
      rw [(verdict_doValidation keyed distinct _).2 goesOn,
        (verdict_doValidation keyed (perm.nodup_iff.mpr distinct) _).2
          fun key member => goesOn key (perm.mem_iff.mp member), Option.some.injEq]
    rw [verdicts, lastWrite_perm_iff, or_iff_right ends]
    constructor
    · rintro agree ⟨⟨key, member, forced⟩, other, member', denies⟩
      have writes := (effectAt_iff keyed (goesOn key member)).1.mpr forced
      have writes' := (effectAt_iff keyed (goesOn other member')).2.mpr denies
      exact Bool.noConfusion (agree key member other member' true false writes writes')
    · intro apart key member other member' left right writes writes'
      cases left with
      | true =>
        cases right with
        | true => rfl
        | false =>
          refine absurd ⟨⟨key, member, ?_⟩, other, member', ?_⟩ apart
          · exact (effectAt_iff keyed (goesOn key member)).1.mp writes
          · exact (effectAt_iff keyed (goesOn other member')).2.mp writes'
      | false =>
        cases right with
        | false => rfl
        | true =>
          refine absurd ⟨⟨other, member', ?_⟩, key, member, ?_⟩ apart
          · exact (effectAt_iff keyed (goesOn other member')).1.mp writes'
          · exact (effectAt_iff keyed (goesOn key member)).2.mp writes

/-- Two rules for the same requests, one forced open and one forced closed. -/
def forcedBothWays : Config where
  option := .update
  name := "breaker"
  configHash := "hash"
  trafficInterceptRules := []
  rateLimitings := [
    ⟨"open", [⟨["*"], ["pods"], ["get"], ["*"]⟩], [], ⟨1, "1s", 1⟩, .forceOpened, none⟩,
    ⟨"closed", [⟨["*"], ["pods"], ["get"], ["*"]⟩], [], ⟨1, "1s", 1⟩, .forceClosed, none⟩]

/-- The store of that configuration. -/
def forcedStore : LimiterStore :=
  (Manager.new.synced (fun _ => none) 0 forcedBothWays).limiterStore

theorem keyed_forcedStore : forcedStore.Keyed := by
  have limits : (runSync (fun _ => none) [(0, forcedBothWays)]).Limits := runSync_limits (by decide)
  intro key ref listed
  exact limits.coherent.keyed listed

/-- One request is matched by both rules. -/
example : forcedStore.matched (.every 0) (.resource "default" "*" "pods" "get") =
    {"breaker:open", "breaker:closed"} := by decide

/-- The verdict on the two rules. -/
theorem verdict_perm_forced :
    (∀ order : List String, order.Perm ["breaker:open", "breaker:closed"] →
      (doValidation (.every 0) 1 (fun _ => true) order ⟨true, "Default allow", ""⟩
        forcedStore).1.verdict =
        (doValidation (.every 0) 1 (fun _ => true) ["breaker:open", "breaker:closed"]
          ⟨true, "Default allow", ""⟩ forcedStore).1.verdict) ↔
      (∃ key ∈ ["breaker:open", "breaker:closed"], forcedStore.Panics (fun _ => true) key) ∨
        ¬((∃ key ∈ ["breaker:open", "breaker:closed"], forcedStore.ForcedClosed key) ∧
          ∃ key ∈ ["breaker:open", "breaker:closed"], forcedStore.Denies (fun _ => true) key) :=
  verdict_perm_iff (.every 0) 1 forcedStore keyed_forcedStore (fun _ => true)
    ["breaker:open", "breaker:closed"] (by decide)

/-- The request is allowed or not by the order of the two rules. -/
theorem verdict_depends_on_order :
    ¬∀ (parse : Parsers) (now : Int) (s : LimiterStore), s.Keyed →
      ∀ (allow : String → Bool) (keys order : List String), keys.Nodup → order.Perm keys →
      (doValidation parse now allow order ⟨true, "Default allow", ""⟩ s).1.verdict =
        (doValidation parse now allow keys ⟨true, "Default allow", ""⟩ s).1.verdict := by
  intro same
  have verdicts := same (.every 0) 1 forcedStore keyed_forcedStore (fun _ => true)
    ["breaker:open", "breaker:closed"] ["breaker:closed", "breaker:open"] (by decide) (by decide)
  revert verdicts
  decide

end LimiterStore

end CtrlMesh.CircuitBreaker
