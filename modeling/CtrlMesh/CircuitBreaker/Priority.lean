import CtrlMesh.CircuitBreaker.LimiterHistory
import CtrlMesh.CircuitBreaker.SleepingWindow
import CtrlMesh.Lib.FirstHit
import Mathlib.Data.Prod.Lex

/-!
# The rules a resource request is validated by

A rule owns the patterns its lists combine to, and a `*` in a pattern stands for any value. Of the
patterns that match a request the best has the fewest wildcards; among those with equally many, one
that keeps the verb concrete comes first, then the resource, the group and the namespace.
`ValidateResource` looks up sixteen strings in a fixed order, which finds the rules that own the
best pattern, also for a request that names `*` itself.
-/

namespace CtrlMesh.CircuitBreaker

open Labels Lib

/-- A component, or the wildcard in its place. -/
def starIf (b : Bool) (text : String) : String := if b then "*" else text

/-- A wildcard. -/
def isStar (text : String) : Bool := text = "*"

section

variable (b : Bool) (text : String)

theorem isStar_starIf : isStar (starIf b text) = (b || isStar text) := by
  cases b <;> simp [isStar, starIf]

/-- A component that is `*` stays when it is replaced. -/
theorem starIf_or_isStar : starIf (b || isStar text) text = starIf b text := by
  by_cases star : text = "*" <;> cases b <;> simp [isStar, starIf, star]

theorem starIf_eq_or : starIf b text = text ∨ starIf b text = "*" := by
  cases b <;> simp [starIf]

theorem colon_notMem_starIf (plain : ':' ∉ text.toList) : ':' ∉ (starIf b text).toList := by
  cases b with
  | true =>
    rw [show starIf true text = "*" from rfl]
    decide
  | false => exact plain

variable {text}

theorem eq_starIf {wanted : String} (either : text = wanted ∨ text = "*") :
    text = starIf (isStar text) wanted := by
  by_cases star : text = "*"
  · simp [starIf, isStar, star]
  · simpa [starIf, isStar, star] using either

end

/-- What a request names, or what a rule asks of one. -/
structure Pattern where
  ns : String
  apiGroup : String
  resource : String
  verb : String
  deriving DecidableEq

/-- Which components of a pattern are wildcards. -/
structure Wildcards where
  ns : Bool
  apiGroup : Bool
  resource : Bool
  verb : Bool
  deriving DecidableEq

namespace Wildcards

/-- The number of wildcards. -/
def count (w : Wildcards) : Nat :=
  w.ns.toNat + w.apiGroup.toNat + w.resource.toNat + w.verb.toNat

/-- The number of wildcards, then whether the verb is one, the resource, the group, the
namespace. -/
def rank (w : Wildcards) : Nat ×ₗ Bool ×ₗ Bool ×ₗ Bool ×ₗ Bool :=
  toLex (w.count, toLex (w.verb, toLex (w.resource, toLex (w.apiGroup, w.ns))))

/-- The wildcards of either. -/
def or (v w : Wildcards) : Wildcards :=
  ⟨v.ns || w.ns, v.apiGroup || w.apiGroup, v.resource || w.resource, v.verb || w.verb⟩

theorem rank_injective : Function.Injective rank := by
  rintro ⟨n, g, r, v⟩ ⟨n', g', r', v'⟩ same
  simp only [rank, toLex_inj, Prod.mk.injEq] at same
  obtain ⟨-, verb, resource, apiGroup, ns⟩ := same
  rw [ns, apiGroup, resource, verb]

/-- The components `generateWildcardSeeds` replaces, in its order. -/
def probeOrder : List Wildcards :=
  [ ⟨false, false, false, false⟩,
    ⟨true, false, false, false⟩, ⟨false, true, false, false⟩,
    ⟨false, false, true, false⟩, ⟨false, false, false, true⟩,
    ⟨true, true, false, false⟩, ⟨true, false, true, false⟩, ⟨false, true, true, false⟩,
    ⟨true, false, false, true⟩, ⟨false, true, false, true⟩, ⟨false, false, true, true⟩,
    ⟨true, true, true, false⟩, ⟨true, true, false, true⟩,
    ⟨true, false, true, true⟩, ⟨false, true, true, true⟩,
    ⟨true, true, true, true⟩ ]

theorem mem_probeOrder {w : Wildcards} : w ∈ probeOrder := by
  obtain ⟨n, g, r, v⟩ := w
  revert n g r v
  decide

/-- Whichever components of the request are `*` themselves, the probes are in the order of the rank
but for repetitions. -/
theorem ranked_probeOrder {w : Wildcards} : RankedFrom rank [] (probeOrder.map (·.or w)) := by
  obtain ⟨n, g, r, v⟩ := w
  revert n g r v
  decide +kernel

end Wildcards

namespace Pattern

/-- The string under which the pattern is indexed. -/
def index (p : Pattern) : String := indexForResource p.ns p.apiGroup p.resource p.verb

/-- Where a pattern has wildcards. -/
def wildcards (p : Pattern) : Wildcards :=
  ⟨isStar p.ns, isStar p.apiGroup, isStar p.resource, isStar p.verb⟩

/-- The rank of a pattern. -/
def rank (p : Pattern) : Nat ×ₗ Bool ×ₗ Bool ×ₗ Bool ×ₗ Bool := p.wildcards.rank

/-- Each component is the request's or a wildcard. -/
def Matches (p request : Pattern) : Prop :=
  (p.ns = request.ns ∨ p.ns = "*") ∧ (p.apiGroup = request.apiGroup ∨ p.apiGroup = "*") ∧
    (p.resource = request.resource ∨ p.resource = "*") ∧ (p.verb = request.verb ∨ p.verb = "*")

/-- No component has a colon. -/
def Plain (p : Pattern) : Prop :=
  ':' ∉ p.ns.toList ∧ ':' ∉ p.apiGroup.toList ∧ ':' ∉ p.resource.toList ∧ ':' ∉ p.verb.toList

/-- The pattern with some components replaced by wildcards. -/
def starred (p : Pattern) (w : Wildcards) : Pattern where
  ns := starIf w.ns p.ns
  apiGroup := starIf w.apiGroup p.apiGroup
  resource := starIf w.resource p.resource
  verb := starIf w.verb p.verb

/-- A pattern as a request. -/
def toRequest (p : Pattern) : Request := .resource p.ns p.apiGroup p.resource p.verb

variable {p q request : Pattern} {w : Wildcards}

theorem index_eq : p.index = ruleKey p.ns (ruleKey p.apiGroup (ruleKey p.resource p.verb)) := by
  simp only [index, indexForResource, ruleKey, String.append_assoc]

theorem Plain.index_inj (plain : p.Plain) (plain' : q.Plain) (same : p.index = q.index) :
    p = q := by
  rw [index_eq, index_eq] at same
  obtain ⟨ns, same⟩ := ruleKey_inj plain.1 plain'.1 same
  obtain ⟨apiGroup, same⟩ := ruleKey_inj plain.2.1 plain'.2.1 same
  obtain ⟨resource, verb⟩ := ruleKey_inj plain.2.2.1 plain'.2.2.1 same
  cases p
  cases q
  simp_all

theorem Plain.starred (plain : p.Plain) (w : Wildcards) : (p.starred w).Plain :=
  ⟨colon_notMem_starIf _ _ plain.1, colon_notMem_starIf _ _ plain.2.1,
    colon_notMem_starIf _ _ plain.2.2.1, colon_notMem_starIf _ _ plain.2.2.2⟩

theorem wildcards_starred : (p.starred w).wildcards = w.or p.wildcards := by
  simp only [wildcards, Pattern.starred, Wildcards.or, isStar_starIf]

/-- What the request names as `*` is a wildcard already. -/
theorem starred_or : p.starred (w.or p.wildcards) = p.starred w := by
  simp only [Pattern.starred, Wildcards.or, wildcards, starIf_or_isStar]

theorem Matches.eq_starred (fits : p.Matches request) : p = request.starred p.wildcards := by
  obtain ⟨ns, apiGroup, resource, verb⟩ := fits
  cases p
  simp only [Pattern.starred, wildcards, mk.injEq]
  exact ⟨eq_starIf ns, eq_starIf apiGroup, eq_starIf resource, eq_starIf verb⟩

theorem matches_starred : (request.starred w).Matches request :=
  ⟨starIf_eq_or _ _, starIf_eq_or _ _, starIf_eq_or _ _, starIf_eq_or _ _⟩

/-- The patterns probed for a request. -/
def probes (request : Pattern) : List Pattern := Wildcards.probeOrder.map request.starred

theorem generateWildcardSeeds_eq :
    generateWildcardSeeds request.ns request.apiGroup request.resource request.verb =
      request.probes.map index := rfl

theorem mem_probes : p ∈ request.probes ↔ p.Matches request := by
  constructor
  · intro member
    obtain ⟨w, -, rfl⟩ := List.mem_map.mp member
    exact matches_starred
  · intro fits
    rw [fits.eq_starred]
    exact List.mem_map_of_mem Wildcards.mem_probeOrder

theorem ranked_probes : RankedFrom rank [] request.probes := by
  have folded : request.probes =
      (Wildcards.probeOrder.map (·.or request.wildcards)).map request.starred := by
    simp only [probes, List.map_map, Function.comp_def, starred_or]
  rw [folded]
  apply (Wildcards.ranked_probeOrder).map
  intro w member
  obtain ⟨w, -, rfl⟩ := List.mem_map.mp member
  rw [starred_or, rank, wildcards_starred]

/-- Two patterns of one rank that match the same request are the same. -/
theorem Matches.eq_of_rank (fits : p.Matches request) (fits' : q.Matches request)
    (same : p.rank = q.rank) : p = q := by
  rw [fits.eq_starred, fits'.eq_starred, Wildcards.rank_injective same]

end Pattern

/-- One of the patterns the lists of the rule combine to. -/
def RateLimiting.Owns (limiting : RateLimiting) (p : Pattern) : Prop :=
  ∃ rule ∈ limiting.resourceRules, p.ns ∈ rule.namespaces ∧ p.apiGroup ∈ rule.apiGroups ∧
    p.resource ∈ rule.resources ∧ p.verb ∈ rule.verbs

theorem mem_indexFuncForResource {limiting : RateLimiting} {value : String} :
    value ∈ indexFuncForResource limiting ↔ ∃ p, limiting.Owns p ∧ p.index = value := by
  simp only [indexFuncForResource, List.mem_flatMap, List.mem_map]
  constructor
  · rintro ⟨rule, member, ns, isNs, apiGroup, isGroup, resource, isResource, verb, isVerb, rfl⟩
    exact ⟨⟨ns, apiGroup, resource, verb⟩, ⟨rule, member, isNs, isGroup, isResource, isVerb⟩, rfl⟩
  · rintro ⟨p, ⟨rule, member, isNs, isGroup, isResource, isVerb⟩, rfl⟩
    exact ⟨rule, member, p.ns, isNs, p.apiGroup, isGroup, p.resource, isResource, p.verb, isVerb,
      rfl⟩

namespace LimiterStore

/-- No pattern of a registered rule has a colon. -/
def PlainRules (s : LimiterStore) : Prop :=
  ∀ key rule p, s.rules.lookup key = some rule → rule.Owns p → p.Plain

/-- The best of the patterns of registered rules that match the request. -/
def Best (s : LimiterStore) (request p : Pattern) : Prop :=
  (∃ key rule, s.rules.lookup key = some rule ∧ rule.Owns p) ∧ p.Matches request ∧
    ∀ key rule q, s.rules.lookup key = some rule → rule.Owns q → q.Matches request →
      p.rank ≤ q.rank

variable {s : LimiterStore} {request : Pattern} {key : String}

/-- Under the string of a pattern stand the keys of the rules that own it. -/
theorem Coherent.mem_keysAt_index (coherent : s.Coherent) (plainRules : s.PlainRules) {p : Pattern}
    (plain : p.Plain) : key ∈ s.indices.resource.keysAt p.index ↔
      ∃ rule, s.rules.lookup key = some rule ∧ rule.Owns p := by
  rw [show s.indices.resource = s.indices.byName .resource from rfl, coherent.indexed]
  refine exists_congr fun rule => and_congr_right fun ruled => ?_
  rw [show IndexKind.indexFunc .resource rule = indexFuncForResource rule from rfl,
    mem_indexFuncForResource]
  constructor
  · rintro ⟨q, owns, same⟩
    rwa [← (plainRules key rule q ruled owns).index_inj plain same]
  · exact fun owns => ⟨p, owns, rfl⟩

theorem matched_toRequest (parse : Parsers) :
    s.matched parse request.toRequest =
      ((request.probes.find? fun p => s.indices.resource.keysAt p.index ≠ ∅).map
        fun p => s.indices.resource.keysAt p.index).getD ∅ := by
  simp only [matched, Pattern.toRequest]
  rw [Pattern.generateWildcardSeeds_eq, List.map_map, List.find?_map]
  rfl

/-- The keys found are those of the rules that own the best pattern. -/
theorem Coherent.mem_matched (coherent : s.Coherent) (plainRules : s.PlainRules)
    (plain : request.Plain) {parse : Parsers} :
    key ∈ s.matched parse request.toRequest ↔
      ∃ rule p, s.rules.lookup key = some rule ∧ rule.Owns p ∧ s.Best request p := by
  have owners : ∀ {p : Pattern} {key : String}, p.Matches request →
      (key ∈ s.indices.resource.keysAt p.index ↔
        ∃ rule, s.rules.lookup key = some rule ∧ rule.Owns p) := by
    intro p key fits
    rw [fits.eq_starred]
    exact coherent.mem_keysAt_index plainRules (plain.starred _)
  have hits : ∀ {p : Pattern} {key : String} {rule : RateLimiting}, p.Matches request →
      s.rules.lookup key = some rule → rule.Owns p →
      decide (s.indices.resource.keysAt p.index ≠ ∅) = true := by
    intro p key rule fits ruled owns
    rw [decide_eq_true_eq]
    exact Finset.ne_empty_of_mem ((owners fits).mpr ⟨rule, ruled, owns⟩)
  rw [matched_toRequest]
  cases first : request.probes.find? fun p => s.indices.resource.keysAt p.index ≠ ∅ with
  | none =>
    rw [List.find?_eq_none] at first
    refine iff_of_false (by simp) ?_
    rintro ⟨rule, p, ruled, owns, -, fits, -⟩
    exact first p (Pattern.mem_probes.mpr fits) (hits fits ruled owns)
  | some best =>
    have fits : best.Matches request := Pattern.mem_probes.mp (List.mem_of_find?_eq_some first)
    have lowest : ∀ p ∈ request.probes, _ → best.rank ≤ p.rank :=
      (Pattern.ranked_probes).find?_le (by simp) first
    have nonempty : s.indices.resource.keysAt best.index ≠ ∅ := by
      simpa using List.find?_some first
    obtain ⟨owner, member⟩ := Finset.nonempty_iff_ne_empty.mpr nonempty
    have isBest : s.Best request best := by
      obtain ⟨rule, ruled, owns⟩ := (owners fits).mp member
      refine ⟨⟨owner, rule, ruled, owns⟩, fits, fun key rule q ruled owns fits => ?_⟩
      exact lowest q (Pattern.mem_probes.mpr fits) (hits fits ruled owns)
    rw [Option.map_some, Option.getD_some, owners fits]
    constructor
    · rintro ⟨rule, ruled, owns⟩
      exact ⟨rule, best, ruled, owns, isBest⟩
    · rintro ⟨rule, p, ruled, owns, ⟨-, fits', least⟩⟩
      obtain ⟨⟨key', rule', ruled', owns'⟩, -, least'⟩ := isBest
      have below : p.rank ≤ best.rank := least key' rule' best ruled' owns' fits
      have above : best.rank ≤ p.rank := least' key rule p ruled owns fits'
      have same : p = best := fits'.eq_of_rank fits (le_antisymm below above)
      exact ⟨rule, ruled, same ▸ owns⟩

variable {parse : Parsers} {now : Int}

section

variable (coherent : s.Coherent)

include coherent

theorem Coherent.withLease (lease : Lease) : { s with breakerLease := lease }.Coherent :=
  ⟨coherent.limiters, coherent.states, coherent.keyed, coherent.indexed, coherent.tight⟩

theorem Coherent.validateOne (result : ValidateResult) (limiting : RateLimiting) (ref : StateRef)
    (allow : Bool) : (validateOne parse now s result limiting ref allow).2.Coherent := by
  cases object : s.heap[ref]? with
  | none =>
    simp only [LimiterStore.validateOne, object]
    exact coherent
  | some st =>
    rcases validateOne_cases object with same | ⟨f, quiet, same⟩ | ⟨policy, -, same⟩
    · rw [same]
      exact coherent
    · rw [same]
      exact coherent.modifyState ref fun st => (quiet st).1
    · rw [same]
      have modified := coherent.modifyState ref
        fun st => st.key_transition .opened now
          (some (now + parse.duration policy.sleepingWindowSize))
      unfold registerState
      split
      · exact modified
      · split
        · exact modified.withLease _
        · exact modified

theorem Coherent.doValidation (allow : String → Bool) (keys : List String)
    (result : ValidateResult) :
    (doValidation parse now allow keys result s).2.Coherent := by
  induction keys generalizing s result with
  | nil => exact coherent
  | cons key keys ih =>
    unfold LimiterStore.doValidation
    split
    · next limiting ref _ _ =>
      have next := @Coherent.validateOne s parse now coherent result limiting ref
        (allow key)
      split
      · next panicked => rwa [panicked] at next
      · next returned =>
        rw [returned] at next
        exact ih next _
    · exact coherent

theorem Coherent.take {s' : LimiterStore} {ref : StateRef} (taken : s.take ref = some s') :
    s'.Coherent := by
  unfold LimiterStore.take at taken
  split at taken
  · cases taken
    exact coherent.withLease _
  · cases taken

theorem Coherent.process {s' : LimiterStore} (processed : s.process now = some s') :
    s'.Coherent := by
  have ⟨ref, st, _, stepped⟩ := stepped_of_process processed
  have recovered := coherent.modifyState ref fun st => st.key_transition .closed now none
  cases stepped with
  | closes => exact recovered.withLease _
  | requeues | reads | removes | finishes => exact coherent.withLease _

end

end LimiterStore

namespace Manager

variable {compile : Compile} {parse : Parsers} {m m' : Manager}

theorem coherent_step (event : Event) (coherent : m.limiterStore.Coherent)
    (stepped : m.step compile parse event = some m') : m'.limiterStore.Coherent := by
  cases event with
  | sync now config =>
    cases stepped
    exact limiterStore_synced
      (fun _ key limiting coherent => coherent.createOrUpdateRule key limiting)
      (fun _ key coherent => coherent.deleteRule key)
      (fun _ ref now coherent => coherent.modifyState ref fun st => st.key_transition _ _ _)
      coherent
  | validate now request order allow =>
    obtain ⟨-, -, rfl⟩ := step_validate stepped
    dsimp only [LimiterStore.validate]
    split
    · exact coherent
    · exact coherent.doValidation allow order _
  | take ref =>
    obtain ⟨s, taken, rfl⟩ := Option.map_eq_some_iff.mp stepped
    exact coherent.take taken
  | process now =>
    obtain ⟨s, processed, rfl⟩ := Option.map_eq_some_iff.mp stepped
    exact coherent.process processed

/-- The maps and the indices are in step in every state the manager reaches. -/
theorem coherent_of_run {events : List Event}
    (reached : run (step compile parse) .new events = some m) : m.limiterStore.Coherent := by
  have along : Along (step compile parse) (fun m => m.limiterStore.Coherent) .new
      events :=
    along_of_eachStep
      (fun _ event _ coherent (_ : True) stepped => coherent_step event coherent stepped)
      LimiterStore.coherent_new fun _ _ _ _ _ _ _ _ => trivial
  exact along events [] m (List.append_nil _).symm reached

/-- The request is validated by the rules that own the best of the patterns matching it; without one
it is allowed, and the store is as before. -/
structure ValidatesByBest (parse : Parsers)
    (m : Manager) (request : Pattern) : Prop where
  matched : ∀ key, key ∈ m.limiterStore.matched parse request.toRequest ↔
    ∃ rule p, m.limiterStore.rules.lookup key = some rule ∧ rule.Owns p ∧
      m.limiterStore.Best request p
  unmatched : (∀ key rule p, m.limiterStore.rules.lookup key = some rule → rule.Owns p →
      ¬p.Matches request) →
    ∀ order : List String, order.toFinset = m.limiterStore.matched parse request.toRequest →
    ∀ (now : Int) (allow : String → Bool), m.limiterStore.validate parse now order allow =
      (.returned ⟨true, "No rule match", ""⟩, m.limiterStore)

theorem validatesByBest_of_coherent (coherent : m.limiterStore.Coherent) {request : Pattern}
    (plainRules : m.limiterStore.PlainRules) (plain : request.Plain) :
    ValidatesByBest parse m request := by
  refine ⟨fun key => coherent.mem_matched plainRules plain, ?_⟩
  intro unmatched order enumerates now allow
  have empty : order = [] := by
    rw [← List.toFinset_eq_empty_iff, enumerates, Finset.eq_empty_iff_forall_notMem]
    intro key member
    obtain ⟨rule, p, ruled, owns, -, fits, -⟩ := (coherent.mem_matched plainRules plain).mp member
    exact unmatched key rule p ruled owns fits
  rw [LimiterStore.validate, if_pos empty]

/-- In every state the manager reaches, requests follow the priority of the patterns. -/
theorem validatesByBest_of_run {events : List Event}
    (reached : run (step compile parse) .new events = some m) {request : Pattern}
    (plainRules : m.limiterStore.PlainRules) (plain : request.Plain) :
    ValidatesByBest parse m request :=
  validatesByBest_of_coherent (coherent_of_run reached) plainRules plain

theorem plainRules_twiceNamed :
    (Manager.new.synced (fun _ => none) 0 (twiceNamed .update "a")).limiterStore.PlainRules := by
  rintro key rule p ruled ⟨own, member, isNs, isGroup, isResource, isVerb⟩
  have stored : (⟨key, rule⟩ : Σ _ : String, RateLimiting) ∈
      [⟨"breaker:rule", (twiceNamed .update "a").rateLimitings[1]⟩] :=
    AList.mem_lookup_iff.mp ruled
  obtain ⟨-, rfl⟩ := Sigma.mk.inj (List.mem_singleton.mp stored)
  obtain rfl := List.mem_singleton.mp member
  have texts : ∀ text ∈ ["*", "apps", "get", "list"], ':' ∉ text.toList := by decide
  refine ⟨texts _ ?_, texts _ ?_, texts _ ?_, texts _ ?_⟩
  · simp_all
  · simp_all
  · simp_all
  · rcases List.mem_pair.mp isVerb with verb | verb <;> simp [verb]

theorem validatesByBest_twiceNamed :
    ValidatesByBest (.every 0)
      (Manager.new.synced (fun _ => none) 0 (twiceNamed .update "a"))
      ⟨"default", "apps", "deployments", "get"⟩ :=
  @validatesByBest_of_run (fun _ => none) (.every 0) _
    [.sync 0 (twiceNamed .update "a")] rfl _ plainRules_twiceNamed (by unfold Pattern.Plain; decide)

end Manager

end CtrlMesh.CircuitBreaker
