import CtrlMesh.CircuitBreaker.Priority

/-!
# The rules a REST request is validated by

`ValidateRest` asks first for the URL itself and then, from the longest to the shortest, for the
patterns `scheme://host/s1/.../sk/*`. What it finds are the rules registered for the most specific
of them. A rule is indexed under its URL and its method, joined by a colon: a URL has colons, so
the method has to have none.
-/

namespace CtrlMesh.CircuitBreaker

open Labels Lib

/-- A URL `scheme://host/s1/.../sn` with at least one segment. -/
structure RestUrl where
  scheme : String
  host : String
  segments : List (List Char)
  nonempty : segments ≠ []
  whole : ∀ segment ∈ segments, segment ≠ [] ∧ '/' ∉ segment

variable {slash : Bool}

namespace RestUrl

variable (u : RestUrl)

/-- The path of the first segments. -/
def path (k : Nat) : String := String.ofList ((u.segments.take k).flatMap ('/' :: ·))

/-- The URL without a slash at its end. -/
def base : String := u.scheme ++ "://" ++ u.host ++ u.path u.segments.length

/-- The URL, with or without a slash at its end. -/
def text (slash : Bool) : String := if slash then u.base ++ "/" else u.base

/-- The pattern for everything under the first segments. -/
def under (k : Nat) : String := u.scheme ++ "://" ++ u.host ++ u.path k ++ "/*"

/-- The URL, as `url.Parse` returns it. -/
def parsed : ParsedURL := ⟨u.scheme, u.host, u.path u.segments.length⟩

variable {u}

theorem trimSlash_text : trimSlash (u.text slash) = u.base := by
  have slashes : "/".toList = ['/'] := by decide
  cases slash with
  | true => simp [text, trimSlash, slashes]
  | false =>
    have ends : u.base.toList.getLast? ≠ some '/' := by
      obtain empty | ⟨front, final, split⟩ := List.eq_nil_or_concat u.segments
      · exact absurd empty u.nonempty
      have member : final ∈ u.segments := by simp [split]
      obtain ⟨nonempty, plain⟩ := u.whole final member
      have chars : u.base.toList = (u.scheme ++ "://" ++ u.host).toList ++
          (front.flatMap ('/' :: ·) ++ ['/']) ++ final := by
        rw [base, path, List.take_length, split]
        simp
      rw [chars, List.getLast?_append_of_ne_nil _ nonempty]
      exact fun last => plain (List.mem_of_mem_getLast? last)
    simp only [text, trimSlash, Bool.false_eq_true, if_false, ends]

/-- Segments with a slash before each are joined behind an empty one. -/
theorem flatMap_slash (segments : List (List Char)) :
    segments.flatMap ('/' :: ·) = ['/'].intercalate ([] :: segments) := by
  induction segments with
  | nil => rfl
  | cons segment segments ih =>
    cases segments with
    | nil => simp [List.intercalate]
    | cons second segments =>
      rw [List.flatMap_cons, ih]
      simp [List.intercalate]

theorem splitOn_path : (u.path u.segments.length).toList.splitOn '/' = [] :: u.segments := by
  rw [path, List.take_length, String.toList_ofList, flatMap_slash, List.splitOn_intercalate]
  · simp only [List.forall_mem_cons, List.not_mem_nil, not_false_eq_true, true_and]
    exact fun segment member => (u.whole segment member).2
  · simp

/-- The URL itself is tried first, then the patterns from the longest to the shortest. -/
theorem generateWildcardUrls_eq {parse : Parsers} (parses : parse.url u.base = some u.parsed)
    (method : String) :
    generateWildcardUrls parse (u.text slash) method =
      indexForRest (u.text slash) method ::
        (List.range u.segments.length).reverse.map fun k => indexForRest (u.under k) method := by
  have long : (u.path u.segments.length).toList.length > 0 := by
    apply List.length_pos_of_ne_nil
    intro empty
    have parts := @splitOn_path u
    rw [empty, List.splitOn_nil] at parts
    exact u.nonempty (List.cons.inj parts).2.symm
  rw [generateWildcardUrls, trimSlash_text, parses]
  simp only [parsed, long, if_true, splitOn_path, List.length_cons, Nat.add_sub_cancel,
    List.take_succ_cons, ← flatMap_slash]
  rfl

end RestUrl

/-- The method is found again behind the last colon. -/
theorem indexForRest_inj {url url' method method' : String} (plain : ':' ∉ method.toList)
    (plain' : ':' ∉ method'.toList) (same : indexForRest url method = indexForRest url' method') :
    url = url' ∧ method = method' := by
  have colon : ":".toList = [':'] := by decide
  have chars := congrArg (fun text => text.toList.reverse) same
  simp only [indexForRest, String.toList_append, colon, List.reverse_append, List.reverse_singleton,
    List.singleton_append] at chars
  obtain ⟨methods, urls⟩ := append_mark_inj (by simpa using plain) (by simpa using plain') chars
  exact ⟨String.toList_inj.mp (List.reverse_inj.mp urls),
    String.toList_inj.mp (List.reverse_inj.mp methods)⟩

namespace LimiterStore

/-- The key belongs to a rule for the URL and the method. -/
def Registered (s : LimiterStore) (url method key : String) : Prop :=
  ∃ rule, s.rules.lookup key = some rule ∧ ⟨url, method⟩ ∈ rule.restRules

/-- No method of a registered rule has a colon. -/
def PlainMethods (s : LimiterStore) : Prop :=
  ∀ key rule, s.rules.lookup key = some rule → ∀ rest ∈ rule.restRules, ':' ∉ rest.method.toList

variable {s : LimiterStore} {url method key : String}

theorem Coherent.mem_keysAt_rest (coherent : s.Coherent) (plainMethods : s.PlainMethods)
    (plain : ':' ∉ method.toList) :
    key ∈ s.indices.rest.keysAt (indexForRest url method) ↔ s.Registered url method key := by
  rw [show s.indices.rest = s.indices.byName .rest from rfl, coherent.indexed]
  refine exists_congr fun rule => and_congr_right fun ruled => ?_
  rw [show IndexKind.indexFunc .rest rule = indexFuncForRest rule from rfl, indexFuncForRest,
    List.mem_map]
  constructor
  · rintro ⟨rest, member, same⟩
    obtain ⟨rfl, rfl⟩ := indexForRest_inj (plainMethods key rule ruled rest member) plain same
    exact member
  · exact fun member => ⟨_, member, rfl⟩

theorem Coherent.keysAt_rest_ne_empty (coherent : s.Coherent) (plainMethods : s.PlainMethods)
    (plain : ':' ∉ method.toList) : s.indices.rest.keysAt (indexForRest url method) ≠ ∅ ↔
      ∃ key, s.Registered url method key := by
  rw [← Finset.nonempty_iff_ne_empty]
  exact exists_congr fun key => coherent.mem_keysAt_rest plainMethods plain

/-- The keys under the URL itself if there are any, else those under the first pattern that has
any. -/
theorem matched_rest {parse : Parsers} {u : RestUrl} (parses : parse.url u.base = some u.parsed)
    (slash : Bool) :
    s.matched parse (.rest (u.text slash) method) =
      if s.indices.rest.keysAt (indexForRest (u.text slash) method) ≠ ∅ then
        s.indices.rest.keysAt (indexForRest (u.text slash) method)
      else (((List.range u.segments.length).reverse.find? fun k =>
          s.indices.rest.keysAt (indexForRest (u.under k) method) ≠ ∅).map fun k =>
            s.indices.rest.keysAt (indexForRest (u.under k) method)).getD ∅ := by
  simp only [matched]
  rw [RestUrl.generateWildcardUrls_eq parses, List.map_cons, List.find?_cons, List.map_map,
    List.find?_map]
  split
  · next hit =>
    rw [if_pos (of_decide_eq_true hit)]
    rfl
  · next missed =>
    rw [if_neg (of_decide_eq_false missed)]
    rfl

section Reasons

variable {parse : Parsers} {now : Int} {result result' : ValidateResult}
  {s' : LimiterStore}

theorem validateOne_reason {limiting : RateLimiting} {ref : StateRef} {allow : Bool}
    (other : result.reason ≠ "No rule match")
    (validated : validateOne parse now s result limiting ref allow =
      (.returned result', s')) : result'.reason ≠ "No rule match" := by
  unfold validateOne at validated
  split at validated
  · cases validated
  · next st _ =>
    have triggered : (if st.state = .opened then (⟨false, "CircuitBreakerTriggered",
        "the circuit breaker is triggered. Limiting rule name: " ++ limiting.name⟩ :
          ValidateResult) else result).reason ≠ "No rule match" := by
      split
      · simp
      · exact other
    dsimp only at validated
    split at validated
    · cases validated
      simp
    · cases validated
      simp
    · cases validated
      split <;> simp
    · split at validated
      · split at validated
        · cases validated
          exact triggered
        · split at validated
          · cases validated
          · cases validated
            simp
      · cases validated
        exact triggered
    · cases validated
      exact triggered

variable {allow : String → Bool}

/-- A request that some rule was asked about is never answered as one without a rule. -/
theorem doValidation_reason {keys : List String} (other : result.reason ≠ "No rule match")
    (validated : doValidation parse now allow keys result s = (.returned result', s')) :
    result'.reason ≠ "No rule match" := by
  induction keys generalizing s result with
  | nil =>
    cases validated
    exact other
  | cons key keys ih =>
    unfold doValidation at validated
    split at validated
    · split at validated
      · cases validated
      · next returned => exact ih (validateOne_reason other returned) validated
    · cases validated

theorem validate_reason {order : List String}
    (validated : s.validate parse now order allow = (.returned result, s'))
    (unmatched : result.reason = "No rule match") : order = [] := by
  unfold validate at validated
  split at validated
  · assumption
  · exact absurd unmatched (doValidation_reason (by decide) validated)

end Reasons

end LimiterStore

namespace Manager

variable {compile : Compile} {parse : Parsers} {m : Manager}

/-- The request is validated by the rules for its URL, or else by those for the longest pattern
above it that has any for the method; it is answered as one without a rule exactly if there are
none. -/
structure ValidatesMostSpecific (parse : Parsers) (m : Manager) (u : RestUrl) (slash : Bool)
    (method : String) : Prop where
  exact : (∃ key, m.limiterStore.Registered (u.text slash) method key) →
    ∀ key, key ∈ m.limiterStore.matched parse (.rest (u.text slash) method) ↔
      m.limiterStore.Registered (u.text slash) method key
  longest : (¬∃ key, m.limiterStore.Registered (u.text slash) method key) →
    ∀ k < u.segments.length, (∃ key, m.limiterStore.Registered (u.under k) method key) →
    (∀ j, k < j → j < u.segments.length →
      ¬∃ key, m.limiterStore.Registered (u.under j) method key) →
    ∀ key, key ∈ m.limiterStore.matched parse (.rest (u.text slash) method) ↔
      m.limiterStore.Registered (u.under k) method key
  unmatched : ∀ order : List String,
    order.toFinset = m.limiterStore.matched parse (.rest (u.text slash) method) →
    ∀ (now : Int) (allow : String → Bool),
      (∃ result s', m.limiterStore.validate parse now order allow =
        (.returned result, s') ∧ result.reason = "No rule match") ↔
      (¬∃ key, m.limiterStore.Registered (u.text slash) method key) ∧
        ∀ k < u.segments.length, ¬∃ key, m.limiterStore.Registered (u.under k) method key
  allowed : ∀ (order : List String) (now : Int) (allow : String → Bool) (result : ValidateResult)
      (s' : LimiterStore),
    m.limiterStore.validate parse now order allow = (.returned result, s') →
    result.reason = "No rule match" → result.allowed = true ∧ s' = m.limiterStore

theorem validatesMostSpecific_of_coherent (coherent : m.limiterStore.Coherent) {u : RestUrl}
    (parses : parse.url u.base = some u.parsed) {method : String}
    (plainMethods : m.limiterStore.PlainMethods) (plain : ':' ∉ method.toList) :
    ValidatesMostSpecific parse m u slash method := by
  have hits (url : String) := @LimiterStore.Coherent.keysAt_rest_ne_empty m.limiterStore url method
    coherent plainMethods plain
  have keys (url key : String) := @LimiterStore.Coherent.mem_keysAt_rest m.limiterStore url method
    key coherent plainMethods plain
  have found := @LimiterStore.matched_rest m.limiterStore method parse u parses slash
  refine ⟨?_, ?_, ?_, ?_⟩
  · intro registered key
    rw [found, if_pos ((hits _).mpr registered), keys]
  · intro unregistered k below registered later key
    have first : (List.range u.segments.length).reverse.find? (fun k =>
        m.limiterStore.indices.rest.keysAt (indexForRest (u.under k) method) ≠ ∅) = some k := by
      rw [find?_reverse_range]
      refine ⟨below, decide_eq_true ((hits _).mpr registered), fun j above under => ?_⟩
      exact decide_eq_false fun hit => later j above under ((hits _).mp hit)
    rw [found, if_neg (mt (hits _).mp unregistered), first, Option.map_some, Option.getD_some, keys]
  · intro order enumerates now allow
    have empty : order = [] ↔ (¬∃ key, m.limiterStore.Registered (u.text slash) method key) ∧
        ∀ k < u.segments.length, ¬∃ key, m.limiterStore.Registered (u.under k) method key := by
      rw [← List.toFinset_eq_empty_iff, enumerates, found]
      by_cases registered : ∃ key, m.limiterStore.Registered (u.text slash) method key
      · rw [if_pos ((hits _).mpr registered)]
        exact iff_of_false ((hits _).mpr registered) fun none => none.1 registered
      · rw [if_neg (mt (hits _).mp registered), and_iff_right registered]
        cases first : (List.range u.segments.length).reverse.find? fun k =>
            m.limiterStore.indices.rest.keysAt (indexForRest (u.under k) method) ≠ ∅ with
        | none =>
          refine iff_of_true rfl fun k below owned => ?_
          exact List.find?_eq_none.mp first k (by simpa using below)
            (decide_eq_true ((hits _).mpr owned))
        | some k =>
          obtain ⟨below, hit, -⟩ := find?_reverse_range.mp first
          have nonempty := of_decide_eq_true hit
          exact iff_of_false nonempty fun none => none k below ((hits _).mp nonempty)
    rw [← empty]
    constructor
    · rintro ⟨result, s', validated, unmatched⟩
      exact LimiterStore.validate_reason validated unmatched
    · rintro rfl
      exact ⟨_, _, rfl, rfl⟩
  · intro order now allow result s' validated unmatched
    have empty := LimiterStore.validate_reason validated unmatched
    rw [LimiterStore.validate, if_pos empty] at validated
    cases validated
    exact ⟨rfl, rfl⟩

/-- In every state the manager reaches, REST requests are validated by the most specific rules. -/
theorem validatesMostSpecific_of_run {events : List Event}
    (reached : run (step compile parse) .new events = some m) {u : RestUrl}
    (parses : parse.url u.base = some u.parsed) {method : String}
    (plainMethods : m.limiterStore.PlainMethods) (plain : ':' ∉ method.toList) (slash : Bool) :
    ValidatesMostSpecific parse m u slash method :=
  validatesMostSpecific_of_coherent (coherent_of_run reached) parses plainMethods plain

/-- `https://pay/charge/visa`. -/
def visaUrl : RestUrl where
  scheme := "https"
  host := "pay"
  segments := ["charge".toList, "visa".toList]
  nonempty := by decide
  whole := by decide

/-- One rule for everything under `https://pay/charge`. -/
def chargeConfig : Config where
  option := .update
  name := "breaker"
  configHash := "a"
  trafficInterceptRules := []
  rateLimitings := [⟨"charge", [], [⟨"https://pay/charge/*", "POST"⟩], ⟨1, "1s", 1⟩, .forceOpened,
    none⟩]

theorem plainMethods_charge :
    (Manager.new.synced (fun _ => none) 0 chargeConfig).limiterStore.PlainMethods := by
  intro key rule ruled rest member
  have stored : (⟨key, rule⟩ : Σ _ : String, RateLimiting) ∈
      [⟨"breaker:charge", chargeConfig.rateLimitings[0]⟩] := AList.mem_lookup_iff.mp ruled
  obtain ⟨-, rfl⟩ := Sigma.mk.inj (List.mem_singleton.mp stored)
  obtain rfl := List.mem_singleton.mp member
  decide

theorem validatesMostSpecific_charge :
    ValidatesMostSpecific ⟨fun _ => some visaUrl.parsed, fun _ => 0⟩
      (Manager.new.synced (fun _ => none) 0 chargeConfig) visaUrl true "POST" :=
  @validatesMostSpecific_of_run (fun _ => none) ⟨fun _ => some visaUrl.parsed, fun _ => 0⟩ _
    [.sync 0 chargeConfig] rfl visaUrl rfl "POST" plainMethods_charge (by decide) true

end Manager

end CtrlMesh.CircuitBreaker
