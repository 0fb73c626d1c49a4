import CtrlMesh.CircuitBreaker.InterceptHistory

/-!
# The verdict on intercepted traffic and the order of maps

`ValidateTrafficIntercept` takes the first whitelist or blacklist rule it meets, first among the
rules found by their contents and then among those found by an expression. Both loops go over Go
maps, so rules of both types that match one request answer it differently from call to call.
-/

namespace CtrlMesh.CircuitBreaker

open Labels Lib

/-- What a rule of the type says of a request it matches. -/
def InterceptType.allows : InterceptType → Option Bool
  | .whitelist => some true
  | .blacklist => some false
  | .unnamed _ => none

theorem InterceptType.allows_eq_true {type : InterceptType} :
    type.allows = some true ↔ type = .whitelist := by
  cases type <;> simp [allows]

theorem InterceptType.allows_eq_false {type : InterceptType} :
    type.allows = some false ↔ type = .blacklist := by
  cases type <;> simp [allows]

/-- The rule is of the expression kind and one of its expressions matches the request. -/
def TrafficInterceptRule.MatchesRegexp (compile : Compile)
    (rule : TrafficInterceptRule) (url method : String) : Prop :=
  rule.contentType = .regexp ∧ method ∈ rule.methods ∧
    ∃ content ∈ rule.contents, ∃ language, compile content = some language ∧ language url = true

namespace TrafficInterceptStore

variable {compile : Compile} {s : TrafficInterceptStore}
  {live : String → TrafficInterceptRule → Prop} {url method key : String}

/-- A whitelist and a blacklist rule are among the rules found by their contents. -/
def ContentConflict (s : TrafficInterceptStore) (url method : String) : Prop :=
  ∃ key ∈ s.indexed url method, ∃ key' ∈ s.indexed url method, ∃ rule rule',
    s.rules.lookup key = some rule ∧ rule.interceptType = .whitelist ∧
    s.rules.lookup key' = some rule' ∧ rule'.interceptType = .blacklist

/-- No whitelist or blacklist rule is found by its contents, and one of each type that is indexed by
expressions matches. -/
def RegexpConflict (compile : Compile) (s : TrafficInterceptStore)
    (url method : String) : Prop :=
  (∀ key ∈ s.indexed url method, ∀ rule, s.rules.lookup key = some rule →
    rule.interceptType ≠ .whitelist ∧ rule.interceptType ≠ .blacklist) ∧
  ∃ key ∈ s.regexpIndexes, ∃ key' ∈ s.regexpIndexes, ∃ rule rule',
    s.rules.lookup key = some rule ∧ rule.interceptType = .whitelist ∧
      rule.MatchesRegexp compile url method ∧
    s.rules.lookup key' = some rule' ∧ rule'.interceptType = .blacklist ∧
      rule'.MatchesRegexp compile url method

/-- All orders of the maps allow the request, or none does. -/
def Determined (compile : Compile) (s : TrafficInterceptStore)
    (url method : String) : Prop :=
  ∀ result result', s.Answers compile url method result → s.Answers compile url method result' →
    result.allowed = result'.allowed

theorem allowed_normalAnswer :
    (s.normalAnswer key).map (·.allowed) =
      (s.rules.lookup key).bind (·.interceptType.allows) := by
  unfold normalAnswer
  cases s.rules.lookup key with
  | none => rfl
  | some rule =>
    simp only [Option.bind_some, normalVerdict]
    cases rule.interceptType <;> rfl

theorem allowed_regexpVerdict (key : String) (info : RegexpInfo) :
    (regexpVerdict key info).map (·.allowed) = info.regType.allows := by
  unfold regexpVerdict
  cases info.regType <;> rfl

variable {rule : TrafficInterceptRule} {allowed : Bool}

theorem mem_regexpInfos {info : RegexpInfo} :
    info ∈ rule.regexpInfos compile ↔ info.regType = rule.interceptType ∧
      info.method ∈ rule.methods ∧ info.reg ∈ rule.contents ∧ (compile info.reg).isSome := by
  simp only [TrafficInterceptRule.regexpInfos, List.mem_flatMap]
  constructor
  · rintro ⟨content, member, inside⟩
    split at inside
    · next compiles =>
      obtain ⟨method, isMethod, rfl⟩ := List.mem_map.mp inside
      exact ⟨rfl, isMethod, member, compiles⟩
    · cases inside
  · rintro ⟨type, isMethod, member, compiles⟩
    refine ⟨info.reg, member, ?_⟩
    rw [if_pos compiles]
    exact List.mem_map.mpr ⟨info.method, isMethod, by rw [← type]⟩

/-- Some expression of the rule hits the request if it matches. -/
theorem exists_hits_iff (regexp : rule.contentType = .regexp) :
    (∃ info ∈ rule.regexpInfos compile, info.hits compile url method = true) ↔
      rule.MatchesRegexp compile url method := by
  constructor
  · rintro ⟨info, member, hits⟩
    obtain ⟨-, isMethod, isContent, compiles⟩ := mem_regexpInfos.mp member
    obtain ⟨language, compiled⟩ := Option.isSome_iff_exists.mp compiles
    simp only [RegexpInfo.hits, compiled, Option.elim_some, Bool.and_eq_true, beq_iff_eq] at hits
    exact ⟨regexp, hits.1 ▸ isMethod, info.reg, isContent, language, compiled, hits.2⟩
  · rintro ⟨-, isMethod, content, isContent, language, compiled, hit⟩
    refine ⟨⟨content, rule.interceptType, method⟩, mem_regexpInfos.mpr ?_, ?_⟩
    · exact ⟨rfl, isMethod, isContent, by rw [compiled]; rfl⟩
    · simp [RegexpInfo.hits, compiled, hit]

/-- The expressions of one rule all answer by its type. -/
theorem Represents.allowed_regexpAnswer (represents : Represents compile s live) :
    (s.regexpAnswer compile url method key).map (·.allowed) = some allowed ↔
      key ∈ s.regexpIndexes ∧ ∃ rule, s.rules.lookup key = some rule ∧
        rule.interceptType.allows = some allowed ∧ rule.MatchesRegexp compile url method := by
  rw [← AList.lookup_isSome]
  unfold regexpAnswer
  cases found : s.regexpIndexes.lookup key with
  | none => simp
  | some infos =>
    obtain ⟨-, rule, isLive, regexp, same⟩ := (represents.regexp key infos).mp found
    have stored := represents.rules key rule isLive
    simp only [Option.getD_some, Option.isSome_some, true_and, stored, Option.some.injEq,
      exists_eq_left', ← exists_hits_iff regexp, same]
    have types : ∀ info ∈ infos, info.regType = rule.interceptType := fun info member =>
      (mem_regexpInfos.mp (same ▸ member)).1
    constructor
    · intro answered
      obtain ⟨result, first, isAllowed⟩ := Option.map_eq_some_iff.mp answered
      obtain ⟨info, member, answer⟩ := List.exists_of_findSome?_eq_some first
      split at answer
      · next hits =>
        have verdict := allowed_regexpVerdict key info
        rw [answer, Option.map_some, isAllowed, types info member] at verdict
        exact ⟨verdict.symm, info, member, hits⟩
      · cases answer
    · rintro ⟨allows, info, member, hits⟩
      cases first : infos.findSome? fun info =>
          if info.hits compile url method then regexpVerdict key info else none with
      | none =>
        have silent := List.findSome?_eq_none_iff.mp first info member
        have verdict := allowed_regexpVerdict key info
        rw [if_pos hits] at silent
        rw [silent, types info member, allows] at verdict
        cases verdict
      | some result =>
        obtain ⟨other, member', answer⟩ := List.exists_of_findSome?_eq_some first
        split at answer
        · have verdict := allowed_regexpVerdict key other
          rw [answer, types other member', allows] at verdict
          exact verdict
        · cases answer

/-- Rules found by their contents answer by their types. -/
theorem allowed_normalAnswer_iff :
    (s.normalAnswer key).map (·.allowed) = some allowed ↔
      ∃ rule, s.rules.lookup key = some rule ∧ rule.interceptType.allows = some allowed := by
  rw [allowed_normalAnswer, Option.bind_eq_some_iff]

theorem normalAnswer_eq_none_iff :
    s.normalAnswer key = none ↔ ∀ rule, s.rules.lookup key = some rule →
      rule.interceptType ≠ .whitelist ∧ rule.interceptType ≠ .blacklist := by
  unfold normalAnswer
  cases s.rules.lookup key with
  | none => simp
  | some rule =>
    simp only [Option.bind_some, Option.some.injEq, forall_eq', normalVerdict]
    cases rule.interceptType <;> simp

/-- Some key of the set answers that the request is allowed, and some that it is not. -/
def Split (keys : Finset String) (answer : String → Option ValidateResult) : Prop :=
  ∃ key ∈ keys, ∃ key' ∈ keys, (answer key).map (·.allowed) = some true ∧
    (answer key').map (·.allowed) = some false

theorem agree_iff_not_split (keys : Finset String) (answer : String → Option ValidateResult) :
    (∀ result result', (∃ key ∈ keys, answer key = some result) →
      (∃ key ∈ keys, answer key = some result') → result.allowed = result'.allowed) ↔
      ¬Split keys answer := by
  constructor
  · rintro agree ⟨key, member, key', member', white, black⟩
    obtain ⟨result, answered, allowed⟩ := Option.map_eq_some_iff.mp white
    obtain ⟨result', answered', denied⟩ := Option.map_eq_some_iff.mp black
    have same := agree result result' ⟨key, member, answered⟩ ⟨key', member', answered'⟩
    rw [allowed, denied] at same
    cases same
  · rintro whole result result' ⟨key, member, answered⟩ ⟨key', member', answered'⟩
    cases allowed : result.allowed with
    | true =>
      cases allowed' : result'.allowed with
      | true => rfl
      | false =>
        exact absurd ⟨key, member, key', member', by simp [answered, allowed],
          by simp [answered', allowed']⟩ whole
    | false =>
      cases allowed' : result'.allowed with
      | false => rfl
      | true =>
        exact absurd ⟨key', member', key, member, by simp [answered', allowed'],
          by simp [answered, allowed]⟩ whole

theorem not_split_of_none {keys : Finset String} {answer : String → Option ValidateResult}
    (silent : ∀ key ∈ keys, answer key = none) : ¬Split keys answer := by
  rintro ⟨key, member, -, -, white, -⟩
  rw [silent key member] at white
  cases white

theorem contentConflict_iff :
    s.ContentConflict url method ↔ Split (s.indexed url method) s.normalAnswer := by
  simp only [ContentConflict, Split, allowed_normalAnswer_iff, InterceptType.allows_eq_true,
    InterceptType.allows_eq_false]
  constructor
  · rintro ⟨key, member, key', member', rule, rule', stored, white, stored', black⟩
    exact ⟨key, member, key', member', ⟨rule, stored, white⟩, rule', stored', black⟩
  · rintro ⟨key, member, key', member', ⟨rule, stored, white⟩, rule', stored', black⟩
    exact ⟨key, member, key', member', rule, rule', stored, white, stored', black⟩

theorem Represents.regexpConflict_iff (represents : Represents compile s live) :
    s.RegexpConflict compile url method ↔
      (∀ key ∈ s.indexed url method, s.normalAnswer key = none) ∧
        Split s.regexpIndexes.keys.toFinset (s.regexpAnswer compile url method) := by
  simp only [RegexpConflict, Split, normalAnswer_eq_none_iff, represents.allowed_regexpAnswer,
    InterceptType.allows_eq_true, InterceptType.allows_eq_false, List.mem_toFinset,
    ← AList.mem_keys]
  refine and_congr_right fun _ => ⟨?_, ?_⟩
  · rintro ⟨key, member, key', member', rule, rule', stored, white, fits, stored', black, fits'⟩
    exact ⟨key, member, key', member', ⟨member, rule, stored, white, fits⟩, member', rule', stored',
      black, fits'⟩
  · rintro ⟨key, member, key', member', ⟨-, rule, stored, white, fits⟩, -, rule', stored', black,
      fits'⟩
    exact ⟨key, member, key', member', rule, rule', stored, white, fits, stored', black, fits'⟩

/-- The order of the maps decides exactly when rules of both types are in the loop that answers. -/
theorem Represents.determined_iff (represents : Represents compile s live) :
    s.Determined compile url method ↔
      ¬s.ContentConflict url method ∧ ¬s.RegexpConflict compile url method := by
  rw [contentConflict_iff, represents.regexpConflict_iff]
  simp only [Determined, answers_iff]
  by_cases quiet : ∀ key ∈ s.indexed url method, s.normalAnswer key = none
  · have unfound : ∀ result, ¬∃ key ∈ s.indexed url method, s.normalAnswer key = some result := by
      rintro result ⟨key, member, answered⟩
      rw [quiet key member] at answered
      cases answered
    rw [and_iff_right (not_split_of_none quiet), and_iff_right quiet]
    simp only [unfound, false_or, and_iff_right quiet]
    by_cases silent : ∀ key ∈ s.regexpIndexes.keys.toFinset,
        s.regexpAnswer compile url method key = none
    · have unmatched : ∀ result, ¬∃ key ∈ s.regexpIndexes.keys.toFinset,
          s.regexpAnswer compile url method key = some result := by
        rintro result ⟨key, member, answered⟩
        rw [silent key member] at answered
        cases answered
      refine iff_of_true ?_ (not_split_of_none silent)
      rintro result result' (found | ⟨-, rfl⟩) (found' | ⟨-, rfl⟩)
      · exact absurd found (unmatched result)
      · exact absurd found (unmatched result)
      · exact absurd found' (unmatched result')
      · rfl
    · rw [← agree_iff_not_split]
      simp only [silent, false_and, or_false]
  · simp only [quiet, false_and, or_false]
    rw [agree_iff_not_split]
    exact (and_iff_left not_false).symm

end TrafficInterceptStore

section History

variable (compile : Compile)

/-- The indexes are those of some registered rules. -/
def TrafficInterceptStore.Indexed (s : TrafficInterceptStore) : Prop :=
  ∃ live, TrafficInterceptStore.Represents compile s live

/-- Whatever the configurations are named, the indexes are those of some registered rules. -/
theorem indexed_runSync {history : List (Int × Config)} :
    (runSync compile history).trafficInterceptStore.Indexed compile := by
  have keeps : ∀ (m : Manager) (now : Int) (config : Config),
      m.trafficInterceptStore.Indexed compile →
      (m.synced compile now config).trafficInterceptStore.Indexed compile := by
    intro m now config indexed
    refine @Manager.trafficInterceptStore_synced m compile (·.Indexed compile) ?_ ?_ indexed now _
    · exact fun s key rule ⟨live, represents⟩ => ⟨_, represents.createOrUpdateRule key rule⟩
    · exact fun s key ⟨live, represents⟩ => ⟨_, represents.deleteRule key⟩
  have all : ∀ m : Manager, m.trafficInterceptStore.Indexed compile →
      (history.foldl (fun m call => m.synced compile call.1 call.2) m).trafficInterceptStore.Indexed
        compile := by
    induction history with
    | nil => exact fun m indexed => indexed
    | cons call history ih => exact fun m indexed => ih _ (keeps m call.1 call.2 indexed)
  exact all .new ⟨_, TrafficInterceptStore.represents_new⟩

/-- After every history the verdict on a request is the same in every order exactly when no
whitelist rule competes with a blacklist rule. -/
theorem determined_runSync_iff (history : List (Int × Config)) (url method : String) :
    (runSync compile history).trafficInterceptStore.Determined compile url method ↔
      ¬(runSync compile history).trafficInterceptStore.ContentConflict url method ∧
        ¬(runSync compile history).trafficInterceptStore.RegexpConflict compile url method := by
  obtain ⟨live, represents⟩ := indexed_runSync compile
  exact represents.determined_iff

/-- A configuration with a whitelist and a blacklist rule for one request. -/
def bothLists : Config where
  option := .update
  name := "breaker"
  configHash := "hash"
  trafficInterceptRules := [
    ⟨"allow", .whitelist, .normal, ["https://example"], ["GET"]⟩,
    ⟨"deny", .blacklist, .normal, ["https://example"], ["GET"]⟩]
  rateLimitings := []

/-- The request is allowed if the whitelist rule is met first, and denied otherwise. -/
theorem intercept_depends_on_order :
    ¬∀ (compile : Compile) (history : List (Int × Config))
      (url method : String),
      (runSync compile history).trafficInterceptStore.Determined compile url method := by
  intro determined
  have same := determined (fun _ => none) [(0, bothLists)] "https://example" "GET"
  have first : (runSync (fun _ => none) [(0, bothLists)]).trafficInterceptStore.Answers
      (fun _ => none) "https://example" "GET" ⟨true, "Whitelist",
        "Traffic is allow by whitelist rule, name: allow"⟩ :=
    ⟨["breaker:allow", "breaker:deny"], [], by decide, by decide, by decide, by decide, by decide⟩
  have second : (runSync (fun _ => none) [(0, bothLists)]).trafficInterceptStore.Answers
      (fun _ => none) "https://example" "GET" ⟨false, "Blacklist",
        "Traffic is intercept by blacklist rule, name: deny"⟩ :=
    ⟨["breaker:deny", "breaker:allow"], [], by decide, by decide, by decide, by decide, by decide⟩
  cases same _ _ first second

end History

end CtrlMesh.CircuitBreaker
