import CtrlMesh.Labels.Selector

/-!
# Circuit-breaker configurations

The messages of `throttling.proto`. A Go enumeration is an integer: a value without a name is the
last constructor of its type. Fields no modelled function reads (the validate policy and the
properties of a rate limiting) are left out. Times are nanoseconds.
-/

namespace CtrlMesh

/-- `regexp.Compile`: the strings that an expression matches. -/
abbrev Compile := String → Option (String → Bool)

end CtrlMesh

namespace CtrlMesh.CircuitBreaker

/-- `TrafficInterceptRule.InterceptType`. -/
inductive InterceptType where
  | whitelist
  | blacklist
  | unnamed (value : Int)
  deriving DecidableEq

/-- `TrafficInterceptRule.ContentType`. -/
inductive ContentType where
  | normal
  | regexp
  | unnamed (value : Int)
  deriving DecidableEq

/-- `TrafficInterceptRule`. -/
structure TrafficInterceptRule where
  name : String
  interceptType : InterceptType
  contentType : ContentType
  contents : List String
  methods : List String
  deriving DecidableEq

/-- `ResourceRule`. -/
structure ResourceRule where
  apiGroups : List String
  resources : List String
  verbs : List String
  namespaces : List String
  deriving DecidableEq

/-- `RestRule`. -/
structure RestRule where
  url : String
  method : String
  deriving DecidableEq

/-- `Bucket` of a limiter. -/
structure Bucket where
  burst : UInt32
  interval : String
  limit : UInt32
  deriving DecidableEq

/-- `RateLimiting.TriggerPolicy`. -/
inductive TriggerPolicy where
  | normal
  | limiterOnly
  | forceOpened
  | forceClosed
  | unnamed (value : Int)
  deriving DecidableEq

/-- `RateLimiting.RecoverType`. -/
inductive RecoverType where
  | manual
  | sleepingWindow
  | unnamed (value : Int)
  deriving DecidableEq

/-- `RateLimiting.RecoverPolicy`. -/
structure RecoverPolicy where
  type : RecoverType
  sleepingWindowSize : String
  deriving DecidableEq

/-- The bucket is a pointer in Go that the conversion from the API object always sets; the recover
policy may be nil. -/
structure RateLimiting where
  name : String
  resourceRules : List ResourceRule
  restRules : List RestRule
  bucket : Bucket
  triggerPolicy : TriggerPolicy
  recoverPolicy : Option RecoverPolicy
  deriving DecidableEq

/-- `CircuitBreaker.Option`. -/
inductive SyncOption where
  | delete
  | update
  | check
  | recover
  | unnamed (value : Int)
  deriving DecidableEq

/-- `ctrlmeshproto.CircuitBreaker`. -/
structure Config where
  option : SyncOption
  name : String
  configHash : String
  trafficInterceptRules : List TrafficInterceptRule
  rateLimitings : List RateLimiting
  deriving DecidableEq

/-- `BreakerState`. -/
inductive BreakerState where
  | opened
  | closed
  deriving DecidableEq

/-- `LimitingSnapshot` of the protocol. -/
structure LimitingSnapshot where
  limitingName : String
  state : BreakerState
  recoverTime : Option Int
  lastTransitionTime : Option Int
  deriving DecidableEq

/-- `ConfigResp`: the answer of `Sync`. -/
structure ConfigResp where
  success : Bool
  message : String
  limitingSnapshot : List LimitingSnapshot
  deriving DecidableEq

/-- The key of a rule: the names of its configuration and its own, joined by a colon. -/
def ruleKey (config rule : String) : String := config ++ ":" ++ rule

/-- A list is cut at the first occurrence of a mark in one way only. -/
theorem append_mark_inj {mark : Char} {left right rest rest' : List Char} (plain : mark ∉ left)
    (plain' : mark ∉ right) (same : left ++ mark :: rest = right ++ mark :: rest') :
    left = right ∧ rest = rest' := by
  induction left generalizing right with
  | nil =>
    cases right with
    | nil => exact ⟨rfl, (List.cons.inj same).2⟩
    | cons c right =>
      have hit : mark = c := (List.cons.inj same).1
      exact absurd (hit ▸ List.mem_cons_self) plain'
  | cons c left ih =>
    cases right with
    | nil =>
      have hit : c = mark := (List.cons.inj same).1
      exact absurd (hit ▸ List.mem_cons_self) plain
    | cons d right =>
      obtain ⟨head, tail⟩ := List.cons.inj same
      obtain ⟨lefts, rests⟩ := ih (fun h => plain (List.mem_cons_of_mem c h))
        (fun h => plain' (List.mem_cons_of_mem d h)) tail
      exact ⟨by rw [head, lefts], rests⟩

/-- Names without a colon make keys unambiguous. -/
theorem ruleKey_inj {left right rule rule' : String} (plain : ':' ∉ left.toList)
    (plain' : ':' ∉ right.toList) (same : ruleKey left rule = ruleKey right rule') :
    left = right ∧ rule = rule' := by
  have chars := congrArg String.toList same
  simp only [ruleKey, String.toList_append] at chars
  have colon : ":".toList = [':'] := by decide
  rw [colon, List.append_assoc, List.append_assoc, List.singleton_append,
    List.singleton_append] at chars
  obtain ⟨heads, tails⟩ := append_mark_inj plain plain' chars
  exact ⟨String.toList_injective heads, String.toList_injective tails⟩

end CtrlMesh.CircuitBreaker
