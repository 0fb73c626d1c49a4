import CtrlMesh.CircuitBreaker.Proto

/-!
# From CircuitBreaker objects to configurations

The rules of a CircuitBreaker as the API type has them, and `conv.go`, which writes them as messages
for the proxies. The API's enumerations are strings; one without a name leaves the zero value of the
message's enumeration in its place. `hash` stands for the MD5 sum of the JSON text of the message a
CircuitBreaker is written as. The properties of a limiting only matter for it: the model's messages
leave them out.
-/

namespace CtrlMesh.CircuitBreaker

open Labels

namespace Spec

/-- `TriggerPolicy` of the API. -/
inductive TriggerPolicy where
  | normal
  | limiterOnly
  | forceOpened
  | forceClosed
  | other (text : String)
  deriving DecidableEq

/-- `RecoverType` of the API. -/
inductive RecoverType where
  | manual
  | sleepingWindow
  | other (text : String)
  deriving DecidableEq

/-- `InterceptType` of the API. -/
inductive InterceptType where
  | whitelist
  | blacklist
  | other (text : String)
  deriving DecidableEq

/-- `ContentType` of the API. -/
inductive ContentType where
  | normal
  | regexp
  | other (text : String)
  deriving DecidableEq

/-- `RecoverPolicy` of the API. -/
structure RecoverPolicy where
  recoverType : RecoverType
  sleepingWindowSize : Option String
  deriving DecidableEq

/-- `Limiting`. The types of its resource rules, rest rules and bucket have the fields of the
messages. -/
structure Limiting where
  name : String
  resourceRules : List ResourceRule
  restRules : List RestRule
  bucket : Bucket
  triggerPolicy : TriggerPolicy
  recoverPolicy : Option RecoverPolicy
  properties : StringMap String
  deriving DecidableEq

/-- `TrafficInterceptRule` of the API. -/
structure TrafficInterceptRule where
  name : String
  interceptType : InterceptType
  contentType : ContentType
  contents : List String
  methods : List String
  deriving DecidableEq

/-- `CircuitBreaker`: its name and the rules of its specification. -/
structure Breaker where
  name : String
  trafficInterceptRules : List TrafficInterceptRule
  rateLimitings : List Limiting
  deriving DecidableEq

end Spec

/-- `ConvertTrafficInterceptRule`. -/
def convertTrafficInterceptRule (rule : Spec.TrafficInterceptRule) : TrafficInterceptRule where
  name := rule.name
  interceptType := match rule.interceptType with
    | .whitelist | .other _ => .whitelist
    | .blacklist => .blacklist
  contentType := match rule.contentType with
    | .regexp => .regexp
    | .normal | .other _ => .normal
  contents := rule.contents
  methods := rule.methods

/-- The recover policy `ConvertLimiting` writes for one that is there. -/
def convertRecoverPolicy (policy : Spec.RecoverPolicy) : RecoverPolicy where
  type := match policy.recoverType with
    | .manual | .other _ => .manual
    | .sleepingWindow => .sleepingWindow
  sleepingWindowSize := policy.sleepingWindowSize.getD ""

/-- `ConvertLimiting`, with `ConvertResourceRule`, which copies its lists. -/
def convertLimiting (limit : Spec.Limiting) : RateLimiting where
  name := limit.name
  resourceRules := limit.resourceRules
  restRules := limit.restRules
  bucket := limit.bucket
  triggerPolicy := match limit.triggerPolicy with
    | .limiterOnly => .limiterOnly
    | .normal | .other _ => .normal
    | .forceClosed => .forceClosed
    | .forceOpened => .forceOpened
  recoverPolicy := limit.recoverPolicy.map convertRecoverPolicy

/-- `ConvertCircuitBreaker`: the option is left at its zero value. -/
def convertCircuitBreaker (hash : Spec.Breaker → String) (breaker : Spec.Breaker) : Config where
  option := .delete
  name := breaker.name
  configHash := hash breaker
  trafficInterceptRules := breaker.trafficInterceptRules.map convertTrafficInterceptRule
  rateLimitings := breaker.rateLimitings.map convertLimiting

end CtrlMesh.CircuitBreaker
