import CtrlMesh.CircuitBreaker.Proto

/-!
# Fault-injection configurations

The messages of `faultinjection.proto`. A repeated field has no nil elements once a message has been
read from the wire; a message field may be nil. Durations are nanoseconds. Rules are stored under
the same keys as those of circuit breakers.
-/

namespace CtrlMesh.FaultInjection

/-- A double that holds a percentage. -/
inductive Percent where
  | finite (value : Rat)
  | negativeZero
  | infinite (negative : Bool)
  | nan
  deriving DecidableEq

/-- `HTTPFaultInjection.Delay`. -/
structure Delay where
  percent : Percent
  fixedDelay : Option Int
  deriving DecidableEq

/-- The `oneof` of an abort. -/
inductive ErrorType where
  | httpStatus (status : Int32)
  | grpcStatus (status : String)
  | http2Error (error : String)
  deriving DecidableEq

/-- `HTTPFaultInjection.Abort`. -/
structure Abort where
  percent : Percent
  errorType : Option ErrorType
  deriving DecidableEq

/-- `MatchContent`. -/
structure MatchContent where
  exact : String
  regex : String
  deriving DecidableEq

/-- `HttpHeader`. -/
structure HttpHeader where
  name : String
  value : String
  deriving DecidableEq

/-- `HttpMatch`. -/
structure HttpMatch where
  host : Option MatchContent
  path : Option MatchContent
  method : String
  headers : List HttpHeader
  deriving DecidableEq

/-- `ResourceMatch`. -/
structure ResourceMatch where
  apiGroups : List String
  namespaces : List String
  resources : List String
  verbs : List String
  deriving DecidableEq

/-- `Match`. -/
structure Match where
  resources : List ResourceMatch
  httpMatch : List HttpMatch
  deriving DecidableEq

/-- `EffectiveTimeRange` of the protocol. -/
structure EffectiveTimeRange where
  startTime : String
  endTime : String
  daysOfWeek : List Int32
  daysOfMonth : List Int32
  months : List Int32
  deriving DecidableEq

/-- A rule. -/
structure HTTPFaultInjection where
  delay : Option Delay
  abort : Option Abort
  match_ : Option Match
  name : String
  effectiveTime : Option EffectiveTimeRange
  deriving DecidableEq

/-- `FaultInjection.Option`. -/
inductive SyncOption where
  | update
  | delete
  | check
  | recover
  | unnamed (value : Int)
  deriving DecidableEq

/-- The text of an option. -/
def SyncOption.text : SyncOption → String
  | .update => "UPDATE"
  | .delete => "DELETE"
  | .check => "CHECK"
  | .recover => "RECOVER"
  | .unnamed value => toString value

/-- `ctrlmeshproto.FaultInjection`. -/
structure Config where
  httpFaultInjections : List HTTPFaultInjection
  option : SyncOption
  configHash : String
  name : String
  deriving DecidableEq

/-- `FaultInjectConfigResp`. -/
structure ConfigResp where
  success : Bool
  message : String
  deriving DecidableEq

end CtrlMesh.FaultInjection
