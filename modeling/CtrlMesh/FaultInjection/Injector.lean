import CtrlMesh.FaultInjection.EffectiveTime
import CtrlMesh.FaultInjection.Manager
import CtrlMesh.Proxy.TProxy
import Mathlib.Algebra.Order.Ring.Rat

/-!
# The injector of a request

`getInjector` of `manager.go` goes through the rules that match a request and collects what they
inject, and `Do` of `injector.go` carries it out. Every rule comes with what is read for it: the
clock, and the numbers drawn for its delay and its abort. The first abort that is drawn is kept,
whatever its status; `Do` looks at the status only. A percentage of zero is drawn always.
-/

namespace CtrlMesh.FaultInjection

open Labels

/-- What `randNum.Float64() * 100` can be. -/
structure Draw where
  value : Rat
  nonneg : 0 ≤ value
  below : value < 100

/-- No comparison holds of a NaN, and both zeros are equal to zero. -/
def isInPercentRange (value : Percent) (draw : Draw) : Bool :=
  match value with
  | .nan => false
  | .infinite _ => false
  | .negativeZero => true
  | .finite value =>
    if value < 0 ∨ value > 100 then false
    else if value = 0 then true
    else draw.value < value

/-- What is read for a rule. -/
structure Reading where
  now : Now
  delay : Draw
  abort : Draw

/-- `abortWithDelayInjector`. -/
structure AbortWithDelayInjector where
  abort : Bool := false
  delay : Int64 := 0
  code : Int := 0
  message : String := ""

namespace AbortWithDelayInjector

/-- `AddDelay`. -/
def addDelay (injector : AbortWithDelayInjector) (d : Int64) : AbortWithDelayInjector :=
  { injector with delay := injector.delay + d }

/-- `AddAbort`. -/
def addAbort (injector : AbortWithDelayInjector) (code : Int) (message : String) :
    AbortWithDelayInjector :=
  { injector with abort := true, code, message }

end AbortWithDelayInjector

/-- `GetFixedDelay().AsDuration()`: a nil duration is zero, one that does not fit is cut to the
largest or the smallest. -/
def asDuration : Option Int → Int64
  | none => 0
  | some nanoseconds => Int64.ofInt (max (-2 ^ 63) (min (2 ^ 63 - 1) nanoseconds))

/-- `GetHttpStatus`. -/
def Abort.getHttpStatus (abort : Abort) : Int32 :=
  match abort.errorType with
  | some (.httpStatus status) => status
  | _ => 0

/-- Whether the rule is in its time range. -/
def HTTPFaultInjection.isEffective (rule : HTTPFaultInjection) (now : Now) : Bool :=
  match rule.effectiveTime with
  | none => true
  | some timeRange => isEffectiveTimeRange timeRange now

/-- The message of an abort. -/
def abortMessage (name : String) : String :=
  "the fault injection is triggered. Limiting rule name: " ++ name

namespace AbortWithDelayInjector

variable (injector : AbortWithDelayInjector) (rule : HTTPFaultInjection) (reading : Reading)

/-- The delay of an effective rule. -/
def visitDelay : AbortWithDelayInjector :=
  match rule.delay with
  | none => injector
  | some delay =>
    if isInPercentRange delay.percent reading.delay then
      injector.addDelay (asDuration delay.fixedDelay)
    else injector

/-- The abort of an effective rule; no number is drawn if there was one before. -/
def visitAbort : AbortWithDelayInjector :=
  match rule.abort with
  | none => injector
  | some abort =>
    if !injector.abort && isInPercentRange abort.percent reading.abort then
      injector.addAbort abort.getHttpStatus.toInt (abortMessage rule.name)
    else injector

/-- The body of the loop of `getInjector`. -/
def visit : AbortWithDelayInjector :=
  if !rule.isEffective reading.now then injector
  else (injector.visitDelay rule reading).visitAbort rule reading

end AbortWithDelayInjector

/-- The injector of some rules. -/
def getInjector (rules : List (HTTPFaultInjection × Reading)) : AbortWithDelayInjector :=
  rules.foldl (fun injector entry => injector.visit entry.1 entry.2) {}

/-- `metav1.Status`. -/
structure APIStatus where
  status : String
  code : Int32
  reason : String
  message : String
  deriving DecidableEq

/-- The status, the reason and the message for a code; `quote` is the verb `%q`. -/
def statusTexts (quote : String → String) (code : Int) (verb serverMessage : String) :
    String × String × String :=
  match code with
  | 200 => ("Success", "", "code is 200")
  | 409 => ("Failure", if verb = "POST" then "AlreadyExists" else "Conflict",
      "the server reported a conflict")
  | 404 => ("Failure", "NotFound", "the server could not find the requested resource")
  | 400 => ("Failure", "BadRequest", "the server rejected our request for an unknown reason")
  | 401 => ("Failure", "Unauthorized",
      "the server has asked for the client to provide credentials")
  | 403 => ("Failure", "Forbidden", serverMessage)
  | 406 => ("Failure", "NotAcceptable",
      if serverMessage = "" ∨ serverMessage = "unknown" then
        "the server was unable to respond with a content type that the client supports"
      else serverMessage)
  | 415 => ("Failure", "UnsupportedMediaType", serverMessage)
  | 405 => ("Failure", "MethodNotAllowed",
      "the server does not allow this method on the requested resource")
  | 422 => ("Failure", "Invalid",
      "the server rejected our request due to an error in our request")
  | 503 => ("Failure", "ServiceUnavailable",
      "the server is currently unable to handle the request")
  | 504 => ("Failure", "Timeout", "the server was unable to return a response in the time " ++
      "allotted, but may still be processing the request")
  | 429 => ("Failure", "TooManyRequests",
      "the server has received too many requests and has asked us to try again later")
  | code =>
    if code ≥ 500 then ("Failure", "InternalError", "an error on the server (" ++
      quote serverMessage ++ ") has prevented the request from succeeding")
    else ("Failure", "", "")

/-- `HttpToAPIError`. -/
def httpToAPIError (quote : String → String) (code : Int) (verb serverMessage : String) :
    APIStatus :=
  let (status, reason, message) := statusTexts quote code verb serverMessage
  ⟨status, Int32.ofInt code, reason, "FaultInjected, [" ++ message ++ "]"⟩

/-- What `Do` does before it returns: how long it waits, whether it aborts, and the code and the
error it writes. -/
structure Done where
  waited : Int64
  abort : Bool
  written : Option (Int × APIStatus)
  deriving DecidableEq

/-- `Do`. `WriteHeader` panics on a code that does not have three digits. -/
def AbortWithDelayInjector.do_ (quote : String → String) (injector : AbortWithDelayInjector)
    (method : String) : Option Done :=
  if injector.code ≠ 200 ∧ injector.code ≠ 0 then
    if injector.code < 100 ∨ injector.code > 999 then none
    else some ⟨injector.delay, true, some (injector.code,
      httpToAPIError quote injector.code method injector.message)⟩
  else some ⟨injector.delay, false, none⟩

/-- The injector returns that it has aborted the request. -/
def AbortWithDelayInjector.Stops (quote : String → String) (injector : AbortWithDelayInjector)
    (method : String) : Prop :=
  ∃ done, injector.do_ quote method = some done ∧ done.abort = true

/-- A loop over the rules of a map meets them in some order and reads the clock and draws for
each. -/
structure Loop where
  order : List HTTPFaultInjection → List HTTPFaultInjection
  perm : ∀ rules, (order rules).Perm rules
  reading : Nat → Reading

/-- The rules as the loop meets them. -/
def Loop.entries (loop : Loop) (rules : List HTTPFaultInjection) :
    List (HTTPFaultInjection × Reading) :=
  (loop.order rules).mapIdx fun idx rule => (rule, loop.reading idx)

namespace Manager

variable (m : Manager) (loop : Loop)

/-- `GetInjectorByUrl`. -/
def getInjectorByUrl (url : URL) (method : String) : AbortWithDelayInjector :=
  getInjector (loop.entries (m.matchHTTPFaultInjection url method))

/-- `GetInjectorByResource`. -/
def getInjectorByResource (ns apiGroup resource verb : String) : AbortWithDelayInjector :=
  getInjector (loop.entries (m.matchResourceFaultInjection ns apiGroup resource verb))

/-- `withFaultInjection`, for a request with its `RequestInfo`: whether the next handler is called,
if `Do` returns. -/
def withFaultInjection (quote : String → String) (ns apiGroup resource verb method : String) :
    Option Bool :=
  ((m.getInjectorByResource loop ns apiGroup resource verb).do_ quote method).map (!·.abort)

end Manager

/-- The two faults of a rule. -/
inductive Fault where
  | delay
  | abort
  deriving DecidableEq

variable {fault : Fault} {value : Rat} {rules : List (HTTPFaultInjection × Reading)}

namespace Fault

/-- The percentage of the fault, if the rule has it. -/
def percent : Fault → HTTPFaultInjection → Option Percent
  | delay, rule => rule.delay.map (·.percent)
  | abort, rule => rule.abort.map (·.percent)

/-- The number that is drawn for the fault. -/
def draw : Fault → Reading → Draw
  | delay, reading => reading.delay
  | abort, reading => reading.abort

/-- The rule with another percentage for the fault, if it has it. -/
def setPercent (value : Rat) : Fault → HTTPFaultInjection → HTTPFaultInjection
  | delay, rule => { rule with delay := rule.delay.map ({ · with percent := .finite value }) }
  | abort, rule => { rule with abort := rule.abort.map ({ · with percent := .finite value }) }

/-- An abort is looked at only if there is none. -/
def open_ : Fault → AbortWithDelayInjector → Bool
  | delay, _ => true
  | abort, injector => !injector.abort

@[simp]
theorem percent_setPercent (rule : HTTPFaultInjection) :
    fault.percent (fault.setPercent value rule) =
      (fault.percent rule).map fun _ => .finite value := by
  cases fault with
  | delay => simp [percent, setPercent, Function.comp_def]
  | abort => simp [percent, setPercent, Function.comp_def]

@[simp]
theorem isEffective_setPercent (rule : HTTPFaultInjection) (now : Now) :
    (fault.setPercent value rule).isEffective now = rule.isEffective now := by
  cases fault with
  | delay => rfl
  | abort => rfl

end Fault

namespace AbortWithDelayInjector

/-- The rule's fault is added to the injector. -/
def injects (injector : AbortWithDelayInjector) (fault : Fault) (rule : HTTPFaultInjection)
    (reading : Reading) : Bool :=
  rule.isEffective reading.now && fault.open_ injector &&
    (fault.percent rule).any (isInPercentRange · (fault.draw reading))

variable (injector : AbortWithDelayInjector) (rule : HTTPFaultInjection) (reading : Reading)

@[simp]
theorem abort_visitDelay : (injector.visitDelay rule reading).abort = injector.abort := by
  unfold visitDelay
  split
  · rfl
  · split
    · rfl
    · rfl

/-- A rule adds the delay and the abort it injects, and nothing else. -/
theorem visit_eq : injector.visit rule reading =
    let delayed :=
      if injector.injects .delay rule reading then
        injector.addDelay (asDuration (rule.delay.bind (·.fixedDelay)))
      else injector
    if injector.injects .abort rule reading then
      delayed.addAbort ((rule.abort.map Abort.getHttpStatus).getD 0).toInt (abortMessage rule.name)
    else delayed := by
  unfold visit injects
  cases rule.isEffective reading.now with
  | false => rfl
  | true =>
    have delays : injector.visitDelay rule reading =
        if (Fault.percent .delay rule).any (isInPercentRange · reading.delay) then
          injector.addDelay (asDuration (rule.delay.bind (·.fixedDelay)))
        else injector := by
      cases given : rule.delay with
      | none => simp [visitDelay, Fault.percent, given]
      | some delay => simp [visitDelay, Fault.percent, given]
    have aborts : (injector.visitDelay rule reading).visitAbort rule reading =
        if !injector.abort &&
            (Fault.percent .abort rule).any (isInPercentRange · reading.abort) then
          (injector.visitDelay rule reading).addAbort
            ((rule.abort.map Abort.getHttpStatus).getD 0).toInt (abortMessage rule.name)
        else injector.visitDelay rule reading := by
      cases given : rule.abort with
      | none => simp [visitAbort, Fault.percent, given]
      | some abort => simp [visitAbort, Fault.percent, given]
    rw [delays] at aborts
    simpa [Fault.open_, Fault.draw, delays] using aborts

theorem abort_visit : (injector.visit rule reading).abort =
    (injector.abort || injector.injects .abort rule reading) := by
  rw [visit_eq]
  cases injector.injects .abort rule reading with
  | true => simp [addAbort]
  | false =>
    cases injector.injects .delay rule reading with
    | true => simp [addDelay]
    | false => simp

theorem code_visit : (injector.visit rule reading).code =
    if injector.injects .abort rule reading then
      ((rule.abort.map Abort.getHttpStatus).getD 0).toInt
    else injector.code := by
  rw [visit_eq]
  cases injector.injects .abort rule reading with
  | true => rfl
  | false =>
    cases injector.injects .delay rule reading with
    | true => rfl
    | false => rfl

end AbortWithDelayInjector

theorem isInPercentRange_zero {draw : Draw} : isInPercentRange (.finite 0) draw = true := by
  have inside : ¬((0 : Rat) < 0 ∨ (0 : Rat) > 100) := by decide
  simp only [isInPercentRange, inside, if_false, if_true]

theorem isInPercentRange_pos {value : Rat} (pos : 0 < value) (most : value ≤ 100) {draw : Draw} :
    isInPercentRange (.finite value) draw = true ↔ draw.value < value := by
  have inside : ¬(value < 0 ∨ value > 100) := by
    rintro (low | high)
    · exact absurd low pos.le.not_gt
    · exact absurd high most.not_gt
  simp [isInPercentRange, inside, pos.ne']

/-- Of two rules that differ only in the percentage of the fault, the one with `q` injects it if the
one with `p` does; a percentage of zero never does. -/
structure PercentLaw (fault : Fault) (p q : Rat) (injector : AbortWithDelayInjector)
    (rule : HTTPFaultInjection) (reading : Reading) : Prop where
  monotone : injector.injects fault (fault.setPercent p rule) reading = true →
    injector.injects fault (fault.setPercent q rule) reading = true
  zero : ∀ value ∈ [p, q], value = 0 →
    injector.injects fault (fault.setPercent value rule) reading = false

/-- The rule is effective and has the fault, and the fault is still looked at. -/
def Applies (fault : Fault) (injector : AbortWithDelayInjector) (rule : HTTPFaultInjection)
    (now : Now) : Prop :=
  rule.isEffective now = true ∧ fault.open_ injector = true ∧ (fault.percent rule).isSome = true

theorem injects_setPercent_iff {injector : AbortWithDelayInjector} {rule : HTTPFaultInjection}
    {reading : Reading} :
    injector.injects fault (fault.setPercent value rule) reading = true ↔
      Applies fault injector rule reading.now ∧
        isInPercentRange (.finite value) (fault.draw reading) = true := by
  unfold AbortWithDelayInjector.injects Applies
  rw [Fault.percent_setPercent, Fault.isEffective_setPercent]
  cases fault.percent rule with
  | none => simp
  | some percent => simp [and_assoc]

/-- The percentages of a fault are monotone and zero does not inject, for every rule that
`getInjector` comes to after others, exactly if the smaller one is not zero where the fault
applies. -/
theorem percentLaw_iff {p q : Rat} (nonneg : 0 ≤ p) (le : p ≤ q) (most : q ≤ 100) (fault : Fault)
    (before : List (HTTPFaultInjection × Reading)) (rule : HTTPFaultInjection) (reading : Reading) :
    PercentLaw fault p q (getInjector before) rule reading ↔
      (Applies fault (getInjector before) rule reading.now → p ≠ 0) := by
  constructor
  · -- a percentage of zero is in range before anything is drawn
    rintro law applies rfl
    have quiet := law.zero 0 List.mem_cons_self rfl
    have injected := injects_setPercent_iff.mpr ⟨applies, isInPercentRange_zero⟩
    rw [quiet] at injected
    cases injected
  · intro positive
    constructor
    · intro injected
      rw [injects_setPercent_iff] at injected ⊢
      obtain ⟨applies, drawn⟩ := injected
      have pos : 0 < p := lt_of_le_of_ne nonneg (positive applies).symm
      rw [isInPercentRange_pos pos (le.trans most)] at drawn
      exact ⟨applies, (isInPercentRange_pos (pos.trans_le le) most).mpr (drawn.trans_le le)⟩
    · intro value member zero
      rw [← Bool.not_eq_true, injects_setPercent_iff]
      rintro ⟨applies, -⟩
      -- between the percentages, zero can only be the smaller one
      have pos : 0 < p := lt_of_le_of_ne nonneg (positive applies).symm
      simp only [List.mem_cons, List.not_mem_nil, or_false] at member
      rcases member with rfl | rfl
      · exact pos.ne' zero
      · exact (pos.trans_le le).ne' zero

/-- A rule without times of its own that only delays, with the percentage of an unset field. -/
def delayRule : HTTPFaultInjection :=
  ⟨some ⟨.finite 0, some 1000000000⟩, none, none, "slow", none⟩

/-- Fifty is drawn. -/
def fifty : Draw :=
  ⟨50, by decide, by decide⟩

/-- A reading at noon. -/
def noon : Reading :=
  ⟨⟨⟨12, 0, 0⟩, 0, 1, 1⟩, fifty, fifty⟩

/-- The law holds of forty and sixty. -/
theorem percentLaw_sixty :
    (0 : Rat) ≤ 40 ∧ PercentLaw .delay 40 60 (getInjector []) delayRule noon :=
  ⟨by decide, (percentLaw_iff (by decide) (by decide) (by decide) .delay [] delayRule noon).mpr
    fun _ => by decide⟩

/-- A delay is injected if its percentage is left out, and not if it is forty. -/
theorem zero_percent_injects :
    ¬∀ (p q : Rat) (fault : Fault) (before : List (HTTPFaultInjection × Reading))
      (rule : HTTPFaultInjection) (reading : Reading), 0 ≤ p → p ≤ q → q ≤ 100 →
      PercentLaw fault p q (getInjector before) rule reading := by
  intro laws
  have law := laws 0 40 .delay [] delayRule noon (by decide) (by decide) (by decide)
  have injected := law.monotone (by decide)
  revert injected
  decide

/-- The status of the abort that the rule has, is effective for and is drawn for. -/
def drawnStatus (entry : HTTPFaultInjection × Reading) : Option Int32 :=
  if entry.1.isEffective entry.2.now then
    entry.1.abort.bind fun abort =>
      if isInPercentRange abort.percent entry.2.abort then some abort.getHttpStatus else none
  else none

section Aborts

variable {injector : AbortWithDelayInjector} {quote : String → String} {method : String}

/-- An abort is kept. -/
theorem visit_of_abort (aborted : injector.abort = true) {rule : HTTPFaultInjection}
    {reading : Reading} : (injector.visit rule reading).abort = true ∧
      (injector.visit rule reading).code = injector.code := by
  have closed : injector.injects .abort rule reading = false := by
    simp [AbortWithDelayInjector.injects, Fault.open_, aborted]
  constructor
  · simp [AbortWithDelayInjector.abort_visit, aborted]
  · simp [AbortWithDelayInjector.code_visit, closed]

/-- Without an abort, the one that is drawn is taken. -/
theorem visit_of_not_abort (fresh : injector.abort = false) {entry : HTTPFaultInjection × Reading} :
    (injector.visit entry.1 entry.2).abort = (drawnStatus entry).isSome ∧
      (injector.visit entry.1 entry.2).code =
        ((drawnStatus entry).map Int32.toInt).getD injector.code := by
  rw [AbortWithDelayInjector.abort_visit, AbortWithDelayInjector.code_visit, fresh]
  unfold AbortWithDelayInjector.injects drawnStatus
  cases effective : entry.1.isEffective entry.2.now with
  | false => simp
  | true =>
    cases given : entry.1.abort with
    | none => simp [Fault.percent, given]
    | some abort =>
      cases drawn : isInPercentRange abort.percent entry.2.abort with
      | false => simp [Fault.percent, Fault.open_, Fault.draw, given, fresh, drawn]
      | true => simp [Fault.percent, Fault.open_, Fault.draw, given, fresh, drawn]

theorem foldl_visit_of_abort (aborted : injector.abort = true)
    (rules : List (HTTPFaultInjection × Reading)) :
    (rules.foldl (fun injector entry => injector.visit entry.1 entry.2) injector).abort = true ∧
      (rules.foldl (fun injector entry => injector.visit entry.1 entry.2) injector).code =
        injector.code := by
  induction rules generalizing injector with
  | nil => exact ⟨aborted, rfl⟩
  | cons entry rules ih =>
    obtain ⟨kept, code⟩ := visit_of_abort aborted
    rw [List.foldl_cons, ← code]
    exact ih kept

theorem foldl_visit_of_not_abort (fresh : injector.abort = false) :
    (rules.foldl (fun injector entry => injector.visit entry.1 entry.2) injector).abort =
        (rules.filterMap drawnStatus).head?.isSome ∧
      (rules.foldl (fun injector entry => injector.visit entry.1 entry.2) injector).code =
        ((rules.filterMap drawnStatus).head?.map Int32.toInt).getD injector.code := by
  induction rules generalizing injector with
  | nil => exact ⟨fresh, rfl⟩
  | cons entry rules ih =>
    obtain ⟨abort, code⟩ := visit_of_not_abort fresh
    rw [List.foldl_cons]
    cases drawn : drawnStatus entry with
    | none =>
      rw [drawn] at abort code
      rw [List.filterMap_cons_none drawn]
      have later := ih abort
      rwa [code] at later
    | some status =>
      -- the rest of the loop keeps the abort
      rw [drawn] at abort code
      rw [List.filterMap_cons_some drawn]
      have kept := foldl_visit_of_abort abort rules
      rwa [code] at kept

/-- The injector has the status of the first abort that is drawn. -/
theorem getInjector_spec :
    (getInjector rules).abort = (rules.filterMap drawnStatus).head?.isSome ∧
      (getInjector rules).code =
        ((rules.filterMap drawnStatus).head?.map Int32.toInt).getD 0 :=
  foldl_visit_of_not_abort rfl

theorem stops_iff : injector.Stops quote method ↔
    100 ≤ injector.code ∧ injector.code ≤ 999 ∧ injector.code ≠ 200 := by
  unfold AbortWithDelayInjector.Stops AbortWithDelayInjector.do_
  by_cases stops : injector.code ≠ 200 ∧ injector.code ≠ 0
  · rw [if_pos stops]
    by_cases strange : injector.code < 100 ∨ injector.code > 999
    · rw [if_pos strange]
      refine iff_of_false (by simp) ?_
      omega
    · rw [if_neg strange]
      refine iff_of_true ⟨_, rfl, rfl⟩ ?_
      omega
  · rw [if_neg stops]
    refine iff_of_false (by simp) ?_
    omega

theorem passes_iff :
    (injector.do_ quote method).map (!·.abort) = some true ↔
      injector.code = 0 ∨ injector.code = 200 := by
  unfold AbortWithDelayInjector.do_
  by_cases stops : injector.code ≠ 200 ∧ injector.code ≠ 0
  · rw [if_pos stops]
    refine iff_of_false ?_ (by omega)
    split
    · simp
    · simp
  · rw [if_neg stops]
    exact iff_of_true rfl (by omega)

end Aborts

/-- If a rule with an abort status other than 0 and 200 is drawn for it, the request is not
forwarded; and the injector stops a request exactly if it reports an abort. -/
structure AbortsAsDrawn (quote : String → String) (method : String)
    (rules : List (HTTPFaultInjection × Reading)) : Prop where
  stops : (∃ entry ∈ rules, ∃ status, drawnStatus entry = some status ∧ status ≠ 0 ∧
    status ≠ 200) → (getInjector rules).Stops quote method
  reports : (getInjector rules).Stops quote method ↔ (getInjector rules).abort = true

/-- A drawn abort always aborts exactly if the first one that is drawn has a status of three digits
other than 200. -/
theorem abortsAsDrawn_iff (quote : String → String) (method : String)
    (rules : List (HTTPFaultInjection × Reading)) : AbortsAsDrawn quote method rules ↔
      ∀ status, (rules.filterMap drawnStatus).head? = some status →
        100 ≤ status.toInt ∧ status.toInt ≤ 999 ∧ status.toInt ≠ 200 := by
  obtain ⟨abort, code⟩ := getInjector_spec
  cases first : (rules.filterMap drawnStatus).head? with
  | none =>
    rw [first] at abort code
    have passes : ¬(getInjector rules).Stops quote method := by
      rw [stops_iff, code]
      simp
    refine iff_of_true ⟨?_, iff_of_false passes (by simp [abort])⟩ (by simp)
    rintro ⟨entry, member, status, drawn, -⟩
    rw [List.head?_eq_none_iff] at first
    have listed : status ∈ rules.filterMap drawnStatus :=
      List.mem_filterMap.mpr ⟨entry, member, drawn⟩
    rw [first] at listed
    cases listed
  | some status =>
    rw [first] at abort code
    have stops : (getInjector rules).Stops quote method ↔
        100 ≤ status.toInt ∧ status.toInt ≤ 999 ∧ status.toInt ≠ 200 := by
      rw [stops_iff, code]
      rfl
    simp only [Option.some.injEq, forall_eq']
    rw [← stops]
    constructor
    · exact fun aborts => aborts.reports.mpr abort
    · exact fun stopped => ⟨fun _ => stopped, iff_of_true stopped abort⟩

/-- A rule that always aborts with the status. -/
def abortRule (name : String) (status : Int32) : HTTPFaultInjection :=
  ⟨none, some ⟨.finite 100, some (.httpStatus status)⟩, none, name, none⟩

/-- An abort with the status 200 that is met before one with 500 lets the request pass. -/
theorem first_abort_hides_second :
    ¬∀ (quote : String → String) (method : String) (rules : List (HTTPFaultInjection × Reading)),
      AbortsAsDrawn quote method rules := by
  intro aborts
  have drawn := aborts id "GET" [(abortRule "ok" 200, noon), (abortRule "broken" 500, noon)]
  obtain ⟨done, returned, aborted⟩ := drawn.stops
    ⟨(abortRule "broken" 500, noon), by simp, 500, by decide, by decide, by decide⟩
  have passed : (getInjector [(abortRule "ok" 200, noon), (abortRule "broken" 500, noon)]).do_ id
      "GET" = some ⟨0, false, none⟩ := by decide
  rw [passed] at returned
  cases returned
  cases aborted

/-- The injector lets requests pass exactly if no abort is drawn, or the first one has the status 0
or 200. -/
theorem code_getInjector_iff :
    (getInjector rules).code = 0 ∨ (getInjector rules).code = 200 ↔
      ∀ status, (rules.filterMap drawnStatus).head? = some status →
        status.toInt = 0 ∨ status.toInt = 200 := by
  obtain ⟨-, code⟩ := getInjector_spec
  rw [code]
  cases (rules.filterMap drawnStatus).head? with
  | none => simp
  | some status => simp

/-- The API server proxy passes a request on exactly if the injector of the rules that match its
resource lets it pass. -/
theorem Manager.withFaultInjection_iff (m : Manager) (loop : Loop) (quote : String → String)
    (ns apiGroup resource verb method : String) :
    m.withFaultInjection loop quote ns apiGroup resource verb method = some true ↔
      ∀ status, ((loop.entries (m.matchResourceFaultInjection ns apiGroup resource verb)).filterMap
        drawnStatus).head? = some status → status.toInt = 0 ∨ status.toInt = 200 := by
  unfold Manager.withFaultInjection Manager.getInjectorByResource
  rw [passes_iff, code_getInjector_iff]

/-- The injector as the HTTP proxy asks it. -/
def AbortWithDelayInjector.asked (injector : AbortWithDelayInjector) : Proxy.FaultInjector :=
  ⟨injector.delay.toInt, injector.code, injector.message⟩

/-- The HTTP proxy goes on with a request exactly if the injector of the rules that match its URL
lets it pass. -/
theorem Manager.injectFault_iff {σ : Type} (m : Manager) (loop : Loop) {t : Proxy.TProxy URL σ}
    (enabled : t.enableRestFaultInjection = true)
    (asks : ∀ url method, t.getInjectorByUrl url method =
      (m.getInjectorByUrl loop url method).asked) (url : URL) (method : String)
    (trace : Proxy.Trace σ) :
    (Proxy.injectFault t url method).run trace = .ok () trace ↔
      ∀ status, ((loop.entries (m.matchHTTPFaultInjection url method)).filterMap
        drawnStatus).head? = some status → status.toInt = 0 ∨ status.toInt = 200 := by
  have aborts : (m.getInjectorByUrl loop url method).asked.aborts = true ↔
      (m.getInjectorByUrl loop url method).code ≠ 200 ∧
        (m.getInjectorByUrl loop url method).code ≠ 0 := by
    rw [Proxy.FaultInjector.aborts, Bool.and_eq_true, decide_eq_true_iff, decide_eq_true_iff]
    rfl
  rw [← code_getInjector_iff]
  change _ ↔ (m.getInjectorByUrl loop url method).code = 0 ∨
    (m.getInjectorByUrl loop url method).code = 200
  unfold Proxy.injectFault
  rw [asks, enabled]
  dsimp only
  rw [Bool.true_and]
  cases answer : (m.getInjectorByUrl loop url method).asked.aborts with
  | false =>
    rw [← Bool.not_eq_true, aborts] at answer
    exact iff_of_true rfl (by omega)
  | true =>
    rw [aborts] at answer
    refine iff_of_false ?_ (by omega)
    intro goesOn
    cases goesOn

end CtrlMesh.FaultInjection
