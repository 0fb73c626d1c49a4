import CtrlMesh.CircuitBreaker.Manager
import CtrlMesh.Lib.Effect

/-!
# The transparent HTTP proxy

`pkg/proxy/http`: a request is sent on to the URL in its `Mesh-Real-Endpoint` header, or to its own
URL without the header, unless a fault is injected or the circuit breaker refuses it. The fault
injector and the check of the traffic rules are asked about that URL, but `ValidateRest` is asked
about the text of the header. So a request without the header goes to its own URL on the answer for
the empty text.
-/

namespace CtrlMesh.Proxy

open Labels Lib CircuitBreaker

/-- `http.Header`, with its keys in canonical form. -/
abbrev Header := StringMap (List String)

/-- `Get`. -/
def Header.get (header : Header) (key : String) : String :=
  ((header.lookup key).bind List.head?).getD ""

/-- `Set`. -/
def Header.set (header : Header) (key value : String) : Header := header.insert key [value]

/-- `meshhttp.HeaderMeshRealEndpoint`. -/
def headerMeshRealEndpoint : String := "Mesh-Real-Endpoint"

/-- A request with URLs of type `U`. -/
structure WebRequest (U : Type) where
  url : U
  host : String
  method : String
  header : Header

/-- The endpoint in the header. -/
def WebRequest.realEp {U : Type} (req : WebRequest U) : String :=
  req.header.get headerMeshRealEndpoint

/-- `abortWithDelayInjector`. -/
structure FaultInjector where
  delay : Int
  code : Int
  message : String

/-- The result of `Do`. -/
def FaultInjector.aborts (injector : FaultInjector) : Bool :=
  injector.code ≠ 200 && injector.code ≠ 0

/-- The validations of `circuitbreaker.ManagerInterface`, of a manager in a state. -/
structure CircuitInjector (σ : Type) where
  validateTrafficIntercept : σ → String → String → Outcome ValidateResult
  validateRest : σ → String → String → Outcome ValidateResult × σ

/-- The proxy with its flags. `getInjectorByUrl` stands for the fault injector with its draws,
`parse` is `url.Parse` and `hostOf` the Host of a URL. -/
structure TProxy (U σ : Type) where
  enableRestFaultInjection : Bool
  enableRestBreaker : Bool
  getInjectorByUrl : U → String → FaultInjector
  circuitInjector : CircuitInjector σ
  parse : String → Except String U
  hostOf : U → String

/-- A question to the circuit breaker that it answered. -/
inductive Question where
  | trafficIntercept (url method : String) (result : ValidateResult)
  | rest (url method : String) (result : ValidateResult)
  deriving DecidableEq

/-- How the proxy itself ends a request: by an injected fault, by `http.Error`, or by a panic. -/
inductive Stop where
  | aborted (code : Int) (message : String)
  | error (text : String) (code : Nat)
  | panicked
  deriving DecidableEq

/-- The manager of the circuit breaker, and what it has been asked. -/
structure Trace (σ : Type) where
  manager : σ
  asked : List Question

/-- Code that may stop and leaves a trace. -/
abbrev Handling (σ : Type) := EStateM Stop (Trace σ)

section Handler

variable {U σ : Type} (t : TProxy U σ)

/-- The URL a request is for. -/
def realEndPointUrl (req : WebRequest U) : Except Stop U :=
  if req.realEp = "" then .ok req.url
  else match t.parse req.realEp with
    | .error err => .error (.error ("Can not find real endpoint in header " ++ err) 500)
    | .ok epUrl => .ok epUrl

/-- The fault injection of a request. -/
def injectFault (url : U) (method : String) : Handling σ Unit :=
  let injector := t.getInjectorByUrl url method
  if t.enableRestFaultInjection && injector.aborts then
    throw (.aborted injector.code injector.message)
  else pure ()

/-- `ValidateTrafficIntercept` and its answer. -/
def checkTraffic (url : U) (method : String) : Handling σ Unit := fun trace =>
  if !t.enableRestBreaker then .ok () trace
  else match t.circuitInjector.validateTrafficIntercept trace.manager (t.hostOf url) method with
    | .panicked => .error .panicked trace
    | .returned result =>
      let trace := { trace with
        asked := trace.asked ++ [.trafficIntercept (t.hostOf url) method result] }
      if result.allowed then .ok () trace
      else .error (.error ("Forbidden by  ValidateTrafficIntercept breaker, " ++ result.message ++
        ", " ++ result.reason) 403) trace

/-- `ValidateRest` and its answer. -/
def checkRest (text method : String) : Handling σ Unit := fun trace =>
  match t.circuitInjector.validateRest trace.manager text method with
  | (.panicked, manager) => .error .panicked { trace with manager }
  | (.returned result, manager) =>
    let trace := ⟨manager, trace.asked ++ [.rest text method result]⟩
    if result.allowed then .ok () trace
    else .error (.error ("Forbidden by circuit ValidateRest breaker, " ++ result.message ++ ", " ++
      result.reason) 403) trace

/-- `director`. -/
def director (url : U) (req : WebRequest U) : WebRequest U :=
  { req with
    url
    host := t.hostOf url
    header := req.header.set "Pass-Via-Go-TProxy" "1" }

/-- `handleHTTP`: the request it sends on. -/
def handleHTTP (req : WebRequest U) : Handling σ (WebRequest U) :=
  match realEndPointUrl t req with
  | .error stop => throw stop
  | .ok url => do
    injectFault t url req.method
    checkTraffic t url req.method
    checkRest t req.realEp req.method
    return director t url req

end Handler

variable {U σ : Type} {t : TProxy U σ} {url : U} {text method : String} {trace trace' : Trace σ}
  {req outreq : WebRequest U}

/-- The answer allows the request. -/
def Allows (answer : Outcome ValidateResult) (result : ValidateResult) : Prop :=
  answer = .returned result ∧ result.allowed = true

variable {done : Unit} {manager : σ}

theorem injectFault_ok : (injectFault t url method).run trace = .ok done trace' ↔
    (t.enableRestFaultInjection && (t.getInjectorByUrl url method).aborts) = false ∧
      trace = trace' := by
  unfold injectFault
  dsimp only
  split
  next injected => simp [injected]
  next faultless => simp [faultless]

theorem checkTraffic_ok :
    (checkTraffic t url method).run trace = .ok done trace' ↔
      t.enableRestBreaker = false ∧ trace = trace' ∨
        t.enableRestBreaker = true ∧ ∃ answer,
          Allows (t.circuitInjector.validateTrafficIntercept trace.manager (t.hostOf url) method)
            answer ∧
          ⟨trace.manager, trace.asked ++ [.trafficIntercept (t.hostOf url) method answer]⟩ =
            trace' := by
  change checkTraffic t url method trace = _ ↔ _
  unfold checkTraffic Allows
  cases t.enableRestBreaker with
  | false => simp
  | true =>
    cases t.circuitInjector.validateTrafficIntercept trace.manager (t.hostOf url) method with
    | panicked => simp
    | returned answer => cases allowed : answer.allowed <;> simp [allowed]

theorem checkRest_ok : (checkRest t text method).run trace = .ok done trace' ↔
    ∃ answer, Allows (t.circuitInjector.validateRest trace.manager text method).1 answer ∧
      ⟨(t.circuitInjector.validateRest trace.manager text method).2,
        trace.asked ++ [.rest text method answer]⟩ = trace' := by
  change checkRest t text method trace = _ ↔ _
  unfold checkRest Allows
  obtain ⟨answer | _, manager⟩ := t.circuitInjector.validateRest trace.manager text method
  · cases allowed : answer.allowed <;> simp [allowed]
  · simp

/-- A request is sent on, and what has been asked about it then. -/
theorem handleHTTP_ok :
    (handleHTTP t req).run ⟨manager, []⟩ = .ok outreq trace' ↔
      ∃ url, realEndPointUrl t req = .ok url ∧ director t url req = outreq ∧
        (t.enableRestFaultInjection && (t.getInjectorByUrl url req.method).aborts) = false ∧
        ∃ trace answer, (checkTraffic t url req.method).run ⟨manager, []⟩ = .ok () trace ∧
          Allows (t.circuitInjector.validateRest trace.manager req.realEp req.method).1 answer ∧
          ⟨(t.circuitInjector.validateRest trace.manager req.realEp req.method).2,
            trace.asked ++ [.rest req.realEp req.method answer]⟩ = trace' := by
  unfold handleHTTP
  cases realEndPointUrl t req with
  | error stop =>
    have thrown : (throw stop : Handling σ (WebRequest U)).run ⟨manager, []⟩ =
      .error stop ⟨manager, []⟩ := rfl
    simp [thrown]
  | ok url =>
    constructor
    · intro ran
      obtain ⟨_, start, injected, ran⟩ := Effect.run_bind_ok.mp ran
      obtain ⟨faultless, rfl⟩ := injectFault_ok.mp injected
      obtain ⟨_, trace, checked, ran⟩ := Effect.run_bind_ok.mp ran
      obtain ⟨_, last, asked, ran⟩ := Effect.run_bind_ok.mp ran
      obtain ⟨answer, allows, rfl⟩ := checkRest_ok.mp asked
      cases ran
      exact ⟨url, rfl, rfl, faultless, trace, answer, checked, allows, rfl⟩
    · rintro ⟨_, ⟨⟩, rfl, faultless, trace, answer, checked, allows, rfl⟩
      refine Effect.run_bind_ok.mpr ⟨(), _, injectFault_ok.mpr ⟨faultless, rfl⟩, ?_⟩
      refine Effect.run_bind_ok.mpr ⟨(), trace, checked, ?_⟩
      exact Effect.run_bind_ok.mpr ⟨(), _, checkRest_ok.mpr ⟨answer, allows, rfl⟩, rfl⟩

/-- A request that is sent on was allowed as what it is sent as: a text for its URL by
`ValidateRest`, and its host by the traffic rules if they are on. -/
def Validated (t : TProxy U σ) (manager : σ) (req : WebRequest U) : Prop :=
  ∀ outreq trace, (handleHTTP t req).run ⟨manager, []⟩ = .ok outreq trace →
    (∃ text result, .rest text outreq.method result ∈ trace.asked ∧
      t.parse text = .ok outreq.url ∧ result.allowed = true) ∧
    (t.enableRestBreaker = true → ∃ result,
      .trafficIntercept (t.hostOf outreq.url) outreq.method result ∈ trace.asked ∧
        result.allowed = true)

/-- A request without the header is stopped: by a fault, by the traffic rules, or by the answer for
the empty text. -/
def Stopped (t : TProxy U σ) (manager : σ) (req : WebRequest U) : Prop :=
  (t.enableRestFaultInjection && (t.getInjectorByUrl req.url req.method).aborts) = true ∨
    (t.enableRestBreaker = true ∧ ∀ result, ¬Allows
      (t.circuitInjector.validateTrafficIntercept manager (t.hostOf req.url) req.method) result) ∨
    ∀ result, ¬Allows (t.circuitInjector.validateRest manager "" req.method).1 result

theorem realEndPointUrl_ok : realEndPointUrl t req = .ok url ↔
    if req.realEp = "" then req.url = url else t.parse req.realEp = .ok url := by
  unfold realEndPointUrl
  split
  · simp
  · cases t.parse req.realEp with
    | error err => simp
    | ok epUrl => simp

/-- The traffic check passes exactly if it is off or allows the request; then the manager is kept
and only asked about the host. -/
theorem checkTraffic_passes :
    (∃ trace, (checkTraffic t url method).run ⟨manager, []⟩ = .ok () trace) ↔
      (t.enableRestBreaker = true → ∃ result, Allows
        (t.circuitInjector.validateTrafficIntercept manager (t.hostOf url) method) result) := by
  simp only [checkTraffic_ok]
  cases t.enableRestBreaker with
  | false => simp
  | true => simp

theorem checkTraffic_spec
    (checked : (checkTraffic t url method).run ⟨manager, []⟩ = .ok done trace) :
    trace.manager = manager ∧ (∀ text method' result, .rest text method' result ∉ trace.asked) ∧
      (t.enableRestBreaker = true → ∃ result,
        .trafficIntercept (t.hostOf url) method result ∈ trace.asked ∧ result.allowed = true) := by
  rcases checkTraffic_ok.mp checked with ⟨off, rfl⟩ | ⟨on, answer, allows, rfl⟩
  · exact ⟨rfl, by simp, by simp [off]⟩
  · exact ⟨rfl, by simp, fun _ => ⟨answer, by simp, allows.2⟩⟩

/-- A request without the header goes to its own URL unless it is stopped, with `ValidateRest` asked
about the empty text only. -/
theorem sent_without_header (header : req.realEp = "") (passes : ¬Stopped t manager req) :
    ∃ outreq trace, (handleHTTP t req).run ⟨manager, []⟩ = .ok outreq trace ∧
      outreq.url = req.url ∧
      ∀ text method result, .rest text method result ∈ trace.asked → text = "" := by
  rw [Stopped, not_or, not_or, Bool.not_eq_true] at passes
  obtain ⟨faultless, traffic, rest⟩ := passes
  obtain ⟨trace, checked⟩ : ∃ trace,
      (checkTraffic t req.url req.method).run ⟨manager, []⟩ = .ok () trace := by
    refine checkTraffic_passes.mpr fun on => ?_
    by_contra denied
    exact traffic ⟨on, fun result allows => denied ⟨result, allows⟩⟩
  obtain ⟨same, unasked, -⟩ := checkTraffic_spec checked
  obtain ⟨answer, allows⟩ : ∃ result,
      Allows (t.circuitInjector.validateRest trace.manager req.realEp req.method).1 result := by
    by_contra denied
    rw [same, header] at denied
    exact rest fun result allows => denied ⟨result, allows⟩
  have real : realEndPointUrl t req = .ok req.url := by
    rw [realEndPointUrl_ok, if_pos header]
  refine ⟨_, _, handleHTTP_ok.mpr
    ⟨req.url, real, rfl, faultless, trace, answer, checked, allows, rfl⟩, rfl, ?_⟩
  intro text method result member
  rcases List.mem_append.mp member with earlier | last
  · exact absurd earlier (unasked text method result)
  · cases List.mem_singleton.mp last
    exact header

theorem not_stopped_of_sent (header : req.realEp = "")
    (sent : (handleHTTP t req).run ⟨manager, []⟩ = .ok outreq trace) : ¬Stopped t manager req := by
  obtain ⟨url, real, -, faultless, trace, answer, checked, allows, -⟩ := handleHTTP_ok.mp sent
  obtain ⟨same, -, -⟩ := checkTraffic_spec checked
  rw [realEndPointUrl_ok, if_pos header] at real
  subst real
  rw [same, header] at allows
  rintro (fault | ⟨on, denied⟩ | denied)
  · rw [faultless] at fault
    cases fault
  · obtain ⟨result, allowed⟩ := checkTraffic_passes.mp ⟨trace, checked⟩ on
    exact denied result allowed
  · exact denied answer allows

/-- Requests are sent on as they were validated exactly if they have the header, or the empty text
is a text for their URL, or they are stopped. -/
theorem validated_iff (t : TProxy U σ) (manager : σ) (req : WebRequest U) :
    Validated t manager req ↔
      req.realEp ≠ "" ∨ t.parse "" = .ok req.url ∨ Stopped t manager req := by
  constructor
  · intro validated
    by_cases header : req.realEp = ""
    · by_cases stopped : Stopped t manager req
      · exact .inr (.inr stopped)
      · obtain ⟨outreq, trace, sent, url, asked⟩ := sent_without_header header stopped
        obtain ⟨⟨text, result, member, parsed, -⟩, -⟩ := validated outreq trace sent
        rw [asked text _ result member, url] at parsed
        exact .inr (.inl parsed)
    · exact .inl header
  · intro holds outreq trace sent
    obtain ⟨url, real, rfl, faultless, checked, answer, traffic, allows, rfl⟩ :=
      handleHTTP_ok.mp sent
    obtain ⟨-, -, asked⟩ := checkTraffic_spec traffic
    constructor
    · refine ⟨req.realEp, answer, by simp [director], ?_, allows.2⟩
      rw [realEndPointUrl_ok] at real
      by_cases header : req.realEp = ""
      · rw [if_pos header] at real
        subst real
        rcases holds with present | parsed | stopped
        · exact absurd header present
        · rw [header]
          exact parsed
        · exact absurd stopped (not_stopped_of_sent header sent)
      · rwa [if_neg header] at real
    · intro on
      obtain ⟨result, member, allowed⟩ := asked on
      exact ⟨result, List.mem_append_left _ member, allowed⟩

/-- The manager of `CircuitBreaker`, with an order for the keys it finds in a map and the words of
its limiters. -/
def circuitManager (compile : Compile) (parse : Parsers) (now : Int)
    (allow : String → Bool) (order : Finset String → List String) : CircuitInjector Manager where
  validateTrafficIntercept m url method :=
    .returned (m.trafficInterceptStore.validateTrafficIntercept compile url method
      (order (m.trafficInterceptStore.indexed url method))
      (order m.trafficInterceptStore.regexpIndexes.keys.toFinset))
  validateRest m url method :=
    let (result, limiterStore) := m.limiterStore.validate parse now
      (order (m.limiterStore.matched parse (.rest url method))) allow
    (result, { m with limiterStore })

/-- A breaker that is forced open for one URL. -/
def forcedOpen : Manager :=
  Manager.new.registerRules (fun _ => none)
    ⟨.update, "payments", "", [],
      [⟨"stop", [], [⟨"http://pay.svc/charge", "GET"⟩], ⟨1, "1s", 1⟩, .forceOpened, none⟩]⟩

/-- The URL of a payment. -/
def chargeUrl : ParsedURL := ⟨"http", "pay.svc", "/charge"⟩

/-- A proxy with both checks on and no faults to inject. -/
def payProxy : TProxy ParsedURL Manager where
  enableRestFaultInjection := true
  enableRestBreaker := true
  getInjectorByUrl _ _ := ⟨0, 0, ""⟩
  circuitInjector := circuitManager (fun _ => none) ⟨fun _ => some ⟨"", "", ""⟩, fun _ => 0⟩ 0
    (fun _ => true) (fun keys => if keys = ∅ then [] else ["payments:stop"])
  parse text := if text = "" then .ok ⟨"", "", ""⟩ else .ok chargeUrl
  hostOf url := url.host

/-- The request for that URL, without the header. -/
def chargeRequest : WebRequest ParsedURL := ⟨chargeUrl, "pay.svc", "GET", ∅⟩

/-- The rule refuses the URL. -/
example : ((payProxy.circuitInjector.validateRest forcedOpen "http://pay.svc/charge" "GET").1 =
    .returned ⟨false, "CircuitBreakerForceOpened",
      "the circuit breaker is force opened. Limiting rule name: stop"⟩) := by
  rfl

/-- The request is sent on, and its URL was never asked about. -/
theorem unvalidated_request_is_sent :
    ¬∀ (U σ : Type) (t : TProxy U σ) (manager : σ) (req : WebRequest U),
      Validated t manager req := by
  intro always
  have sent : (handleHTTP payProxy chargeRequest).run ⟨forcedOpen, []⟩ =
      .ok (director payProxy chargeUrl chargeRequest) ⟨forcedOpen,
        [.trafficIntercept "pay.svc" "GET" (defaultVerdict false),
          .rest "" "GET" ⟨true, "No rule match", ""⟩]⟩ := rfl
  obtain ⟨⟨text, result, member, parsed, -⟩, -⟩ :=
    always ParsedURL Manager payProxy forcedOpen chargeRequest _ _ sent
  simp only [List.mem_cons, List.not_mem_nil, or_false, reduceCtorEq, false_or] at member
  cases member
  have scheme : ("" : String) = "http" := congrArg ParsedURL.scheme (Except.ok.inj parsed)
  exact absurd scheme (by decide)

end CtrlMesh.Proxy
