import CtrlMesh.FaultInjection.Proto

/-!
# From FaultInjection objects to configurations

The rules of a FaultInjection as the API type has them, `faultconv.go`, which writes them as
messages for the proxies, and what a message becomes on the wire. `hash` stands for
the MD5 sum of a message's JSON text.
-/

namespace CtrlMesh.FaultInjection

namespace Spec

/-- `HTTPFaultInjectionDelay` of the API. -/
structure HTTPFaultInjectionDelay where
  fixedDelay : String
  percent : String
  deriving DecidableEq

/-- `HTTPFaultInjectionAbort` of the API. -/
structure HTTPFaultInjectionAbort where
  httpStatus : Int64
  percent : String
  deriving DecidableEq

/-- `EffectiveTimeRange` of the API. -/
structure EffectiveTimeRange where
  startTime : String
  endTime : String
  daysOfWeek : List Int64
  daysOfMonth : List Int64
  months : List Int64
  deriving DecidableEq

/-- A rule. The types of its match have the fields of the messages. -/
structure HTTPFaultInjection where
  name : String
  delay : Option HTTPFaultInjectionDelay
  abort : Option HTTPFaultInjectionAbort
  match_ : Option Match
  effectiveTime : Option EffectiveTimeRange
  deriving DecidableEq

/-- `FaultInjection`: its name, which like all names the API server admits has no colon, and the
rules of its specification. -/
structure Injection where
  name : String
  plain : ':' ∉ name.toList
  httpFaultInjections : List HTTPFaultInjection
  deriving DecidableEq

end Spec

/-- `ctrlmeshproto.FaultInjection` before it is sent: a rule may be nil. -/
structure Message where
  httpFaultInjections : List (Option HTTPFaultInjection)
  option : SyncOption
  configHash : String
  name : String
  deriving DecidableEq

/-- The readers of texts: `time.ParseDuration` and `strconv.ParseFloat`. -/
structure Parsers where
  duration : String → Option Int
  float : String → Option Percent

/-- Readers that read nothing. -/
abbrev Parsers.blind : Parsers := ⟨fun _ => none, fun _ => none⟩

section

variable (parse : Parsers)

/-- The delay of a rule, if it can be parsed. -/
def convertDelay (delay : Spec.HTTPFaultInjectionDelay) : Option Delay := do
  let d ← parse.duration delay.fixedDelay
  let percent ← parse.float delay.percent
  return ⟨percent, some d⟩

/-- The abort of a rule, if it can be parsed; the status is cut to 32 bits. -/
def convertAbort (abort : Spec.HTTPFaultInjectionAbort) : Option Abort := do
  let percent ← parse.float abort.percent
  return ⟨percent, some (.httpStatus abort.httpStatus.toInt32)⟩

/-- `ConvertMatch`; the value of a header is overwritten by its name. -/
def convertMatch (match_ : Match) : Match where
  resources := match_.resources
  httpMatch := match_.httpMatch.map fun httpMatch => { httpMatch with
    headers := httpMatch.headers.map fun header => ⟨header.name, header.name⟩ }

/-- `ConvertEffectiveTime`. -/
def convertEffectiveTime (timeRange : Spec.EffectiveTimeRange) : EffectiveTimeRange where
  startTime := timeRange.startTime
  endTime := timeRange.endTime
  daysOfWeek := timeRange.daysOfWeek.map (·.toInt32)
  daysOfMonth := timeRange.daysOfMonth.map (·.toInt32)
  months := timeRange.months.map (·.toInt32)

/-- The conversion of a field that may be absent. -/
def convertOptional {α β : Type} (convert : α → Option β) : Option α → Option (Option β)
  | none => some none
  | some value => (convert value).map some

/-- `ConvertHTTPFaultInjection`: nil if the delay or a percentage cannot be parsed. -/
def convertHTTPFaultInjection (faultInjection : Spec.HTTPFaultInjection) :
    Option HTTPFaultInjection := do
  let delay ← convertOptional (convertDelay parse) faultInjection.delay
  let abort ← convertOptional (convertAbort parse) faultInjection.abort
  return {
    delay
    abort
    match_ := faultInjection.match_.map convertMatch
    name := faultInjection.name
    effectiveTime := faultInjection.effectiveTime.map convertEffectiveTime }

/-- `ConvertFaultInjection`: the option is left at its zero value. -/
def convertFaultInjection (hash : Message → String) (faultInjection : Spec.Injection) :
    Message :=
  let message : Message :=
    { httpFaultInjections := faultInjection.httpFaultInjections.map
        (convertHTTPFaultInjection parse)
      option := .update
      configHash := ""
      name := faultInjection.name }
  { message with configHash := hash message }

end

/-- The message with no field set. -/
def HTTPFaultInjection.empty : HTTPFaultInjection := ⟨none, none, none, "", none⟩

/-- The message as it is read from the wire: a nil rule is written like one with no field set. -/
def Message.transported (message : Message) : Config where
  httpFaultInjections := message.httpFaultInjections.map (·.getD .empty)
  option := message.option
  configHash := message.configHash
  name := message.name

variable {rule : Spec.HTTPFaultInjection}

section

variable {parse : Parsers}

/-- The delay and the percentages of the rule can be parsed, and it has a match. -/
structure Spec.HTTPFaultInjection.Valid (parse : Parsers) (rule : Spec.HTTPFaultInjection) :
    Prop where
  delay : ∀ delay ∈ rule.delay,
    (parse.duration delay.fixedDelay).isSome ∧ (parse.float delay.percent).isSome
  abort : ∀ abort ∈ rule.abort, (parse.float abort.percent).isSome
  hasMatch : rule.match_.isSome

/-- A field is converted if its value can be. -/
theorem isSome_convertOptional {α β : Type} {convert : α → Option β} {value : Option α} :
    (convertOptional convert value).isSome ↔ ∀ a ∈ value, (convert a).isSome := by
  cases value with
  | none => simp [convertOptional]
  | some a => simp [convertOptional]

/-- When a delay is converted. -/
theorem isSome_convertDelay {delay : Spec.HTTPFaultInjectionDelay} :
    (convertDelay parse delay).isSome ↔
      (parse.duration delay.fixedDelay).isSome ∧ (parse.float delay.percent).isSome := by
  unfold convertDelay
  cases parse.duration delay.fixedDelay with
  | none => simp
  | some d => cases parse.float delay.percent <;> simp

/-- When an abort is converted. -/
theorem isSome_convertAbort {abort : Spec.HTTPFaultInjectionAbort} :
    (convertAbort parse abort).isSome ↔ (parse.float abort.percent).isSome := by
  unfold convertAbort
  cases parse.float abort.percent <;> simp

/-- The delay and the percentages of the rule can be parsed. -/
structure Spec.HTTPFaultInjection.Parsable (parse : Parsers) (rule : Spec.HTTPFaultInjection) :
    Prop where
  delay : ∀ delay ∈ rule.delay,
    (parse.duration delay.fixedDelay).isSome ∧ (parse.float delay.percent).isSome
  abort : ∀ abort ∈ rule.abort, (parse.float abort.percent).isSome

/-- What becomes of the delay and the abort of a rule that can be parsed, and of the rule. -/
theorem Spec.HTTPFaultInjection.Parsable.converted (parsable : rule.Parsable parse) :
    ∃ delay abort,
      convertOptional (convertDelay parse) rule.delay = some delay ∧
      convertOptional (convertAbort parse) rule.abort = some abort ∧
      convertHTTPFaultInjection parse rule = some ⟨delay, abort,
        rule.match_.map convertMatch, rule.name, rule.effectiveTime.map convertEffectiveTime⟩ := by
  have delayed : (convertOptional (convertDelay parse) rule.delay).isSome :=
    isSome_convertOptional.mpr fun delay isDelay =>
      isSome_convertDelay.mpr (parsable.delay delay isDelay)
  have aborted : (convertOptional (convertAbort parse) rule.abort).isSome :=
    isSome_convertOptional.mpr fun abort isAbort =>
      isSome_convertAbort.mpr (parsable.abort abort isAbort)
  obtain ⟨delay, isDelay⟩ := Option.isSome_iff_exists.mp delayed
  obtain ⟨abort, isAbort⟩ := Option.isSome_iff_exists.mp aborted
  refine ⟨delay, abort, isDelay, isAbort, ?_⟩
  unfold convertHTTPFaultInjection
  rw [isDelay, isAbort]
  rfl

/-- A valid rule is converted and keeps its match. -/
theorem Spec.HTTPFaultInjection.Valid.converted (valid : rule.Valid parse) :
    ∃ r, convertHTTPFaultInjection parse rule = some r ∧ r.match_.isSome := by
  have parsable : rule.Parsable parse := ⟨valid.delay, valid.abort⟩
  obtain ⟨delay, abort, -, -, converted⟩ := parsable.converted
  refine ⟨_, converted, ?_⟩
  rw [Option.isSome_map]
  exact valid.hasMatch

/-- Only valid rules are converted to rules with a match. -/
theorem valid_of_converted {r : HTTPFaultInjection}
    (converted : convertHTTPFaultInjection parse rule = some r) (hasMatch : r.match_.isSome) :
    rule.Valid parse := by
  simp only [convertHTTPFaultInjection, Option.bind_eq_bind, Option.bind_eq_some_iff,
    Option.pure_def, Option.some.injEq] at converted
  obtain ⟨delay, delayed, abort, aborted, isRule⟩ := converted
  subst isRule
  constructor
  · intro delay isDelay
    exact isSome_convertDelay.mp (isSome_convertOptional.mp (delayed ▸ rfl) delay isDelay)
  · intro abort isAbort
    exact isSome_convertAbort.mp (isSome_convertOptional.mp (aborted ▸ rfl) abort isAbort)
  · rwa [Option.isSome_map] at hasMatch

end

end CtrlMesh.FaultInjection
