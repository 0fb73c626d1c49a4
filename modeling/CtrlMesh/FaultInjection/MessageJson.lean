import CtrlMesh.FaultInjection.Convert
import CtrlMesh.Lib.Json
import CtrlMesh.Lib.Pointwise

/-!
# The JSON text of a configuration

What `DumpJSON` writes of a `ctrlmeshproto.FaultInjection`: the exported fields of the generated
structures under their JSON names, most of them left out if they are empty. A NaN or an infinite
percentage cannot be written, and then nothing is. A text determines its message up to the sign of
a zero percentage.
-/

namespace CtrlMesh.FaultInjection

open Lib

/-- How a float is written: the shortest text that is read as the same number. -/
structure FloatFormat where
  literal : Rat → Json.Literal
  injective : Function.Injective literal

/-- A percentage with `omitempty`, if it can be written. Both zeros are empty. -/
def Percent.toJSON (format : FloatFormat) : Percent → Option (Option Json)
  | .finite value => some (if value = 0 then none else some (.number (format.literal value)))
  | .negativeZero => some none
  | .infinite _ => none
  | .nan => none

/-- A `durationpb.Duration` for a number of nanoseconds. -/
def durationJSON (nanoseconds : Int) : Json :=
  .struct [("seconds", Json.omitInt (nanoseconds.tdiv 1000000000)),
    ("nanos", Json.omitInt (nanoseconds.tmod 1000000000))]

/-- The oneof of a delay is an interface with the Go name of its field. -/
def delayTypeJSON : Option Int → Json
  | none => .null
  | some fixedDelay => .object [("FixedDelay", durationJSON fixedDelay)]

/-- The structure of a fault: its percentage and its oneof. -/
def faultJSON (format : FloatFormat) (percent : Percent) (key : String) (type : Json) :
    Option Json := do
  let percent ← percent.toJSON format
  return .struct [("percent", percent), (key, some type)]

/-- A delay. -/
def Delay.toJSON (format : FloatFormat) (delay : Delay) : Option Json :=
  faultJSON format delay.percent "HttpDelayType" (delayTypeJSON delay.fixedDelay)

/-- The oneof of an abort. -/
def errorTypeJSON : Option ErrorType → Json
  | none => .null
  | some (.httpStatus status) => .object [("HttpStatus", Json.int status.toInt)]
  | some (.grpcStatus status) => .object [("GrpcStatus", .string status)]
  | some (.http2Error error) => .object [("Http2Error", .string error)]

/-- An abort. -/
def Abort.toJSON (format : FloatFormat) (abort : Abort) : Option Json :=
  faultJSON format abort.percent "ErrorType" (errorTypeJSON abort.errorType)

/-- The content of a match. -/
def MatchContent.toJSON (content : MatchContent) : Json :=
  .struct [("exact", Json.omitString content.exact), ("regex", Json.omitString content.regex)]

/-- A header. -/
def HttpHeader.toJSON (header : HttpHeader) : Json :=
  .struct [("name", Json.omitString header.name), ("value", Json.omitString header.value)]

/-- A match of HTTP requests. -/
def HttpMatch.toJSON (httpMatch : HttpMatch) : Json :=
  .struct [("host", httpMatch.host.map MatchContent.toJSON),
    ("path", httpMatch.path.map MatchContent.toJSON),
    ("method", Json.omitString httpMatch.method),
    ("headers", Json.omitList HttpHeader.toJSON httpMatch.headers)]

/-- A match of resources. -/
def ResourceMatch.toJSON (resourceMatch : ResourceMatch) : Json :=
  .struct [("apiGroups", Json.omitList .string resourceMatch.apiGroups),
    ("namespaces", Json.omitList .string resourceMatch.namespaces),
    ("resources", Json.omitList .string resourceMatch.resources),
    ("verbs", Json.omitList .string resourceMatch.verbs)]

/-- The matches of a rule. -/
def Match.toJSON (match_ : Match) : Json :=
  .struct [("resources", Json.omitList ResourceMatch.toJSON match_.resources),
    ("httpMatch", Json.omitList HttpMatch.toJSON match_.httpMatch)]

/-- A number of 32 bits. -/
def int32JSON (n : Int32) : Json := Json.int n.toInt

/-- The times a rule is in effect at. -/
def EffectiveTimeRange.toJSON (timeRange : EffectiveTimeRange) : Json :=
  .struct [("start_time", Json.omitString timeRange.startTime),
    ("end_time", Json.omitString timeRange.endTime),
    ("days_of_week", Json.omitList int32JSON timeRange.daysOfWeek),
    ("days_of_month", Json.omitList int32JSON timeRange.daysOfMonth),
    ("months", Json.omitList int32JSON timeRange.months)]

/-- A rule, if its percentages can be written. -/
def HTTPFaultInjection.toJSON (format : FloatFormat) (rule : HTTPFaultInjection) :
    Option Json := do
  let delay ← convertOptional (Delay.toJSON format) rule.delay
  let abort ← convertOptional (Abort.toJSON format) rule.abort
  return .struct [("delay", delay), ("abort", abort), ("match", rule.match_.map Match.toJSON),
    ("Name", Json.omitString rule.name),
    ("effective_time", rule.effectiveTime.map EffectiveTimeRange.toJSON)]

/-- The number of an option. -/
def SyncOption.number : SyncOption → Int
  | .update => 0
  | .delete => 1
  | .check => 2
  | .recover => 3
  | .unnamed value => value

/-- A rule of a message; a nil rule is null. -/
def ruleJSON (format : FloatFormat) : Option HTTPFaultInjection → Option Json
  | none => some .null
  | some rule => rule.toJSON format

/-- A message, if its percentages can be written. -/
def Message.toJSON (format : FloatFormat) (message : Message) : Option Json := do
  let rules ← message.httpFaultInjections.mapM (ruleJSON format)
  return .struct [("httpFaultInjections", Json.omitList id rules),
    ("option", Json.omitInt message.option.number),
    ("configHash", Json.omitString message.configHash), ("name", Json.omitString message.name)]

/-- The hash of a message: `GetMD5Hash` of `DumpJSON`. -/
def md5OfJSON (md5 : String → String) (format : FloatFormat) (message : Message) : String :=
  md5 (Json.dump (message.toJSON format))

theorem durationJSON_injective : Function.Injective durationJSON := by
  intro m n same
  simp only [durationJSON, Json.struct_inj, List.map_cons, List.map_nil, List.nodup_cons,
    List.mem_singleton, List.not_mem_nil, not_false_eq_true, List.nodup_nil, and_true,
    String.reduceEq, List.cons.injEq, Prod.mk.injEq, true_and,
    Json.omitInt_injective.eq_iff] at same
  rw [← Int.mul_tdiv_add_tmod m 1000000000, same.1, same.2, Int.mul_tdiv_add_tmod]

theorem delayTypeJSON_injective : Function.Injective delayTypeJSON := by
  intro m n same
  cases m with
  | none =>
    cases n with
    | none => rfl
    | some d => cases same
  | some d =>
    cases n with
    | none => cases same
    | some e => simpa [delayTypeJSON, durationJSON_injective.eq_iff] using same

theorem int32JSON_injective : Function.Injective int32JSON :=
  fun _ _ same => Int32.toInt_inj.mp (Json.int_injective same)

theorem errorTypeJSON_injective : Function.Injective errorTypeJSON := by
  intro a b same
  cases a with
  | none =>
    cases b with
    | none => rfl
    | some b => cases b <;> cases same
  | some a =>
    cases b with
    | none => cases a <;> cases same
    | some b =>
      -- the keys tell the errors apart
      cases a <;> cases b <;> simp [errorTypeJSON] at same
      case httpStatus.httpStatus => rw [int32JSON_injective same]
      all_goals rw [same]

theorem MatchContent.toJSON_injective : Function.Injective MatchContent.toJSON := by
  rintro ⟨⟩ ⟨⟩ same
  simpa [MatchContent.toJSON, Json.omitString_injective.eq_iff] using same

theorem HttpHeader.toJSON_injective : Function.Injective HttpHeader.toJSON := by
  rintro ⟨⟩ ⟨⟩ same
  simpa [HttpHeader.toJSON, Json.omitString_injective.eq_iff] using same

theorem HttpMatch.toJSON_injective : Function.Injective HttpMatch.toJSON := by
  rintro ⟨⟩ ⟨⟩ same
  simpa [HttpMatch.toJSON, Json.omitString_injective.eq_iff,
    (Option.map_injective MatchContent.toJSON_injective).eq_iff,
    (Json.omitList_injective HttpHeader.toJSON_injective).eq_iff] using same

theorem ResourceMatch.toJSON_injective : Function.Injective ResourceMatch.toJSON := by
  rintro ⟨⟩ ⟨⟩ same
  simpa [ResourceMatch.toJSON, (Json.omitList_injective Json.string_injective).eq_iff] using same

theorem Match.toJSON_injective : Function.Injective Match.toJSON := by
  rintro ⟨⟩ ⟨⟩ same
  simpa [Match.toJSON, (Json.omitList_injective ResourceMatch.toJSON_injective).eq_iff,
    (Json.omitList_injective HttpMatch.toJSON_injective).eq_iff] using same

theorem EffectiveTimeRange.toJSON_injective : Function.Injective EffectiveTimeRange.toJSON := by
  rintro ⟨⟩ ⟨⟩ same
  simpa [EffectiveTimeRange.toJSON, Json.omitString_injective.eq_iff,
    (Json.omitList_injective int32JSON_injective).eq_iff] using same

/-- The percentage without the sign of a zero. -/
def Percent.unsigned : Percent → Percent
  | .negativeZero => .finite 0
  | percent => percent

/-- The percentage is a number. -/
def Percent.isFinite : Percent → Bool
  | .finite _ => true
  | .negativeZero => true
  | .infinite _ => false
  | .nan => false

section

variable (format : FloatFormat)

theorem Percent.isSome_toJSON (percent : Percent) :
    (percent.toJSON format).isSome = percent.isFinite := by
  cases percent <;> rfl

/-- Two percentages are written alike exactly if they are the same number. -/
theorem Percent.toJSON_eq_iff {p q : Percent} (finite : p.isFinite = true) :
    p.toJSON format = q.toJSON format ↔ p.unsigned = q.unsigned := by
  cases p with
  | finite value =>
    cases q with
    | finite other =>
      by_cases zero : value = 0 <;> by_cases otherZero : other = 0 <;>
        simp [Percent.toJSON, Percent.unsigned, zero, otherZero, format.injective.eq_iff, eq_comm]
    | _ => simp [Percent.toJSON, Percent.unsigned]
  | negativeZero =>
    cases q with
    | finite other => simp [Percent.toJSON, Percent.unsigned, eq_comm]
    | _ => simp [Percent.toJSON, Percent.unsigned]
  | infinite negative => cases finite
  | nan => cases finite

/-- The delay without the sign of a zero. -/
def Delay.unsigned (delay : Delay) : Delay := { delay with percent := delay.percent.unsigned }

/-- The abort without the sign of a zero. -/
def Abort.unsigned (abort : Abort) : Abort := { abort with percent := abort.percent.unsigned }

/-- The rule without the signs of zeros. -/
def HTTPFaultInjection.unsigned (rule : HTTPFaultInjection) : HTTPFaultInjection :=
  { rule with delay := rule.delay.map Delay.unsigned, abort := rule.abort.map Abort.unsigned }

theorem isSome_faultJSON (percent : Percent) (key : String) (type : Json) :
    (faultJSON format percent key type).isSome = percent.isFinite := by
  rw [← Percent.isSome_toJSON format]
  unfold faultJSON
  cases percent.toJSON format with
  | none => rfl
  | some percent => rfl

theorem faultJSON_eq_iff {p q : Percent} (finite : p.isFinite = true) {key : String}
    (distinct : "percent" ≠ key) {type other : Json} :
    faultJSON format p key type = faultJSON format q key other ↔
      p.unsigned = q.unsigned ∧ type = other := by
  rw [← Percent.toJSON_eq_iff format finite]
  rw [← Percent.isSome_toJSON format, Option.isSome_iff_exists] at finite
  obtain ⟨percent, isPercent⟩ := finite
  unfold faultJSON
  rw [isPercent]
  cases q.toJSON format with
  | none => simp
  | some otherPercent =>
    simp [distinct]

theorem Delay.toJSON_eq_iff {d e : Delay} (finite : d.percent.isFinite = true) :
    d.toJSON format = e.toJSON format ↔ d.unsigned = e.unsigned := by
  unfold Delay.toJSON Delay.unsigned
  rw [faultJSON_eq_iff format finite (by decide), delayTypeJSON_injective.eq_iff, Delay.mk.injEq]

theorem Abort.toJSON_eq_iff {a b : Abort} (finite : a.percent.isFinite = true) :
    a.toJSON format = b.toJSON format ↔ a.unsigned = b.unsigned := by
  unfold Abort.toJSON Abort.unsigned
  rw [faultJSON_eq_iff format finite (by decide), errorTypeJSON_injective.eq_iff, Abort.mk.injEq]

/-- Both percentages of a rule are numbers. -/
structure HTTPFaultInjection.Writable (rule : HTTPFaultInjection) : Prop where
  delay : ∀ delay ∈ rule.delay, delay.percent.isFinite = true
  abort : ∀ abort ∈ rule.abort, abort.percent.isFinite = true

end

/-- If values are written alike exactly if they have the same view, so are fields that may be
absent. -/
theorem convertOptional_eq_iff {α β γ : Type} {convert : α → Option β} {view : α → γ}
    {a b : Option α}
    (each : ∀ value ∈ a, ∀ other, convert value = convert other ↔ view value = view other) :
    convertOptional convert a = convertOptional convert b ↔ a.map view = b.map view := by
  cases a with
  | none =>
    cases b with
    | none => simp
    | some other => cases written : convert other <;> simp [convertOptional, written]
  | some value =>
    cases b with
    | none => cases written : convert value <;> simp [convertOptional, written]
    | some other =>
      simp only [convertOptional, Option.map_some, Option.some.injEq]
      rw [← each value rfl other, (Option.map_injective (Option.some_injective β)).eq_iff]

section

variable (format : FloatFormat)

theorem isSome_convertOptional_toJSON (rule : HTTPFaultInjection) : rule.Writable ↔
    (convertOptional (Delay.toJSON format) rule.delay).isSome = true ∧
      (convertOptional (Abort.toJSON format) rule.abort).isSome = true := by
  rw [isSome_convertOptional, isSome_convertOptional]
  simp only [Delay.toJSON, Abort.toJSON, isSome_faultJSON]
  exact ⟨fun finite => ⟨finite.delay, finite.abort⟩, fun finite => ⟨finite.1, finite.2⟩⟩

theorem HTTPFaultInjection.isSome_toJSON (rule : HTTPFaultInjection) :
    (rule.toJSON format).isSome = true ↔ rule.Writable := by
  rw [isSome_convertOptional_toJSON format]
  unfold HTTPFaultInjection.toJSON
  cases convertOptional (Delay.toJSON format) rule.delay <;>
    cases convertOptional (Abort.toJSON format) rule.abort <;> simp

/-- Two rules are written alike exactly if they are the same up to the sign of zeros. -/
theorem HTTPFaultInjection.toJSON_eq_iff {r s : HTTPFaultInjection} (writable : r.Writable) :
    r.toJSON format = s.toJSON format ↔ r.unsigned = s.unsigned := by
  have delays := @convertOptional_eq_iff _ _ _ (Delay.toJSON format) Delay.unsigned r.delay s.delay
    fun delay isDelay _ => Delay.toJSON_eq_iff format (writable.delay delay isDelay)
  have aborts := @convertOptional_eq_iff _ _ _ (Abort.toJSON format) Abort.unsigned r.abort s.abort
    fun abort isAbort _ => Abort.toJSON_eq_iff format (writable.abort abort isAbort)
  rw [HTTPFaultInjection.unsigned, HTTPFaultInjection.unsigned, HTTPFaultInjection.mk.injEq,
    ← delays, ← aborts]
  rw [isSome_convertOptional_toJSON format, Option.isSome_iff_exists,
    Option.isSome_iff_exists] at writable
  obtain ⟨⟨delay, isDelay⟩, abort, isAbort⟩ := writable
  unfold HTTPFaultInjection.toJSON
  rw [isDelay, isAbort]
  cases convertOptional (Delay.toJSON format) s.delay with
  | none => simp
  | some otherDelay =>
    cases convertOptional (Abort.toJSON format) s.abort with
    | none => simp
    | some otherAbort =>
      simp [Json.omitString_injective.eq_iff, (Option.map_injective Match.toJSON_injective).eq_iff,
        (Option.map_injective EffectiveTimeRange.toJSON_injective).eq_iff]

theorem HTTPFaultInjection.toJSON_ne_null (rule : HTTPFaultInjection) :
    rule.toJSON format ≠ some .null := by
  simp [HTTPFaultInjection.toJSON, Option.bind_eq_some_iff, Json.struct]

theorem ruleJSON_eq_iff {r s : Option HTTPFaultInjection} (writable : ∀ rule ∈ r, rule.Writable) :
    ruleJSON format r = ruleJSON format s ↔
      r.map HTTPFaultInjection.unsigned = s.map HTTPFaultInjection.unsigned := by
  cases r with
  | none =>
    cases s with
    | none => simp
    | some other => simpa [ruleJSON] using (other.toJSON_ne_null format).symm
  | some rule =>
    cases s with
    | none => simpa [ruleJSON] using rule.toJSON_ne_null format
    | some other =>
      rw [ruleJSON, ruleJSON, HTTPFaultInjection.toJSON_eq_iff format (writable rule rfl),
        Option.map_some, Option.map_some, Option.some.injEq]

/-- All percentages of a message are numbers. -/
def Message.Writable (message : Message) : Prop :=
  ∀ entry ∈ message.httpFaultInjections, ∀ rule ∈ entry, rule.Writable

theorem isSome_ruleJSON {entry : Option HTTPFaultInjection} :
    (ruleJSON format entry).isSome = true ↔ ∀ rule ∈ entry, rule.Writable := by
  cases entry with
  | none => simp [ruleJSON]
  | some rule => simp [ruleJSON, HTTPFaultInjection.isSome_toJSON]

theorem Message.isSome_toJSON (message : Message) :
    (message.toJSON format).isSome = true ↔ message.Writable := by
  have rules : (message.httpFaultInjections.mapM (ruleJSON format)).isSome = true ↔
      message.Writable := by
    rw [isSome_mapM_iff]
    simp only [isSome_ruleJSON]
    rfl
  rw [← rules]
  unfold Message.toJSON
  cases message.httpFaultInjections.mapM (ruleJSON format) with
  | none => rfl
  | some rules => rfl

/-- Two messages are written alike exactly if they are the same up to the sign of zeros. -/
theorem Message.toJSON_eq_iff {m n : Message} (writable : m.Writable) :
    m.toJSON format = n.toJSON format ↔
      m.httpFaultInjections.map (Option.map HTTPFaultInjection.unsigned) =
          n.httpFaultInjections.map (Option.map HTTPFaultInjection.unsigned) ∧
        m.option.number = n.option.number ∧ m.configHash = n.configHash ∧ m.name = n.name := by
  have each : ∀ entry ∈ m.httpFaultInjections, (ruleJSON format entry).isSome = true :=
    fun entry member => (isSome_ruleJSON format).mpr (writable entry member)
  rw [← map_eq_map_iff_of fun entry member _ => ruleJSON_eq_iff format (writable entry member),
    ← mapM_eq_mapM_iff each]
  rw [← isSome_mapM_iff, Option.isSome_iff_exists] at each
  obtain ⟨rules, isRules⟩ := each
  unfold Message.toJSON
  rw [isRules]
  cases n.httpFaultInjections.mapM (ruleJSON format) with
  | none => simp
  | some others =>
    simp [Json.omitString_injective.eq_iff, Json.omitInt_injective.eq_iff,
      (Json.omitList_injective Function.injective_id).eq_iff]

end

end CtrlMesh.FaultInjection
