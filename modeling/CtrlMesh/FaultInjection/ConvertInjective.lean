import CtrlMesh.FaultInjection.MessageJson
import Mathlib.Data.Rat.Encodable

/-!
# What the conversion keeps

Two FaultInjection objects of one name that are converted to the same message, or only to messages
with the same hash. The value of a header is overwritten by its name, statuses, days and months are
cut to 32 bits, and all objects with a percentage that is not a number have the hash of the empty
text. Everything else is kept: the hash is the same exactly if the objects agree up to this.
-/

namespace CtrlMesh.FaultInjection

open Lib

/-- How numbers and headers are compared. -/
structure Comparison where
  number : Int64 → Int64 → Prop
  header : HttpHeader → HttpHeader → Prop

/-- As they are. -/
def Comparison.exactly : Comparison := ⟨Eq, Eq⟩

/-- As far as they are sent: numbers modulo 2³², headers by their names. -/
def Comparison.asSent : Comparison :=
  ⟨fun m n => m.toInt % 2 ^ 32 = n.toInt % 2 ^ 32, fun a b => a.name = b.name⟩

section

variable (parse : Parsers)
  (compare : Comparison)

/-- The texts are parsed to the same percentage; a zero may have a sign. -/
def AgreePercent (a b : String) : Prop :=
  (parse.float a).map Percent.unsigned = (parse.float b).map Percent.unsigned

/-- Delays agree. -/
structure AgreeDelay (a b : Spec.HTTPFaultInjectionDelay) : Prop where
  fixedDelay : parse.duration a.fixedDelay = parse.duration b.fixedDelay
  percent : AgreePercent parse a.percent b.percent

/-- Aborts agree. -/
structure AgreeAbort (a b : Spec.HTTPFaultInjectionAbort) : Prop where
  httpStatus : compare.number a.httpStatus b.httpStatus
  percent : AgreePercent parse a.percent b.percent

/-- Matches of HTTP requests agree. -/
structure AgreeHttpMatch (a b : HttpMatch) : Prop where
  host : a.host = b.host
  path : a.path = b.path
  method : a.method = b.method
  headers : List.Forall₂ compare.header a.headers b.headers

/-- The matches of two rules agree. -/
structure AgreeMatch (a b : Match) : Prop where
  resources : a.resources = b.resources
  httpMatch : List.Forall₂ (AgreeHttpMatch compare) a.httpMatch b.httpMatch

/-- The times of two rules agree. -/
structure AgreeTime (a b : Spec.EffectiveTimeRange) : Prop where
  startTime : a.startTime = b.startTime
  endTime : a.endTime = b.endTime
  daysOfWeek : List.Forall₂ compare.number a.daysOfWeek b.daysOfWeek
  daysOfMonth : List.Forall₂ compare.number a.daysOfMonth b.daysOfMonth
  months : List.Forall₂ compare.number a.months b.months

/-- Two rules agree. -/
structure AgreeRule (a b : Spec.HTTPFaultInjection) : Prop where
  name : a.name = b.name
  delay : Option.Rel (AgreeDelay parse) a.delay b.delay
  abort : Option.Rel (AgreeAbort parse compare) a.abort b.abort
  match_ : Option.Rel (AgreeMatch compare) a.match_ b.match_
  effectiveTime : Option.Rel (AgreeTime compare) a.effectiveTime b.effectiveTime

/-- The rules of two objects agree one by one. -/
def Agree (a b : Spec.Injection) : Prop :=
  List.Forall₂ (AgreeRule parse compare) a.httpFaultInjections
    b.httpFaultInjections

/-- Every percentage of the rule that can be parsed is a number. -/
structure Spec.HTTPFaultInjection.Finite (rule : Spec.HTTPFaultInjection) : Prop where
  delay : ∀ delay ∈ rule.delay, ∀ percent ∈ parse.float delay.percent, percent.isFinite = true
  abort : ∀ abort ∈ rule.abort, ∀ percent ∈ parse.float abort.percent, percent.isFinite = true

/-- Every percentage of the object that can be parsed is a number. -/
def Spec.Injection.Finite (injection : Spec.Injection) : Prop :=
  ∀ rule ∈ injection.httpFaultInjections, rule.Finite parse

/-- Every duration and percentage of the object can be parsed. -/
def Spec.Injection.Parsable (injection : Spec.Injection) : Prop :=
  ∀ rule ∈ injection.httpFaultInjections, rule.Parsable parse

/-- Objects with equal messages agree, and so do those whose messages have the same hash. -/
structure LosesNothing (hash : Message → String) (a b : Spec.Injection) : Prop where
  messages : convertFaultInjection parse hash a =
    convertFaultInjection parse hash b →
    Agree parse .exactly a b
  hashes : (convertFaultInjection parse hash a).configHash =
    (convertFaultInjection parse hash b).configHash →
    Agree parse .exactly a b

end

section

variable {α β γ : Type} {convert : α → Option β} {x : Option α} {u : Option β}

/-- The views of two converted fields are the same exactly if the fields are related. -/
theorem map_converted_eq_iff {view : β → γ} {R : α → α → Prop} {y : Option α} {v : Option β}
    (left : convertOptional convert x = some u) (right : convertOptional convert y = some v)
    (each : ∀ a b c d, convert a = some c → convert b = some d → (view c = view d ↔ R a b)) :
    u.map view = v.map view ↔ Option.Rel R x y := by
  cases x with
  | none =>
    cases left
    cases y with
    | none =>
      cases right
      exact iff_of_true rfl .none
    | some b =>
      obtain ⟨d, -, rfl⟩ := Option.map_eq_some_iff.mp right
      exact iff_of_false nofun nofun
  | some a =>
    obtain ⟨c, isLeft, rfl⟩ := Option.map_eq_some_iff.mp left
    cases y with
    | none =>
      cases right
      exact iff_of_false nofun nofun
    | some b =>
      obtain ⟨d, isRight, rfl⟩ := Option.map_eq_some_iff.mp right
      rw [Option.map_some, Option.map_some, Option.some.injEq, each a b c d isLeft isRight,
        rel_some_some]

theorem forall_converted_iff {P : β → Prop} {Q : α → Prop}
    (converted : convertOptional convert x = some u)
    (each : ∀ a b, convert a = some b → (P b ↔ Q a)) : (∀ b ∈ u, P b) ↔ ∀ a ∈ x, Q a := by
  cases x with
  | none =>
    cases converted
    simp
  | some a =>
    obtain ⟨b, isConverted, rfl⟩ := Option.map_eq_some_iff.mp converted
    simpa using each a b isConverted

end

theorem toInt32_eq_iff {m n : Int64} : m.toInt32 = n.toInt32 ↔ Comparison.asSent.number m n := by
  have modulus : ((2 ^ 32 : Nat) : Int) = 2 ^ 32 := rfl
  rw [← Int32.toInt_inj, Int64.toInt_toInt32, Int64.toInt_toInt32]
  simp only [Comparison.asSent]
  constructor
  · intro same
    rw [← modulus, ← Int.bmod_emod, same, Int.bmod_emod]
  · intro same
    rw [← Int.emod_bmod m.toInt, ← Int.emod_bmod n.toInt, modulus, same]

theorem convertMatch_eq_iff {a b : Match} :
    convertMatch a = convertMatch b ↔ AgreeMatch .asSent a b := by
  have httpMatches : (convertMatch a).httpMatch = (convertMatch b).httpMatch ↔
      List.Forall₂ (AgreeHttpMatch .asSent) a.httpMatch b.httpMatch := by
    apply map_eq_map_iff_forall₂
    intro m _ n _
    have headers : (m.headers.map fun header => (⟨header.name, header.name⟩ : HttpHeader)) =
        (n.headers.map fun header => ⟨header.name, header.name⟩) ↔
        List.Forall₂ Comparison.asSent.header m.headers n.headers :=
      map_eq_map_iff_forall₂ fun header _ other _ => by simp [Comparison.asSent]
    rw [HttpMatch.mk.injEq, headers]
    exact ⟨fun same => ⟨same.1, same.2.1, same.2.2.1, same.2.2.2⟩,
      fun agree => ⟨agree.host, agree.path, agree.method, agree.headers⟩⟩
  rw [Match.mk.injEq, httpMatches]
  exact ⟨fun same => ⟨same.1, same.2⟩, fun agree => ⟨agree.resources, agree.httpMatch⟩⟩

theorem convertEffectiveTime_eq_iff {a b : Spec.EffectiveTimeRange} :
    convertEffectiveTime a = convertEffectiveTime b ↔ AgreeTime .asSent a b := by
  have numbers : ∀ l m : List Int64, l.map (·.toInt32) = m.map (·.toInt32) ↔
      List.Forall₂ Comparison.asSent.number l m :=
    fun l m => map_eq_map_iff_forall₂ fun _ _ _ _ => toInt32_eq_iff
  unfold convertEffectiveTime
  rw [EffectiveTimeRange.mk.injEq, numbers, numbers, numbers]
  exact ⟨fun same => ⟨same.1, same.2.1, same.2.2.1, same.2.2.2.1, same.2.2.2.2⟩,
    fun agree => ⟨agree.startTime, agree.endTime, agree.daysOfWeek, agree.daysOfMonth,
      agree.months⟩⟩

variable {a b : Spec.Injection}

section

variable {parse : Parsers} {d : Delay}
  {compare : Comparison}

theorem convertDelay_eq_some {delay : Spec.HTTPFaultInjectionDelay}
    (converted : convertDelay parse delay = some d) :
    parse.duration delay.fixedDelay = d.fixedDelay ∧
      parse.float delay.percent = some d.percent := by
  simp only [convertDelay, Option.bind_eq_bind, Option.bind_eq_some_iff, Option.pure_def,
    Option.some.injEq] at converted
  obtain ⟨duration, isDuration, percent, isPercent, rfl⟩ := converted
  exact ⟨isDuration, isPercent⟩

theorem convertAbort_eq_some {abort : Spec.HTTPFaultInjectionAbort} {a : Abort}
    (converted : convertAbort parse abort = some a) :
    a.errorType = some (.httpStatus abort.httpStatus.toInt32) ∧
      parse.float abort.percent = some a.percent := by
  simp only [convertAbort, Option.bind_eq_bind, Option.bind_eq_some_iff, Option.pure_def,
    Option.some.injEq] at converted
  obtain ⟨percent, isPercent, rfl⟩ := converted
  exact ⟨rfl, isPercent⟩

theorem agreePercent_iff {a b : String} {p q : Percent} (left : parse.float a = some p)
    (right : parse.float b = some q) : AgreePercent parse a b ↔ p.unsigned = q.unsigned := by
  rw [AgreePercent, left, right, Option.map_some, Option.map_some, Option.some.injEq]

theorem agreeDelay_iff {a b : Spec.HTTPFaultInjectionDelay} {c : Delay}
    (left : convertDelay parse a = some c) (right : convertDelay parse b = some d) :
    c.unsigned = d.unsigned ↔ AgreeDelay parse a b := by
  obtain ⟨leftDelay, leftPercent⟩ := convertDelay_eq_some left
  obtain ⟨rightDelay, rightPercent⟩ := convertDelay_eq_some right
  rw [Delay.unsigned, Delay.unsigned, Delay.mk.injEq, ← agreePercent_iff leftPercent rightPercent,
    ← leftDelay, ← rightDelay]
  exact ⟨fun same => ⟨same.2, same.1⟩, fun agree => ⟨agree.percent, agree.fixedDelay⟩⟩

theorem agreeAbort_iff {a b : Spec.HTTPFaultInjectionAbort} {c d : Abort}
    (left : convertAbort parse a = some c) (right : convertAbort parse b = some d) :
    c.unsigned = d.unsigned ↔ AgreeAbort parse .asSent a b := by
  obtain ⟨leftType, leftPercent⟩ := convertAbort_eq_some left
  obtain ⟨rightType, rightPercent⟩ := convertAbort_eq_some right
  rw [Abort.unsigned, Abort.unsigned, Abort.mk.injEq, ← agreePercent_iff leftPercent rightPercent,
    leftType, rightType, Option.some.injEq, ErrorType.httpStatus.injEq, toInt32_eq_iff]
  exact ⟨fun same => ⟨same.2, same.1⟩, fun agree => ⟨agree.percent, agree.httpStatus⟩⟩

/-- Rules that can be parsed are sent alike exactly if they agree as far as they are sent. -/
theorem agreeRule_iff {a b : Spec.HTTPFaultInjection} (left : a.Parsable parse)
    (right : b.Parsable parse) :
    (convertHTTPFaultInjection parse a).map HTTPFaultInjection.unsigned =
        (convertHTTPFaultInjection parse b).map HTTPFaultInjection.unsigned ↔
      AgreeRule parse .asSent a b := by
  obtain ⟨delay, abort, isDelay, isAbort, converted⟩ := left.converted
  obtain ⟨otherDelay, otherAbort, isOtherDelay, isOtherAbort, otherConverted⟩ := right.converted
  have delays : delay.map Delay.unsigned = otherDelay.map Delay.unsigned ↔
      Option.Rel (AgreeDelay parse) a.delay b.delay :=
    map_converted_eq_iff isDelay isOtherDelay fun _ _ _ _ => agreeDelay_iff
  have aborts : abort.map Abort.unsigned = otherAbort.map Abort.unsigned ↔
      Option.Rel (AgreeAbort parse .asSent) a.abort b.abort :=
    map_converted_eq_iff isAbort isOtherAbort fun _ _ _ _ => agreeAbort_iff
  have matches_ : a.match_.map convertMatch = b.match_.map convertMatch ↔
      Option.Rel (AgreeMatch .asSent) a.match_ b.match_ :=
    map_eq_map_iff_rel fun _ _ _ _ => convertMatch_eq_iff
  have times : a.effectiveTime.map convertEffectiveTime =
      b.effectiveTime.map convertEffectiveTime ↔
      Option.Rel (AgreeTime .asSent) a.effectiveTime b.effectiveTime :=
    map_eq_map_iff_rel fun _ _ _ _ => convertEffectiveTime_eq_iff
  rw [converted, otherConverted, Option.map_some, Option.map_some, Option.some.injEq,
    HTTPFaultInjection.unsigned, HTTPFaultInjection.unsigned, HTTPFaultInjection.mk.injEq, delays,
    aborts, matches_, times]
  exact ⟨fun same => ⟨same.2.2.2.1, same.1, same.2.1, same.2.2.1, same.2.2.2.2⟩,
    fun agree => ⟨agree.delay, agree.abort, agree.match_, agree.name, agree.effectiveTime⟩⟩

theorem Percent.isFinite_unsigned (percent : Percent) :
    percent.unsigned.isFinite = percent.isFinite := by
  cases percent <;> rfl

theorem isFinite_of_agree {a b : String} (agree : AgreePercent parse a b)
    (finite : ∀ percent ∈ parse.float b, percent.isFinite = true) :
    ∀ percent ∈ parse.float a, percent.isFinite = true := by
  intro percent isPercent
  rw [Option.mem_def] at isPercent
  rw [AgreePercent, isPercent, Option.map_some, eq_comm, Option.map_eq_some_iff] at agree
  obtain ⟨other, isOther, same⟩ := agree
  rw [← percent.isFinite_unsigned, ← same, other.isFinite_unsigned]
  exact finite other isOther

theorem finite_of_agreeRule {a b : Spec.HTTPFaultInjection} (agree : AgreeRule parse compare a b)
    (finite : b.Finite parse) :
    a.Finite parse where
  delay := forall_of_rel agree.delay (fun _ _ agree => isFinite_of_agree agree.percent)
    finite.delay
  abort := forall_of_rel agree.abort (fun _ _ agree => isFinite_of_agree agree.percent)
    finite.abort

/-- Of two objects that agree, both have only numbers as percentages or none has. -/
theorem finite_of_agree (agree : Agree parse compare a b) (finite : b.Finite parse) :
    a.Finite parse :=
  forall_of_forall₂ agree (fun _ _ => finite_of_agreeRule) finite

/-- A rule that can be parsed can be written exactly if its percentages are numbers. -/
theorem writable_iff {rule : Spec.HTTPFaultInjection} (parsable : rule.Parsable parse) :
    (∀ r ∈ convertHTTPFaultInjection parse rule, r.Writable) ↔
      rule.Finite parse := by
  obtain ⟨delay, abort, isDelay, isAbort, converted⟩ := parsable.converted
  have delays : (∀ d ∈ delay, d.percent.isFinite = true) ↔
      ∀ x ∈ rule.delay, ∀ percent ∈ parse.float x.percent, percent.isFinite = true :=
    forall_converted_iff isDelay fun x d isConverted => by
      simp [(convertDelay_eq_some isConverted).2]
  have aborts : (∀ a ∈ abort, a.percent.isFinite = true) ↔
      ∀ x ∈ rule.abort, ∀ percent ∈ parse.float x.percent, percent.isFinite = true :=
    forall_converted_iff isAbort fun x a isConverted => by
      simp [(convertAbort_eq_some isConverted).2]
  rw [converted]
  constructor
  · intro writable
    have written := writable _ rfl
    exact ⟨delays.mp written.delay, aborts.mp written.abort⟩
  · rintro finite r isRule
    cases isRule
    exact ⟨delays.mpr finite.delay, aborts.mpr finite.abort⟩

/-- The message of an object before its hash is set. -/
def draft (parse : Parsers)
    (injection : Spec.Injection) : Message :=
  { httpFaultInjections := injection.httpFaultInjections.map
      (convertHTTPFaultInjection parse)
    option := .update
    configHash := ""
    name := injection.name }

theorem configHash_convert (hash : Message → String) (injection : Spec.Injection) :
    (convertFaultInjection parse hash injection).configHash =
      hash (draft parse injection) := rfl

theorem writable_draft_iff {injection : Spec.Injection} (parsable : injection.Parsable parse) :
    (draft parse injection).Writable ↔ injection.Finite parse := by
  unfold Message.Writable draft Spec.Injection.Finite
  rw [List.forall_mem_map]
  exact forall₂_congr fun rule member => writable_iff (parsable rule member)

theorem agree_iff_draft (left : a.Parsable parse) (right : b.Parsable parse) :
    (draft parse a).httpFaultInjections.map
        (Option.map HTTPFaultInjection.unsigned) =
      (draft parse b).httpFaultInjections.map
        (Option.map HTTPFaultInjection.unsigned) ↔
      Agree parse .asSent a b := by
  unfold draft
  rw [List.map_map, List.map_map]
  exact map_eq_map_iff_forall₂ fun x isLeft y isRight =>
    agreeRule_iff (left x isLeft) (right y isRight)

/-- Two objects of one name have the same hash exactly if both have a percentage that is not a
number or they agree as far as they are sent. -/
theorem configHash_eq_iff {md5 : String → String} (collisionFree : Function.Injective md5)
    {format : FloatFormat} (named : a.name = b.name) (left : a.Parsable parse)
    (right : b.Parsable parse) :
    (convertFaultInjection parse (md5OfJSON md5 format) a).configHash =
        (convertFaultInjection parse (md5OfJSON md5 format) b).configHash ↔
      (¬a.Finite parse ∧ ¬b.Finite parse) ∨
        Agree parse .asSent a b := by
  have unwritten {x : Spec.Injection} (parsable : x.Parsable parse) :
      (draft parse x).toJSON format = none ↔ ¬x.Finite parse := by
    rw [← Option.not_isSome_iff_eq_none, Message.isSome_toJSON, writable_draft_iff parsable]
  rw [configHash_convert, configHash_convert, md5OfJSON, md5OfJSON, collisionFree.eq_iff,
    Json.dump_injective.eq_iff]
  by_cases finite : a.Finite parse
  · rw [Message.toJSON_eq_iff format ((writable_draft_iff left).mpr finite),
      agree_iff_draft left right]
    simp [draft, named, finite]
  · -- nothing is written for `a`
    rw [(unwritten left).mpr finite, eq_comm, unwritten right]
    constructor
    · exact fun other => .inl ⟨finite, other⟩
    · rintro (⟨-, other⟩ | agree) otherFinite
      · exact other otherFinite
      · exact finite (finite_of_agree agree otherFinite)

end

/-- The conversion loses nothing of two objects of one name exactly if they agree in every field
when both have a percentage that is not a number, and when they agree as far as they are sent. -/
theorem losesNothing_iff {parse : Parsers} {md5 : String → String}
    (collisionFree : Function.Injective md5) (format : FloatFormat) {a b : Spec.Injection}
    (named : a.name = b.name) (left : a.Parsable parse) (right : b.Parsable parse) :
    LosesNothing parse (md5OfJSON md5 format) a b ↔
      ((¬a.Finite parse ∧ ¬b.Finite parse) ∨
        Agree parse .asSent a b →
        Agree parse .exactly a b) := by
  rw [← configHash_eq_iff collisionFree named left right]
  constructor
  · exact fun loses => loses.hashes
  · exact fun hashes => ⟨fun same => hashes (congrArg Message.configHash same), hashes⟩

/-- Numbers are told apart, if only by counting them. -/
def FloatFormat.counting : FloatFormat where
  literal value := .ofInt (Encodable.encode value)
  injective _ _ same :=
    Encodable.encode_injective (Int.ofNat.inj (Json.Literal.ofInt_injective same))

/-- An object with one rule, for requests with a header. -/
def headerInjection (value : String) : Spec.Injection where
  name := "agents"
  plain := by decide
  httpFaultInjections := [⟨"rule", some ⟨"1s", "40"⟩, some ⟨500, "40"⟩,
    some ⟨[], [⟨none, none, "GET", [⟨"user-agent", value⟩]⟩]⟩, none⟩]

/-- An object with one rule of another name. -/
def otherInjection : Spec.Injection where
  name := "agents"
  plain := by decide
  httpFaultInjections := [⟨"other", none, some ⟨503, "40"⟩,
    some ⟨[], [⟨none, none, "PUT", []⟩]⟩, none⟩]

/-- Every duration is read as a second, every percentage as 40. -/
def constant : Parsers := ⟨fun _ => some 1000000000, fun _ => some (.finite 40)⟩

/-- All texts can be read. -/
theorem parsable_constant (fi : Spec.Injection) : fi.Parsable constant := by
  rintro rule -
  exact ⟨fun _ _ => ⟨rfl, rfl⟩, fun _ _ => rfl⟩

/-- The names of the rules are sent. -/
theorem losesNothing_other : (headerInjection "curl").Parsable constant ∧
    LosesNothing constant (md5OfJSON id .counting) (headerInjection "curl") otherInjection := by
  have finite : otherInjection.Finite constant := by
    rintro rule -
    exact ⟨fun _ _ percent isPercent => by cases isPercent; rfl,
      fun _ _ percent isPercent => by cases isPercent; rfl⟩
  refine ⟨parsable_constant _, (losesNothing_iff Function.injective_id .counting
    (a := headerInjection "curl") (b := otherInjection) rfl (parsable_constant _)
    (parsable_constant _)).mpr ?_⟩
  rintro (⟨-, infinite⟩ | agree)
  · exact absurd finite infinite
  · exact absurd (List.forall₂_cons.mp agree).1.name (by decide)

/-- Objects with different values of a header are converted to the same message. -/
theorem header_value_is_lost :
    ¬∀ (parse : Parsers) (md5 : String → String) (format : FloatFormat) (a b : Spec.Injection),
      Function.Injective md5 → a.name = b.name → a.Parsable parse → b.Parsable parse →
      LosesNothing parse (md5OfJSON md5 format) a b := by
  intro loses
  have agree := (loses constant id .counting (headerInjection "curl") (headerInjection "go")
    Function.injective_id rfl (parsable_constant _) (parsable_constant _)).messages rfl
  have matches_ := rel_some_some.mp (List.forall₂_cons.mp agree).1.match_
  have headers := (List.forall₂_cons.mp matches_.httpMatch).1.headers
  have header := (List.forall₂_cons.mp headers).1
  exact absurd (congrArg HttpHeader.value header) (by decide)

end CtrlMesh.FaultInjection
