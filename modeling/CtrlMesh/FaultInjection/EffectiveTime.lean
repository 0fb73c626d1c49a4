import CtrlMesh.FaultInjection.Proto

/-!
# When a rule is effective

`isEffectiveTimeRange` of `manager.go`. A range may restrict the time of day, the day of the week,
the day of the month and the month. A range without a start or without an end is taken for
effective before its days and months are read.
-/

namespace CtrlMesh.FaultInjection

/-- A time of the day. -/
structure TimeOfDay where
  hour : Fin 24
  minute : Fin 60
  second : Fin 60
  deriving DecidableEq

/-- Seconds since midnight. -/
def TimeOfDay.seconds (time : TimeOfDay) : Nat :=
  time.hour * 3600 + time.minute * 60 + time.second

/-- The value of a decimal digit. -/
def digitValue (ch : Char) : Nat := ch.toNat - 48

/-- `getnum` of the package `time`: one or two digits, or exactly two. -/
def getnum (fixed : Bool) : List Char → Option (Nat × List Char)
  | [] => none
  | first :: value =>
    if !first.isDigit then none
    else match value with
      | second :: rest =>
        if second.isDigit then some (digitValue first * 10 + digitValue second, rest)
        else if fixed then none
        else some (digitValue first, second :: rest)
      | [] => if fixed then none else some (digitValue first, [])

/-- The colon between two numbers. -/
def skipColon : List Char → Option (List Char)
  | ':' :: value => some value
  | _ => none

/-- A fraction of a second, which is taken without being in the layout. -/
def skipFraction : List Char → List Char
  | mark :: digit :: value =>
    if (mark = '.' ∨ mark = ',') ∧ digit.isDigit then value.dropWhile (·.isDigit)
    else mark :: digit :: value
  | value => value

/-- `time.ParseInLocation` with the layout `15:04:05`. -/
def parseTime (text : String) : Option TimeOfDay := do
  let (hour, value) ← getnum false text.toList
  let value ← skipColon value
  let (minute, value) ← getnum true value
  let value ← skipColon value
  let (second, value) ← getnum true value
  if valid : (hour < 24 ∧ minute < 60 ∧ second < 60) ∧ skipFraction value = [] then
    some ⟨⟨hour, valid.1.1⟩, ⟨minute, valid.1.2.1⟩, ⟨second, valid.1.2.2⟩⟩
  else none

example : parseTime "9:05:30.25" = some ⟨9, 5, 30⟩ ∧ parseTime "9:5:30" = none ∧
    parseTime "24:00:00" = none := by decide

/-- A UTC time, as far as it is read. -/
structure Now where
  time : TimeOfDay
  weekday : Fin 7
  day : Nat
  month : Nat
  deriving DecidableEq

/-- A loop that looks for a number in a list, if the list has elements. -/
def included (list : List Int32) (current : Nat) : Bool :=
  if list.length > 0 then list.any fun entry => Int32.ofNat current == entry else true

/-- `isEffectiveTimeRange`. -/
def isEffectiveTimeRange (timeRange : EffectiveTimeRange) (now : Now) : Bool :=
  if timeRange.startTime = "" ∨ timeRange.endTime = "" then true
  else
    match parseTime timeRange.startTime, parseTime timeRange.endTime with
    | some startTime, some endTime =>
      if now.time.seconds < startTime.seconds then false
      else if now.time.seconds > endTime.seconds then false
      else if !included timeRange.daysOfWeek now.weekday then false
      else if !included timeRange.daysOfMonth now.day then false
      else if !included timeRange.months now.month then false
      else true
    | _, _ => false

/-- The list is empty or has the number. -/
def Admits (list : List Int32) (current : Nat) : Prop := list ≠ [] → Int32.ofNat current ∈ list

/-- The days and the month are such as the range lists. -/
structure DatesHold (timeRange : EffectiveTimeRange) (now : Now) : Prop where
  weekday : Admits timeRange.daysOfWeek now.weekday
  day : Admits timeRange.daysOfMonth now.day
  month : Admits timeRange.months now.month

/-- Both times are given. -/
def Timed (timeRange : EffectiveTimeRange) : Prop :=
  timeRange.startTime ≠ "" ∧ timeRange.endTime ≠ ""

/-- The times can be parsed, and the time of day is between them. -/
def TimeHolds (timeRange : EffectiveTimeRange) (now : Now) : Prop :=
  ∃ startTime endTime, parseTime timeRange.startTime = some startTime ∧
    parseTime timeRange.endTime = some endTime ∧ startTime.seconds ≤ now.time.seconds ∧
    now.time.seconds ≤ endTime.seconds

/-- Every restriction that is set holds. -/
structure RestrictionsHold (timeRange : EffectiveTimeRange) (now : Now) : Prop where
  time : Timed timeRange → TimeHolds timeRange now
  dates : DatesHold timeRange now

section

variable {timeRange : EffectiveTimeRange} {now : Now}

/-- The loop admits what the list admits. -/
theorem included_iff {list : List Int32} {current : Nat} :
    included list current = true ↔ Admits list current := by
  unfold included Admits
  cases list with
  | nil => simp
  | cons first list =>
    have long : (first :: list).length > 0 := Nat.succ_pos _
    rw [if_pos long, List.any_eq_true]
    simp only [beq_iff_eq, exists_eq_right', ne_eq, reduceCtorEq, not_false_eq_true, forall_const]

/-- A range with both times is effective exactly if all of it holds. -/
theorem isEffectiveTimeRange_of_timed (timed : Timed timeRange) :
    isEffectiveTimeRange timeRange now = true ↔
      TimeHolds timeRange now ∧ DatesHold timeRange now := by
  have given : ¬(timeRange.startTime = "" ∨ timeRange.endTime = "") := not_or.mpr timed
  unfold isEffectiveTimeRange TimeHolds
  rw [if_neg given]
  cases parseTime timeRange.startTime with
  | none => simp
  | some startTime =>
    cases parseTime timeRange.endTime with
    | none => simp
    | some endTime =>
      have dates : DatesHold timeRange now ↔ included timeRange.daysOfWeek now.weekday = true ∧
          included timeRange.daysOfMonth now.day = true ∧
          included timeRange.months now.month = true := by
        simp only [included_iff]
        exact ⟨fun holds => ⟨holds.weekday, holds.day, holds.month⟩,
          fun holds => ⟨holds.1, holds.2.1, holds.2.2⟩⟩
      rw [dates]
      by_cases early : now.time.seconds < startTime.seconds
      · simp [early]
      by_cases late : now.time.seconds > endTime.seconds
      · simp [early, late]
      have within : startTime.seconds ≤ now.time.seconds ∧ now.time.seconds ≤ endTime.seconds := by
        omega
      simp [early, late, within]

/-- Without both times a range is always in effect. -/
theorem isEffectiveTimeRange_of_not_timed (untimed : ¬Timed timeRange) :
    isEffectiveTimeRange timeRange now = true := by
  have missing : timeRange.startTime = "" ∨ timeRange.endTime = "" := by
    by_contra given
    exact untimed (not_or.mp given)
  rw [isEffectiveTimeRange, if_pos missing]

end

/-- A range is effective exactly if every restriction that is set holds, provided that both times
are given or the days and the month hold anyway. -/
theorem effective_iff_restrictions_iff (timeRange : EffectiveTimeRange) (now : Now) :
    (isEffectiveTimeRange timeRange now = true ↔ RestrictionsHold timeRange now) ↔
      Timed timeRange ∨ DatesHold timeRange now := by
  by_cases timed : Timed timeRange
  · refine iff_of_true ?_ (.inl timed)
    rw [isEffectiveTimeRange_of_timed timed]
    exact ⟨fun holds => ⟨fun _ => holds.1, holds.2⟩, fun holds => ⟨holds.time timed, holds.dates⟩⟩
  · rw [or_iff_right timed, iff_true_left (isEffectiveTimeRange_of_not_timed timed)]
    exact ⟨fun holds => holds.dates, fun dates => ⟨fun given => absurd given timed, dates⟩⟩

/-- A rule for January is effective in December. -/
theorem effective_in_other_month :
    ¬∀ (timeRange : EffectiveTimeRange) (now : Now),
      isEffectiveTimeRange timeRange now = true ↔ RestrictionsHold timeRange now := by
  intro agrees
  have effective := (agrees ⟨"", "", [], [], [1]⟩ ⟨⟨0, 0, 0⟩, 0, 1, 12⟩).mp (by decide)
  have member := effective.dates.month (by decide)
  revert member
  decide

end CtrlMesh.FaultInjection
