import Tigge.GribMessage
import Tigge.JulianDate

/-! The keys `startStep` and `endStep`, which are computed from coded keys: `step_in_units` and
`g2end_step`. -/

namespace Tigge
open Lib

/-- The seconds of the units of table 4.4; a unit without a fixed length has `-1`. -/
def u2s2 : ℤ → ℤ
  | 0 => 60
  | 1 => 3600
  | 2 => 86400
  | 3 => 2592000
  | 10 => 10800
  | 11 => 21600
  | 12 => 43200
  | 13 => 1
  | _ => -1

/-- The table for `stepUnits`, with two units more. -/
def u2s : ℤ → ℤ
  | 14 => 900
  | 15 => 1800
  | unit => u2s2 unit

/-- A number of coded units in other units: the number before the division and the divisor, which
are both in minutes where seconds are negative. -/
def convertUnits (v codedUnits stepUnits : ℤ) : Except GribError (ℤ × ℤ) :=
  let seconds := v * u2s2 codedUnits
  if seconds < 0 then
    if (u2s2 codedUnits).tmod 60 ≠ 0 ∨ (u2s stepUnits).tmod 60 ≠ 0 then .error .decodingError
    else .ok (v * (u2s2 codedUnits).tdiv 60, (u2s stepUnits).tdiv 60)
  else .ok (seconds, u2s stepUnits)

/-- `convert_time_range`. -/
def convertTimeRange (lengthOfTimeRange rangeUnits stepUnits : ℤ) : Except GribError ℤ :=
  if rangeUnits = stepUnits then .ok lengthOfTimeRange
  else do
    let x ← convertUnits lengthOfTimeRange rangeUnits stepUnits
    if x.1.tmod x.2 ≠ 0 then .error .wrongStepUnit else .ok (x.1.tdiv x.2)

namespace GribMessage

variable (m : GribMessage)

/-- Only the template of a statistical product has the keys of a time range. -/
def isStatistical : Bool := (m .lengthOfTimeRange).isSome

/-- `unpack_long` of `step_in_units`. A step that is no whole number of the step units changes
these to the coded ones. -/
def getStartStep : Except GribError (ℤ × GribMessage) := do
  let codedUnits ← m.getLong .indicatorOfUnitOfTimeRange
  let stepUnits ← m.getLong .stepUnits
  let codedStep ← m.getLong .forecastTime
  if stepUnits = codedUnits then
    return (codedStep, m)
  else
    let x ← convertUnits codedStep codedUnits stepUnits
    if x.1.tmod x.2 ≠ 0 then
      let m' ← m.setLong .stepUnits codedUnits
      return (codedStep, m')
    else
      return (x.1.tdiv x.2, m)

/-- The step before it is set, which is computed without a look at the error. -/
def oldStep : ℤ × GribMessage :=
  match m.getStartStep with
  | .ok x => x
  | .error _ =>
    match m.getLong .indicatorOfUnitOfTimeRange, m.getLong .forecastTime with
    | .ok codedUnits, .ok codedStep => (codedStep * u2s2 codedUnits, m)
    | _, _ => (0, m)

/-- The step in coded units, and these; units that do not divide the step are replaced. -/
def codeStep (v codedUnits stepUnits : ℤ) : Except GribError (ℤ × ℤ × GribMessage) :=
  if stepUnits = codedUnits then
    .ok (v, codedUnits, m)
  else if (v * u2s stepUnits).tmod (u2s2 codedUnits) ≠ 0 then do
    let m' ← m.setLong .indicatorOfUnitOfTimeRange stepUnits
    return (v, stepUnits, m')
  else
    .ok ((v * u2s stepUnits).tdiv (u2s2 codedUnits), codedUnits, m)

/-- The start of a time range moves with its step, the end stays. -/
def shortenTimeRange (codedStep codedUnits oldStep : ℤ) : Except GribError GribMessage := do
  if m.isStatistical then
    let rangeUnits ← m.getLong .indicatorOfUnitForTimeRange
    let length ← m.getLong .lengthOfTimeRange
    let shorter :=
      if codedUnits = rangeUnits then length - (codedStep - oldStep)
      else length - (codedStep * u2s2 codedUnits).tdiv (u2s2 rangeUnits)
    m.setLong .lengthOfTimeRange (if 0 < shorter then shorter else 0)
  else return m

/-- `pack_long` of `step_in_units`. -/
def setStartStep (v : ℤ) : Except GribError GribMessage := do
  let codedUnits ← m.getLong .indicatorOfUnitOfTimeRange
  let stepUnits ← m.getLong .stepUnits
  let old := m.oldStep
  let coded ← old.2.codeStep v codedUnits stepUnits
  let m' ← coded.2.2.shortenTimeRange coded.1 coded.2.1 old.1
  m'.setLong .forecastTime coded.1

/-- `unpack_one_time_range` of `g2end_step`. -/
def endOfOneTimeRange : Except GribError (ℤ × GribMessage) := do
  let start ← m.getStartStep
  let unit ← start.2.getLong .stepUnits
  let codedUnit ← start.2.getLong .indicatorOfUnitForTimeRange
  let codedTimeRange ← start.2.getLong .lengthOfTimeRange
  let typeOfTimeIncrement ← start.2.getLong .typeOfTimeIncrement
  let timeRange ← convertTimeRange codedTimeRange codedUnit unit
  return (if typeOfTimeIncrement = 1 then start.1 else start.1 + timeRange, start.2)

/-- The type of the increment, the unit and the length of each of two time ranges, of which the
keys of the second are only carried along. -/
def twoTimeRanges : List (GribKey × GribKey × GribKey) :=
  [(.typeOfTimeIncrement, .indicatorOfUnitForTimeRange, .lengthOfTimeRange),
    (.other "#2#typeOfTimeIncrement" 1, .other "#2#indicatorOfUnitForTimeRange" 1,
      .other "#2#lengthOfTimeRange" 4)]

/-- `unpack_multiple_time_ranges` of `g2end_step`: the first range with an increment of type 2. -/
def endOfMultipleTimeRanges : Except GribError (ℤ × GribMessage) := do
  let start ← m.getStartStep
  let unit ← start.2.getLong .stepUnits
  let ranges ← twoTimeRanges.mapM fun keys => do
    return (← start.2.getLong keys.1, ← start.2.getLong keys.2.1, ← start.2.getLong keys.2.2)
  match ranges.find? (·.1 = 2) with
  | some range => do
    let timeRange ← convertTimeRange range.2.2 range.2.1 unit
    return (start.1 + timeRange, start.2)
  | none => .error .decodingError

/-- `unpack_long` of `g2end_step`. -/
def getEndStep : Except GribError (ℤ × GribMessage) := do
  let start ← m.getStartStep
  if m.isStatistical then
    let numberOfTimeRange ← start.2.getLong .numberOfTimeRange
    if numberOfTimeRange = 1 then start.2.endOfOneTimeRange
    else if numberOfTimeRange = 2 then start.2.endOfMultipleTimeRanges
    else .error .assertionFailure
  else return start

/-- The six keys of the end of the overall time interval. -/
def setEndOfInterval (t : GribDateTime) : Except GribError GribMessage := do
  let m ← m.setLong .yearOfEndOfOverallTimeInterval t.year
  let m ← m.setLong .monthOfEndOfOverallTimeInterval t.month
  let m ← m.setLong .dayOfEndOfOverallTimeInterval t.day
  let m ← m.setLong .hourOfEndOfOverallTimeInterval t.hour
  let m ← m.setLong .minuteOfEndOfOverallTimeInterval t.minute
  m.setLong .secondOfEndOfOverallTimeInterval t.second

/-- The reference time. -/
def dateTime : Except GribError GribDateTime := do
  let year ← m.getLong .year
  let month ← m.getLong .month
  let day ← m.getLong .day
  let hour ← m.getLong .hour
  let minute ← m.getLong .minute
  let second ← m.getLong .second
  return ⟨year, month, day, hour, minute, second⟩

/-- The time range in its own units, which are replaced when they do not divide it. -/
def codeTimeRange (timeRange unit codedUnit : ℤ) : Except GribError (ℤ × GribMessage) :=
  if (timeRange * u2s unit).tmod (u2s2 codedUnit) ≠ 0 then do
    let m' ← m.setLong .indicatorOfUnitForTimeRange unit
    return (timeRange, m')
  else .ok ((timeRange * u2s unit).tdiv (u2s2 codedUnit), m)

/-- `pack_long` of `g2end_step`, under a rounding of its arithmetic. -/
def setEndStep (R : Rounding) (v : ℤ) : Except GribError GribMessage := do
  if m.isStatistical then
    let codedUnit ← m.getLong .indicatorOfUnitForTimeRange
    let unit ← m.getLong .stepUnits
    let t ← m.dateTime
    let start ← m.getStartStep
    let typeOfTimeIncrement ← start.2.getLong .typeOfTimeIncrement
    if v - start.1 < 0 then .error .wrongStep
    else
      let m' ← start.2.setEndOfInterval (endOfInterval R t v (u2s unit))
      let coded ← m'.codeTimeRange (v - start.1) unit codedUnit
      if typeOfTimeIncrement = 1 then return coded.2
      else coded.2.setLong .lengthOfTimeRange coded.1
  else m.setStartStep v

section RoundTrip
variable {m} {m' : GribMessage}

/-- The keys that the start step is computed from. -/
def startStepKeys : List GribKey := [.indicatorOfUnitOfTimeRange, .stepUnits, .forecastTime]

theorem getStartStep_congr {s : ℤ} (h : m.getStartStep = .ok (s, m))
    (hkeys : ∀ k ∈ startStepKeys, m' k = m k) : m'.getStartStep = .ok (s, m') := by
  unfold getStartStep at h ⊢
  obtain ⟨codedUnits, hcoded, h⟩ := bind_eq_ok h
  obtain ⟨stepUnits, hstep, h⟩ := bind_eq_ok h
  obtain ⟨codedStep, hforecast, h⟩ := bind_eq_ok h
  rw [getLong_congr (hkeys _ (by decide)), hcoded, getLong_congr (hkeys _ (by decide)), hstep,
    getLong_congr (hkeys _ (by decide)), hforecast]
  show (if stepUnits = codedUnits then _ else _) = _
  split at h
  · rename_i heq
    rw [if_pos heq]
    cases h
    rfl
  · rename_i hne
    rw [if_neg hne]
    obtain ⟨x, hx, h⟩ := bind_eq_ok h
    rw [hx]
    show (if x.1.tmod x.2 ≠ 0 then _ else _) = _
    split at h
    · -- the step units would be the coded ones then
      obtain ⟨m₁, hset, h⟩ := bind_eq_ok h
      obtain ⟨-, rfl⟩ := Prod.mk.inj (Except.ok.inj h)
      have hbounds := getLong_bounds hcoded rfl rfl
      have hget := setLong_getLong hset (.inr ⟨hbounds, fun h => by cases h.1⟩)
      rw [hstep] at hget
      exact absurd (Except.ok.inj hget) hne
    · rename_i hdvd
      rw [if_neg hdvd]
      cases h
      rfl

/-- The keys of the end of the overall time interval. -/
def endOfIntervalKeys : List GribKey :=
  [.yearOfEndOfOverallTimeInterval, .monthOfEndOfOverallTimeInterval,
    .dayOfEndOfOverallTimeInterval, .hourOfEndOfOverallTimeInterval,
    .minuteOfEndOfOverallTimeInterval, .secondOfEndOfOverallTimeInterval]

theorem setEndOfInterval_frame {t : GribDateTime} (h : m.setEndOfInterval t = .ok m')
    {k : GribKey} (hk : k ∉ endOfIntervalKeys) : m' k = m k := by
  obtain ⟨m₁, h₁, h⟩ := bind_eq_ok h
  obtain ⟨m₂, h₂, h⟩ := bind_eq_ok h
  obtain ⟨m₃, h₃, h⟩ := bind_eq_ok h
  obtain ⟨m₄, h₄, h⟩ := bind_eq_ok h
  obtain ⟨m₅, h₅, h₆⟩ := bind_eq_ok h
  simp only [endOfIntervalKeys, List.mem_cons, List.not_mem_nil, or_false, not_or] at hk
  obtain ⟨hyear, hmonth, hday, hhour, hminute, hsecond⟩ := hk
  rw [setLong_frame h₆ hsecond, setLong_frame h₅ hminute, setLong_frame h₄ hhour,
    setLong_frame h₃ hday, setLong_frame h₂ hmonth, setLong_frame h₁ hyear]

theorem codeTimeRange_frame {timeRange unit codedUnit : ℤ} {x : ℤ × GribMessage}
    (h : m.codeTimeRange timeRange unit codedUnit = .ok x) {k : GribKey}
    (hk : k ≠ .indicatorOfUnitForTimeRange) : x.2 k = m k := by
  unfold codeTimeRange at h
  split at h
  · obtain ⟨m₁, hset, h⟩ := bind_eq_ok h
    cases h
    exact setLong_frame hset hk
  · cases h
    rfl

theorem convertTimeRange_same (length unit : ℤ) : convertTimeRange length unit unit = .ok length :=
  if_pos rfl

theorem u2s_of_pos {unit : ℤ} (h : 0 < u2s2 unit) : u2s unit = u2s2 unit := by
  unfold u2s
  split
  · exact absurd h (by decide)
  · exact absurd h (by decide)
  · rfl

/-- A length that makes the same seconds in other units is converted back. -/
theorem convertTimeRange_of_seconds {length codedUnit timeRange unit : ℤ}
    (hcoded : 0 < u2s2 codedUnit) (hunit : 0 < u2s unit) (hnonneg : 0 ≤ timeRange)
    (h : length * u2s2 codedUnit = timeRange * u2s unit) :
    convertTimeRange length codedUnit unit = .ok timeRange := by
  by_cases heq : codedUnit = unit
  · subst heq
    rw [u2s_of_pos hcoded] at h
    rw [convertTimeRange_same, Int.eq_of_mul_eq_mul_right hcoded.ne' h]
  · have hseconds : ¬length * u2s2 codedUnit < 0 := by
      rw [h]
      exact not_lt.mpr (mul_nonneg hnonneg hunit.le)
    rw [convertTimeRange, if_neg heq, convertUnits, if_neg hseconds, h]
    show (if (timeRange * u2s unit).tmod (u2s unit) ≠ 0 then _ else _) = _
    rw [if_neg (not_not.mpr (Int.mul_tmod_left ..)), Int.mul_tdiv_cancel _ hunit.ne']

/-- What is coded of a time range: the units, and a length that makes the same seconds. -/
theorem codeTimeRange_spec {timeRange unit codedUnit : ℤ} {x : ℤ × GribMessage}
    (h : m.codeTimeRange timeRange unit codedUnit = .ok x)
    (hunits : m.getLong .indicatorOfUnitForTimeRange = .ok codedUnit) (hcoded : 0 < u2s2 codedUnit)
    (hunit : 0 < u2s unit) (hbyte : 0 ≤ unit ∧ unit < 256) (hnonneg : 0 ≤ timeRange) :
    (0 ≤ x.1 ∧ x.1 ≤ timeRange * u2s unit) ∧
      ∃ u, x.2.getLong .indicatorOfUnitForTimeRange = .ok u ∧
        convertTimeRange x.1 u unit = .ok timeRange := by
  unfold codeTimeRange at h
  split at h
  · obtain ⟨m₁, hset, h⟩ := bind_eq_ok h
    cases h
    refine ⟨⟨hnonneg, le_mul_of_one_le_right hnonneg hunit⟩, unit, ?_,
      convertTimeRange_same timeRange unit⟩
    exact setLong_getLong hset (.inr ⟨hbyte, fun h => by cases h.1⟩)
  · rename_i hmod
    cases h
    have hseconds : 0 ≤ timeRange * u2s unit := mul_nonneg hnonneg hunit.le
    have hdvd := Int.dvd_of_tmod_eq_zero (not_not.mp hmod)
    refine ⟨⟨Int.tdiv_nonneg hseconds hcoded.le, ?_⟩, codedUnit, hunits, ?_⟩
    · rw [Int.tdiv_eq_ediv_of_nonneg hseconds]
      exact Int.ediv_le_self _ hseconds
    · exact convertTimeRange_of_seconds hcoded hunit hnonneg (Int.tdiv_mul_cancel hdvd)

end RoundTrip

end GribMessage

end Tigge
