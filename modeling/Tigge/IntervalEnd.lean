import Tigge.Names
import Tigge.TimeAdd

/-! The end of the interval that the six-hourly snowfall is accumulated over, which
`generateSnowFallWaterEquivalent` has the C library compute in the time zone of the process. -/

namespace Tigge
open Lib

/-- `struct tm`, with a `tm_isdst` of 0. -/
structure Tm where
  tm_year : ℤ
  tm_mon : ℤ
  tm_mday : ℤ
  tm_hour : ℤ
  tm_min : ℤ
  tm_sec : ℤ
  deriving DecidableEq

/-- A time zone. Times are counted in seconds from the first of January of the year 0. -/
structure Zone where
  /-- the instant of a local standard time -/
  instant : ℤ → ℤ
  /-- how far the clock is ahead of standard time at an instant -/
  saving : ℤ → ℤ

namespace Tm

/-- The time that the fields stand for, whatever range they are in. -/
def seconds (t : Tm) : ℤ :=
  86400 * dayNumber (t.tm_year + 1900 + t.tm_mon / 12) (t.tm_mon % 12 + 1) t.tm_mday +
    3600 * t.tm_hour + 60 * t.tm_min + t.tm_sec

def ofSeconds (s : ℤ) : Tm where
  tm_year := (dateOf (s / 86400)).1 - 1900
  tm_mon := (dateOf (s / 86400)).2.1 - 1
  tm_mday := (dateOf (s / 86400)).2.2
  tm_hour := s % 86400 / 3600
  tm_min := s % 3600 / 60
  tm_sec := s % 60

end Tm

def epoch : ℤ := 86400 * dayNumber 1970 1 1

def gmtime (t : ℤ) : Tm := .ofSeconds (epoch + t)

/-- The fields are read as standard time and rewritten as the time of the clock. -/
def mktime (z : Zone) (t : Tm) : Tm := .ofSeconds (t.seconds + z.saving (z.instant t.seconds))

/-- The `timeStructure` of `generateSnowFallWaterEquivalent` when `mktime` gets it. Minutes and
seconds are still those of the current time. -/
def timeStructure (now : ℤ) (d : CycleDate) (fff : ℕ) : Tm :=
  let t := gmtime now
  let t := { t with tm_year := d.yyyy - 1900, tm_mon := d.mm - 1, tm_mday := d.dd, tm_hour := d.hh }
  { t with tm_hour := t.tm_hour + (fff + 6) }

/-- `yearOfEndOfOverallTimeInterval` and the month, the day and the hour. -/
def endOfOverallTimeInterval (z : Zone) (now : ℤ) (d : CycleDate) (fff : ℕ) : ℤ × ℤ × ℤ × ℤ :=
  let t := mktime z (timeStructure now d fff)
  (t.tm_year + 1900, t.tm_mon + 1, t.tm_mday, t.tm_hour)

/-- `tmInit`. -/
def tmInit (d : CycleDate) : Dt := ⟨d.yyyy, d.mm, d.dd, d.hh, 0⟩

/-- `tmEnd` before `timeAdd`. -/
def tmEnd (fff : ℕ) : Dt := ⟨0, 0, 0, fff, 0⟩

/-- Daylight saving leaves the clock in the hour of standard time, with the minutes and seconds
that it has then. -/
def KeepsHour (z : Zone) (now : ℤ) (d : CycleDate) (fff : ℕ) : Prop :=
  let saving := z.saving (z.instant (timeStructure now d fff).seconds)
  0 ≤ now % 3600 + saving ∧ now % 3600 + saving < 3600

theorem ofSeconds_isDate (s : ℤ) : IsDate ((Tm.ofSeconds s).tm_year + 1900)
    ((Tm.ofSeconds s).tm_mon + 1) (Tm.ofSeconds s).tm_mday := by
  simp only [Tm.ofSeconds, sub_add_cancel]
  exact (dateOf_spec (s / 86400)).1

theorem ofSeconds_hours (s : ℤ) : 24 * dayNumber ((Tm.ofSeconds s).tm_year + 1900)
    ((Tm.ofSeconds s).tm_mon + 1) (Tm.ofSeconds s).tm_mday + (Tm.ofSeconds s).tm_hour =
      s / 3600 := by
  simp only [Tm.ofSeconds, sub_add_cancel, (dateOf_spec (s / 86400)).2]
  omega

/-- A date and an hour are known by the number of hours before them. -/
theorem date_hour_eq_iff {y m d h y' m' d' h' : ℤ} (hdate : IsDate y m d) (hdate' : IsDate y' m' d')
    (hh : 0 ≤ h ∧ h ≤ 23) (hh' : 0 ≤ h' ∧ h' ≤ 23) : (y, m, d, h) = (y', m', d', h') ↔
      24 * dayNumber y m d + h = 24 * dayNumber y' m' d' + h' := by
  constructor
  · intro heq
    obtain ⟨rfl, rfl, rfl, rfl⟩ := by simpa only [Prod.mk.injEq] using heq
    rfl
  · intro heq
    obtain ⟨rfl, rfl, rfl⟩ := hdate.eq_of_dayNumber_eq hdate' (by omega)
    obtain rfl : h = h' := by omega
    rfl

theorem timeStructure_seconds (now : ℤ) {d : CycleDate} (hd : (tmInit d).Valid) (fff : ℕ) :
    (timeStructure now d fff).seconds =
      3600 * (24 * dayNumber d.yyyy d.mm d.dd + d.hh + (fff + 6)) + now % 3600 := by
  have hm := hd.date.month_pos
  have hle := hd.date.month_le
  change 1 ≤ d.mm at hm
  change d.mm ≤ 12 at hle
  have hyear : d.yyyy - 1900 + 1900 + (d.mm - 1) / 12 = d.yyyy := by omega
  have hmonth : (d.mm - 1) % 12 + 1 = d.mm := by omega
  have hepoch : epoch = 3600 * (24 * dayNumber 1970 1 1) := by
    rw [epoch]
    ring
  simp only [timeStructure, Tm.seconds, gmtime, Tm.ofSeconds, hyear, hmonth]
  omega

/-- The end of the interval is the one that `timeAdd` finds exactly when the clock of the process
shows the hour of standard time then. -/
theorem endOfOverallTimeInterval_eq_iff (z : Zone) (now : ℤ) {d : CycleDate}
    (hd : (tmInit d).Valid) (fff : ℕ) : ∃ n, ∀ fuel ≥ n, ∃ r,
      timeAdd fuel (tmInit d) (tmEnd (fff + 6)) = some r ∧
        (endOfOverallTimeInterval z now d fff = (r.yr, r.mo, r.dy, r.hr) ↔
          KeepsHour z now d fff) := by
  have hoffset : (tmEnd (fff + 6)).NonNegative :=
    ⟨le_rfl, le_rfl, le_rfl, Int.natCast_nonneg _, le_rfl⟩
  obtain ⟨n, hn⟩ := timeAdd_correct hd hoffset
  refine ⟨n, fun fuel hfuel => ?_⟩
  obtain ⟨r, hr, hvalid, -, hminutes⟩ := hn fuel hfuel
  refine ⟨r, hr, ?_⟩
  have hnumber := hminutes rfl rfl
  simp only [Dt.minuteNumber, tmInit, tmEnd] at hnumber
  have hmn := hvalid.mn_nonneg
  have hmn' := hvalid.mn_le
  have hhours : 24 * dayNumber r.yr r.mo r.dy + r.hr =
      24 * dayNumber d.yyyy d.mm d.dd + d.hh + (fff + 6) := by
    push_cast at hnumber
    omega
  generalize hs : (timeStructure now d fff).seconds + z.saving
    (z.instant (timeStructure now d fff).seconds) = s
  have hhour : 0 ≤ (Tm.ofSeconds s).tm_hour ∧ (Tm.ofSeconds s).tm_hour ≤ 23 := by
    simp only [Tm.ofSeconds]
    omega
  have hend : endOfOverallTimeInterval z now d fff = ((Tm.ofSeconds s).tm_year + 1900,
      (Tm.ofSeconds s).tm_mon + 1, (Tm.ofSeconds s).tm_mday, (Tm.ofSeconds s).tm_hour) := by
    rw [← hs]
    rfl
  rw [hend, date_hour_eq_iff (ofSeconds_isDate s) hvalid.date hhour
    ⟨hvalid.hr_nonneg, hvalid.hr_le⟩, ofSeconds_hours, hhours, KeepsHour, ← hs]
  generalize z.saving (z.instant (timeStructure now d fff).seconds) = saving
  rw [timeStructure_seconds now hd]
  omega

/-- Where the clock is set forward by whole hours, any daylight saving changes the hour. -/
theorem keepsHour_iff_of_dvd {z : Zone} {now : ℤ} {d : CycleDate} {fff : ℕ}
    (h : 3600 ∣ z.saving (z.instant (timeStructure now d fff).seconds)) :
    KeepsHour z now d fff ↔ z.saving (z.instant (timeStructure now d fff).seconds) = 0 := by
  rw [KeepsHour]
  omega

/-- Five hours behind Greenwich, an hour less from March to November of 2021. -/
def eastern2021 : Zone where
  instant s := s + 5 * 3600
  saving t :=
    if 86400 * dayNumber 2021 3 14 + 7 * 3600 ≤ t ∧ t < 86400 * dayNumber 2021 11 7 + 6 * 3600 then
      3600
    else 0

theorem endOfOverallTimeInterval_summer : ∃ n, ∀ fuel ≥ n, ∃ r,
    timeAdd fuel (tmInit ⟨2021, 6, 30, 18⟩) (tmEnd (0 + 6)) = some r ∧
      (endOfOverallTimeInterval eastern2021 0 ⟨2021, 6, 30, 18⟩ 0 = (r.yr, r.mo, r.dy, r.hr) ↔
        KeepsHour eastern2021 0 ⟨2021, 6, 30, 18⟩ 0) :=
  endOfOverallTimeInterval_eq_iff eastern2021 0
    ⟨⟨by decide, by decide, by decide, by decide⟩, by decide, by decide, by decide, by decide⟩ 0

/-- The first of July begins when the accumulation ends, and the hour is given as 1. -/
theorem endOfOverallTimeInterval_ne_timeAdd :
    timeAdd 40 (tmInit ⟨2021, 6, 30, 18⟩) (tmEnd (0 + 6)) = some ⟨2021, 7, 1, 0, 0⟩ ∧
      endOfOverallTimeInterval eastern2021 0 ⟨2021, 6, 30, 18⟩ 0 = (2021, 7, 1, 1) := by
  decide +kernel

end Tigge
