import Tigge.Lib.Rounding
import Tigge.GribDate
import Tigge.IntervalEnd

/-! The calendar of `grib_date.c` in floating-point arithmetic: a date and a time become a Julian
date, and this with a step added becomes the date and time of the end of an interval. -/

namespace Tigge
open Lib

structure GribDateTime where
  year : ℤ
  month : ℤ
  day : ℤ
  hour : ℤ
  minute : ℤ
  second : ℤ
  deriving DecidableEq

section Definitions
variable (R : Rounding)

/-- The macro `ROUND`. -/
def roundLong (a : ℚ) : ℤ :=
  if 0 ≤ a then truncate (R.fl (a + 1 / 2)) else truncate (R.fl (a - 1 / 2))

def gribDatetimeToJulian (t : GribDateTime) : ℚ :=
  let dday := R.fl (R.fl ((t.hour * 3600 + t.minute * 60 + t.second : ℤ) / (86400 : ℤ)) + t.day)
  let y := if t.month < 3 then t.year - 1 else t.year
  let m := if t.month < 3 then t.month + 12 else t.month
  let a := truncate (R.fl (y / (100 : ℤ)))
  let century := R.fl (R.fl (2 - a) + truncate (R.fl (a / (4 : ℤ))))
  let b :=
    if 1582 < y then century
    else if y = 1582 then
      if 10 < m then century else if m = 10 then if 14 < t.day then century else 0 else 0
    else 0
  let days := truncate (R.fl (1461 / 4 * (y + 4716))) +
    truncate (R.fl (R.fl (306001 / 10000) * (m + 1)))
  R.fl (R.fl (R.fl (days + dday) + b) - 3049 / 2)

def gribJulianToDatetime (jd : ℚ) : GribDateTime :=
  let jd := R.fl (jd + 1 / 2)
  let z := truncate jd
  let f := R.fl (jd - z)
  let a :=
    if z < 2299161 then z
    else
      let alpha := truncate (R.fl (R.fl (z - 7468865 / 4) / (146097 / 4)))
      z + 1 + alpha - truncate (R.fl (alpha / (4 : ℤ)))
  let b := a + 1524
  let c := truncate (R.fl (R.fl (b - R.fl (1221 / 10)) / (1461 / 4)))
  let d := truncate (R.fl (1461 / 4 * c))
  let e := truncate (R.fl ((b - d : ℤ) / R.fl (306001 / 10000)))
  let dday := R.fl ((b - d - truncate (R.fl (R.fl (306001 / 10000) * e)) : ℤ) + f)
  let day := truncate dday
  let dday := R.fl (dday - day)
  let s := roundLong R (R.fl (dday * 86400))
  let month := if e < 14 then e - 1 else e - 13
  { year := if 2 < month then c - 4716 else c - 4715
    month := month
    day := day
    hour := s.tdiv 3600
    minute := (s.tmod 3600).tdiv 60
    second := s.tmod 60 }

end Definitions

section Arithmetic
variable (R : Rounding)

/-- A number that is nearly another one has the integer part of that one. -/
theorem truncate_near {x e d : ℚ} {n : ℤ} (hn : 0 ≤ n) (h : |x - e| ≤ d) (hlo : n + d ≤ e)
    (hhi : e + d < n + 1) : truncate x = n := by
  obtain ⟨hbelow, habove⟩ := abs_le.mp h
  exact truncate_eq hn (by linarith) (by linarith)

/-- The constant 30.6001 is not a double. -/
theorem fl_monthLength : |R.fl (306001 / 10000) - 306001 / 10000| ≤ 1 / 2 ^ 48 :=
  R.near (by norm_num) (by norm_num [abs_lt])

theorem truncate_fl_months {k : ℤ} (hk : 4 ≤ k) (hk' : k ≤ 15) :
    truncate (R.fl (R.fl (306001 / 10000) * k)) = 306001 * k / 10000 := by
  have hcast : (4 : ℚ) ≤ k ∧ (k : ℚ) ≤ 15 := by exact_mod_cast And.intro hk hk'
  have hmonth := fl_monthLength R
  have hscaled : |R.fl (306001 / 10000) * k - 306001 / 10000 * k| ≤ 15 / 2 ^ 48 := by
    rw [← sub_mul, abs_mul, abs_of_nonneg (by linarith : (0 : ℚ) ≤ k)]
    calc _ ≤ 1 / 2 ^ 48 * (15 : ℚ) := by gcongr; exact hcast.2
      _ = 15 / 2 ^ 48 := by ring
  have hnear := R.near_of (k := 44) (by norm_num) (x := R.fl (306001 / 10000) * k) (by
    obtain ⟨hbelow, habove⟩ := abs_le.mp hscaled
    rw [abs_lt]
    constructor <;> linarith) hscaled
  -- the exact product is a part in ten thousand off an integer at least
  have hrem : 1 ≤ 306001 * k % 10000 ∧ 306001 * k % 10000 ≤ 9999 := by omega
  have hdiv : (306001 : ℚ) * k =
      10000 * ((306001 * k / 10000 : ℤ) : ℚ) + (306001 * k % 10000 : ℤ) := by
    exact_mod_cast (Int.mul_ediv_add_emod (306001 * k) 10000).symm
  have hrem' : (1 : ℚ) ≤ (306001 * k % 10000 : ℤ) ∧ ((306001 * k % 10000 : ℤ) : ℚ) ≤ 9999 := by
    exact_mod_cast hrem
  apply truncate_near (by omega) hnear <;> linarith

/-- The month that a day belongs to which is counted from the first of March. -/
theorem truncate_fl_month {N e : ℤ} (he : 0 ≤ e) (he' : e ≤ 20)
    (hlo : 306001 * e < 10000 * N) (hhi : 10000 * N < 306001 * (e + 1)) :
    truncate (R.fl (N / R.fl (306001 / 10000))) = e := by
  have hmonth := abs_le.mp (fl_monthLength R)
  have hpos : 0 < R.fl (306001 / 10000) := by linarith
  have he'' : (0 : ℚ) ≤ e ∧ (e : ℚ) ≤ 20 := by exact_mod_cast And.intro he he'
  have hlo' : (306001 : ℚ) * e + 1 ≤ 10000 * N := by exact_mod_cast hlo
  have hhi' : (10000 : ℚ) * N + 1 ≤ 306001 * (e + 1) := by exact_mod_cast hhi
  apply truncate_eq he
  · apply R.int_le_fl (by rw [abs_of_nonneg he]; omega)
    rw [le_div_iff₀ hpos]
    nlinarith
  · have hfl := R.fl_le (x := N / R.fl (306001 / 10000)) (m := (e + 1) * 2 ^ 30 - 1) (k := 30)
      (by rw [abs_of_nonneg (by omega)]; omega) (by norm_num) (by
        rw [div_le_iff₀ hpos]
        push_cast
        nlinarith)
    push_cast at hfl
    linarith

theorem truncate_fl_century {z : ℤ} (hz : 2000000 ≤ z) (hz' : z < 2 ^ 25) :
    truncate (R.fl (R.fl (z - 7468865 / 4) / (146097 / 4))) = (4 * z - 7468865) / 146097 := by
  have hexact : R.fl (z - 7468865 / 4) = (4 * z - 7468865 : ℤ) / 4 := by
    have hfix := R.fixes (4 * z - 7468865) 2 (by rw [abs_of_nonneg (by omega)]; omega) (by norm_num)
    have hquarter : (z : ℚ) - 7468865 / 4 = (4 * z - 7468865 : ℤ) / 2 ^ 2 := by
      push_cast
      ring
    rw [hquarter, hfix]
    norm_num
  have hquot : ((4 * z - 7468865 : ℤ) : ℚ) / 4 / (146097 / 4) =
      (4 * z - 7468865 : ℤ) / (146097 : ℤ) := by
    push_cast
    ring
  rw [hexact, hquot]
  exact R.truncate_fl_div (by omega) (by omega) (by norm_num) (by norm_num)

theorem truncate_fl_year {b : ℤ} (hb : 2000 ≤ b) (hb' : b < 2 ^ 26) :
    truncate (R.fl (R.fl (b - R.fl (1221 / 10)) / (1461 / 4))) = (20 * b - 2442) / 7305 := by
  have hcast : (2000 : ℚ) ≤ b ∧ (b : ℚ) ≤ 2 ^ 26 - 1 := by
    exact_mod_cast And.intro hb (by omega : b ≤ 2 ^ 26 - 1)
  have hconst : |R.fl (1221 / 10) - 1221 / 10| ≤ 1 / 2 ^ 46 :=
    R.near (by norm_num) (by norm_num [abs_lt])
  have hdiff : |R.fl (b - R.fl (1221 / 10)) - (b - 1221 / 10)| ≤ 1 / 2 ^ 46 + 1 / 2 ^ 27 := by
    obtain ⟨hbelow, habove⟩ := abs_le.mp hconst
    apply R.near_of (by norm_num)
    · rw [abs_lt]
      constructor <;> linarith
    · rw [abs_le]
      constructor <;> linarith
  obtain ⟨hbelow, habove⟩ := abs_le.mp hdiff
  have hquot : |R.fl (b - R.fl (1221 / 10)) / (1461 / 4) - (b - 1221 / 10) / (1461 / 4)| ≤
      1 / 2 ^ 27 := by
    rw [← sub_div, abs_div, abs_of_pos (by norm_num : (0 : ℚ) < 1461 / 4),
      div_le_iff₀ (by norm_num)]
    exact hdiff.trans (by norm_num)
  have hnear := R.near_of (k := 35) (by norm_num)
    (x := R.fl (b - R.fl (1221 / 10)) / (1461 / 4)) (by
      rw [abs_div, abs_of_pos (by norm_num : (0 : ℚ) < 1461 / 4), div_lt_iff₀ (by norm_num), abs_lt]
      constructor <;> linarith) hquot
  have hrem : 1 ≤ (20 * b - 2442) % 7305 ∧ (20 * b - 2442) % 7305 ≤ 7304 := by omega
  have hdiv : (20 : ℚ) * b - 2442 =
      7305 * (((20 * b - 2442) / 7305 : ℤ) : ℚ) + ((20 * b - 2442) % 7305 : ℤ) := by
    exact_mod_cast (Int.mul_ediv_add_emod (20 * b - 2442) 7305).symm
  have hrem' : (1 : ℚ) ≤ ((20 * b - 2442) % 7305 : ℤ) ∧
      (((20 * b - 2442) % 7305 : ℤ) : ℚ) ≤ 7304 := by
    exact_mod_cast hrem
  apply truncate_near (by omega) hnear <;> linarith

theorem truncate_fl_days {y : ℤ} (hy : 0 ≤ y) (hy' : y < 2 ^ 20) :
    truncate (R.fl (1461 / 4 * y)) = 1461 * y / 4 := by
  have hquot : (1461 / 4 * y : ℚ) = (1461 * y : ℤ) / (4 : ℤ) := by
    push_cast
    ring
  rw [hquot]
  exact R.truncate_fl_div (by omega) (by omega) (by norm_num) (by norm_num)


namespace GribDateTime

def seconds (t : GribDateTime) : ℤ := t.hour * 3600 + t.minute * 60 + t.second

def julian (t : GribDateTime) : ℤ := julianDay t.year t.month t.day

/-- A time of the Gregorian calendar, in a year that a message has room for. -/
structure Valid (t : GribDateTime) : Prop where
  date : IsDate t.year t.month t.day
  gregorian : julianDay 1582 10 15 ≤ t.julian
  year_le : t.year ≤ 65535
  hour_nonneg : 0 ≤ t.hour
  hour_le : t.hour ≤ 23
  minute_nonneg : 0 ≤ t.minute
  minute_le : t.minute ≤ 59
  second_nonneg : 0 ≤ t.second
  second_le : t.second ≤ 59

end GribDateTime

theorem julianDay_gregorian : julianDay 1582 10 15 = 2299161 := by decide

namespace GribDateTime.Valid
variable {t : GribDateTime}

theorem julian_ge (h : t.Valid) : 2299161 ≤ t.julian := by
  rw [← julianDay_gregorian]
  exact h.gregorian

theorem julian_lt (h : t.Valid) : t.julian < 26000000 := by
  have hyear := h.date.year_bounds.2
  have hmono := daysBeforeYear_mono (show t.year + 1 ≤ 65536 by have := h.year_le; omega)
  have hlast : daysBeforeYear 65536 = 23936532 := by decide
  rw [julian, julianDay]
  omega

theorem seconds_bounds (h : t.Valid) : 0 ≤ t.seconds ∧ t.seconds < 86400 := by
  obtain ⟨_, _, _, hh, hh', hm, hm', hs, hs'⟩ := h
  rw [seconds]
  omega

end GribDateTime.Valid

/-- The number is the day's with the part of it that has passed, and not below the eighths of a
day that have passed. -/
structure IsJulian (d jd : ℚ) (day seconds : ℤ) : Prop where
  eighths : ∀ q : ℤ, 0 ≤ q → 10800 * q ≤ seconds → (day : ℚ) - 1 / 2 + q / 8 ≤ jd
  near : |jd - (day - 1 / 2 + seconds / 86400)| ≤ d

section Sum
variable {A b day J S : ℤ}

/-- The sum of a day number, in the order of the code. -/
def julianSum (A b day S : ℤ) : ℚ :=
  R.fl (R.fl (R.fl (A + R.fl (R.fl (S / (86400 : ℤ)) + day)) + b) - 3049 / 2)

/-- No step of the sum rounds an eighth of a day. -/
theorem julianSum_ge {q : ℤ} (hq : 0 ≤ q) (hq' : q ≤ 8) (hS : 10800 * q ≤ S) (hJ : |J| ≤ 2 ^ 40)
    (hday : |day| ≤ 31) (hA : |A| ≤ 30000000) (htotal : A + day + b = J + 1524) :
    (J : ℚ) - 1 / 2 + q / 8 ≤ julianSum R A b day S := by
  obtain ⟨hJlo, hJhi⟩ := abs_le.mp hJ
  obtain ⟨hdlo, hdhi⟩ := abs_le.mp hday
  obtain ⟨hAlo, hAhi⟩ := abs_le.mp hA
  have hS' : (10800 : ℚ) * q ≤ S := by exact_mod_cast hS
  have htotal' : (A : ℚ) + day + b = J + 1524 := by exact_mod_cast htotal
  have hfrac := R.le_fl (x := (S : ℚ) / (86400 : ℤ)) (m := q) (k := 3) (by rw [abs_le]; omega)
    (by norm_num) (by push_cast; linarith)
  have hpart := R.le_fl (x := R.fl ((S : ℚ) / (86400 : ℤ)) + day) (m := q + 8 * day) (k := 3)
    (by rw [abs_le]; omega) (by norm_num) (by push_cast; linarith)
  have hthird := R.le_fl (x := A + R.fl (R.fl ((S : ℚ) / (86400 : ℤ)) + day))
    (m := q + 8 * day + 8 * A) (k := 3) (by rw [abs_le]; omega) (by norm_num)
    (by push_cast at hpart ⊢; linarith)
  have hfourth := R.le_fl (x := R.fl (A + R.fl (R.fl ((S : ℚ) / (86400 : ℤ)) + day)) + b)
    (m := q + 8 * day + 8 * A + 8 * b) (k := 3) (by rw [abs_le]; omega) (by norm_num)
    (by push_cast at hthird ⊢; linarith)
  have hlast := R.le_fl (x := R.fl (R.fl (A + R.fl (R.fl ((S : ℚ) / (86400 : ℤ)) + day)) + b) -
    3049 / 2) (m := q + 8 * J - 4) (k := 3) (by rw [abs_le]; omega) (by norm_num)
    (by push_cast at hfourth ⊢; linarith)
  push_cast at hlast
  rw [julianSum]
  push_cast
  linarith

/-- Each step adds its own error to the one of the step before. -/
theorem julianSum_near (hS : 0 ≤ S) (hS' : S < 86400) (hJ : 2299161 ≤ J) (hJ' : J < 26000000)
    (hday : 1 ≤ day) (hday' : day ≤ 31) (hA : |A| ≤ 30000000) (htotal : A + day + b = J + 1524) :
    |julianSum R A b day S - (J - 1 / 2 + S / 86400)| ≤ 1 / 2 ^ 25 := by
  obtain ⟨hAlo, hAhi⟩ := abs_le.mp hA
  have hcast : (0 : ℚ) ≤ S ∧ (S : ℚ) ≤ 86399 := by
    exact_mod_cast And.intro hS (by omega : S ≤ 86399)
  have hcastd : (1 : ℚ) ≤ day ∧ (day : ℚ) ≤ 31 := by exact_mod_cast And.intro hday hday'
  have hcastA : (-30000000 : ℚ) ≤ A ∧ (A : ℚ) ≤ 30000000 := by exact_mod_cast And.intro hAlo hAhi
  have hcastJ : (2299161 : ℚ) ≤ J ∧ (J : ℚ) ≤ 26000000 := by exact_mod_cast And.intro hJ hJ'.le
  have htotal' : (A : ℚ) + day + b = J + 1524 := by exact_mod_cast htotal
  have hmode : ((86400 : ℤ) : ℚ) = 86400 := by norm_num
  rw [julianSum, hmode]
  have hfrac : |R.fl ((S : ℚ) / 86400) - S / 86400| ≤ 1 / 2 ^ 53 := by
    apply R.near (by norm_num)
    rw [abs_of_nonneg (by linarith), div_lt_iff₀ (by norm_num)]
    linarith
  generalize R.fl ((S : ℚ) / 86400) = frac at hfrac ⊢
  obtain ⟨hlo, hhi⟩ := abs_le.mp hfrac
  have hpart : |R.fl (frac + day) - (S / 86400 + day)| ≤ 1 / 2 ^ 53 + 1 / 2 ^ 47 :=
    R.near_of (by norm_num) (by rw [abs_lt]; constructor <;> linarith)
      (by rw [add_sub_add_right_eq_sub]; exact hfrac)
  generalize R.fl (frac + day) = dday at hpart ⊢
  obtain ⟨hlo', hhi'⟩ := abs_le.mp hpart
  have hthird : |R.fl (A + dday) - (A + (S / 86400 + day))| ≤
      1 / 2 ^ 53 + 1 / 2 ^ 47 + 1 / 2 ^ 27 :=
    R.near_of (by norm_num) (by rw [abs_lt]; constructor <;> linarith)
      (by rw [add_sub_add_left_eq_sub]; exact hpart)
  generalize R.fl (A + dday) = third at hthird ⊢
  obtain ⟨hlo'', hhi''⟩ := abs_le.mp hthird
  have hfourth : |R.fl (third + b) - (A + (S / 86400 + day) + b)| ≤
      1 / 2 ^ 53 + 1 / 2 ^ 47 + 1 / 2 ^ 27 + 1 / 2 ^ 27 :=
    R.near_of (by norm_num) (by rw [abs_lt]; constructor <;> linarith)
      (by rw [add_sub_add_right_eq_sub]; exact hthird)
  generalize R.fl (third + b) = fourth at hfourth ⊢
  obtain ⟨hlo₄, hhi₄⟩ := abs_le.mp hfourth
  have hlast : |R.fl (fourth - 3049 / 2) - (J - 1 / 2 + S / 86400)| ≤
      1 / 2 ^ 53 + 1 / 2 ^ 47 + 1 / 2 ^ 27 + 1 / 2 ^ 27 + 1 / 2 ^ 27 :=
    R.near_of (by norm_num) (by rw [abs_lt]; constructor <;> linarith)
      (by rw [abs_le]; constructor <;> linarith)
  exact hlast.trans (by norm_num)

end Sum

theorem gribDatetimeToJulian_spec {t : GribDateTime} (h : t.Valid) :
    IsJulian (1 / 2 ^ 25) (gribDatetimeToJulian R t) t.julian t.seconds := by
  have hge := h.julian_ge
  have hlt := h.julian_lt
  obtain ⟨hs, hs'⟩ := h.seconds_bounds
  have hday := h.date.day_pos
  have hday' := h.date.day_le.trans (monthLength_pos _ _).2
  have hyear := h.year_le
  rw [gribDatetimeToJulian]
  generalize hY : (if t.month < 3 then t.year - 1 else t.year) = Y
  generalize hM : (if t.month < 3 then t.month + 12 else t.month) = M
  have hM3 : 3 ≤ M ∧ M ≤ 14 := by
    have := h.date.month_pos
    have := h.date.month_le
    split_ifs at hM <;> omega
  have hmarch := dayNumber_march (y := t.year) (d := t.day) h.date.month_pos h.date.month_le hY.symm
    hM.symm
  have hjulian : t.julian = dayNumber t.year t.month t.day + 1721060 := rfl
  have hY' : 1582 ≤ Y := by omega
  have hYle : Y ≤ 65535 := by split_ifs at hY <;> omega
  have hcent : truncate (R.fl ((Y : ℚ) / (100 : ℤ))) = Y / 100 :=
    R.truncate_fl_div (by omega) (by omega) (by norm_num) (by norm_num)
  have hquad : truncate (R.fl (((Y / 100 : ℤ) : ℚ) / (4 : ℤ))) = Y / 100 / 4 :=
    R.truncate_fl_div (by omega) (by omega) (by norm_num) (by norm_num)
  have hdays : truncate (R.fl (1461 / 4 * ((Y : ℚ) + 4716))) = 1461 * (Y + 4716) / 4 := by
    have := truncate_fl_days R (y := Y + 4716) (by omega) (by omega)
    push_cast at this
    exact this
  have hmonths : truncate (R.fl (R.fl (306001 / 10000) * ((M : ℚ) + 1))) =
      306001 * (M + 1) / 10000 := by
    have := truncate_fl_months R (k := M + 1) (by omega) (by omega)
    push_cast at this
    exact this
  have hcorr : R.fl (R.fl (2 - ((Y / 100 : ℤ) : ℚ)) + ((Y / 100 / 4 : ℤ) : ℚ)) =
      ((2 - Y / 100 + Y / 100 / 4 : ℤ) : ℚ) := by
    have hfirst : R.fl (((2 - Y / 100 : ℤ)) : ℚ) = ((2 - Y / 100 : ℤ) : ℚ) :=
      R.fl_int (by rw [abs_le]; omega)
    have hsecond : R.fl ((2 - Y / 100 + Y / 100 / 4 : ℤ) : ℚ) = _ :=
      R.fl_int (by rw [abs_le]; omega)
    push_cast at hfirst hsecond ⊢
    rw [hfirst, hsecond]
  -- the date is one of the Gregorian calendar in the comparisons of the code as well
  have hb : (if 1582 < Y then ((2 - Y / 100 + Y / 100 / 4 : ℤ) : ℚ)
      else if Y = 1582 then
        if 10 < M then ((2 - Y / 100 + Y / 100 / 4 : ℤ) : ℚ)
        else if M = 10 then
          if 14 < t.day then ((2 - Y / 100 + Y / 100 / 4 : ℤ) : ℚ) else 0
        else 0
      else 0) = ((2 - Y / 100 + Y / 100 / 4 : ℤ) : ℚ) := by
    split_ifs with h1 h2 h3 h4 h5
    · rfl
    · rfl
    · rfl
    · subst h2 h4
      omega
    · subst h2
      omega
    · omega
  rw [hcent, hquad, hdays, hmonths, hcorr, hb]
  have hera : 1461 * (Y + 4716) / 4 = 1461 * Y / 4 + 1722519 := by omega
  have hquad' : Y / 100 / 4 = Y / 400 := by omega
  have htotal : 1461 * (Y + 4716) / 4 + 306001 * (M + 1) / 10000 + t.day +
      (2 - Y / 100 + Y / 100 / 4) = t.julian + 1524 := by omega
  have hsum : |1461 * (Y + 4716) / 4 + 306001 * (M + 1) / 10000| ≤ 30000000 := by
    rw [abs_le]
    omega
  rw [show t.hour * 3600 + t.minute * 60 + t.second = t.seconds from rfl]
  exact ⟨fun q hq hqs => julianSum_ge R hq (by omega) hqs (by rw [abs_le]; omega)
      (by rw [abs_le]; omega) hsum htotal,
    julianSum_near R hs hs' hge hlt hday hday' hsum htotal⟩

theorem roundLong_eq {x : ℚ} {S : ℤ} (hS : 0 ≤ S) (hS' : S < 86400) (hx : 0 ≤ x)
    (h : |x - S| ≤ 1 / 50) : roundLong R x = S := by
  have hcast : (0 : ℚ) ≤ S ∧ (S : ℚ) ≤ 86400 := by exact_mod_cast And.intro hS hS'.le
  obtain ⟨hlo, hhi⟩ := abs_le.mp h
  have hup : |R.fl (x + 1 / 2) - (S + 1 / 2)| ≤ 1 / 50 + 1 / 2 ^ 36 :=
    R.near_of (by norm_num) (by rw [abs_lt]; constructor <;> linarith)
      (by rw [add_sub_add_right_eq_sub]; exact h)
  rw [roundLong, if_pos hx]
  exact truncate_near hS hup (by linarith) (by linarith)

theorem gribJulianToDatetime_spec {t : GribDateTime} {jd : ℚ} (h : t.Valid)
    (hjd : IsJulian (1 / 2 ^ 24) jd t.julian t.seconds) : gribJulianToDatetime R jd = t := by
  have hge := h.julian_ge
  have hlt := h.julian_lt
  obtain ⟨hs, hs'⟩ := h.seconds_bounds
  obtain ⟨Y, hY⟩ : ∃ Y, Y = if t.month < 3 then t.year - 1 else t.year := ⟨_, rfl⟩
  obtain ⟨M, hM⟩ : ∃ M, M = if t.month < 3 then t.month + 12 else t.month := ⟨_, rfl⟩
  have hmarch := marchDate h.date hY hM
  have hnumber := dayNumber_march (y := t.year) (d := t.day) h.date.month_pos h.date.month_le hY hM
  have hjulian : t.julian = dayNumber t.year t.month t.day + 1720997 + 63 := by
    rw [add_assoc]
    rfl
  have hJ : t.julian =
      1461 * Y / 4 - Y / 100 + Y / 400 + 306001 * (M + 1) / 10000 + t.day + 1720997 := by omega
  have hcentury := hmarch.century hJ
  have hyear := hmarch.year
  have hbounds := hmarch.month_ge
  have hbounds' := hmarch.month_le
  have hday := hmarch.day_pos
  have hday' := hmarch.day_le
  have hnext := hmarch.before_next
  have hYge : 1582 ≤ Y := by omega
  have hYle : Y ≤ 65535 := by
    have := h.year_le
    split_ifs at hY <;> omega
  generalize hJdef : t.julian = J at *
  generalize hSdef : t.seconds = S at *
  have hcast : (0 : ℚ) ≤ S ∧ (S : ℚ) ≤ 86399 := by
    exact_mod_cast And.intro hs (by omega : S ≤ 86399)
  have hcastJ : (2299161 : ℚ) ≤ J ∧ (J : ℚ) ≤ 26000000 := by exact_mod_cast And.intro hge hlt.le
  have hcastd : (1 : ℚ) ≤ t.day ∧ (t.day : ℚ) ≤ 31 := by exact_mod_cast And.intro hday hday'
  obtain ⟨hlo, hhi⟩ := abs_le.mp hjd.near
  have hmid := hjd.eighths 0 le_rfl (by omega)
  rw [Int.cast_zero, zero_div, add_zero] at hmid
  unfold gribJulianToDatetime
  extract_lets jd' z f alpha a b c dd e part day part' s month
  -- midnight is the start of the day
  have hstart : ((J : ℤ) : ℚ) ≤ jd' := R.int_le_fl (by rw [abs_le]; omega) (by linarith)
  have hstart' : |jd' - (J + (S : ℚ) / 86400)| ≤ 1 / 2 ^ 24 + 1 / 2 ^ 27 :=
    R.near_of (by norm_num) (by rw [abs_lt]; constructor <;> linarith)
      (by rw [abs_le]; constructor <;> linarith)
  obtain ⟨hlo', hhi'⟩ := abs_le.mp hstart'
  have hz : z = J := truncate_eq (by omega) hstart (by linarith)
  have hzcast : (z : ℚ) = J := by rw [hz]
  have hf : ((0 : ℤ) : ℚ) ≤ f :=
    R.int_le_fl (by norm_num) (by rw [Int.cast_zero]; linarith)
  have hf' : |f - (S : ℚ) / 86400| ≤ 1 / 2 ^ 24 + 1 / 2 ^ 27 + 1 / 2 ^ 52 :=
    R.near_of (by norm_num) (by rw [abs_lt]; constructor <;> linarith)
      (by rw [abs_le]; constructor <;> linarith)
  rw [Int.cast_zero] at hf
  obtain ⟨hflo, hfhi⟩ := abs_le.mp hf'
  have halpha : alpha = Y / 100 - 4 := by
    simp only [alpha, hz]
    rw [truncate_fl_century R (by omega) (by omega), hcentury]
  have ha : a = J + 1 + (Y / 100 - 4) - (Y / 100 - 4) / 4 := by
    simp only [a, hz, if_neg (by omega : ¬ J < 2299161), halpha]
    rw [R.truncate_fl_div (by omega) (by omega) (by norm_num) (by norm_num)]
  have hb : b = 1461 * Y / 4 + (306001 * (M + 1) / 10000 + t.day) + 1722519 := by
    simp only [b, ha]
    omega
  have hc : c = Y + 4716 := by
    simp only [c]
    rw [truncate_fl_year R (by omega) (by omega), hb, hyear]
  have hd : dd = 1461 * (Y + 4716) / 4 := by
    simp only [dd, hc]
    exact truncate_fl_days R (by omega) (by omega)
  have hrest : b - dd = 306001 * (M + 1) / 10000 + t.day := by omega
  have he : e = M + 1 := by
    simp only [e, hrest]
    exact truncate_fl_month R (by omega) (by omega) (by omega) (by omega)
  have hmonths : truncate (R.fl (R.fl (306001 / 10000) * e)) = 306001 * (M + 1) / 10000 := by
    rw [he]
    exact truncate_fl_months R (by omega) (by omega)
  have hpart : ((t.day : ℤ) : ℚ) ≤ part := by
    simp only [part, hrest, hmonths, add_sub_cancel_left]
    exact R.int_le_fl (by rw [abs_le]; omega) (by linarith)
  have hpart' : |part - (t.day + (S : ℚ) / 86400)| ≤
      1 / 2 ^ 24 + 1 / 2 ^ 27 + 1 / 2 ^ 52 + 1 / 2 ^ 47 := by
    simp only [part, hrest, hmonths, add_sub_cancel_left]
    exact R.near_of (by norm_num) (by rw [abs_lt]; constructor <;> linarith)
      (by rw [add_sub_add_left_eq_sub]; exact hf')
  obtain ⟨hplo, hphi⟩ := abs_le.mp hpart'
  have hdayeq : day = t.day := truncate_eq (by omega) hpart (by linarith)
  have hdaycast : (day : ℚ) = t.day := by rw [hdayeq]
  have hfrac : |part' - (S : ℚ) / 86400| ≤
      1 / 2 ^ 24 + 1 / 2 ^ 27 + 1 / 2 ^ 52 + 1 / 2 ^ 47 + 1 / 2 ^ 52 :=
    R.near_of (by norm_num) (by rw [abs_lt]; constructor <;> linarith)
      (by rw [abs_le]; constructor <;> linarith)
  obtain ⟨hqlo, hqhi⟩ := abs_le.mp hfrac
  have hscaled : |R.fl (part' * 86400) - S| ≤ 1 / 100 + 1 / 2 ^ 36 :=
    R.near_of (by norm_num) (by rw [abs_lt]; constructor <;> linarith)
      (by rw [abs_le]; constructor <;> linarith)
  have hnonneg : ((0 : ℤ) : ℚ) ≤ part' :=
    R.int_le_fl (by norm_num) (by rw [Int.cast_zero]; linarith)
  have hnonneg' : ((0 : ℤ) : ℚ) ≤ R.fl (part' * 86400) := by
    apply R.int_le_fl (by norm_num)
    rw [Int.cast_zero] at hnonneg ⊢
    positivity
  rw [Int.cast_zero] at hnonneg'
  have hsec : s = S := roundLong_eq R hs hs' hnonneg' (hscaled.trans (by norm_num))
  have hmonth : month = t.month := by
    simp only [month, he]
    have := h.date.month_pos
    have := h.date.month_le
    split_ifs at hM ⊢ <;> omega
  have hyearEq : (if 2 < month then c - 4716 else c - 4715) = t.year := by
    rw [hmonth, hc]
    split_ifs at hY ⊢ <;> omega
  rw [hyearEq, hmonth, hdayeq, hsec, ← hSdef]
  obtain ⟨_, _, _, hh, hh', hm, hm', hse, hse'⟩ := h
  rw [GribDateTime.seconds, Int.tdiv_eq_ediv_of_nonneg (by omega),
    Int.tmod_eq_emod_of_nonneg (by omega), Int.tmod_eq_emod_of_nonneg (by omega),
    Int.tdiv_eq_ediv_of_nonneg (by omega)]
  congr 1 <;> omega

theorem gribJulianToDatetime_gribDatetimeToJulian {t : GribDateTime} (h : t.Valid) :
    gribJulianToDatetime R (gribDatetimeToJulian R t) = t := by
  have hjd := gribDatetimeToJulian_spec R h
  exact gribJulianToDatetime_spec R h ⟨hjd.eighths, hjd.near.trans (by norm_num)⟩

theorem gribJulianToDatetime_leap_day :
    gribJulianToDatetime binary64 (gribDatetimeToJulian binary64 ⟨2016, 2, 29, 23, 59, 59⟩) =
      ⟨2016, 2, 29, 23, 59, 59⟩ :=
  gribJulianToDatetime_gribDatetimeToJulian binary64
    ⟨⟨by decide, by decide, by decide, by decide⟩, by decide, by decide, by decide, by decide,
      by decide, by decide, by decide, by decide⟩

/-- `dend` and `dstep` of the `pack_long` of `g2end_step`, a step of `unitSeconds` seconds. -/
def endOfInterval (t : GribDateTime) (endStep unitSeconds : ℤ) : GribDateTime :=
  let dend := gribDatetimeToJulian R t
  let dstep := R.fl (R.fl (endStep * unitSeconds) / 86400)
  gribJulianToDatetime R (R.fl (dend + dstep))

theorem endOfInterval_eq {t t' : GribDateTime} (h : t.Valid) (h' : t'.Valid)
    (hsynoptic : t.seconds % 10800 = 0) {n : ℤ} (hn : 0 ≤ n)
    (htime : 86400 * t'.julian + t'.seconds = 86400 * t.julian + t.seconds + 3600 * n) :
    endOfInterval R t n 3600 = t' := by
  have hjd := gribDatetimeToJulian_spec R h
  have hge := h.julian_ge
  have hlt := h.julian_lt
  have hge' := h'.julian_ge
  have hlt' := h'.julian_lt
  obtain ⟨hs, hslt⟩ := h.seconds_bounds
  obtain ⟨hs', hslt'⟩ := h'.seconds_bounds
  apply gribJulianToDatetime_spec R h'
  have hexact : R.fl ((n : ℚ) * (3600 : ℤ)) = n * 3600 := by
    have := R.fl_int (n := n * 3600) (by rw [abs_le]; omega)
    push_cast at this ⊢
    exact this
  rw [hexact]
  have hcast : (0 : ℚ) ≤ t.seconds ∧ (t.seconds : ℚ) ≤ 86400 := by
    exact_mod_cast And.intro hs hslt.le
  have hcast' : (0 : ℚ) ≤ t'.seconds ∧ (t'.seconds : ℚ) ≤ 86400 := by
    exact_mod_cast And.intro hs' hslt'.le
  have hcastJ : (2299161 : ℚ) ≤ t.julian ∧ (t.julian : ℚ) ≤ 26000000 := by
    exact_mod_cast And.intro hge hlt.le
  have hcastJ' : (2299161 : ℚ) ≤ t'.julian ∧ (t'.julian : ℚ) ≤ 26000000 := by
    exact_mod_cast And.intro hge' hlt'.le
  have hcastn : (0 : ℚ) ≤ n := by exact_mod_cast hn
  have htime' : (86400 : ℚ) * t'.julian + t'.seconds = 86400 * t.julian + t.seconds + 3600 * n := by
    exact_mod_cast htime
  have hstep : |R.fl ((n : ℚ) * 3600 / 86400) - n * 3600 / 86400| ≤ 1 / 2 ^ 27 :=
    R.near (by norm_num) (by rw [abs_lt]; constructor <;> linarith)
  obtain ⟨hlo, hhi⟩ := abs_le.mp hjd.near
  obtain ⟨hlo', hhi'⟩ := abs_le.mp hstep
  have hnear : |R.fl (gribDatetimeToJulian R t + R.fl ((n : ℚ) * 3600 / 86400)) -
      (t'.julian - 1 / 2 + t'.seconds / 86400)| ≤ 1 / 2 ^ 25 + 1 / 2 ^ 27 + 1 / 2 ^ 27 :=
    R.near_of (by norm_num) (by rw [abs_lt]; constructor <;> linarith)
      (by rw [abs_le]; constructor <;> linarith)
  refine ⟨fun q hq hqs => ?_, hnear.trans (by norm_num)⟩
  rcases hqs.eq_or_lt with heq | hlt
  -- an eighth of a day is reached in whole eighths, which are added exactly
  · have hsec : 10800 * (t.seconds / 10800) = t.seconds := by omega
    have hn3 : 3 * (n / 3) = n := by omega
    have hstart := hjd.eighths (t.seconds / 10800) (by omega) (by omega)
    have hdstep := R.le_fl (x := (n : ℚ) * 3600 / 86400) (m := n / 3) (k := 3)
      (by rw [abs_le]; omega) (by norm_num) (by
        have : (3 : ℚ) * (n / 3 : ℤ) = n := by exact_mod_cast hn3
        linarith)
    have hsum : (q : ℚ) + 8 * t'.julian =
        (t.seconds / 10800 : ℤ) + 8 * t.julian + (n / 3 : ℤ) := by
      have : q + 8 * t'.julian = t.seconds / 10800 + 8 * t.julian + n / 3 := by omega
      exact_mod_cast this
    have hend := R.le_fl (x := gribDatetimeToJulian R t + R.fl ((n : ℚ) * 3600 / 86400))
      (m := q + 8 * t'.julian - 4) (k := 3) (by rw [abs_le]; omega) (by norm_num)
      (by push_cast; linarith)
    push_cast at hend
    linarith
  · have hhour : 10800 * q + 3600 ≤ t'.seconds := by omega
    have hhour' : (10800 : ℚ) * q + 3600 ≤ t'.seconds := by exact_mod_cast hhour
    obtain ⟨hbelow, -⟩ := abs_le.mp hnear
    linarith

/-- The end of an interval is the date and hour that lie so many hours after the reference time. -/
theorem endOfInterval_of_hours {d : CycleDate} {r : Dt} (hd : (tmInit d).Valid)
    (hsynoptic : d.hh % 3 = 0) (hfirst : julianDay 1582 10 15 ≤ julianDay d.yyyy d.mm d.dd)
    (hr : r.Valid) {fff : ℕ} (hhours : 24 * dayNumber r.yr r.mo r.dy + r.hr =
      24 * dayNumber d.yyyy d.mm d.dd + d.hh + fff) (hyear : r.yr ≤ 65535) :
    endOfInterval R ⟨d.yyyy, d.mm, d.dd, d.hh, 0, 0⟩ fff 3600 =
      ⟨r.yr, r.mo, r.dy, r.hr, 0, 0⟩ := by
  have hhr := hr.hr_nonneg
  have hhr' := hr.hr_le
  have hh : (0 : ℤ) ≤ d.hh := hd.hr_nonneg
  have hh' : (d.hh : ℤ) ≤ 23 := hd.hr_le
  have hlater : dayNumber d.yyyy d.mm d.dd ≤ dayNumber r.yr r.mo r.dy := by omega
  have hyears : (d.yyyy : ℤ) ≤ r.yr := by
    by_contra hlt
    have hmono := daysBeforeYear_mono (show r.yr + 1 ≤ d.yyyy by omega)
    have hlow : daysBeforeYear d.yyyy ≤ dayNumber d.yyyy d.mm d.dd := hd.date.year_bounds.1
    have hhigh := hr.date.year_bounds.2
    omega
  apply endOfInterval_eq
  · exact ⟨hd.date, hfirst, hyears.trans hyear, hh, hh', le_rfl, by norm_num, le_rfl, by norm_num⟩
  · refine ⟨hr.date, ?_, hyear, hhr, hhr', le_rfl, by norm_num, le_rfl, by norm_num⟩
    simp only [GribDateTime.julian, julianDay] at hfirst ⊢
    omega
  · simp only [GribDateTime.seconds]
    omega
  · exact Int.natCast_nonneg _
  · simp only [GribDateTime.julian, GribDateTime.seconds, julianDay]
    omega

theorem timeAdd_hours {d : CycleDate} (hd : (tmInit d).Valid) (fff : ℕ) :
    ∃ n, ∀ fuel ≥ n, ∃ r, timeAdd fuel (tmInit d) (tmEnd fff) = some r ∧ r.Valid ∧
      24 * dayNumber r.yr r.mo r.dy + r.hr = 24 * dayNumber d.yyyy d.mm d.dd + d.hh + fff := by
  have hoffset : (tmEnd fff).NonNegative :=
    ⟨le_rfl, le_rfl, le_rfl, Int.natCast_nonneg _, le_rfl⟩
  obtain ⟨n, hn⟩ := timeAdd_correct hd hoffset
  refine ⟨n, fun fuel hfuel => ?_⟩
  obtain ⟨r, hr, hvalid, -, hminutes⟩ := hn fuel hfuel
  have hnumber := hminutes rfl rfl
  simp only [Dt.minuteNumber, tmInit, tmEnd] at hnumber
  have hmn := hvalid.mn_nonneg
  have hmn' := hvalid.mn_le
  exact ⟨r, hr, hvalid, by omega⟩

/-- The end of the interval that `endStep` has grib_api compute is the one that the generators
compute with `timeAdd`. -/
theorem endOfInterval_eq_timeAdd {d : CycleDate} (hd : (tmInit d).Valid) (hsynoptic : d.hh % 3 = 0)
    (hfirst : julianDay 1582 10 15 ≤ julianDay d.yyyy d.mm d.dd) (fff : ℕ) :
    ∃ n, ∀ fuel ≥ n, ∃ r, timeAdd fuel (tmInit d) (tmEnd fff) = some r ∧
      (r.yr ≤ 65535 → endOfInterval R ⟨d.yyyy, d.mm, d.dd, d.hh, 0, 0⟩ fff 3600 =
        ⟨r.yr, r.mo, r.dy, r.hr, 0, 0⟩) := by
  obtain ⟨n, hn⟩ := timeAdd_hours hd fff
  refine ⟨n, fun fuel hfuel => ?_⟩
  obtain ⟨r, hr, hvalid, hhours⟩ := hn fuel hfuel
  exact ⟨r, hr, endOfInterval_of_hours R hd hsynoptic hfirst hvalid hhours⟩

theorem endOfInterval_leap_day : ∃ n, ∀ fuel ≥ n, ∃ r,
    timeAdd fuel (tmInit ⟨2020, 2, 28, 18⟩) (tmEnd 384) = some r ∧
      (r.yr ≤ 65535 → endOfInterval binary64 ⟨2020, 2, 28, 18, 0, 0⟩ (384 : ℕ) 3600 =
        ⟨r.yr, r.mo, r.dy, r.hr, 0, 0⟩) :=
  endOfInterval_eq_timeAdd binary64 (d := ⟨2020, 2, 28, 18⟩)
    ⟨⟨by decide, by decide, by decide, by decide⟩, by decide, by decide, by decide, by decide⟩
    (by decide) (by decide) 384

end Arithmetic

end Tigge
