import Tigge.Lib.Calendar

/-! The calendar of `grib_date.c` in integers: the number of a day from its date and the date from
its number. -/

namespace Tigge
open Lib

def gribJulianToDate (jdate : ℤ) : ℤ :=
  let x := 4 * jdate - 6884477
  let y := x.tdiv 146097 * 100
  let e := x.tmod 146097
  let d := e.tdiv 4
  let x := 4 * d + 3
  let y := x.tdiv 1461 + y
  let e := x.tmod 1461
  let d := e.tdiv 4 + 1
  let x := 5 * d - 3
  let m := x.tdiv 153 + 1
  let e := x.tmod 153
  let d := e.tdiv 5 + 1
  let month := if m < 11 then m + 2 else m - 10
  let day := d
  let year := y + m.tdiv 11
  year * 10000 + month * 100 + day

def gribDateToJulian (ddate : ℤ) : ℤ :=
  let year := ddate.tdiv 10000
  let ddate := ddate.tmod 10000
  let month := ddate.tdiv 100
  let ddate := ddate.tmod 100
  let day := ddate
  let m1 := if 2 < month then month - 3 else month + 9
  let y1 := if 2 < month then year else year - 1
  let a := (146097 * y1.tdiv 100).tdiv 4
  let d := y1.tmod 100
  let b := (1461 * d).tdiv 4
  let c := (153 * m1 + 2).tdiv 5 + day + 1721119
  a + b + c

/-- `val[0] = year * 10000 + month * 100 + day`. -/
def dateValue (y m d : ℤ) : ℤ := y * 10000 + m * 100 + d

/-- The number of a day, counted as astronomers do. -/
def julianDay (y m d : ℤ) : ℤ := dayNumber y m d + 1721060

/-- What is left of the year that begins in March, and where its months are. -/
structure MarchDate (Y M d : ℤ) : Prop where
  month_ge : 3 ≤ M
  month_le : M ≤ 14
  day_pos : 1 ≤ d
  day_le : d ≤ 31
  before_next : 10000 * (306001 * (M + 1) / 10000 + d) < 306001 * (M + 2)
  year_end : 306001 * (M + 1) / 10000 + d ≤ 488
  leap : 306001 * (M + 1) / 10000 + d = 488 → isLeap (Y + 1) = true

theorem marchDate {y m d Y M : ℤ} (h : IsDate y m d) (hY : Y = if m < 3 then y - 1 else y)
    (hM : M = if m < 3 then m + 12 else m) : MarchDate Y M d := by
  obtain ⟨hm, hm', hd, hlength⟩ := h
  have hmonth : m = 1 ∨ m = 2 ∨ 3 ≤ m := by omega
  rcases hmonth with rfl | rfl | hge
  · have hlen : monthLength y 1 = 31 := rfl
    norm_num at hM
    subst hM
    constructor <;> omega
  · have hnext : Y + 1 = y := by
      rw [hY]
      norm_num
    have hM14 : M = 14 := hM
    rw [monthLength, if_pos rfl] at hlength
    rw [hM14]
    split_ifs at hlength with hleap
    · exact ⟨by omega, by omega, hd, by omega, by omega, by omega, fun _ => hnext ▸ hleap⟩
    · constructor <;> omega
  · rw [if_neg (by omega)] at hM
    rw [hM]
    have hcases : m = 3 ∨ m = 4 ∨ m = 5 ∨ m = 6 ∨ m = 7 ∨ m = 8 ∨ m = 9 ∨ m = 10 ∨ m = 11 ∨
        m = 12 := by omega
    rcases hcases with rfl | rfl | rfl | rfl | rfl | rfl | rfl | rfl | rfl | rfl <;>
      norm_num [monthLength] at hlength <;> constructor <;> omega

section March
variable {Y M d J : ℤ}

/-- A century has a day less than its Julian years, but the fourth has not. -/
theorem MarchDate.century (h : MarchDate Y M d)
    (hJ : J = 1461 * Y / 4 - Y / 100 + Y / 400 + 306001 * (M + 1) / 10000 + d + 1720997) :
    (4 * J - 7468865) / 146097 = Y / 100 - 4 := by
  have hpos : 123 ≤ 306001 * (M + 1) / 10000 + d := by
    have := h.month_ge
    have := h.day_pos
    omega
  have hle := h.year_end
  have hleap := fun hd => isLeap_iff.mp (h.leap hd)
  have hcent : Y / 100 / 4 = Y / 400 := by omega
  have hyear : 1461 * Y / 4 = 36525 * (Y / 100) + 1461 * (Y % 100) / 4 := by omega
  have hrem : 0 ≤ 1461 * (Y % 100) / 4 := by omega
  have hrem' : Y % 100 ≤ 98 → 4 * (1461 * (Y % 100) / 4) ≤ 143178 := by omega
  have hlast : Y % 100 = 99 → 4 * (1461 * (Y % 100) / 4) = 144636 := by
    intro h99
    rw [h99]
    norm_num
  have hW : 306001 * (M + 1) / 10000 + d = 488 → Y % 100 = 99 → Y / 100 % 4 = 3 := by
    intro hd h99
    have := hleap hd
    omega
  rw [Int.ediv_eq_iff_of_pos (by norm_num)]
  constructor <;> omega

/-- The day of the March year is found, and with it the month. -/
theorem MarchDate.year (h : MarchDate Y M d) :
    (20 * (1461 * Y / 4 + (306001 * (M + 1) / 10000 + d) + 1722519) - 2442) / 7305 = Y + 4716 := by
  have hpos : 123 ≤ 306001 * (M + 1) / 10000 + d := by
    have := h.month_ge
    have := h.day_pos
    omega
  have hle := h.year_end
  have hW : 306001 * (M + 1) / 10000 + d = 488 → Y % 4 = 3 := by
    intro hd
    have := isLeap_iff.mp (h.leap hd)
    omega
  rw [Int.ediv_eq_iff_of_pos (by norm_num)]
  constructor <;> omega

end March

/-- All the quotients are of numbers that are not negative. -/
theorem gribDateToJulian_ediv {v : ℤ} (hv : 10000 ≤ v) : gribDateToJulian v =
    let month := v % 10000 / 100
    let m1 := if 2 < month then month - 3 else month + 9
    let y1 := if 2 < month then v / 10000 else v / 10000 - 1
    146097 * (y1 / 100) / 4 + 1461 * (y1 % 100) / 4 + ((153 * m1 + 2) / 5 + v % 100 + 1721119) := by
  have hyear : v.tdiv 10000 = v / 10000 := Int.tdiv_eq_ediv_of_nonneg (by omega)
  have hrest : v.tmod 10000 = v % 10000 := Int.tmod_eq_emod_of_nonneg (by omega)
  have hmonth : (v % 10000).tdiv 100 = v % 10000 / 100 := Int.tdiv_eq_ediv_of_nonneg (by omega)
  have hday : (v % 10000).tmod 100 = v % 100 := by
    rw [Int.tmod_eq_emod_of_nonneg (by omega)]
    omega
  rw [gribDateToJulian]
  dsimp only
  rw [hyear, hrest, hmonth, hday]
  generalize hm1 : (if 2 < v % 10000 / 100 then v % 10000 / 100 - 3 else v % 10000 / 100 + 9) = m1
  generalize hy1 : (if 2 < v % 10000 / 100 then v / 10000 else v / 10000 - 1) = y1
  have hm1' : 0 ≤ m1 := by split_ifs at hm1 <;> omega
  have hy1' : 0 ≤ y1 := by split_ifs at hy1 <;> omega
  rw [Int.tdiv_eq_ediv_of_nonneg hy1', Int.tmod_eq_emod_of_nonneg hy1',
    Int.tdiv_eq_ediv_of_nonneg (by omega), Int.tdiv_eq_ediv_of_nonneg (by omega),
    Int.tdiv_eq_ediv_of_nonneg (by omega)]

/-- Months of 30.6001 days and of 30.6 days, with their rounding, are the same. -/
theorem march_months {M : ℤ} (hM : 3 ≤ M) (hM' : M ≤ 14) :
    306001 * (M + 1) / 10000 = (153 * (M - 3) + 2) / 5 + 122 := by
  interval_cases M <;> rfl

/-- The days of whole years are those of the centuries and of the years after them. -/
theorem julian_years (Y : ℤ) : 1461 * Y / 4 = 36525 * (Y / 100) + 1461 * (Y % 100) / 4 := by
  omega

theorem gribDateToJulian_eq {y m d : ℤ} (h : IsDate y m d) (hy : 1 ≤ y) :
    gribDateToJulian (dateValue y m d) = julianDay y m d := by
  have hm := h.month_pos
  have hm' := h.month_le
  have hd := h.day_pos
  have hd' := h.day_le.trans (monthLength_pos _ _).2
  obtain ⟨Y, hY⟩ : ∃ Y, Y = if m < 3 then y - 1 else y := ⟨_, rfl⟩
  obtain ⟨M, hM⟩ : ∃ M, M = if m < 3 then m + 12 else m := ⟨_, rfl⟩
  have hnumber := dayNumber_march (d := d) hm hm' hY hM
  have hyear : dateValue y m d / 10000 = y := by rw [dateValue]; omega
  have hmonth : dateValue y m d % 10000 / 100 = m := by rw [dateValue]; omega
  have hday : dateValue y m d % 100 = d := by rw [dateValue]; omega
  rw [gribDateToJulian_ediv (by rw [dateValue]; omega), hyear, hmonth, hday, julianDay, hnumber]
  dsimp only
  have hY' : (if 2 < m then y else y - 1) = Y := by rw [hY]; split_ifs <;> omega
  have hM' : (if 2 < m then m - 3 else m + 9) = M - 3 := by rw [hM]; split_ifs <;> omega
  rw [hY', hM', julian_years]
  have hcentury : 146097 * (Y / 100) / 4 = 36524 * (Y / 100) + Y / 400 := by omega
  have hmonths := march_months (M := M) (by split_ifs at hM <;> omega)
    (by split_ifs at hM <;> omega)
  omega

/-- Every day from the first of March of the year 0 on is found again. -/
theorem gribJulianToDate_eq {y m d : ℤ} (h : IsDate y m d) (hfirst : 1721120 ≤ julianDay y m d) :
    gribJulianToDate (julianDay y m d) = dateValue y m d := by
  have hm := h.month_pos
  have hm' := h.month_le
  obtain ⟨Y, hY⟩ : ∃ Y, Y = if m < 3 then y - 1 else y := ⟨_, rfl⟩
  obtain ⟨M, hM⟩ : ∃ M, M = if m < 3 then m + 12 else m := ⟨_, rfl⟩
  have hmarch := marchDate h hY hM
  have hnumber := dayNumber_march (d := d) hm hm' hY hM
  have hbounds := hmarch.month_ge
  have hbounds' := hmarch.month_le
  have hd := hmarch.day_pos
  have hd' := hmarch.day_le
  have hJ : julianDay y m d =
      1461 * Y / 4 - Y / 100 + Y / 400 + 306001 * (M + 1) / 10000 + d + 1720997 := by
    rw [julianDay]
    omega
  have hcentury := hmarch.century hJ
  have hmonths := march_months hbounds hbounds'
  have hnext := hmarch.before_next
  -- the day of the year that begins in March
  have hyears := julian_years Y
  have hcent : Y / 100 / 4 = Y / 400 := by omega
  generalize hW : (153 * (M - 3) + 2) / 5 + d - 1 = W at *
  have hW0 : 0 ≤ W := by omega
  have hY0 : 0 ≤ Y := by
    have := hmarch.year_end
    omega
  have hW365 : W ≤ 365 := by
    have := hmarch.year_end
    omega
  have hleap : W = 365 → Y % 100 % 4 = 3 := by
    intro h365
    have := isLeap_iff.mp (hmarch.leap (by omega))
    omega
  unfold gribJulianToDate
  extract_lets x₁ y₁ e₁ d₁ x₂ y₂ e₂ d₂ x₃ m₃ e₃ d₃ month day year
  have hx₁ : x₁ / 146097 = Y / 100 := by
    show (4 * julianDay y m d - 6884477) / 146097 = Y / 100
    omega
  have hpos : 0 ≤ x₁ := by
    show 0 ≤ 4 * julianDay y m d - 6884477
    omega
  have hy₁ : y₁ = Y / 100 * 100 := by
    show x₁.tdiv 146097 * 100 = _
    rw [Int.tdiv_eq_ediv_of_nonneg hpos, hx₁]
  have he₁ : e₁ = 4 * julianDay y m d - 6884477 - 146097 * (Y / 100) := by
    show x₁.tmod 146097 = _
    rw [Int.tmod_eq_emod_of_nonneg hpos, Int.emod_def, hx₁]
  have hd₁ : d₁ = 1461 * (Y % 100) / 4 + W := by
    show e₁.tdiv 4 = _
    rw [Int.tdiv_eq_ediv_of_nonneg (by omega), he₁]
    omega
  have hx₂ : x₂ / 1461 = Y % 100 := by
    show (4 * d₁ + 3) / 1461 = _
    rw [hd₁, Int.ediv_eq_iff_of_pos (by norm_num)]
    constructor <;> omega
  have hpos₂ : 0 ≤ x₂ := by
    show 0 ≤ 4 * d₁ + 3
    omega
  have hy₂ : y₂ = Y := by
    show x₂.tdiv 1461 + y₁ = _
    rw [Int.tdiv_eq_ediv_of_nonneg hpos₂, hx₂, hy₁]
    omega
  have he₂ : e₂ = x₂ - 1461 * (Y % 100) := by
    show x₂.tmod 1461 = _
    rw [Int.tmod_eq_emod_of_nonneg hpos₂, Int.emod_def, hx₂]
  have hd₂ : d₂ = W + 1 := by
    have hx : x₂ = 4 * d₁ + 3 := rfl
    show e₂.tdiv 4 + 1 = _
    rw [Int.tdiv_eq_ediv_of_nonneg (by omega), he₂, hx, hd₁]
    omega
  have hx₃ : x₃ = 5 * W + 2 := by
    show 5 * d₂ - 3 = _
    omega
  have hdiv : (5 * W + 2) / 153 = M - 3 := by omega
  have hm₃ : m₃ = M - 2 := by
    show x₃.tdiv 153 + 1 = _
    rw [Int.tdiv_eq_ediv_of_nonneg (by omega), hx₃, hdiv]
    omega
  have hd₃ : d₃ = d := by
    show (x₃.tmod 153).tdiv 5 + 1 = _
    rw [Int.tmod_eq_emod_of_nonneg (by omega), Int.tdiv_eq_ediv_of_nonneg (by omega), hx₃,
      Int.emod_def, hdiv]
    omega
  have hmonth : month = m := by
    show (if m₃ < 11 then m₃ + 2 else m₃ - 10) = m
    rw [hm₃]
    split_ifs at hM ⊢ <;> omega
  have hyear : year = y := by
    show y₂ + m₃.tdiv 11 = y
    rw [Int.tdiv_eq_ediv_of_nonneg (by omega), hm₃, hy₂]
    split_ifs at hY hM <;> omega
  show year * 10000 + month * 100 + d₃ = _
  rw [hyear, hmonth, hd₃, dateValue]

/-- The test of `g1date`: a number is unchanged exactly when it is the number of a date. -/
theorem gribJulianToDate_gribDateToJulian_iff {v : ℤ} (hv : 10000 ≤ v) :
    gribJulianToDate (gribDateToJulian v) = v ↔
      ∃ y m d, IsDate y m d ∧ v = dateValue y m d := by
  constructor
  · intro h
    have hlow : 1721120 ≤ gribDateToJulian v := by
      rw [gribDateToJulian_ediv hv]
      dsimp only
      split_ifs <;> omega
    obtain ⟨hdate, hnumber⟩ := dateOf_spec (gribDateToJulian v - 1721060)
    generalize dateOf (gribDateToJulian v - 1721060) = t at hdate hnumber
    obtain ⟨y, m, d⟩ := t
    replace hdate : IsDate y m d := hdate
    have hjulian : julianDay y m d = gribDateToJulian v := by
      rw [julianDay, hnumber, sub_add_cancel]
    refine ⟨y, m, d, hdate, ?_⟩
    rw [← gribJulianToDate_eq hdate (by omega), hjulian, h]
  · rintro ⟨y, m, d, hdate, rfl⟩
    have hy : 1 ≤ y := by
      have hm := hdate.month_le
      have hd := hdate.day_le.trans (monthLength_pos _ _).2
      rw [dateValue] at hv
      omega
    have hlow := hdate.year_bounds.1
    have hmono := daysBeforeYear_mono hy
    have hfirst : daysBeforeYear 1 = 366 := by decide
    rw [gribDateToJulian_eq hdate hy, gribJulianToDate_eq hdate]
    rw [julianDay]
    omega

theorem gribJulianToDate_leap_day :
    gribJulianToDate (gribDateToJulian 20000229) = 20000229 ↔
      ∃ y m d, IsDate y m d ∧ (20000229 : ℤ) = dateValue y m d :=
  gribJulianToDate_gribDateToJulian_iff (by norm_num)

example : gribJulianToDate (gribDateToJulian 19000229) = 19000301 := by decide

end Tigge
