import Mathlib

/-! The proleptic Gregorian calendar: which dates there are, the number of days before each, and
the date that lies a number of days after the first. -/

namespace Tigge.Lib

def isLeap (y : ℤ) : Bool := y % 4 = 0 && (y % 100 ≠ 0 || y % 400 = 0)

def yearLength (y : ℤ) : ℤ := if isLeap y then 366 else 365

def monthLength (y m : ℤ) : ℤ :=
  if m = 2 then if isLeap y then 29 else 28
  else if m = 4 ∨ m = 6 ∨ m = 9 ∨ m = 11 then 30 else 31

/-- Days from the first of January of the year 0. -/
def daysBeforeYear (y : ℤ) : ℤ := 365 * y + (y + 3) / 4 - (y + 99) / 100 + (y + 399) / 400

/-- Days from the first of January of the year. -/
def daysBeforeMonth (y m : ℤ) : ℤ :=
  ((List.range (m - 1).toNat).map fun k : ℕ => monthLength y (k + 1)).sum

def dayNumber (y m d : ℤ) : ℤ := daysBeforeYear y + daysBeforeMonth y m + (d - 1)

structure IsDate (y m d : ℤ) : Prop where
  month_pos : 1 ≤ m
  month_le : m ≤ 12
  day_pos : 1 ≤ d
  day_le : d ≤ monthLength y m

theorem isLeap_iff {y : ℤ} : isLeap y = true ↔ y % 4 = 0 ∧ (y % 100 ≠ 0 ∨ y % 400 = 0) := by
  simp [isLeap]

@[simp] theorem daysBeforeYear_zero : daysBeforeYear 0 = 0 := rfl

theorem daysBeforeYear_succ (y : ℤ) : daysBeforeYear (y + 1) = daysBeforeYear y + yearLength y := by
  have hleap := isLeap_iff (y := y)
  rw [daysBeforeYear, daysBeforeYear, yearLength]
  split_ifs with h
  · have := hleap.mp h
    omega
  · have := mt hleap.mpr h
    omega

@[simp] theorem daysBeforeMonth_one (y : ℤ) : daysBeforeMonth y 1 = 0 := rfl

theorem daysBeforeMonth_succ (y : ℤ) {m : ℤ} (hm : 1 ≤ m) :
    daysBeforeMonth y (m + 1) = daysBeforeMonth y m + monthLength y m := by
  have hnat : (m + 1 - 1).toNat = (m - 1).toNat + 1 := by omega
  have hcast : ((m - 1).toNat : ℤ) + 1 = m := by omega
  rw [daysBeforeMonth, daysBeforeMonth, hnat, List.range_succ, List.map_append, List.sum_append,
    List.map_singleton, List.sum_singleton, hcast]

theorem yearLength_eq (y : ℤ) : daysBeforeMonth y 12 + 31 = yearLength y := by
  have hrange : List.range (12 - 1 : ℤ).toNat = [0, 1, 2, 3, 4, 5, 6, 7, 8, 9, 10] := by decide
  rw [daysBeforeMonth, hrange, yearLength]
  cases h : isLeap y <;> simp [monthLength, h]

theorem monthLength_pos (y m : ℤ) : 28 ≤ monthLength y m ∧ monthLength y m ≤ 31 := by
  unfold monthLength
  split_ifs <;> omega

theorem dayNumber_next_month (y d : ℤ) {m : ℤ} (hm : 1 ≤ m) :
    dayNumber y (m + 1) (d - monthLength y m) = dayNumber y m d := by
  rw [dayNumber, dayNumber, daysBeforeMonth_succ y hm]
  omega

theorem dayNumber_next_year (y d : ℤ) : dayNumber (y + 1) 1 (d - 31) = dayNumber y 12 d := by
  rw [dayNumber, dayNumber, daysBeforeYear_succ, daysBeforeMonth_one, ← yearLength_eq]
  omega

theorem daysBeforeYear_mono {y z : ℤ} (h : y ≤ z) : daysBeforeYear y ≤ daysBeforeYear z := by
  unfold daysBeforeYear
  omega

theorem daysBeforeMonth_mono (y : ℤ) {m k : ℤ} (hm : 1 ≤ m) (h : m ≤ k) :
    daysBeforeMonth y m ≤ daysBeforeMonth y k := by
  induction k, h using Int.leInduction with
  | base => exact le_rfl
  | succ k hmk ih =>
    have hpos := (monthLength_pos y k).1
    rw [daysBeforeMonth_succ y (hm.trans hmk)]
    omega

section Date
variable {y m d : ℤ}

theorem IsDate.year_bounds (h : IsDate y m d) :
    daysBeforeYear y ≤ dayNumber y m d ∧ dayNumber y m d < daysBeforeYear (y + 1) := by
  obtain ⟨hm, hle, hd, hlength⟩ := h
  have hfirst := daysBeforeMonth_mono y le_rfl hm
  have hlast := daysBeforeMonth_mono y (by omega : 1 ≤ m + 1) (by omega : m + 1 ≤ 13)
  have hyear : daysBeforeMonth y 13 = yearLength y := by
    rw [← yearLength_eq]
    exact daysBeforeMonth_succ y (by decide : (1 : ℤ) ≤ 12)
  rw [daysBeforeMonth_one] at hfirst
  rw [daysBeforeMonth_succ y hm, hyear] at hlast
  rw [dayNumber, daysBeforeYear_succ]
  constructor <;> omega

/-- Later months come after every day of earlier ones. -/
theorem IsDate.lt_of_month_lt {k e : ℤ} (h : IsDate y m d) (hk : IsDate y k e) (hmk : m < k) :
    dayNumber y m d < dayNumber y k e := by
  have hmono := daysBeforeMonth_mono y (by have := h.month_pos; omega : 1 ≤ m + 1) hmk
  rw [daysBeforeMonth_succ y h.month_pos] at hmono
  have hd := h.day_le
  have he := hk.day_pos
  rw [dayNumber, dayNumber]
  omega

theorem IsDate.eq_of_dayNumber_eq {z k e : ℤ} (h : IsDate y m d) (hk : IsDate z k e)
    (heq : dayNumber y m d = dayNumber z k e) : y = z ∧ m = k ∧ d = e := by
  have hyear : y = z := by
    obtain ⟨hlo, hhi⟩ := h.year_bounds
    obtain ⟨hlo', hhi'⟩ := hk.year_bounds
    rcases lt_trichotomy y z with hlt | hyz | hlt
    · have := daysBeforeYear_mono (show y + 1 ≤ z from hlt)
      omega
    · exact hyz
    · have := daysBeforeYear_mono (show z + 1 ≤ y from hlt)
      omega
  subst hyear
  have hmonth : m = k := by
    rcases lt_trichotomy m k with hlt | hmk | hlt
    · exact absurd heq (h.lt_of_month_lt hk hlt).ne
    · exact hmk
    · exact absurd heq (hk.lt_of_month_lt h hlt).ne'
  subst hmonth
  refine ⟨rfl, rfl, ?_⟩
  rw [dayNumber, dayNumber] at heq
  omega

end Date

/-- The year in which a day lies; the estimate from the mean length of a year is off by one at
most. -/
def yearOf (n : ℤ) : ℤ :=
  let y := 400 * n / 146097
  if n < daysBeforeYear y then y - 1 else if daysBeforeYear (y + 1) ≤ n then y + 1 else y

/-- Month and day of a day that lies `k` days after the first of month `m`. -/
def monthDayOf (y : ℤ) : ℕ → ℤ → ℤ → ℤ × ℤ
  | 0, m, k => (m, k + 1)
  | months + 1, m, k =>
    if k < monthLength y m then (m, k + 1) else monthDayOf y months (m + 1) (k - monthLength y m)

def dateOf (n : ℤ) : ℤ × ℤ × ℤ :=
  (yearOf n, monthDayOf (yearOf n) 11 1 (n - daysBeforeYear (yearOf n)))

theorem yearOf_bounds (n : ℤ) :
    daysBeforeYear (yearOf n) ≤ n ∧ n < daysBeforeYear (yearOf n + 1) := by
  have hlo : daysBeforeYear (400 * n / 146097 - 1) ≤ n := by
    unfold daysBeforeYear
    omega
  have hhi : n < daysBeforeYear (400 * n / 146097 + 1 + 1) := by
    unfold daysBeforeYear
    omega
  unfold yearOf
  dsimp only
  split_ifs with hbefore hafter
  · rw [sub_add_cancel]
    exact ⟨hlo, hbefore⟩
  · exact ⟨hafter, hhi⟩
  · exact ⟨not_lt.mp hbefore, not_le.mp hafter⟩

/-- The months that are passed are counted in days. -/
theorem monthDayOf_spec (y : ℤ) (months : ℕ) {m k : ℤ} (hm : 1 ≤ m) (hlast : m + months = 12)
    (hk : 0 ≤ k) (hyear : daysBeforeMonth y m + k < yearLength y) :
    IsDate y (monthDayOf y months m k).1 (monthDayOf y months m k).2 ∧
      daysBeforeMonth y (monthDayOf y months m k).1 + ((monthDayOf y months m k).2 - 1) =
        daysBeforeMonth y m + k := by
  induction months generalizing m k with
  | zero =>
    obtain rfl : m = 12 := by simpa using hlast
    have hend := yearLength_eq y
    have hlength : monthLength y 12 = 31 := rfl
    rw [monthDayOf]
    dsimp only
    exact ⟨⟨hm, le_rfl, by omega, by omega⟩, by omega⟩
  | succ months ih =>
    rw [monthDayOf]
    split_ifs with hlt
    · dsimp only
      exact ⟨⟨hm, by omega, by omega, by omega⟩, by omega⟩
    · have hnext := daysBeforeMonth_succ y hm
      obtain ⟨hdate, hdays⟩ := ih (m := m + 1) (k := k - monthLength y m) (by omega)
        (by push_cast at hlast; omega) (by omega) (by omega)
      exact ⟨hdate, by omega⟩

theorem dateOf_spec (n : ℤ) : IsDate (dateOf n).1 (dateOf n).2.1 (dateOf n).2.2 ∧
    dayNumber (dateOf n).1 (dateOf n).2.1 (dateOf n).2.2 = n := by
  obtain ⟨hlo, hhi⟩ := yearOf_bounds n
  rw [daysBeforeYear_succ] at hhi
  have hmonth := monthDayOf_spec (yearOf n) 11 (m := 1)
    (k := n - daysBeforeYear (yearOf n)) le_rfl (by norm_num) (by omega)
    (by rw [daysBeforeMonth_one]; omega)
  rw [daysBeforeMonth_one] at hmonth
  refine ⟨hmonth.1, ?_⟩
  have hdays := hmonth.2
  rw [dayNumber]
  show daysBeforeYear (yearOf n) + daysBeforeMonth (yearOf n) _ + (_ - 1) = n
  dsimp only [dateOf]
  omega

section March

/-- The month lengths from March on are those of a year of 30.6001 days a month. -/
theorem daysBeforeMonth_march (y : ℤ) {m : ℤ} (hm : 3 ≤ m) (hle : m ≤ 12) :
    daysBeforeMonth y m = 306001 * (m + 1) / 10000 - 63 + if isLeap y then 1 else 0 := by
  induction m, hm using Int.leInduction with
  | base =>
    have hrange : List.range (3 - 1 : ℤ).toNat = [0, 1] := by decide
    rw [daysBeforeMonth, hrange]
    cases h : isLeap y <;> simp [monthLength, h]
  | succ m hm ih =>
    rw [daysBeforeMonth_succ y (by omega), ih (by omega)]
    have hmonth : m = 3 ∨ m = 4 ∨ m = 5 ∨ m = 6 ∨ m = 7 ∨ m = 8 ∨ m = 9 ∨ m = 10 ∨ m = 11 := by
      omega
    rcases hmonth with rfl | rfl | rfl | rfl | rfl | rfl | rfl | rfl | rfl <;>
      norm_num [monthLength] <;> ring

/-- The days that leap years have added by the end of the year, but for its own. -/
theorem daysBeforeYear_leap (y : ℤ) : daysBeforeYear y =
    365 * y + y / 4 - y / 100 + y / 400 + 1 - if isLeap y then 1 else 0 := by
  have h4 : (y + 3) / 4 = y / 4 + if y % 4 = 0 then 0 else 1 := by split_ifs <;> omega
  have h100 : (y + 99) / 100 = y / 100 + if y % 100 = 0 then 0 else 1 := by split_ifs <;> omega
  have h400 : (y + 399) / 400 = y / 400 + if y % 400 = 0 then 0 else 1 := by split_ifs <;> omega
  rw [daysBeforeYear, h4, h100, h400]
  by_cases hleap : isLeap y
  · have := isLeap_iff.mp hleap
    rw [if_pos hleap]
    split_ifs <;> omega
  · have := mt isLeap_iff.mpr hleap
    rw [if_neg hleap]
    split_ifs <;> omega

/-- Years that begin in March end with the day that leap years add. -/
theorem dayNumber_march {y m d Y M : ℤ} (hm : 1 ≤ m) (hle : m ≤ 12)
    (hY : Y = if m < 3 then y - 1 else y) (hM : M = if m < 3 then m + 12 else m) :
    dayNumber y m d =
      1461 * Y / 4 - Y / 100 + Y / 400 + 306001 * (M + 1) / 10000 + d - 63 := by
  have hday : 1461 * Y / 4 = 365 * Y + Y / 4 := by omega
  rw [dayNumber, hday]
  split_ifs at hY hM with h
  · have hprev : daysBeforeYear y = daysBeforeYear Y + yearLength Y := by
      rw [← daysBeforeYear_succ, hY, sub_add_cancel]
    have hyear : yearLength Y = 365 + if isLeap Y then 1 else 0 := by
      rw [yearLength]
      split_ifs <;> rfl
    rw [hprev, daysBeforeYear_leap, hyear]
    obtain rfl | rfl : m = 1 ∨ m = 2 := by omega
    · rw [daysBeforeMonth_one, hM]
      norm_num
      omega
    · have hjan : daysBeforeMonth y 2 = 31 := daysBeforeMonth_succ y le_rfl
      rw [hjan, hM]
      norm_num
      omega
  · rw [daysBeforeMonth_march y (by omega) hle, daysBeforeYear_leap, hY, hM]
    omega

end March

end Tigge.Lib
