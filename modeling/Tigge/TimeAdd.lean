import Tigge.Lib.Calendar
import Tigge.Lib.Loop

/-! `timeAdd`: the end of a forecast interval, from its start and its length. -/

namespace Tigge
open Lib

structure Dt where
  yr : ℤ
  mo : ℤ
  dy : ℤ
  hr : ℤ
  mn : ℤ
  deriving DecidableEq

/-- The table of month lengths; its index is from 1 to 12 wherever it is read. -/
def mosiz (mo : ℤ) : ℤ := [0, 31, 28, 31, 30, 31, 30, 31, 31, 30, 31, 30, 31].getD mo.toNat 0

def qleap (year : ℤ) : Bool :=
  let i := year.tdiv 4 * 4 - year
  if i ≠ 0 then false
  else
    let i := year.tdiv 100 * 100 - year
    if i ≠ 0 then true
    else
      let i := year.tdiv 400 * 400 - year
      if i ≠ 0 then false else true

/-- `while (dto->mo>12)`. -/
def carryMonths : ℕ → Dt → Option Dt :=
  whileLoop (fun dto => 12 < dto.mo) fun dto =>
    some { dto with mo := dto.mo - 12, yr := dto.yr + 1 }

def normalizeMinutes (dto : Dt) : Dt :=
  if dto.mn > 59 then
    let i := dto.mn.tdiv 60
    { dto with hr := dto.hr + i, mn := dto.mn - i * 60 }
  else dto

def normalizeHours (dto : Dt) : Dt :=
  if dto.hr > 23 then
    let i := dto.hr.tdiv 24
    { dto with dy := dto.dy + i, hr := dto.hr - i * 24 }
  else dto

/-- One iteration of the loop over the days, on `dto` and `cont`. -/
def carryDays (fuel : ℕ) (s : Dt × Bool) : Option (Dt × Bool) :=
  let dto := s.1
  let t :=
    if dto.mo = 2 && qleap dto.yr then
      if dto.dy = 29 then (dto, false)
      else ({ dto with dy := dto.dy - 29, mo := dto.mo + 1 }, s.2)
    else ({ dto with dy := dto.dy - mosiz dto.mo, mo := dto.mo + 1 }, s.2)
  (carryMonths fuel t.1).map fun dto => (dto, t.2)

def normalizeDays (fuel : ℕ) (dto : Dt) : Option Dt :=
  (whileLoop (fun s => mosiz s.1.mo < s.1.dy && s.2) (carryDays fuel) fuel (dto, true)).map
    Prod.fst

/-- `timeAdd`, with the fuel that its loops may use. -/
def timeAdd (fuel : ℕ) (dtim dto : Dt) : Option Dt :=
  (carryMonths fuel { dto with mo := dto.mo + dtim.mo, yr := dto.yr + dtim.yr }).bind fun dto =>
    normalizeDays fuel (normalizeHours (normalizeMinutes
      { dto with mn := dto.mn + dtim.mn, hr := dto.hr + dtim.hr, dy := dto.dy + dtim.dy }))

namespace Dt

structure Valid (t : Dt) : Prop where
  date : IsDate t.yr t.mo t.dy
  hr_nonneg : 0 ≤ t.hr
  hr_le : t.hr ≤ 23
  mn_nonneg : 0 ≤ t.mn
  mn_le : t.mn ≤ 59

structure NonNegative (t : Dt) : Prop where
  yr : 0 ≤ t.yr
  mo : 0 ≤ t.mo
  dy : 0 ≤ t.dy
  hr : 0 ≤ t.hr
  mn : 0 ≤ t.mn

def minuteNumber (t : Dt) : ℤ := 1440 * dayNumber t.yr t.mo t.dy + 60 * t.hr + t.mn

/-- Midnight on the first day of a month, with months past December carried into years. -/
def firstOfMonth (yr mo : ℤ) : Dt := ⟨yr + (mo - 1) / 12, (mo - 1) % 12 + 1, 1, 0, 0⟩

end Dt

theorem qleap_eq (year : ℤ) : qleap year = isLeap year := by
  have hdvd : ∀ k : ℤ, year.tdiv k * k - year = 0 ↔ year % k = 0 := by
    intro k
    have hmod := Int.tmod_add_tdiv_mul year k
    rw [← Int.dvd_iff_emod_eq_zero, Int.dvd_iff_tmod_eq_zero]
    constructor <;> intro h <;> linarith
  simp only [qleap, ne_eq, hdvd, isLeap]
  by_cases h4 : year % 4 = 0 <;> by_cases h100 : year % 100 = 0 <;>
    by_cases h400 : year % 400 = 0 <;> simp [h4, h100, h400]

/-- The table agrees with the calendar but for February of leap years. -/
theorem monthLength_eq (yr : ℤ) {mo : ℤ} (h1 : 1 ≤ mo) (h12 : mo ≤ 12) :
    monthLength yr mo = if mo = 2 ∧ isLeap yr = true then 29 else mosiz mo := by
  interval_cases mo <;> simp [monthLength, mosiz]

theorem carryMonths_eq {fuel : ℕ} {dto : Dt} (hmo : 1 ≤ dto.mo) (hfuel : dto.mo.toNat ≤ fuel) :
    carryMonths fuel dto =
      some { dto with yr := dto.yr + (dto.mo - 1) / 12, mo := (dto.mo - 1) % 12 + 1 } := by
  -- months are only moved from one field to the other
  let I (t : Dt) : Prop := 1 ≤ t.mo ∧ 12 * t.yr + t.mo = 12 * dto.yr + dto.mo ∧ t.dy = dto.dy ∧
    t.hr = dto.hr ∧ t.mn = dto.mn
  have hstep : ∀ t, I t → decide (12 < t.mo) = true → ∃ u : Dt,
      some { t with mo := t.mo - 12, yr := t.yr + 1 } = some u ∧ I u ∧ u.mo.toNat < t.mo.toNat := by
    intro t ⟨hpos, htotal, hrest⟩ hg
    have hgt : 12 < t.mo := of_decide_eq_true hg
    refine ⟨_, rfl, ⟨?_, ?_, hrest⟩, ?_⟩
    · show 1 ≤ t.mo - 12
      omega
    · show 12 * (t.yr + 1) + (t.mo - 12) = _
      omega
    · show (t.mo - 12).toNat < t.mo.toNat
      omega
  obtain ⟨t, ht, ⟨hpos, htotal, hdy, hhr, hmn⟩, hend⟩ :=
    whileLoop_total _ _ (fun t : Dt => t.mo.toNat) hstep hfuel (s := dto) ⟨hmo, rfl, rfl, rfl, rfl⟩
  have hle : ¬ 12 < t.mo := of_decide_eq_false hend
  have hyr : t.yr = dto.yr + (dto.mo - 1) / 12 := by omega
  have hmo : t.mo = (dto.mo - 1) % 12 + 1 := by omega
  rw [carryMonths, ht, ← hyr, ← hmo, ← hdy, ← hhr, ← hmn]

/-- What the loop over the days keeps: the day that is meant, whatever month it is counted in. -/
structure SameDay (dto : Dt) (s : Dt × Bool) : Prop where
  month_pos : 1 ≤ s.1.mo
  month_le : s.1.mo ≤ 12
  day_pos : 1 ≤ s.1.dy
  number : dayNumber s.1.yr s.1.mo s.1.dy = dayNumber dto.yr dto.mo dto.dy
  hr : s.1.hr = dto.hr
  mn : s.1.mn = dto.mn
  /-- the flag is cleared on the last day of February only -/
  stopped : s.2 = false → s.1.dy ≤ monthLength s.1.yr s.1.mo

/-- Days past the end of a month are counted in the next one. -/
theorem SameDay.next {dto : Dt} {s : Dt × Bool} (h : SameDay dto s)
    (hdy : monthLength s.1.yr s.1.mo < s.1.dy) {fuel : ℕ} (hfuel : 13 ≤ fuel) :
    ∃ t, carryMonths fuel
        { s.1 with dy := s.1.dy - monthLength s.1.yr s.1.mo, mo := s.1.mo + 1 } = some t ∧
      SameDay dto (t, s.2) ∧ t.dy < s.1.dy := by
  have hpos := (monthLength_pos s.1.yr s.1.mo).1
  have hmo := h.month_pos
  have hle := h.month_le
  have hstopped : s.2 ≠ false := fun hs => absurd (h.stopped hs) (not_le.mpr hdy)
  rw [carryMonths_eq (by show 1 ≤ s.1.mo + 1; omega) (by show (s.1.mo + 1).toNat ≤ fuel; omega)]
  have hnumber : dayNumber (s.1.yr + (s.1.mo + 1 - 1) / 12) ((s.1.mo + 1 - 1) % 12 + 1)
      (s.1.dy - monthLength s.1.yr s.1.mo) = dayNumber dto.yr dto.mo dto.dy := by
    rw [← h.number]
    by_cases hdec : s.1.mo = 12
    · have h31 : monthLength s.1.yr 12 = 31 := rfl
      rw [hdec, h31]
      exact dayNumber_next_year s.1.yr s.1.dy
    · have hyr : s.1.yr + (s.1.mo + 1 - 1) / 12 = s.1.yr := by omega
      have hmo' : (s.1.mo + 1 - 1) % 12 + 1 = s.1.mo + 1 := by omega
      rw [hyr, hmo']
      exact dayNumber_next_month s.1.yr s.1.dy hmo
  refine ⟨_, rfl, ⟨?_, ?_, ?_, hnumber, h.hr, h.mn, fun hs => absurd hs hstopped⟩, ?_⟩
  · show 1 ≤ (s.1.mo + 1 - 1) % 12 + 1
    omega
  · show (s.1.mo + 1 - 1) % 12 + 1 ≤ 12
    omega
  · show 1 ≤ s.1.dy - monthLength s.1.yr s.1.mo
    omega
  · show s.1.dy - monthLength s.1.yr s.1.mo < s.1.dy
    omega

theorem SameDay.carryDays {dto : Dt} {fuel : ℕ} (hfuel : 13 ≤ fuel) {s : Dt × Bool}
    (h : SameDay dto s) (hguard : (decide (mosiz s.1.mo < s.1.dy) && s.2) = true) :
    ∃ t, carryDays fuel s = some t ∧ SameDay dto t ∧
      t.1.dy.toNat + t.2.toNat < s.1.dy.toNat + s.2.toNat := by
  obtain ⟨hgt, hcont⟩ := Bool.and_eq_true_iff.mp hguard
  have hgt : mosiz s.1.mo < s.1.dy := of_decide_eq_true hgt
  have hlength := monthLength_eq s.1.yr h.month_pos h.month_le
  have hday := h.day_pos
  -- one more month, unless it is the 29th of February
  have hnext : monthLength s.1.yr s.1.mo < s.1.dy → ∃ t,
      (carryMonths fuel
        { s.1 with dy := s.1.dy - monthLength s.1.yr s.1.mo, mo := s.1.mo + 1 }).map
          (fun dto => (dto, s.2)) = some t ∧ SameDay dto t ∧
      t.1.dy.toNat + t.2.toNat < s.1.dy.toNat + s.2.toNat := by
    intro hlt
    obtain ⟨t, ht, hsame, hdy⟩ := h.next hlt hfuel
    refine ⟨(t, s.2), by rw [ht]; rfl, hsame, ?_⟩
    show t.dy.toNat + s.2.toNat < s.1.dy.toNat + s.2.toNat
    omega
  rw [Tigge.carryDays]
  by_cases hleap : s.1.mo = 2 ∧ isLeap s.1.yr = true
  · have hfeb : (decide (s.1.mo = 2) && qleap s.1.yr) = true := by simp [hleap, qleap_eq]
    have hmosiz : mosiz s.1.mo = 28 := by rw [hleap.1]; rfl
    rw [if_pos hleap] at hlength
    simp only [hfeb, if_true]
    by_cases h29 : s.1.dy = 29
    · rw [if_pos h29]
      have hmo12 := h.month_le
      rw [carryMonths_eq h.month_pos (by show s.1.mo.toNat ≤ fuel; omega)]
      have hyr : s.1.yr + (s.1.mo - 1) / 12 = s.1.yr := by omega
      have hmo : (s.1.mo - 1) % 12 + 1 = s.1.mo := by omega
      rw [hyr, hmo]
      refine ⟨(s.1, false), rfl, ⟨h.month_pos, h.month_le, hday, h.number, h.hr, h.mn, ?_⟩, ?_⟩
      · exact fun _ => (h29.trans hlength.symm).le
      · rw [hcont]
        exact Nat.lt_succ_self _
    · rw [if_neg h29]
      have hlt : monthLength s.1.yr s.1.mo < s.1.dy := by omega
      have := hnext hlt
      rwa [hlength] at this
  · have hfeb : (decide (s.1.mo = 2) && qleap s.1.yr) = false := by
      rw [qleap_eq, Bool.and_eq_false_iff, decide_eq_false_iff_not, Bool.eq_false_iff]
      tauto
    rw [if_neg hleap] at hlength
    simp only [hfeb, Bool.false_eq_true, if_false]
    have := hnext (hlength ▸ hgt)
    rwa [hlength] at this

theorem normalizeDays_correct (fuel : ℕ) (dto : Dt) (h1 : 1 ≤ dto.mo) (h12 : dto.mo ≤ 12)
    (hdy : 1 ≤ dto.dy) (hfuel : dto.dy.toNat + 13 ≤ fuel) :
    ∃ t, normalizeDays fuel dto = some t ∧ IsDate t.yr t.mo t.dy ∧
      dayNumber t.yr t.mo t.dy = dayNumber dto.yr dto.mo dto.dy ∧ t.hr = dto.hr ∧ t.mn = dto.mn := by
  have hstart : SameDay dto (dto, true) := ⟨h1, h12, hdy, rfl, rfl, rfl, nofun⟩
  have h13 : 13 ≤ fuel := by omega
  obtain ⟨s, hs, hsame, hend⟩ := whileLoop_total _ _ (fun s => s.1.dy.toNat + s.2.toNat)
    (fun s hs hg => hs.carryDays h13 hg)
    (show dto.dy.toNat + true.toNat ≤ fuel by rw [Bool.toNat_true]; omega) hstart
  refine ⟨s.1, by rw [normalizeDays, hs]; rfl, ⟨hsame.month_pos, hsame.month_le, hsame.day_pos, ?_⟩,
    hsame.number, hsame.hr, hsame.mn⟩
  cases hcont : s.2 with
  | false => exact hsame.stopped hcont
  | true =>
    rw [hcont, Bool.and_true, decide_eq_false_iff_not, not_lt] at hend
    have hlength := monthLength_eq s.1.yr hsame.month_pos hsame.month_le
    split_ifs at hlength with hleap
    · rw [hleap.1] at hend
      have h28 : mosiz 2 = 28 := rfl
      omega
    · omega

theorem normalizeMinutes_eq {dto : Dt} (h : 0 ≤ dto.mn) :
    normalizeMinutes dto = { dto with hr := dto.hr + dto.mn / 60, mn := dto.mn % 60 } := by
  rw [normalizeMinutes]
  split_ifs with hgt
  · have hmod : dto.mn - dto.mn / 60 * 60 = dto.mn % 60 := by omega
    simp only [Int.tdiv_eq_ediv_of_nonneg h, hmod]
  · have hdiv : dto.mn / 60 = 0 := by omega
    have hmod : dto.mn % 60 = dto.mn := by omega
    rw [hdiv, hmod, add_zero]

theorem normalizeHours_eq {dto : Dt} (h : 0 ≤ dto.hr) :
    normalizeHours dto = { dto with dy := dto.dy + dto.hr / 24, hr := dto.hr % 24 } := by
  rw [normalizeHours]
  split_ifs with hgt
  · have hmod : dto.hr - dto.hr / 24 * 24 = dto.hr % 24 := by omega
    simp only [Int.tdiv_eq_ediv_of_nonneg h, hmod]
  · have hdiv : dto.hr / 24 = 0 := by omega
    have hmod : dto.hr % 24 = dto.hr := by omega
    rw [hdiv, hmod, add_zero]

theorem dayNumber_add (y m d n : ℤ) : dayNumber y m (d + n) = dayNumber y m d + n := by
  rw [dayNumber, dayNumber]
  omega

/-- `timeAdd` ends, and leaves the date and time that lie the offset after the first time, months
and years counted first. -/
theorem timeAdd_correct {dtim dto : Dt} (hdtim : dtim.Valid) (hdto : dto.NonNegative) :
    ∃ n, ∀ fuel ≥ n, ∃ r, timeAdd fuel dtim dto = some r ∧ r.Valid ∧
      r.minuteNumber = (Dt.firstOfMonth (dtim.yr + dto.yr) (dtim.mo + dto.mo)).minuteNumber +
        1440 * (dtim.dy + dto.dy - 1) + 60 * (dtim.hr + dto.hr) + (dtim.mn + dto.mn) ∧
      (dto.yr = 0 → dto.mo = 0 →
        r.minuteNumber = dtim.minuteNumber + 1440 * dto.dy + 60 * dto.hr + dto.mn) := by
  obtain ⟨⟨h1, h12, hd1, -⟩, hh, -, hm, -⟩ := hdtim
  obtain ⟨-, hmo0, hdy0, hhr0, hmn0⟩ := hdto
  -- the fields after each normalisation
  let mn := dto.mn + dtim.mn
  let hr := dto.hr + dtim.hr + mn / 60
  let dy := dto.dy + dtim.dy + hr / 24
  let mo := dto.mo + dtim.mo
  let yr := dto.yr + dtim.yr
  have hmn : 0 ≤ mn := by omega
  have hhr : 0 ≤ hr := by omega
  have hdy : 1 ≤ dy := by omega
  have hmo : 1 ≤ mo := by omega
  refine ⟨mo.toNat + dy.toNat + 13, fun fuel hfuel => ?_⟩
  obtain ⟨r, hr', hdate, hnumber, hrhr, hrmn⟩ := normalizeDays_correct fuel
    (⟨yr + (mo - 1) / 12, (mo - 1) % 12 + 1, dy, hr % 24, mn % 60⟩)
    (by show 1 ≤ (mo - 1) % 12 + 1; omega) (by show (mo - 1) % 12 + 1 ≤ 12; omega) hdy
    (by show dy.toNat + 13 ≤ fuel; omega)
  simp only at hnumber hrhr hrmn
  have hadd : timeAdd fuel dtim dto = some r := by
    rw [timeAdd, carryMonths_eq hmo (by show mo.toNat ≤ fuel; omega), Option.bind_some,
      normalizeMinutes_eq hmn, normalizeHours_eq hhr]
    exact hr'
  have htotal : r.minuteNumber = 1440 * dayNumber (yr + (mo - 1) / 12) ((mo - 1) % 12 + 1) 1 +
      1440 * (dtim.dy + dto.dy - 1) + 60 * (dtim.hr + dto.hr) + (dtim.mn + dto.mn) := by
    have hsplit := dayNumber_add (yr + (mo - 1) / 12) ((mo - 1) % 12 + 1) 1 (dy - 1)
    rw [add_sub_cancel] at hsplit
    rw [Dt.minuteNumber, hnumber, hrhr, hrmn, hsplit]
    omega
  refine ⟨r, hadd, ⟨hdate, by omega, by omega, by omega, by omega⟩, ?_, fun hyr hmo => ?_⟩
  · rw [htotal, Dt.minuteNumber, Dt.firstOfMonth, add_comm dtim.yr, add_comm dtim.mo]
    simp only [mul_zero, add_zero]
    rfl
  · have hyr' : yr + (mo - 1) / 12 = dtim.yr := by omega
    have hmo' : (mo - 1) % 12 + 1 = dtim.mo := by omega
    have hsplit := dayNumber_add dtim.yr dtim.mo 1 (dtim.dy - 1)
    rw [add_sub_cancel] at hsplit
    rw [htotal, hyr', hmo', Dt.minuteNumber, hsplit]
    omega

theorem timeAdd_correct_leap : ∃ n, ∀ fuel ≥ n, ∃ r,
    timeAdd fuel ⟨2020, 2, 28, 18, 0⟩ ⟨0, 0, 0, 384, 0⟩ = some r ∧ r.Valid ∧
      r.minuteNumber = (⟨2020, 2, 28, 18, 0⟩ : Dt).minuteNumber + 60 * 384 := by
  have hdtim : (⟨2020, 2, 28, 18, 0⟩ : Dt).Valid :=
    ⟨⟨by decide, by decide, by decide, by decide⟩, by decide, by decide, by decide, by decide⟩
  have hdto : (⟨0, 0, 0, 384, 0⟩ : Dt).NonNegative :=
    ⟨by decide, by decide, by decide, by decide, by decide⟩
  obtain ⟨n, hn⟩ := timeAdd_correct hdtim hdto
  refine ⟨n, fun fuel hfuel => ?_⟩
  obtain ⟨r, hr, hvalid, -, htotal⟩ := hn fuel hfuel
  exact ⟨r, hr, hvalid, by simpa using htotal rfl rfl⟩

example : timeAdd 40 ⟨2020, 2, 28, 18, 0⟩ ⟨0, 0, 0, 384, 0⟩ = some ⟨2020, 3, 15, 18, 0⟩ := by
  decide

end Tigge
