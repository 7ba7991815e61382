import Mathlib

/-! Arithmetic on rational numbers in which every result is rounded, as the floating-point
operations of a machine round theirs. -/

namespace Tigge.Lib

/-- The mode is left open: every mode is monotone and keeps the numbers that fit into 53 bits. -/
structure Rounding where
  fl : ℚ → ℚ
  mono : Monotone fl
  fixes : ∀ (m : ℤ) (k : ℕ), |m| ≤ 2 ^ 53 → k ≤ 1022 → fl (m / 2 ^ k) = m / 2 ^ k

/-- The integer that is left when the fraction is dropped. -/
def truncate (x : ℚ) : ℤ := if 0 ≤ x then ⌊x⌋ else ⌈x⌉

theorem truncate_eq {x : ℚ} {n : ℤ} (hn : 0 ≤ n) (hlo : (n : ℚ) ≤ x) (hhi : x < n + 1) :
    truncate x = n := by
  have hpos : 0 ≤ x := le_trans (by exact_mod_cast hn) hlo
  rw [truncate, if_pos hpos]
  exact Int.floor_eq_iff.mpr ⟨hlo, hhi⟩

namespace Rounding
variable (R : Rounding)

theorem fl_int {n : ℤ} (hn : |n| ≤ 2 ^ 53) : R.fl n = n := by
  simpa using R.fixes n 0 hn (Nat.zero_le _)

theorem le_fl {x : ℚ} {m : ℤ} {k : ℕ} (hm : |m| ≤ 2 ^ 53) (hk : k ≤ 1022)
    (h : (m : ℚ) / 2 ^ k ≤ x) : (m : ℚ) / 2 ^ k ≤ R.fl x := by
  rw [← R.fixes m k hm hk]
  exact R.mono h

theorem fl_le {x : ℚ} {m : ℤ} {k : ℕ} (hm : |m| ≤ 2 ^ 53) (hk : k ≤ 1022)
    (h : x ≤ (m : ℚ) / 2 ^ k) : R.fl x ≤ (m : ℚ) / 2 ^ k := by
  rw [← R.fixes m k hm hk]
  exact R.mono h

theorem int_le_fl {x : ℚ} {n : ℤ} (hn : |n| ≤ 2 ^ 53) (h : (n : ℚ) ≤ x) : (n : ℚ) ≤ R.fl x := by
  rw [← R.fl_int hn]
  exact R.mono h

/-- Two neighbours among the numbers that are kept enclose the rounded and the exact result. -/
theorem near {x : ℚ} {k : ℕ} (hk : k ≤ 1022) (hx : |x| < 2 ^ 53 / 2 ^ k) :
    |R.fl x - x| ≤ 1 / 2 ^ k := by
  have hpow : (0 : ℚ) < 2 ^ k := by positivity
  have hscaled : |x * 2 ^ k| < 2 ^ 53 := by
    rw [abs_mul, abs_of_pos hpow]
    exact (lt_div_iff₀ hpow).mp hx
  obtain ⟨hlow, hhigh⟩ := abs_lt.mp hscaled
  have hfloor := Int.floor_le (x * 2 ^ k)
  have hceil := Int.lt_floor_add_one (x * 2 ^ k)
  generalize hm : ⌊x * 2 ^ k⌋ = m at hfloor hceil
  have hmlow : -(2 ^ 53) ≤ m := by
    rw [← hm]
    exact Int.le_floor.mpr (by push_cast; linarith)
  have hmhigh : m < 2 ^ 53 := by
    have : (m : ℚ) < ((2 ^ 53 : ℤ) : ℚ) := by push_cast; linarith
    exact_mod_cast this
  have hbelow : (m : ℚ) / 2 ^ k ≤ x := (div_le_iff₀ hpow).mpr hfloor
  have habove : x ≤ ((m + 1 : ℤ) : ℚ) / 2 ^ k := by
    rw [le_div_iff₀ hpow]
    push_cast
    linarith
  have hlo := R.le_fl (abs_le.mpr ⟨hmlow, by omega⟩) hk hbelow
  have hhi := R.fl_le (abs_le.mpr ⟨by omega, by omega⟩) hk habove
  have hstep : ((m + 1 : ℤ) : ℚ) / 2 ^ k = (m : ℚ) / 2 ^ k + 1 / 2 ^ k := by
    push_cast
    ring
  rw [hstep] at hhi habove
  rw [abs_le]
  constructor <;> linarith

/-- The rounded quotient of two integers lies between the same integers as the exact one. -/
theorem truncate_fl_div {p q : ℤ} (hp : 0 ≤ p) (hp' : p < 2 ^ 34) (hq : 0 < q) (hq' : q ≤ 2 ^ 18) :
    truncate (R.fl (p / q)) = p / q := by
  have hqpos : (0 : ℚ) < q := by exact_mod_cast hq
  have hquot : 0 ≤ p / q := Int.ediv_nonneg hp hq.le
  have hbound : p / q ≤ p := Int.ediv_le_self q hp
  have hrem : p ≤ q * (p / q + 1) - 1 := by
    have := Int.lt_mul_ediv_self_add (x := p) hq
    linarith
  apply truncate_eq hquot
  · apply R.int_le_fl (by rw [abs_of_nonneg hquot]; omega)
    rw [le_div_iff₀ hqpos, mul_comm]
    exact_mod_cast Int.mul_ediv_self_le hq.ne'
  -- the fraction is short of one by a part in `q`
  · have hfl := R.fl_le (x := p / q) (m := (p / q + 1) * 2 ^ 18 - 1) (k := 18)
      (by rw [abs_of_nonneg (by omega)]; omega) (by norm_num) (by
        rw [div_le_iff₀ hqpos]
        have hrem' : (p : ℚ) ≤ q * (((p / q : ℤ) : ℚ) + 1) - 1 := by exact_mod_cast hrem
        have hq'' : (q : ℚ) ≤ 2 ^ 18 := by exact_mod_cast hq'
        push_cast
        linarith)
    push_cast at hfl
    linarith

/-- An operand that is known to within `d` gives a result that is known almost as well. -/
theorem near_of {x y d : ℚ} {k : ℕ} (hk : k ≤ 1022) (hx : |x| < 2 ^ 53 / 2 ^ k)
    (hd : |x - y| ≤ d) : |R.fl x - y| ≤ d + 1 / 2 ^ k := by
  have hround := R.near hk hx
  have htri := abs_sub_le (R.fl x) x y
  linarith

end Rounding

section Binary64

/-- The nearest integer, the even one of two. -/
def roundEven (x : ℚ) : ℤ :=
  if x - ⌊x⌋ < 1 / 2 then ⌊x⌋
  else if 1 / 2 < x - ⌊x⌋ then ⌊x⌋ + 1
  else if ⌊x⌋ % 2 = 0 then ⌊x⌋ else ⌊x⌋ + 1

/-- The weight of the last of 53 bits, or of the last bit that there is. -/
def lastBit (x : ℚ) : ℤ := max (Int.log 2 |x| - 52) (-1074)

/-- Round to nearest, ties to even, in the double format; its largest numbers are not bounded. -/
def toBinary64 (x : ℚ) : ℚ := roundEven (x / 2 ^ lastBit x) * 2 ^ lastBit x

@[simp] theorem roundEven_int (n : ℤ) : roundEven n = n := by
  simp [roundEven]

theorem roundEven_neg (x : ℚ) : roundEven (-x) = -roundEven x := by
  have hlo := Int.floor_le x
  have hhi := Int.lt_floor_add_one x
  generalize hn : ⌊x⌋ = n at hlo hhi
  rcases hlo.eq_or_lt with heq | hlt
  · rw [← heq, ← Int.cast_neg, roundEven_int, roundEven_int]
  · have hfloor : ⌊-x⌋ = -n - 1 := by
      rw [Int.floor_eq_iff]
      push_cast
      constructor <;> linarith
    rw [roundEven, roundEven, hfloor, hn]
    push_cast
    split_ifs <;> first | omega | (exfalso; linarith)

theorem roundEven_mono : Monotone roundEven := by
  intro x y hxy
  have hx := Int.floor_le x
  have hy := Int.lt_floor_add_one y
  rcases (Int.floor_mono hxy).eq_or_lt with heq | hlt
  · rw [roundEven, roundEven, heq]
    split_ifs <;> first | omega | (exfalso; linarith)
  · have hup : roundEven x ≤ ⌊x⌋ + 1 := by
      rw [roundEven]
      split_ifs <;> omega
    have hdown : ⌊y⌋ ≤ roundEven y := by
      rw [roundEven]
      split_ifs <;> omega
    omega

theorem lastBit_neg (x : ℚ) : lastBit (-x) = lastBit x := by
  rw [lastBit, lastBit, abs_neg]

theorem toBinary64_neg (x : ℚ) : toBinary64 (-x) = -toBinary64 x := by
  rw [toBinary64, toBinary64, lastBit_neg, neg_div, roundEven_neg, Int.cast_neg, neg_mul]

theorem toBinary64_nonneg {x : ℚ} (hx : 0 ≤ x) : 0 ≤ toBinary64 x := by
  have hround : roundEven ((0 : ℤ) : ℚ) ≤ roundEven (x / 2 ^ lastBit x) := by
    apply roundEven_mono
    rw [Int.cast_zero]
    positivity
  rw [roundEven_int] at hround
  have : (0 : ℚ) ≤ roundEven (x / 2 ^ lastBit x) := by exact_mod_cast hround
  rw [toBinary64]
  positivity

/-- Numbers of a lower binade stay below the powers of two that bound it. -/
theorem toBinary64_mono_pos {x y : ℚ} (hx : 0 < x) (hxy : x ≤ y) :
    toBinary64 x ≤ toBinary64 y := by
  have hlog : Int.log 2 |x| ≤ Int.log 2 |y| := by
    rw [abs_of_pos hx, abs_of_pos (hx.trans_le hxy)]
    exact Int.log_mono_right hx hxy
  have hle : lastBit x ≤ lastBit y := max_le_max (sub_le_sub_right hlog 52) le_rfl
  rcases hle.eq_or_lt with heq | hlt
  · have hmono : roundEven (x / 2 ^ lastBit y) ≤ roundEven (y / 2 ^ lastBit y) :=
      roundEven_mono (by gcongr)
    have hcast : (roundEven (x / 2 ^ lastBit y) : ℚ) ≤ roundEven (y / 2 ^ lastBit y) := by
      exact_mod_cast hmono
    rw [toBinary64, toBinary64, heq]
    gcongr
  · have hpow (e : ℤ) : (0 : ℚ) < 2 ^ e := by positivity
    have hscaled : x / 2 ^ lastBit x ≤ ((2 ^ 53 : ℤ) : ℚ) := by
      have hbound := Int.lt_zpow_succ_log_self (R := ℚ) Nat.one_lt_two x
      have hexp : Int.log 2 x + 1 ≤ lastBit x + 53 := by
        have : Int.log 2 |x| - 52 ≤ lastBit x := le_max_left _ _
        rw [abs_of_pos hx] at this
        omega
      have hgrow : (2 : ℚ) ^ (Int.log 2 x + 1) ≤ 2 ^ (lastBit x + 53) :=
        zpow_le_zpow_right₀ one_le_two hexp
      rw [div_le_iff₀ (hpow _)]
      rw [zpow_add₀ two_ne_zero (lastBit x), mul_comm (2 ^ lastBit x)] at hgrow
      push_cast at hbound ⊢
      calc x ≤ 2 ^ (Int.log 2 x + 1) := hbound.le
        _ ≤ 2 ^ (53 : ℤ) * 2 ^ lastBit x := hgrow
        _ = 2 ^ 53 * 2 ^ lastBit x := by norm_cast
    have hscaled' : ((2 ^ 52 : ℤ) : ℚ) ≤ y / 2 ^ lastBit y := by
      have hbound := Int.zpow_log_le_self (R := ℚ) Nat.one_lt_two (hx.trans_le hxy)
      have hexp : Int.log 2 y = 52 + lastBit y := by
        have hmin : (-1074 : ℤ) ≤ lastBit x := le_max_right _ _
        have hy : lastBit y = max (Int.log 2 |y| - 52) (-1074) := rfl
        rw [abs_of_pos (hx.trans_le hxy)] at hy
        omega
      rw [le_div_iff₀ (hpow _)]
      rw [hexp, zpow_add₀ (by norm_num)] at hbound
      push_cast at hbound ⊢
      exact_mod_cast hbound
    have hup := roundEven_mono hscaled
    have hdown := roundEven_mono hscaled'
    rw [roundEven_int] at hup hdown
    have hup' : (roundEven (x / 2 ^ lastBit x) : ℚ) ≤ 2 ^ 53 := by exact_mod_cast hup
    have hdown' : (2 : ℚ) ^ 52 ≤ roundEven (y / 2 ^ lastBit y) := by exact_mod_cast hdown
    have hdouble : (2 : ℚ) * 2 ^ lastBit x ≤ 2 ^ lastBit y := by
      calc (2 : ℚ) * 2 ^ lastBit x = 2 ^ (lastBit x + 1) := by
            rw [zpow_add_one₀ two_ne_zero, mul_comm]
        _ ≤ 2 ^ lastBit y := zpow_le_zpow_right₀ one_le_two (by omega)
    calc toBinary64 x ≤ 2 ^ 53 * 2 ^ lastBit x := by
          rw [toBinary64]
          gcongr
      _ = 2 ^ 52 * (2 * 2 ^ lastBit x) := by ring
      _ ≤ 2 ^ 52 * 2 ^ lastBit y := by gcongr
      _ ≤ toBinary64 y := by
          rw [toBinary64]
          gcongr

theorem toBinary64_mono : Monotone toBinary64 := by
  intro x y hxy
  rcases lt_or_ge 0 x with hx | hx
  · exact toBinary64_mono_pos hx hxy
  rcases le_or_gt 0 y with hy | hy
  · have hneg := toBinary64_nonneg (neg_nonneg.mpr hx)
    rw [toBinary64_neg] at hneg
    have := toBinary64_nonneg hy
    linarith
  · have hmono := toBinary64_mono_pos (neg_pos.mpr hy) (neg_le_neg hxy)
    rw [toBinary64_neg, toBinary64_neg] at hmono
    linarith

theorem toBinary64_of_multiple {x : ℚ} (j : ℤ) (h : x = j * 2 ^ lastBit x) :
    toBinary64 x = x := by
  have hquot : x / 2 ^ lastBit x = j := by
    rw [div_eq_iff (by positivity)]
    exact h
  rw [toBinary64, hquot, roundEven_int]
  exact h.symm

theorem toBinary64_fixes (m : ℤ) (k : ℕ) (hm : |m| ≤ 2 ^ 53) (hk : k ≤ 1022) :
    toBinary64 (m / 2 ^ k) = m / 2 ^ k := by
  rcases eq_or_ne m 0 with rfl | hne
  · simp [toBinary64, roundEven]
  have hzpow : (m : ℚ) / 2 ^ k = m * 2 ^ (-(k : ℤ)) := by
    rw [zpow_neg, zpow_natCast, div_eq_mul_inv]
  have habs : |(m : ℚ) / 2 ^ k| = |m| * 2 ^ (-(k : ℤ)) := by
    rw [hzpow, abs_mul, abs_of_pos (by positivity : (0 : ℚ) < 2 ^ (-(k : ℤ)))]
    push_cast
    rfl
  have hpos : 0 < |(m : ℚ) / 2 ^ k| := by positivity
  have hlog : Int.log 2 |(m : ℚ) / 2 ^ k| < 54 - k := by
    rw [← Int.lt_zpow_iff_log_lt Nat.one_lt_two hpos, habs, sub_eq_add_neg]
    push_cast
    rw [zpow_add₀ two_ne_zero]
    have : (|m| : ℚ) ≤ 2 ^ 53 := by exact_mod_cast hm
    gcongr
    calc (|(m : ℚ)|) ≤ 2 ^ 53 := this
      _ < 2 ^ (54 : ℤ) := by norm_num
  -- a multiple of `2 ^ -k` is one of the last bit unless the mantissa is the power of two itself
  rcases le_or_gt (lastBit ((m : ℚ) / 2 ^ k)) (-k) with hle | hgt
  · obtain ⟨n, hn⟩ := Int.le.dest hle
    apply toBinary64_of_multiple (m * 2 ^ n)
    calc (m : ℚ) / 2 ^ k = m * 2 ^ (-(k : ℤ)) := hzpow
      _ = m * 2 ^ ((n : ℤ) + lastBit ((m : ℚ) / 2 ^ k)) := by rw [← hn, add_comm]
      _ = _ := by
          rw [zpow_add₀ two_ne_zero, zpow_natCast, ← mul_assoc]
          push_cast
          rfl
  · have hbit : lastBit ((m : ℚ) / 2 ^ k) = max (Int.log 2 |(m : ℚ) / 2 ^ k| - 52) (-1074) := rfl
    have hlast : lastBit ((m : ℚ) / 2 ^ k) = 1 - k := by omega
    have hlow : Int.log 2 |(m : ℚ) / 2 ^ k| = 53 - k := by omega
    have hge := Int.zpow_log_le_self (R := ℚ) Nat.one_lt_two hpos
    rw [hlow, habs, sub_eq_add_neg] at hge
    push_cast at hge
    rw [zpow_add₀ two_ne_zero] at hge
    have hge' := le_of_mul_le_mul_right hge (by positivity)
    have hcast : (2 ^ 53 : ℤ) ≤ |m| := by
      have : (2 : ℚ) ^ 53 ≤ |(m : ℚ)| := by exact_mod_cast hge'
      exact_mod_cast this
    have hhalf : m = m / 2 * 2 := by
      rcases abs_cases m with ⟨h, _⟩ | ⟨h, _⟩ <;> omega
    apply toBinary64_of_multiple (m / 2)
    rw [hlast, hzpow, sub_eq_add_neg, zpow_add₀ two_ne_zero, zpow_one, ← mul_assoc]
    congr 1
    exact_mod_cast hhalf

def binary64 : Rounding := ⟨toBinary64, toBinary64_mono, toBinary64_fixes⟩

end Binary64

end Tigge.Lib
