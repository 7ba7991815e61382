import Mathlib

/-! Zero-padded decimals, as `printf` writes them with `%0wd`, and their order as
strings. `Nat.toDigits` and `Nat.ofDigitChars` supply the digits and the value. -/

namespace Tigge.Lib

abbrev Str := List Char

instance lawfulBEqStr : LawfulBEq Str := inferInstance

instance neZeroOne : NeZero (1 : ℕ) := ⟨one_ne_zero⟩

/-- `%0wd` of a natural number. A number wider than `w` is written in full. -/
def padded (w n : ℕ) : Str := (Nat.toDigits 10 n).leftpad w '0'

/-- `%0wd` of an integer. The sign counts towards the width. -/
def sprintf0 (w : ℕ) : ℤ → Str
  | .ofNat n => padded w n
  | .negSucc n => '-' :: padded (w - 1) (n + 1)

theorem ofDigitChars_padded (w n : ℕ) : Nat.ofDigitChars 10 (padded w n) 0 = n := by
  simp [padded, List.leftpad, Nat.ofDigitChars_append]

theorem padded_injective (w : ℕ) : Function.Injective (padded w) := by
  intro a b h
  rw [← ofDigitChars_padded w a, h, ofDigitChars_padded]

theorem padded_length {w n : ℕ} (hw : 0 < w) (h : n < 10 ^ w) : (padded w n).length = w := by
  rw [padded, List.length_leftpad]
  exact max_eq_left ((Nat.length_toDigits_le_iff (by decide) hw).mpr h)

theorem isDigit_of_mem_padded {w n : ℕ} {c : Char} (h : c ∈ padded w n) : c.isDigit := by
  rw [padded, List.leftpad, List.mem_append, List.mem_replicate] at h
  rcases h with ⟨_, rfl⟩ | h
  · rfl
  · exact Nat.isDigit_of_mem_toDigits (by decide) (by decide) h

theorem notMem_padded {w n : ℕ} {c : Char} (hc : c.isDigit = false) : c ∉ padded w n := by
  intro h
  rw [isDigit_of_mem_padded h] at hc
  cases hc

@[simp] theorem sprintf0_natCast (w n : ℕ) : sprintf0 w (n : ℤ) = padded w n := rfl

theorem digit_bounds {c : Char} (h : c.isDigit) : 48 ≤ c.toNat ∧ c.toNat ≤ 57 := by
  simpa using Char.isDigit_iff_toNat.mp h

theorem toLower_of_isDigit {c : Char} (h : c.isDigit) : c.toLower = c := by
  have hle : c.toNat ≤ 57 := (digit_bounds h).2
  unfold Char.toLower
  refine dif_neg fun hu => ?_
  have hge : 65 ≤ c.toNat := UInt32.le_iff_toNat_le.mp hu.1
  omega

theorem ofDigitChars_cons_bounds (c : Char) (s : Str) (hs : ∀ d ∈ s, d.isDigit) :
    10 ^ s.length * (c.toNat - 48) ≤ Nat.ofDigitChars 10 (c :: s) 0 ∧
      Nat.ofDigitChars 10 (c :: s) 0 < 10 ^ s.length * (c.toNat - 48 + 1) := by
  induction s generalizing c with
  | nil => simp [Nat.ofDigitChars_cons]
  | cons d s ih =>
    have hd := digit_bounds (hs d List.mem_cons_self)
    obtain ⟨_, hhi⟩ := ih d (fun e he => hs e (List.mem_cons_of_mem _ he))
    have he : Nat.ofDigitChars 10 (c :: d :: s) 0 =
        10 ^ (s.length + 1) * (c.toNat - 48) + Nat.ofDigitChars 10 (d :: s) 0 := by
      rw [Nat.ofDigitChars_cons, Nat.ofDigitChars_eq_ofDigitChars_zero]
      simp
    have hlt : Nat.ofDigitChars 10 (d :: s) 0 < 10 ^ (s.length + 1) := by
      calc Nat.ofDigitChars 10 (d :: s) 0 < 10 ^ s.length * (d.toNat - 48 + 1) := hhi
        _ ≤ 10 ^ s.length * 10 := Nat.mul_le_mul_left _ (by omega)
        _ = 10 ^ (s.length + 1) := (pow_succ ..).symm
    rw [he, List.length_cons, Nat.mul_add, Nat.mul_one]
    omega

/-- On digit strings of one length the order of `strcmp` is the order of the numbers. -/
theorem lt_iff_ofDigitChars_lt (s t : Str) (hs : ∀ c ∈ s, c.isDigit) (ht : ∀ c ∈ t, c.isDigit)
    (hl : s.length = t.length) :
    s < t ↔ Nat.ofDigitChars 10 s 0 < Nat.ofDigitChars 10 t 0 := by
  induction s generalizing t with
  | nil => cases t <;> simp_all
  | cons c s ih =>
    cases t with
    | nil => simp at hl
    | cons d t =>
      have hc := digit_bounds (hs c List.mem_cons_self)
      have hd := digit_bounds (ht d List.mem_cons_self)
      have hs' : ∀ e ∈ s, e.isDigit := fun e he => hs e (List.mem_cons_of_mem _ he)
      have ht' : ∀ e ∈ t, e.isDigit := fun e he => ht e (List.mem_cons_of_mem _ he)
      have hl' : s.length = t.length := by simpa using hl
      obtain ⟨hc1, hc2⟩ := ofDigitChars_cons_bounds c s hs'
      obtain ⟨hd1, hd2⟩ := ofDigitChars_cons_bounds d t ht'
      rw [hl'] at hc1 hc2
      rw [List.cons_lt_cons_iff]
      rcases lt_trichotomy c.toNat d.toNat with h | h | h
      · have hlt : c < d := h
        have hle : 10 ^ t.length * (c.toNat - 48 + 1) ≤ 10 ^ t.length * (d.toNat - 48) :=
          Nat.mul_le_mul_left _ (by omega)
        simp only [hlt, true_or, true_iff]
        omega
      · have he : c = d := Char.toNat_inj.mp h
        subst he
        rw [Nat.ofDigitChars_cons, Nat.ofDigitChars_cons, Nat.ofDigitChars_eq_ofDigitChars_zero,
          Nat.ofDigitChars_eq_ofDigitChars_zero (l := t), hl', Nat.add_lt_add_iff_left,
          ← ih t hs' ht' hl']
        simp
      · have hgt : d < c := h
        have hle : 10 ^ t.length * (d.toNat - 48 + 1) ≤ 10 ^ t.length * (c.toNat - 48) :=
          Nat.mul_le_mul_left _ (by omega)
        have hne : c ≠ d := hgt.ne'
        simp only [hgt.not_gt, hne, false_and, or_false, false_iff]
        omega

theorem ofDigitChars_lt {s : Str} (hs : ∀ c ∈ s, c.isDigit) :
    Nat.ofDigitChars 10 s 0 < 10 ^ s.length := by
  cases s with
  | nil => exact Nat.one_pos
  | cons c t =>
    have hc := digit_bounds (hs c List.mem_cons_self)
    obtain ⟨_, hhi⟩ := ofDigitChars_cons_bounds c t fun d hd => hs d (List.mem_cons_of_mem _ hd)
    calc Nat.ofDigitChars 10 (c :: t) 0 < 10 ^ t.length * (c.toNat - 48 + 1) := hhi
      _ ≤ 10 ^ t.length * 10 := Nat.mul_le_mul_left _ (by omega)
      _ = 10 ^ (c :: t).length := (pow_succ ..).symm

theorem padded_ofDigitChars {s : Str} (h0 : s ≠ []) (hs : ∀ c ∈ s, c.isDigit) :
    padded s.length (Nat.ofDigitChars 10 s 0) = s := by
  have hl := padded_length (List.length_pos_iff.mpr h0) (ofDigitChars_lt hs)
  have hp : ∀ c ∈ padded s.length (Nat.ofDigitChars 10 s 0), c.isDigit :=
    fun _ h => isDigit_of_mem_padded h
  rcases lt_trichotomy (padded s.length (Nat.ofDigitChars 10 s 0)) s with h | h | h
  · rw [lt_iff_ofDigitChars_lt _ _ hp hs hl, ofDigitChars_padded] at h
    exact absurd h (lt_irrefl _)
  · exact h
  · rw [lt_iff_ofDigitChars_lt _ _ hs hp hl.symm, ofDigitChars_padded] at h
    exact absurd h (lt_irrefl _)

/-- The width is kept by the numbers that have room in it, the sign included. -/
theorem length_sprintf0 {w : ℕ} {z : ℤ} (hw : 0 < w) (hlo : -10 ^ (w - 1) < z)
    (hhi : z < 10 ^ w) : (sprintf0 w z).length = w := by
  cases z with
  | ofNat n =>
    have hn : n < 10 ^ w := by
      rw [Int.ofNat_eq_natCast] at hhi
      exact_mod_cast hhi
    exact padded_length hw hn
  | negSucc n =>
    have hn : n + 1 < 10 ^ (w - 1) := by
      rw [Int.negSucc_eq] at hlo
      exact_mod_cast neg_lt_neg_iff.mp hlo
    have hw1 : 0 < w - 1 := by
      by_contra h
      rw [Nat.eq_zero_of_not_pos h] at hn
      omega
    rw [sprintf0, List.length_cons, padded_length hw1 hn]
    omega

theorem notMem_sprintf0 {w : ℕ} {z : ℤ} {c : Char} (hc : c.isDigit = false) (hm : c ≠ '-') :
    c ∉ sprintf0 w z := by
  cases z with
  | ofNat n => exact notMem_padded hc
  | negSucc n =>
    rw [sprintf0, List.mem_cons, not_or]
    exact ⟨hm, notMem_padded hc⟩

end Tigge.Lib
