import Tigge.Lib.Decimal

/-! The number that a string stands for where Perl needs one: what can be read of it from the
front, 0 if that is nothing. Values are exact. -/

namespace Tigge.Lib

inductive Number
  | finite (q : ℚ)
  | infinite (negative : Bool)
  | nan
  deriving DecidableEq

namespace Number

def lt (n : ℚ) : Number → Bool
  | finite q => q < n
  | infinite negative => negative
  | nan => false

def gt (n : ℚ) : Number → Bool
  | finite q => n < q
  | infinite negative => !negative
  | nan => false

def le (n : ℚ) : Number → Bool
  | finite q => q ≤ n
  | infinite negative => negative
  | nan => false

def ge (n : ℚ) : Number → Bool
  | finite q => n ≤ q
  | infinite negative => !negative
  | nan => false

def eq (n : ℚ) : Number → Bool
  | finite q => q = n
  | _ => false

def neg : Number → Number
  | finite q => finite (-q)
  | infinite negative => infinite !negative
  | nan => nan

/-- `int`, which cuts off the fraction. -/
def int : Number → Number
  | finite q => finite (if 0 ≤ q then ⌊q⌋ else ⌈q⌉)
  | x => x

end Number

def chomp (s : Str) : Str := if s.getLast? = some '\n' then s.dropLast else s

/-- `\s`. -/
def isSpace (c : Char) : Bool := c = ' ' || (9 ≤ c.toNat && c.toNat ≤ 13)

def digitsValue (s : Str) : ℕ := Nat.ofDigitChars 10 (s.takeWhile Char.isDigit) 0

def exponentValue : Str → ℤ
  | [] => 0
  | e :: s =>
    if e ≠ 'e' && e ≠ 'E' then 0
    else match s with
      | '-' :: t => -digitsValue t
      | '+' :: t => digitsValue t
      | t => digitsValue t

/-- A number without a sign. -/
def unsignedValue (s : Str) : Number :=
  let word := (s.take 3).map Char.toLower
  let whole := s.takeWhile Char.isDigit
  let rest := s.dropWhile Char.isDigit
  let point := rest.head? = some '.'
  let fraction := if point then rest.tail.takeWhile Char.isDigit else []
  let exponent := if point then rest.tail.dropWhile Char.isDigit else rest
  if word = "inf".toList then .infinite false
  else if word = "nan".toList then .nan
  else if whole = [] ∧ fraction = [] then .finite 0
  else .finite (Nat.ofDigitChars 10 (whole ++ fraction) 0 *
    10 ^ (exponentValue exponent - fraction.length))

def numberValue (s : Str) : Number :=
  match s.dropWhile isSpace with
  | '-' :: t => (unsignedValue t).neg
  | '+' :: t => unsignedValue t
  | t => unsignedValue t

theorem isSpace_of_isDigit {c : Char} (h : c.isDigit) : isSpace c = false := by
  have hc := (digit_bounds h).1
  have hne : c ≠ ' ' := by
    rintro rfl
    simp at h
  simp only [isSpace, hne, decide_false, Bool.false_or, Bool.and_eq_false_iff,
    decide_eq_false_iff_not]
  omega

theorem unsignedValue_digits {s : Str} (h0 : s ≠ []) (hs : ∀ c ∈ s, c.isDigit) :
    unsignedValue s = .finite (Nat.ofDigitChars 10 s 0) := by
  obtain ⟨c, t, rfl⟩ := List.exists_cons_of_ne_nil h0
  have hc := hs c List.mem_cons_self
  have hwhole : (c :: t).takeWhile Char.isDigit = c :: t := List.takeWhile_eq_self_iff.mpr hs
  have hrest : (c :: t).dropWhile Char.isDigit = [] := List.dropWhile_eq_nil_iff.mpr hs
  have hword : ∀ w : Str, w.head? = some 'i' ∨ w.head? = some 'n' →
      ((c :: t).take 3).map Char.toLower ≠ w := by
    rintro w hw rfl
    simp only [List.take_succ_cons, List.map_cons, List.head?_cons, Option.some.injEq,
      toLower_of_isDigit hc] at hw
    rcases hw with rfl | rfl <;> simp at hc
  simp only [unsignedValue, hwhole, hrest, List.head?_nil, reduceCtorEq, if_false]
  rw [if_neg (hword _ (.inl rfl)), if_neg (hword _ (.inr rfl)), if_neg (by simp)]
  simp [exponentValue]

theorem padded_ne_nil (w n : ℕ) : padded w n ≠ [] := by
  intro h
  have hlength := congrArg List.length h
  rw [padded, List.length_leftpad, List.length_nil] at hlength
  have := Nat.length_toDigits_pos (b := 10) (n := n)
  omega

/-- An integer that was printed is read back. -/
@[simp] theorem numberValue_sprintf0 (w : ℕ) (v : ℤ) : numberValue (sprintf0 w v) = .finite v := by
  have hdigits : ∀ w n, ∀ c ∈ padded w n, c.isDigit := fun _ _ _ h => isDigit_of_mem_padded h
  cases v with
  | ofNat n =>
    obtain ⟨c, t, hct⟩ := List.exists_cons_of_ne_nil (padded_ne_nil w n)
    have hc : c.isDigit := hdigits w n c (hct ▸ List.mem_cons_self)
    have hvalue := unsignedValue_digits (padded_ne_nil w n) (hdigits w n)
    rw [ofDigitChars_padded, hct] at hvalue
    rw [sprintf0, hct, numberValue, List.dropWhile_cons_of_neg (by simp [isSpace_of_isDigit hc])]
    split
    next heq =>
      rw [(List.cons.inj heq).1] at hc
      simp at hc
    next heq =>
      rw [(List.cons.inj heq).1] at hc
      simp at hc
    next => rw [hvalue]; rfl
  | negSucc n =>
    have hvalue := unsignedValue_digits (padded_ne_nil (w - 1) (n + 1)) (hdigits (w - 1) (n + 1))
    rw [ofDigitChars_padded] at hvalue
    rw [sprintf0, numberValue, List.dropWhile_cons_of_neg (by decide)]
    show (unsignedValue _).neg = _
    rw [hvalue, Number.neg, Int.negSucc_eq]
    push_cast
    rfl

end Tigge.Lib
