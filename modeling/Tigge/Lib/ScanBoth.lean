import Mathlib

/-! A scan for records of two kinds that keeps the latest of each until it has seen both. -/

namespace Tigge.Lib
variable {R : Type*}

/-- The latest record of each kind, if both were seen, and the latest of either. -/
def scanBoth (p q : R → Bool) (x y last : Option R) : List R → Option (R × R) × Option R
  | [] =>
    match x, y with
    | some a, some b => (some (a, b), last)
    | _, _ => (none, last)
  | r :: rest =>
    match x, y with
    | some a, some b => (some (a, b), last)
    | _, _ =>
      scanBoth p q (if p r then some r else x) (if q r then some r else y)
        (if p r || q r then some r else last) rest

/-- The records of one kind that precede the first of the other. -/
def aheadOf (other kind : R → Bool) (l : List R) : List R :=
  (l.takeWhile fun r => !other r).filter kind

section
variable {p q : R → Bool} {l : List R} {r : R}

theorem aheadOf_cons_stop (h : q r = true) : aheadOf q p (r :: l) = [] := by
  rw [aheadOf, List.takeWhile_cons_of_neg (by simp [h]), List.filter_nil]

theorem aheadOf_cons_keep (h : q r = false) (hr : p r = true) :
    aheadOf q p (r :: l) = r :: aheadOf q p l := by
  rw [aheadOf, List.takeWhile_cons_of_pos (by simp [h]), List.filter_cons_of_pos hr, aheadOf]

theorem aheadOf_cons_skip (h : q r = false) (hr : p r = false) :
    aheadOf q p (r :: l) = aheadOf q p l := by
  rw [aheadOf, List.takeWhile_cons_of_pos (by simp [h]),
    List.filter_cons_of_neg (by simp [hr]), aheadOf]

theorem scanBoth_full (a b : R) (last : Option R) (l : List R) :
    scanBoth p q (some a) (some b) last l = (some (a, b), last) := by
  cases l <;> rw [scanBoth]

/-- A step of the scan while one kind is still missing. -/
theorem scanBoth_cons {x y : Option R} (h : x = none ∨ y = none) (last : Option R) :
    scanBoth p q x y last (r :: l) =
      scanBoth p q (if p r then some r else x) (if q r then some r else y)
        (if p r || q r then some r else last) l := by
  rcases h with rfl | rfl
  · rfl
  · cases x <;> rfl

/-- Only one kind comes first. -/
theorem aheadOf_eq_nil (l : List R) : aheadOf q p l = [] ∨ aheadOf p q l = [] := by
  induction l with
  | nil => exact .inl rfl
  | cons r l ih =>
    cases hp : p r with
    | true => exact .inr (aheadOf_cons_stop hp)
    | false =>
      cases hq : q r with
      | true => exact .inl (aheadOf_cons_stop hq)
      | false =>
        rw [aheadOf_cons_skip hp hq, aheadOf_cons_skip hq hp]
        exact ih

theorem scanBoth_none_left {y last : Option R} (hx : ∀ r ∈ l, ¬ p r = true) :
    (scanBoth p q none y last l).1 = none := by
  induction l generalizing y last with
  | nil => cases y <;> rfl
  | cons r l ih =>
    rw [List.forall_mem_cons] at hx
    rw [scanBoth_cons (.inl rfl), if_neg hx.1]
    exact ih hx.2

theorem scanBoth_none_right {x last : Option R} (hy : ∀ r ∈ l, ¬ q r = true) :
    (scanBoth p q x none last l).1 = none := by
  induction l generalizing x last with
  | nil => cases x <;> rfl
  | cons r l ih =>
    rw [List.forall_mem_cons] at hy
    rw [scanBoth_cons (.inr rfl), if_neg hy.1]
    exact ih hy.2

theorem scanBoth_map {S : Type*} (f : R → S) (p q : S → Bool) (x y last : Option R) (l : List R) :
    scanBoth p q (x.map f) (y.map f) (last.map f) (l.map f) =
      ((scanBoth (p ∘ f) (q ∘ f) x y last l).1.map (Prod.map f f),
        (scanBoth (p ∘ f) (q ∘ f) x y last l).2.map f) := by
  induction l generalizing x y last with
  | nil => cases x <;> cases y <;> rfl
  | cons r l ih =>
    have hstep (h : x = none ∨ y = none) :
        scanBoth p q (x.map f) (y.map f) (last.map f) ((r :: l).map f) =
          scanBoth p q ((if p (f r) then some r else x).map f)
            ((if q (f r) then some r else y).map f)
            ((if p (f r) || q (f r) then some r else last).map f) (l.map f) := by
      have h' : x.map f = none ∨ y.map f = none :=
        h.imp (congrArg (Option.map f)) (congrArg (Option.map f))
      rw [List.map_cons, scanBoth_cons h', apply_ite (Option.map f), apply_ite (Option.map f),
        apply_ite (Option.map f)]
      rfl
    by_cases h : x = none ∨ y = none
    · rw [hstep h, scanBoth_cons h, ih]
      rfl
    · obtain ⟨hx, hy⟩ := not_or.mp h
      obtain ⟨a, rfl⟩ := Option.ne_none_iff_exists'.mp hx
      obtain ⟨b, rfl⟩ := Option.ne_none_iff_exists'.mp hy
      rfl

variable (hpq : ∀ r, p r = true → q r = false)
include hpq

/-- If both kinds occur, one of them comes first. -/
theorem aheadOf_ne_nil {x : R} (hx : l.find? p = some x) :
    aheadOf q p l ≠ [] ∨ aheadOf p q l ≠ [] := by
  induction l with
  | nil => cases hx
  | cons r l ih =>
    cases hp : p r with
    | true =>
      left
      rw [aheadOf_cons_keep (hpq r hp) hp]
      exact List.cons_ne_nil _ _
    | false =>
      cases hq : q r with
      | true =>
        right
        rw [aheadOf_cons_keep hp hq]
        exact List.cons_ne_nil _ _
      | false =>
        rw [aheadOf_cons_skip hp hq, aheadOf_cons_skip hq hp]
        apply ih
        rwa [List.find?_cons_of_neg (by simp [hp])] at hx

theorem eq_false_of_right (hq : q r = true) : p r = false := by
  by_contra hne
  rw [hpq r (Bool.not_eq_false _ ▸ hne)] at hq
  cases hq

/-- Once a record of the first kind is read, the latest one is kept until the other kind comes. -/
theorem scanBoth_left {x y : R} {last : Option R} (hy : l.find? q = some y) :
    scanBoth p q (some x) none last l = (some ((aheadOf q p l).getLastD x, y), some y) := by
  induction l generalizing x last with
  | nil => cases hy
  | cons r l ih =>
    rw [scanBoth_cons (.inr rfl)]
    cases hq : q r with
    | true =>
      rw [List.find?_cons_of_pos hq, Option.some_inj] at hy
      rw [aheadOf_cons_stop hq, eq_false_of_right hpq hq, if_neg Bool.false_ne_true, if_pos rfl,
        scanBoth_full, hy]
      rfl
    | false =>
      rw [List.find?_cons_of_neg (by simp [hq])] at hy
      cases hp : p r with
      | true =>
        rw [aheadOf_cons_keep hq hp, if_pos rfl, if_neg Bool.false_ne_true, ih hy,
          List.getLastD_cons]
      | false =>
        rw [aheadOf_cons_skip hq hp, if_neg Bool.false_ne_true, if_neg Bool.false_ne_true, ih hy]

theorem scanBoth_right {x y : R} {last : Option R} (hx : l.find? p = some x) :
    scanBoth p q none (some y) last l = (some (x, (aheadOf p q l).getLastD y), some x) := by
  induction l generalizing y last with
  | nil => cases hx
  | cons r l ih =>
    rw [scanBoth_cons (.inl rfl)]
    cases hp : p r with
    | true =>
      rw [List.find?_cons_of_pos hp, Option.some_inj] at hx
      rw [aheadOf_cons_stop hp, hpq r hp, if_pos rfl, if_neg Bool.false_ne_true, scanBoth_full, hx]
      rfl
    | false =>
      rw [List.find?_cons_of_neg (by simp [hp])] at hx
      cases hq : q r with
      | true =>
        rw [aheadOf_cons_keep hp hq, if_neg Bool.false_ne_true, if_pos rfl, ih hx,
          List.getLastD_cons]
      | false =>
        rw [aheadOf_cons_skip hp hq, if_neg Bool.false_ne_true, if_neg Bool.false_ne_true, ih hx]

/-- The scan keeps the last record of the kind that comes first, and ends on the first of the
other. -/
theorem scanBoth_eq {x y : R} {last : Option R} (hx : l.find? p = some x)
    (hy : l.find? q = some y) : scanBoth p q none none last l =
      (some ((aheadOf q p l).getLastD x, (aheadOf p q l).getLastD y),
        some (if aheadOf q p l = [] then x else y)) := by
  induction l generalizing last with
  | nil => cases hx
  | cons r l ih =>
    rw [scanBoth_cons (.inl rfl)]
    cases hp : p r with
    | true =>
      have hq := hpq r hp
      rw [List.find?_cons_of_pos hp, Option.some_inj] at hx
      rw [List.find?_cons_of_neg (by simp [hq])] at hy
      rw [hq, if_pos rfl, if_neg Bool.false_ne_true, scanBoth_left hpq hy, aheadOf_cons_stop hp,
        aheadOf_cons_keep hq hp, List.getLastD_cons, if_neg (List.cons_ne_nil _ _)]
      rfl
    | false =>
      rw [List.find?_cons_of_neg (by simp [hp])] at hx
      cases hq : q r with
      | true =>
        rw [List.find?_cons_of_pos hq, Option.some_inj] at hy
        rw [if_neg Bool.false_ne_true, if_pos rfl, scanBoth_right hpq hx, aheadOf_cons_stop hq,
          aheadOf_cons_keep hp hq, List.getLastD_cons, if_pos rfl]
        rfl
      | false =>
        rw [List.find?_cons_of_neg (by simp [hq])] at hy
        rw [if_neg Bool.false_ne_true, ih hx hy, aheadOf_cons_skip hp hq, aheadOf_cons_skip hq hp]

end
end Tigge.Lib
