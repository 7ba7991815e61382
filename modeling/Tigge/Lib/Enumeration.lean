import Mathlib.Data.List.Perm.Basic
import Mathlib.Data.Nat.Basic
import Mathlib.Order.Basic
import Mathlib.Tactic.SplitIfs

/-! Lists that come in an order of the environment's choice, and the search for the first largest
element along such an order. -/

namespace Tigge.Lib
variable {α : Type*}

/-- An order in which the elements of a hash or of a directory come. -/
structure Enumeration (α : Type*) where
  order : List α → List α
  perm : ∀ l, (order l).Perm l

namespace Enumeration

def asListed : Enumeration α := ⟨id, fun _ => .refl _⟩

@[simp] theorem mem_order (e : Enumeration α) {l : List α} {a : α} : a ∈ e.order l ↔ a ∈ l :=
  (e.perm l).mem_iff

variable [DecidableEq α]

/-- The order that puts one element in front. -/
def first (a : α) : Enumeration α where
  order l := if a ∈ l then a :: l.erase a else l
  perm l := by
    split_ifs with h
    · exact (List.perm_cons_erase h).symm
    · exact .refl l

/-- The order that puts one element at the end. -/
def last (a : α) : Enumeration α where
  order l := if a ∈ l then l.erase a ++ [a] else l
  perm l := by
    split_ifs with h
    · exact (List.perm_append_singleton a _).trans (List.perm_cons_erase h).symm
    · exact .refl l

theorem first_order {a : α} {l : List α} (h : a ∈ l) : (first a).order l = a :: l.erase a :=
  if_pos h

theorem last_order {a : α} {l : List α} (h : a ∈ l) : (last a).order l = l.erase a ++ [a] :=
  if_pos h

end Enumeration

section Largest
variable (count : α → ℕ)

/-- One step of the search: a strictly larger element takes the place of the best so far. -/
def better (best : α × ℕ) (a : α) : α × ℕ := if best.2 < count a then (a, count a) else best

theorem foldl_better_ge (l : List α) (best : α × ℕ) :
    best.2 ≤ (l.foldl (better count) best).2 ∧
      ∀ a ∈ l, count a ≤ (l.foldl (better count) best).2 := by
  induction l generalizing best with
  | nil => exact ⟨le_rfl, fun _ h => absurd h List.not_mem_nil⟩
  | cons a l ih =>
    obtain ⟨hbest, hl⟩ := ih (better count best a)
    have hstep : best.2 ≤ (better count best a).2 ∧ count a ≤ (better count best a).2 := by
      unfold better
      split_ifs with h
      · exact ⟨h.le, le_rfl⟩
      · exact ⟨le_rfl, not_lt.mp h⟩
    rw [List.foldl_cons, List.forall_mem_cons]
    exact ⟨hstep.1.trans hbest, hstep.2.trans hbest, hl⟩

/-- The search ends with an element and its count, unless none counts more than at the start. -/
theorem foldl_better_mem (l : List α) (best : α × ℕ) :
    l.foldl (better count) best = best ∨
      (l.foldl (better count) best).1 ∈ l ∧
        (l.foldl (better count) best).2 = count (l.foldl (better count) best).1 := by
  induction l generalizing best with
  | nil => exact .inl rfl
  | cons a l ih =>
    rw [List.foldl_cons]
    rcases ih (better count best a) with h | ⟨hmem, hcount⟩
    · rw [h, better]
      split_ifs
      · exact .inr ⟨List.mem_cons_self, rfl⟩
      · exact .inl rfl
    · exact .inr ⟨List.mem_cons_of_mem a hmem, hcount⟩

/-- A largest element that comes first is what is found. -/
theorem foldl_better_first {a : α} {l : List α} {best : α × ℕ} (hbest : best.2 < count a)
    (hl : ∀ b ∈ l, count b ≤ count a) : (a :: l).foldl (better count) best = (a, count a) := by
  rw [List.foldl_cons, better, if_pos hbest]
  induction l with
  | nil => rfl
  | cons b l ih =>
    rw [List.forall_mem_cons] at hl
    rw [List.foldl_cons, better, if_neg (not_lt.mpr hl.1)]
    exact ih hl.2

end Largest

end Tigge.Lib
