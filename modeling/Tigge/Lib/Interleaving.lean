import Mathlib.Data.Set.Subsingleton
import Mathlib.Logic.Relation

/-! Processes with their own control states over one shared state, stepped in any order. -/

namespace Tigge.Lib
open Relation

theorem invariant_of_step {α : Type*} {r : α → α → Prop} {I : α → Prop}
    (hI : ∀ a b, I a → r a b → I b) {a b : α} (h : ReflTransGen r a b) (ha : I a) : I b := by
  induction h with
  | refl => exact ha
  | tail _ hr ih => exact hI _ _ ih hr

structure Configuration (P σ ρ : Type*) where
  shared : σ
  stage : P → ρ

namespace Configuration
variable {P σ ρ : Type*} [DecidableEq P]

/-- The configuration after process `p` moved. -/
def move (c : Configuration P σ ρ) (p : P) (t : σ × ρ) : Configuration P σ ρ where
  shared := t.1
  stage := Function.update c.stage p t.2

@[simp] theorem move_shared (c : Configuration P σ ρ) (p : P) (t : σ × ρ) :
    (c.move p t).shared = t.1 := rfl

@[simp] theorem move_stage_self (c : Configuration P σ ρ) (p : P) (t : σ × ρ) :
    (c.move p t).stage p = t.2 := Function.update_self ..

theorem move_stage_of_ne (c : Configuration P σ ρ) {p q : P} (h : q ≠ p) (t : σ × ρ) :
    (c.move p t).stage q = c.stage q := Function.update_of_ne h ..

theorem move_move (c : Configuration P σ ρ) (p : P) (t u : σ × ρ) :
    (c.move p t).move p u = c.move p u := by
  show (⟨u.1, _⟩ : Configuration P σ ρ) = ⟨u.1, _⟩
  exact congrArg _ (Function.update_idem ..)

theorem move_self (c : Configuration P σ ρ) (p : P) :
    c.move p (c.shared, c.stage p) = c := by
  show (⟨c.shared, _⟩ : Configuration P σ ρ) = c
  rw [Function.update_eq_self]

variable (next : P → σ → ρ → Option (σ × ρ))

def StepOf (p : P) (c c' : Configuration P σ ρ) : Prop :=
  ∃ t, next p c.shared (c.stage p) = some t ∧ c' = c.move p t

def Step (c c' : Configuration P σ ρ) : Prop := ∃ p, StepOf next p c c'

/-- What a process does when nobody else moves. -/
def Alone (p : P) (a b : σ × ρ) : Prop := next p a.1 a.2 = some b

theorem reaches_of_alone {p : P} {a b : σ × ρ} (h : ReflTransGen (Alone next p) a b)
    (c : Configuration P σ ρ) : ReflTransGen (Step next) (c.move p a) (c.move p b) := by
  induction h with
  | refl => exact .refl
  | @tail x y _ hxy ih =>
    refine ih.tail ⟨p, y, ?_, (move_move c p x y).symm⟩
    rwa [move_shared, move_stage_self]

variable {next}

/-- At most one process stays in a region when each move into it finds it empty of others. -/
theorem subsingleton_move {S : Set ρ} {c : Configuration P σ ρ} {p : P} {t : σ × ρ}
    (hS : {q | c.stage q ∈ S}.Subsingleton)
    (henter : t.2 ∈ S → c.stage p ∉ S → ∀ q, q ≠ p → c.stage q ∉ S) :
    {q | (c.move p t).stage q ∈ S}.Subsingleton := by
  have hself : t.2 ∈ S → ∀ q, q ≠ p → c.stage q ∉ S := by
    intro ht q hq hqS
    by_cases hp : c.stage p ∈ S
    · exact hq (hS hqS hp)
    · exact henter ht hp q hq hqS
  intro q (hq : _ ∈ S) r (hr : _ ∈ S)
  by_cases hqp : q = p
  · subst hqp
    by_contra hne
    rw [move_stage_self] at hq
    rw [move_stage_of_ne c (Ne.symm hne)] at hr
    exact hself hq r (Ne.symm hne) hr
  · rw [move_stage_of_ne c hqp] at hq
    by_cases hrp : r = p
    · subst hrp
      rw [move_stage_self] at hr
      exact absurd hq (hself hr q hqp)
    · rw [move_stage_of_ne c hrp] at hr
      exact hS hq hr

end Configuration
end Tigge.Lib
