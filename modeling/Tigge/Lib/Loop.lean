import Mathlib.Tactic.Common

/-! `while` loops run with fuel, and when they end. -/

namespace Tigge.Lib
variable {σ : Type*} (guard : σ → Bool) (body : σ → Option σ)

/-- `while (guard) body`; `none` when the fuel runs out or the body does not end. -/
def whileLoop : ℕ → σ → Option σ
  | 0, s => if guard s then none else some s
  | fuel + 1, s => if guard s then (body s).bind (whileLoop fuel) else some s

/-- An invariant that each iteration keeps while it lowers a variant holds at the end. -/
theorem whileLoop_total {I : σ → Prop} (variant : σ → ℕ)
    (hstep : ∀ s, I s → guard s = true → ∃ t, body s = some t ∧ I t ∧ variant t < variant s)
    {fuel : ℕ} {s : σ} (hfuel : variant s ≤ fuel) (hs : I s) :
    ∃ t, whileLoop guard body fuel s = some t ∧ I t ∧ guard t = false := by
  induction fuel generalizing s with
  | zero =>
    have hg : guard s = false := by
      by_contra hg
      obtain ⟨t, -, -, hlt⟩ := hstep s hs (Bool.not_eq_false _ ▸ hg)
      omega
    exact ⟨s, by simp [whileLoop, hg], hs, hg⟩
  | succ fuel ih =>
    cases hg : guard s with
    | false => exact ⟨s, by simp [whileLoop, hg], hs, hg⟩
    | true =>
      obtain ⟨t, hbody, ht, hlt⟩ := hstep s hs hg
      obtain ⟨u, hu, hI, hend⟩ := ih (s := t) (by omega) ht
      exact ⟨u, by simp [whileLoop, hg, hbody, hu], hI, hend⟩

end Tigge.Lib
