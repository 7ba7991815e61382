import Mathlib.Data.List.Perm.Subperm
import Mathlib.Order.Defs.Unbundled
import Mathlib.Tactic.Common

/-! Rounds that serve the first few of those that wait, where some have to be served for ever. -/

namespace Tigge.Lib

/-- A way to put those that wait in order. -/
structure Service (α : Type*) where
  order : List α → List α
  before : α → α → Bool
  perm : ∀ waiting, (order waiting).Perm waiting
  sorted : ∀ waiting, waiting.Nodup → (order waiting).Pairwise fun a b => before a b = true
  asymm : ∀ a b, before a b = true → before b a = false

namespace Service

variable {α : Type*} (s : Service α) (places : ℕ) (done : α → Bool)

/-- Those that a round serves. -/
def served (waiting : List α) : List α := (s.order waiting).take places

variable {s places done} {waiting : List α} {c : α}

theorem mem_take_iff {l : List α} (h : l.Pairwise fun a b => s.before a b = true) {n : ℕ} :
    c ∈ l.take n ↔ c ∈ l ∧ l.countP (fun a => s.before a c) < n := by
  induction l generalizing n with
  | nil => simp
  | cons a l ih =>
    cases n with
    | zero => simp
    | succ n =>
      rw [List.pairwise_cons] at h
      rw [List.take_succ_cons, List.mem_cons, List.mem_cons, ih h.2, List.countP_cons]
      by_cases hc : c = a
      · subst hc
        have hself : s.before c c = false := by
          cases hcc : s.before c c with
          | false => rfl
          | true => exact hcc.symm.trans (s.asymm c c hcc)
        have hnone : l.countP (fun a => s.before a c) = 0 := by
          rw [List.countP_eq_zero]
          intro a ha
          rw [s.asymm c a (h.1 a ha)]
          decide
        simp [hself, hnone]
      · simp only [hc, false_or]
        refine and_congr_right fun hmem => ?_
        rw [h.1 c hmem]
        simp

theorem mem_served_iff (h : waiting.Nodup) :
    c ∈ s.served places waiting ↔
      c ∈ waiting ∧ waiting.countP (fun a => s.before a c) < places := by
  rw [served, mem_take_iff (s.sorted _ h), (s.perm waiting).mem_iff, (s.perm waiting).countP_eq]

/-- Of those before one that is not served, some are served and done. -/
theorem exists_done (h : waiting.Nodup) (hc : c ∈ waiting)
    (hwaits : places ≤ waiting.countP fun a => s.before a c)
    (hstuck : waiting.countP (fun a => s.before a c && !done a) < places) :
    ∃ a ∈ s.served places waiting, s.before a c = true ∧ done a = true := by
  by_contra hnone
  push Not at hnone
  have hlength : (s.served places waiting).length = places := by
    rw [served, List.length_take, (s.perm waiting).length_eq]
    exact Nat.min_eq_left (Nat.le_trans hwaits List.countP_le_length)
  have hserved : (s.served places waiting).Nodup :=
    ((s.perm waiting).nodup_iff.mpr h).sublist (List.take_sublist _ _)
  have hsub : s.served places waiting ⊆
      waiting.filter fun a => s.before a c && !done a := by
    intro a ha
    have hmem := (s.perm waiting).mem_iff.mp (List.mem_of_mem_take ha)
    have hbefore : s.before a c = true := by
      have hdrop : c ∈ (s.order waiting).drop places := by
        have hsplit := (s.perm waiting).mem_iff.mpr hc
        rw [← List.take_append_drop places (s.order waiting), List.mem_append] at hsplit
        refine hsplit.resolve_left fun hin => ?_
        exact absurd ((mem_served_iff h).mp hin).2 (Nat.not_lt.mpr hwaits)
      have hsorted := s.sorted _ h
      rw [← List.take_append_drop places (s.order waiting), List.pairwise_append] at hsorted
      exact hsorted.2.2 a ha c hdrop
    rw [List.mem_filter, hbefore, Bool.true_and, Bool.not_eq_true']
    exact ⟨hmem, Bool.eq_false_iff.mpr (hnone a ha hbefore)⟩
  have hle := (hserved.subperm hsub).length_le
  rw [hlength, ← List.countP_eq_length_filter] at hle
  omega

section Rounds
variable [DecidableEq α]

/-- Those that are done after they were served wait no more. -/
def round (s : Service α) (places : ℕ) (done : α → Bool) (waiting : List α) : List α :=
  waiting.filter fun c => !(done c && decide (c ∈ s.served places waiting))

def afterRounds (s : Service α) (places : ℕ) (done : α → Bool) (waiting : List α) : ℕ → List α
  | 0 => waiting
  | k + 1 => s.round places done (afterRounds s places done waiting k)

theorem nodup_afterRounds (h : waiting.Nodup) (k : ℕ) :
    (s.afterRounds places done waiting k).Nodup := by
  induction k with
  | zero => exact h
  | succ k ih => exact ih.filter _

/-- Those that are never done wait for ever. -/
theorem filter_afterRounds (k : ℕ) :
    (s.afterRounds places done waiting k).filter (fun a => !done a) =
      waiting.filter fun a => !done a := by
  induction k with
  | zero => rfl
  | succ k ih =>
    rw [← ih, afterRounds, round, List.filter_filter]
    congr 1
    funext a
    cases done a <;> rfl

/-- A round brings everyone forward who has a place in the end. -/
theorem countP_round_lt (h : waiting.Nodup) (hc : c ∈ waiting)
    (hwaits : places ≤ waiting.countP fun a => s.before a c)
    (hstuck : waiting.countP (fun a => s.before a c && !done a) < places) :
    (s.round places done waiting).countP (fun a => s.before a c) <
      waiting.countP fun a => s.before a c := by
  obtain ⟨a, ha, hbefore, hdone⟩ := exists_done h hc hwaits hstuck
  rw [round, List.countP_eq_length_filter, List.countP_eq_length_filter, List.filter_comm,
    List.length_filter_lt_length_iff_exists]
  refine ⟨a, List.mem_filter.mpr ⟨?_, hbefore⟩, ?_⟩
  · exact (s.perm waiting).mem_iff.mp (List.mem_of_mem_take ha)
  · rw [hdone, decide_eq_true ha]
    decide

theorem exists_served (h : waiting.Nodup) (hc : c ∈ waiting)
    (hstuck : waiting.countP (fun a => s.before a c && !done a) < places) :
    ∃ k, c ∈ s.served places (s.afterRounds places done waiting k) := by
  by_contra hnone
  push Not at hnone
  have hmem : ∀ k, c ∈ s.afterRounds places done waiting k := by
    intro k
    induction k with
    | zero => exact hc
    | succ k ih =>
      rw [afterRounds, round, List.mem_filter, decide_eq_false (hnone k), Bool.and_false]
      exact ⟨ih, rfl⟩
  have hfixed : ∀ k, (s.afterRounds places done waiting k).countP
      (fun a => s.before a c && !done a) < places := by
    intro k
    rw [← List.countP_filter, filter_afterRounds, List.countP_filter]
    exact hstuck
  -- the number of those before it goes down for ever
  have hdown : ∀ k, (s.afterRounds places done waiting k).countP (fun a => s.before a c) + k ≤
      waiting.countP fun a => s.before a c := by
    intro k
    induction k with
    | zero => exact Nat.le_refl _
    | succ k ih =>
      have hnodup : (s.afterRounds places done waiting k).Nodup := nodup_afterRounds h k
      have hwaits : places ≤
          (s.afterRounds places done waiting k).countP fun a => s.before a c := by
        by_contra hlt
        exact hnone k ((mem_served_iff hnodup).mpr ⟨hmem k, Nat.not_le.mp hlt⟩)
      have hlt := countP_round_lt hnodup (hmem k) hwaits (hfixed k)
      rw [afterRounds]
      omega
  have hend := hdown (waiting.countP (fun a => s.before a c) + 1)
  omega

/-- Someone who waits is served in the end when there is a place besides those that are taken for
ever. -/
theorem served_iff (h : waiting.Nodup) (hc : c ∈ waiting) :
    (∃ k, c ∈ s.served places (s.afterRounds places done waiting k)) ↔
      waiting.countP (fun a => s.before a c && !done a) < places := by
  refine ⟨?_, exists_served h hc⟩
  rintro ⟨k, hk⟩
  have hlt := ((mem_served_iff (nodup_afterRounds h k)).mp hk).2
  refine Nat.lt_of_le_of_lt ?_ hlt
  rw [← List.countP_filter, ← filter_afterRounds k, List.countP_filter]
  exact List.countP_mono_left fun a _ ha => (Bool.and_eq_true_iff.mp ha).1

end Rounds

end Service

end Tigge.Lib
