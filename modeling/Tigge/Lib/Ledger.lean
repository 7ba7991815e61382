import Mathlib.Data.List.Basic
import Mathlib.Data.List.Infix
import Mathlib.Tactic.Common

/-! A ledger of items entered under keys, where a key may be cleared. What stands under a key is
what was entered since. -/

namespace Tigge.Lib
variable {κ ι ι' : Type*}

inductive Entry (κ ι : Type*)
  | add (key : κ) (item : ι)
  | clear (key : κ)

namespace Entry

def key : Entry κ ι → κ
  | add k _ => k
  | clear k => k

def map (f : ι → ι') : Entry κ ι → Entry κ ι'
  | add k i => add k (f i)
  | clear k => clear k

variable [DecidableEq κ]

/-- The items under a key after one more entry. -/
def enter (k : κ) (items : List ι) : Entry κ ι → List ι
  | add k' i => if k' = k then items ++ [i] else items
  | clear k' => if k' = k then [] else items

/-- The items under a key after the given entries. -/
def since (k : κ) (items : List ι) (entries : List (Entry κ ι)) : List ι :=
  entries.foldl (enter k) items

variable {k : κ} {items : List ι} {es fs : List (Entry κ ι)}

theorem since_append : since k items (es ++ fs) = since k (since k items es) fs :=
  List.foldl_append

theorem enter_of_ne {e : Entry κ ι} (h : e.key ≠ k) : enter k items e = items := by
  cases e with
  | add k' i => exact if_neg h
  | clear k' => exact if_neg h

theorem since_of_forall_ne (h : ∀ e ∈ es, e.key ≠ k) : since k items es = items := by
  induction es generalizing items with
  | nil => rfl
  | cons e es ih =>
    rw [since, List.foldl_cons, enter_of_ne (h e List.mem_cons_self)]
    exact ih fun f hf => h f (List.mem_cons_of_mem _ hf)

theorem since_map (f : ι → ι') :
    since k (items.map f) (es.map (map f)) = (since k items es).map f := by
  rw [since, List.foldl_map]
  refine List.foldl_hom (List.map f) fun l e => ?_
  cases e with
  | add k' i =>
    simp only [map, enter]
    split_ifs
    · rw [List.map_append, List.map_singleton]
    · rfl
  | clear k' =>
    simp only [map, enter]
    split_ifs <;> rfl

theorem prefix_since (h : ∀ e ∈ es, e ≠ clear k) : items <+: since k items es := by
  induction es generalizing items with
  | nil => exact List.prefix_rfl
  | cons e es ih =>
    refine List.IsPrefix.trans ?_ (ih fun f hf => h f (List.mem_cons_of_mem _ hf))
    cases e with
    | add k' i =>
      simp only [enter]
      split_ifs
      · exact List.prefix_append _ _
      · exact List.prefix_rfl
    | clear k' =>
      have hk : (clear k' : Entry κ ι).key ≠ k := fun hk => h _ List.mem_cons_self (hk ▸ rfl)
      rw [enter_of_ne hk]

theorem length_since_le (h : ∀ e ∈ es, ∀ i, e ≠ add k i) :
    (since k items es).length ≤ items.length := by
  induction es generalizing items with
  | nil => exact le_rfl
  | cons e es ih =>
    refine (ih fun f hf => h f (List.mem_cons_of_mem _ hf)).trans ?_
    cases e with
    | add k' i =>
      have hk : (add k' i).key ≠ k := fun hk => h _ List.mem_cons_self i (hk ▸ rfl)
      rw [enter_of_ne hk]
    | clear k' =>
      simp only [enter]
      split_ifs
      · exact Nat.zero_le _
      · exact le_rfl

theorem since_eq_nil (hmem : clear k ∈ es) (h : ∀ e ∈ es, ∀ i, e ≠ add k i) :
    since k items es = [] := by
  obtain ⟨pre, post, rfl⟩ := List.append_of_mem hmem
  have hpost : (since k [] post).length ≤ 0 := length_since_le fun e he =>
    h e (List.mem_append_right _ (List.mem_cons_of_mem _ he))
  rw [since_append, since, List.foldl_cons, enter, if_pos rfl]
  exact List.eq_nil_of_length_eq_zero (Nat.le_zero.mp hpost)

end Entry

/-- A prefix of a flattened sequence of blocks ends within one of them. -/
theorem prefix_flatMap_range {α : Type*} {f : ℕ → List α} {m : ℕ} {l : List α}
    (h : l <+: (List.range m).flatMap f) :
    ∃ k, ∃ t, l = (List.range k).flatMap f ++ t ∧ t <+: f k := by
  induction m with
  | zero => exact ⟨0, [], List.prefix_nil.mp h, List.nil_prefix⟩
  | succ m ih =>
    rw [List.range_succ, List.flatMap_append, List.flatMap_singleton] at h
    rcases List.prefix_or_prefix_of_prefix h (List.prefix_append _ (f m)) with hl | hl
    · exact ih hl
    · obtain ⟨t, rfl⟩ := hl
      exact ⟨m, t, rfl, (List.prefix_append_right_inj _).mp h⟩

end Tigge.Lib
