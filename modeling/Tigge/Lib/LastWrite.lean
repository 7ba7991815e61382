import Mathlib.Data.List.AList
import Mathlib.Tactic.Common

/-! Named places in which every write replaces what was there. -/

namespace Tigge.Lib

variable {α ν : Type*} [DecidableEq ν]

/-- The places after some values have been written in turn. -/
def writeAll (items : List (ν × α)) (places : AList fun _ : ν => α) : AList fun _ : ν => α :=
  items.foldl (fun held x => held.insert x.1 x.2) places

variable {items later : List (ν × α)} {places : AList fun _ : ν => α} {w : ν} {a : α}

theorem writeAll_append :
    writeAll (items ++ later) places = writeAll later (writeAll items places) :=
  List.foldl_append

theorem writeAll_cons (x : ν × α) :
    writeAll (x :: items) places = writeAll items (places.insert x.1 x.2) := rfl

/-- A place that nothing is written to is left alone. -/
theorem lookup_writeAll_of_forall_ne (h : ∀ x ∈ items, x.1 ≠ w) :
    (writeAll items places).lookup w = places.lookup w := by
  induction items generalizing places with
  | nil => rfl
  | cons x items ih =>
    rw [writeAll_cons, ih fun y hy => h y (List.mem_cons_of_mem _ hy),
      AList.lookup_insert_ne (h x List.mem_cons_self).symm]

theorem lookup_writeAll_eq_some (h : (writeAll items places).lookup w = some a) :
    (w, a) ∈ items ∨ places.lookup w = some a := by
  induction items generalizing places with
  | nil => exact Or.inr h
  | cons x items ih =>
    rw [writeAll_cons] at h
    rcases ih h with hmem | hplace
    · exact Or.inl (List.mem_cons_of_mem _ hmem)
    · by_cases hw : w = x.1
      · rw [hw, AList.lookup_insert] at hplace
        rw [hw, ← Option.some.inj hplace]
        exact Or.inl List.mem_cons_self
      · rw [AList.lookup_insert_ne hw] at hplace
        exact Or.inr hplace

/-- A place that is written to holds one of the values written there. -/
theorem lookup_writeAll_of_mem (h : (w, a) ∈ items) :
    ∃ b, (w, b) ∈ items ∧ (writeAll items places).lookup w = some b := by
  induction items generalizing places a with
  | nil => cases h
  | cons x items ih =>
    by_cases hlater : ∃ b, (w, b) ∈ items
    · obtain ⟨b, hb⟩ := hlater
      obtain ⟨c, hc, hwritten⟩ := @ih (places.insert x.1 x.2) b hb
      exact ⟨c, List.mem_cons_of_mem _ hc, hwritten⟩
    · have hx : (w, a) = x := by
        rcases List.mem_cons.mp h with hx | hmem
        · exact hx
        · exact absurd ⟨a, hmem⟩ hlater
      subst hx
      refine ⟨a, List.mem_cons_self, ?_⟩
      rw [writeAll_cons, lookup_writeAll_of_forall_ne, AList.lookup_insert]
      rintro ⟨v, b⟩ hb rfl
      exact hlater ⟨b, hb⟩

/-- Every value is still there exactly when no place was given two of them. -/
theorem writeAll_kept_iff :
    (∀ x ∈ items, (writeAll items places).lookup x.1 = some x.2) ↔
      ∀ x ∈ items, ∀ y ∈ items, x.1 = y.1 → x.2 = y.2 := by
  constructor
  · intro h x hx y hy hxy
    have hwritten := h x hx
    rw [hxy, h y hy] at hwritten
    exact (Option.some.inj hwritten).symm
  · rintro h ⟨w, a⟩ hx
    obtain ⟨b, hb, hwritten⟩ := @lookup_writeAll_of_mem _ _ _ _ places _ _ hx
    rw [hwritten, h (w, a) hx (w, b) hb rfl]

end Tigge.Lib
