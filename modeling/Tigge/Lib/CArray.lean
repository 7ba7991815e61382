import Mathlib

/-! Arrays of a fixed size and the loops that fill one point by point. An access outside an array
is an outcome of its own. -/

namespace Tigge.Lib.CArray
variable {α : Type*}

/-- `calloc(size, sizeof(double))`. -/
def calloc [Zero α] (size : ℕ) : List α := List.replicate size 0

/-- `array[i] = v`; `none` outside the array. -/
def store (i : ℕ) (v : α) (array : List α) : Option (List α) :=
  if i < array.length then some (array.set i v) else none

/-- `for(i=0; i<size; i++) array[i] = point`; `none` when an access of an iteration is outside its
array. -/
def pointLoop (size : ℕ) (point : ℕ → Option α) (array : List α) : Option (List α) :=
  (List.range size).foldlM (fun xs i => (point i).bind fun v => store i v xs) array

theorem length_store {i : ℕ} {v : α} {xs ys : List α} (h : store i v xs = some ys) :
    ys.length = xs.length := by
  rw [store] at h
  split_ifs at h
  cases h
  exact List.length_set

theorem pointLoop_succ (size : ℕ) (point : ℕ → Option α) (xs : List α) :
    pointLoop (size + 1) point xs = (pointLoop size point xs).bind fun ys =>
      (point size).bind fun v => store size v ys := by
  rw [pointLoop, List.range_succ, List.foldlM_append]
  show Option.bind _ _ = Option.bind _ _
  congr 1
  funext ys
  rw [List.foldlM_cons]
  show Option.bind ((point size).bind fun v => store size v ys) some = _
  exact Option.bind_fun_some _

theorem length_pointLoop {size : ℕ} {point : ℕ → Option α} {xs ys : List α}
    (h : pointLoop size point xs = some ys) : ys.length = xs.length := by
  induction size generalizing ys with
  | zero =>
    cases h
    rfl
  | succ size ih =>
    rw [pointLoop_succ, Option.bind_eq_some_iff] at h
    obtain ⟨zs, hzs, hstep⟩ := h
    obtain ⟨v, -, hstore⟩ := Option.bind_eq_some_iff.mp hstep
    rw [length_store hstore, ih hzs]

/-- A loop no longer than the array it fills stays inside exactly when what each point reads is. -/
theorem isSome_pointLoop_iff {size : ℕ} {point : ℕ → Option α} {xs : List α}
    (hsize : size ≤ xs.length) :
    (pointLoop size point xs).isSome = true ↔ ∀ i < size, (point i).isSome = true := by
  induction size with
  | zero => exact iff_of_true rfl fun i hi => absurd hi (Nat.not_lt_zero i)
  | succ size ih =>
    rw [pointLoop_succ, Nat.forall_lt_succ_right, ← ih (Nat.le_of_succ_le hsize)]
    cases hloop : pointLoop size point xs with
    | none => simp
    | some ys =>
      have hlt : size < ys.length := by
        rw [length_pointLoop hloop]
        exact hsize
      cases point size <;> simp [store, hlt]

/-- What the loop leaves in an array of its own length. -/
theorem pointLoop_eq_map {size : ℕ} {point : ℕ → Option α} {f : ℕ → α} {xs : List α}
    (hsize : size ≤ xs.length) (hpoint : ∀ i < size, point i = some (f i)) :
    pointLoop size point xs = some ((List.range size).map f ++ xs.drop size) := by
  induction size with
  | zero => rfl
  | succ size ih =>
    have hlt : size < xs.length := hsize
    have hlen : ((List.range size).map f).length = size := by
      rw [List.length_map, List.length_range]
    rw [pointLoop_succ, ih hlt.le fun i hi => hpoint i (Nat.lt_succ_of_lt hi), Option.bind_some,
      hpoint size (Nat.lt_succ_self size), Option.bind_some, store, if_pos, List.set_append_right,
      hlen, Nat.sub_self, List.drop_eq_getElem_cons hlt, List.set_cons_zero, List.range_succ,
      List.map_append, List.append_assoc]
    · rfl
    · exact hlen.le
    · rw [List.length_append, hlen, List.length_drop]
      omega

end Tigge.Lib.CArray
