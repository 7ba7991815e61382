import Mathlib

/-! Files of records read front to back with `rewind`: the record found by a search does
not depend on what a later rewind has to undo. -/

namespace Tigge.Lib

/-- A file open for reading: the records already read and the ones still ahead. -/
structure RecordStream (R : Type*) where
  consumed : List R
  rest : List R

namespace RecordStream
variable {R : Type*}

def opened (records : List R) : RecordStream R := ⟨[], records⟩

def rewind (s : RecordStream R) : RecordStream R := ⟨[], s.consumed ++ s.rest⟩

def position (s : RecordStream R) : ℕ := s.consumed.length

/-- Reads on until a record satisfies `p`; at end of file nothing is found. -/
def seekFrom (p : R → Bool) (consumed : List R) : List R → Option R × RecordStream R
  | [] => (none, ⟨consumed, []⟩)
  | r :: rest => if p r then (some r, ⟨consumed ++ [r], rest⟩) else seekFrom p (consumed ++ [r]) rest

def seek (p : R → Bool) (s : RecordStream R) : Option R × RecordStream R :=
  seekFrom p s.consumed s.rest

def exhausted (s : RecordStream R) : RecordStream R := ⟨s.consumed ++ s.rest, []⟩

def seekEither (p : R → Bool) (a b : RecordStream R) :
    Option R × RecordStream R × RecordStream R :=
  match (seek p a).1 with
  | some r => (some r, (seek p a).2, b)
  | none => ((seek p b).1, (seek p a).2, (seek p b).2)

@[simp] theorem opened_rewind (records : List R) : (opened records).rewind = opened records := rfl

@[simp] theorem exhausted_rewind (s : RecordStream R) : s.exhausted.rewind = s.rewind := by
  simp [exhausted, rewind]

@[simp] theorem rewind_position (s : RecordStream R) : s.rewind.position = 0 := rfl

@[simp] theorem rewind_rewind (s : RecordStream R) : s.rewind.rewind = s.rewind := rfl

theorem seekFrom_rewind (p : R → Bool) (consumed rest : List R) :
    (seekFrom p consumed rest).2.rewind = opened (consumed ++ rest) := by
  induction rest generalizing consumed with
  | nil => rfl
  | cons r rest ih =>
    rw [seekFrom]
    split_ifs
    · simp [rewind, opened]
    · rw [ih, List.append_assoc, List.singleton_append]

@[simp] theorem seek_rewind (p : R → Bool) (s : RecordStream R) :
    (seek p s).2.rewind = s.rewind := seekFrom_rewind p s.consumed s.rest

theorem seekFrom_fst (p : R → Bool) (consumed rest : List R) :
    (seekFrom p consumed rest).1 = rest.find? p := by
  induction rest generalizing consumed with
  | nil => rfl
  | cons r rest ih =>
    rw [seekFrom, List.find?_cons]
    cases h : p r
    · simpa using ih (consumed ++ [r])
    · rfl

theorem seek_fst (p : R → Bool) (s : RecordStream R) : (seek p s).1 = s.rest.find? p :=
  seekFrom_fst p s.consumed s.rest

theorem seekEither_rewind (p : R → Bool) (a b : RecordStream R) :
    (seekEither p a b).2.1.rewind = a.rewind ∧ (seekEither p a b).2.2.rewind = b.rewind := by
  unfold seekEither
  split
  · exact ⟨seek_rewind p a, rfl⟩
  · exact ⟨seek_rewind p a, seek_rewind p b⟩

/-- Records that are not asked for may be passed over or not. -/
theorem find?_rewind {p : R → Bool} {s : RecordStream R} (h : ∀ r ∈ s.consumed, p r = false) :
    s.rewind.rest.find? p = s.rest.find? p := by
  have hnone : s.consumed.find? p = none := by simpa using h
  rw [rewind, List.find?_append, hnone, Option.none_or]

theorem filter_rewind {p : R → Bool} {s : RecordStream R} (h : ∀ r ∈ s.consumed, p r = false) :
    s.rewind.rest.filter p = s.rest.filter p := by
  have hnil : s.consumed.filter p = [] := by simpa using h
  rw [rewind, List.filter_append, hnil, List.nil_append]

/-- A search takes the first record that is asked for out of what is ahead. -/
theorem seekFrom_filter (p : R → Bool) (consumed rest : List R) :
    (seekFrom p consumed rest).2.rest.filter p = (rest.filter p).tail := by
  induction rest generalizing consumed with
  | nil => rfl
  | cons r rest ih =>
    rw [seekFrom]
    split_ifs with h
    · rw [List.filter_cons_of_pos h, List.tail_cons]
    · rw [List.filter_cons_of_neg h, ih]

theorem seek_filter (p : R → Bool) (s : RecordStream R) :
    (seek p s).2.rest.filter p = (s.rest.filter p).tail := seekFrom_filter p s.consumed s.rest

theorem seekEither_fst (p : R → Bool) (a b : RecordStream R) :
    (seekEither p a b).1 = ((a.rest ++ b.rest).filter p).head? := by
  rw [List.head?_filter, List.find?_append, ← seek_fst, ← seek_fst, seekEither]
  cases (seek p a).1 <;> rfl

theorem seekEither_filter (p : R → Bool) (a b : RecordStream R) :
    ((seekEither p a b).2.1.rest ++ (seekEither p a b).2.2.rest).filter p =
      ((a.rest ++ b.rest).filter p).tail := by
  have ha := seek_fst p a
  rw [← List.head?_filter] at ha
  rw [List.filter_append, List.filter_append, seekEither]
  split
  · next r hr =>
    obtain ⟨rest, hrest⟩ := List.head?_eq_some_iff.mp (ha.symm.trans hr)
    rw [seek_filter, hrest, List.tail_cons, List.cons_append, List.tail_cons]
  · next hr =>
    have hnil := List.head?_eq_none_iff.mp (ha.symm.trans hr)
    rw [seek_filter, seek_filter, hnil, List.tail_nil, List.nil_append, List.nil_append]

end RecordStream
end Tigge.Lib
