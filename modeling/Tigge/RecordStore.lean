import Tigge.Names
import Tigge.Retrieval

/-! The records saved for a time-integrated variable: the pointer array of `main`, the global
count and lengths, and the integrators that read them back. -/

namespace Tigge
open Lib TiggeVariable
variable {n : ℕ}

/-- An entry of a pointer array. `realloc` leaves what it adds uninitialised. -/
inductive Slot (n : ℕ)
  | uninitialised
  | null
  | stored (message : Message n)

def Slot.isInitialised : Slot n → Bool
  | .uninitialised => false
  | _ => true

/-- The array is `main`'s, the other two are globals; `none` is `NULL`. -/
structure VariableStore (n : ℕ) where
  array : Option (List (Slot n))
  numberOfSavedRecords : ℕ
  bytesPerRecord : ℕ → ℕ

namespace VariableStore

def initial : VariableStore n := ⟨none, 0, fun _ => 0⟩

def reallocArray (array : Option (List (Slot n))) (size : ℕ) : List (Slot n) :=
  (array.getD [] ++ List.replicate size Slot.uninitialised).take size

def addGribRecordToArray (st : VariableStore n) (record : Message n) : VariableStore n :=
  let prevSize := st.numberOfSavedRecords
  { array := some ((reallocArray st.array (prevSize + 1)).set prevSize (.stored record))
    numberOfSavedRecords := prevSize + 1
    bytesPerRecord := Function.update st.bytesPerRecord prevSize record.size }

/-- `main` assigns what the loader returns to its pointer: the array with one more record, or
`NULL` from a loader that failed or was not asked for. The count is not touched then. -/
def assign (st : VariableStore n) : Option (Message n) → VariableStore n
  | some record => st.addGribRecordToArray record
  | none => { st with array := none }

/-- `none` when a pointer that was never set is freed. -/
def freeDataForVariable (st : VariableStore n) : Option (VariableStore n) :=
  let count := st.numberOfSavedRecords
  let slots := st.array.getD []
  if count ≤ slots.length ∧ (slots.take count).all Slot.isInitialised then
    some { st with
      array := st.array.map fun _ => List.replicate count .null ++ slots.drop count
      numberOfSavedRecords := 0 }
  else none

/-- The store holds exactly these records, in this order. -/
structure Holds (st : VariableStore n) (records : List (Message n)) : Prop where
  count : st.numberOfSavedRecords = records.length
  array : records ≠ [] → st.array = some (records.map .stored)
  bytes : ∀ i record, records[i]? = some record → st.bytesPerRecord i = record.size

theorem initial_holds : (initial : VariableStore n).Holds [] :=
  ⟨rfl, fun h => absurd rfl h, fun i _ h => by simp at h⟩

theorem reallocArray_length (array : Option (List (Slot n))) (size : ℕ) :
    (reallocArray array size).length = size := by
  simp [reallocArray]

theorem Holds.add {st : VariableStore n} {records : List (Message n)} (h : st.Holds records)
    (record : Message n) : (st.addGribRecordToArray record).Holds (records ++ [record]) := by
  have hc := h.count
  refine ⟨by simp [addGribRecordToArray, hc], fun _ => ?_, ?_⟩
  · simp only [addGribRecordToArray, hc, Option.some.injEq, List.map_append, List.map_cons,
      List.map_nil]
    cases records with
    | nil =>
      have hl := reallocArray_length st.array 1
      obtain ⟨s, hs⟩ := List.length_eq_one_iff.mp hl
      simp [hs]
    | cons r rest =>
      rw [reallocArray, h.array (List.cons_ne_nil r rest), Option.getD_some]
      rw [List.take_append]
      simp
  · intro i m hi
    simp only [addGribRecordToArray, hc]
    by_cases he : i = records.length
    · subst he
      rw [List.getElem?_append_right le_rfl, Nat.sub_self, List.getElem?_cons_zero,
        Option.some.injEq] at hi
      rw [Function.update_self, hi]
    · rw [Function.update_of_ne he]
      have hlt : i < records.length := by
        have := (List.getElem?_eq_some_iff.mp hi).1
        rw [List.length_append, List.length_singleton] at this
        omega
      rw [List.getElem?_append_left hlt] at hi
      exact h.bytes i m hi

theorem Holds.free {st : VariableStore n} {records : List (Message n)} (h : st.Holds records) :
    ∃ st', st.freeDataForVariable = some st' ∧ st'.Holds [] := by
  have hall : st.numberOfSavedRecords ≤ (st.array.getD []).length ∧
      ((st.array.getD []).take st.numberOfSavedRecords).all Slot.isInitialised = true := by
    rw [h.count]
    cases records with
    | nil => simp
    | cons r rest =>
      rw [h.array (List.cons_ne_nil r rest), Option.getD_some]
      refine ⟨(List.length_map _).ge, List.all_eq_true.mpr fun s hs => ?_⟩
      obtain ⟨m, _, rfl⟩ := List.mem_map.mp (List.mem_of_mem_take hs)
      rfl
  rw [freeDataForVariable, if_pos hall]
  exact ⟨_, rfl, rfl, fun h => absurd rfl h, fun i _ hi => by simp at hi⟩

end VariableStore

/-- How one hour of an integrator met its resource. -/
inductive Access (n : ℕ)
  | skipped
  | decoded (message : Message n) (length : ℕ)
  | fault

/-- The integrators of `ttr` and `sf` look at the pointer and the length before they use them. -/
def checksResource (varName : TiggeVariable) : Bool :=
  varName = timeIntegratedOutgoingLongWaveRadiation ||
    varName = timeIntegratedSnowFallWaterEquivalent

/-- `resource[fff/6]` with `bytesPerRecord[..][fff/6]`. A `NULL` array, an index past its end,
an entry that was never set and an unguarded `NULL` entry are faults. -/
def accessHour (varName : TiggeVariable) (st : VariableStore n) (hour : ℕ) : Access n :=
  match st.array.bind (·[hour]?) with
  | none => .fault
  | some .uninitialised => .fault
  | some .null => if checksResource varName then .skipped else .fault
  | some (.stored message) =>
    if checksResource varName ∧ st.bytesPerRecord hour = 0 then .skipped
    else .decoded message (st.bytesPerRecord hour)

/-- `grib_handle_new_from_message`: a whole message of the given length. -/
def decode (message : Message n) (length : ℕ) : Option (Fin n → ℚ) :=
  match message with
  | .grib record => if length = record.totalLength then some record.values else none
  | .zeros _ => none

theorem accessHour_holds {st : VariableStore n} {records : List (Message n)}
    (h : st.Holds records) (varName : TiggeVariable) {hour : ℕ} {r : GribRecord n}
    (hr : records[hour]? = some (.grib r)) :
    accessHour varName st hour = .decoded (.grib r) r.totalLength := by
  have hne : records ≠ [] := by rintro rfl; simp at hr
  have hb := h.bytes hour _ hr
  have hpos : (r.totalLength : ℕ) ≠ 0 := r.totalLength.ne_zero
  simp only [accessHour, h.array hne, Option.bind_some, List.getElem?_map, hr, Option.map_some, hb,
    Message.size, hpos, and_false, if_false]

@[simp] theorem decode_grib (r : GribRecord n) :
    decode (.grib r) r.totalLength = some r.values := by
  simp [decode]

end Tigge
