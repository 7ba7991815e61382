import Tigge.RecordStore

/-! The integrators: running sums over the saved records of one member. -/

namespace Tigge
open Lib TiggeVariable
variable {n : ℕ}

def FORECAST_HOURS : ℕ := 384

/-- The forecast hours 0, 6, .., 384 are `6 * hour` for `hour` below this bound. -/
@[irreducible] def hoursPerMember : ℕ := FORECAST_HOURS / 6 + 1

/-- A file written by `writeGribToFile`. -/
structure Output (n : ℕ) where
  varName : TiggeVariable
  fff : ℕ
  em : ℕ
  values : Fin n → ℚ

/-- Every writer takes the name from `generateFileName` for its own variable, hour and member. -/
def Output.fileName (d : CycleDate) (o : Output n) : Str := generateFileName o.varName d o.fff o.em

/-- A use of `resource[hour]` by the integrator of a variable. -/
structure ResourceAccess (n : ℕ) where
  varName : TiggeVariable
  em : ℕ
  hour : ℕ
  access : Access n

structure Integration (n : ℕ) where
  runningSum : Fin n → ℚ
  outputs : List (Output n)
  accesses : List (ResourceAccess n)
  halted : Bool

def Integration.start : Integration n := ⟨0, [], [], false⟩

def unitFactor : TiggeVariable → ℚ
  | timeIntegratedOutgoingLongWaveRadiation => -21600
  | timeIntegratedSurfaceLatentHeatFlux => -21600
  | timeIntegratedSurfaceSensibleHeatFlux => -21600
  | timeIntegratedSurfaceNetSolarRadiation => 21600
  | timeIntegratedSurfaceNetThermalRadiation => 21600
  | _ => 1

def Integration.write (acc : Integration n) (v : TiggeVariable) (em hour : ℕ)
    (runningSum values : Fin n → ℚ) : Integration n :=
  { acc with
    runningSum := runningSum
    outputs := acc.outputs ++ [⟨v, 6 * hour, em, values⟩] }

/-- The sums of one hour. The sum starts over at hour zero; `str` sets it to the values of that
hour first. -/
def Integration.addHour (acc : Integration n) (v : TiggeVariable) (em hour : ℕ)
    (ncepValues : Fin n → ℚ) : Integration n :=
  if hour = 0 then acc.write v em hour 0 0
  else
    acc.write v em hour (fun i => acc.runningSum i + ncepValues i)
      (fun i => (acc.runningSum i + ncepValues i) * unitFactor v)

def Integration.log (acc : Integration n) (v : TiggeVariable) (em hour : ℕ) (a : Access n) :
    Integration n :=
  { acc with accesses := acc.accesses ++ [⟨v, em, hour, a⟩] }

/-- One turn of the loop over the forecast hours. `tp` does not read its record of hour zero. -/
def integrateHour (v : TiggeVariable) (em : ℕ) (st : VariableStore n)
    (acc : Integration n) (hour : ℕ) : Integration n :=
  if acc.halted then acc
  else if v = totalPrecipitation ∧ hour = 0 then acc.write v em hour 0 0
  else
    let a := accessHour v st hour
    match a with
    | .skipped => acc.log v em hour a
    | .fault => { acc.log v em hour a with halted := true }
    | .decoded message length =>
      match decode message length with
      | none => { acc.log v em hour a with halted := true }
      | some ncepValues => (acc.log v em hour a).addHour v em hour ncepValues

def integrateFrom (v : TiggeVariable) (em : ℕ) (st : VariableStore n)
    (acc : Integration n) (hours : List ℕ) : Integration n :=
  hours.foldl (integrateHour v em st) acc

/-- `generateTimeIntegrated..` and `generateTotalPrecipitation`. -/
def integrate (v : TiggeVariable) (em : ℕ) (st : VariableStore n) :
    Integration n :=
  integrateFrom v em st .start (List.range hoursPerMember)

/-- An access that the process does not survive. -/
def Access.Broken : Access n → Prop
  | .skipped => False
  | .fault => True
  | .decoded message length => decode message length = none

section
variable (v : TiggeVariable) (em : ℕ) (st : VariableStore n)

theorem integrateHour_halted {acc : Integration n} (h : acc.halted) (hour : ℕ) :
    integrateHour v em st acc hour = acc := if_pos h

@[simp] theorem addHour_accesses (acc : Integration n) (hour : ℕ) (values : Fin n → ℚ) :
    (acc.addHour v em hour values).accesses = acc.accesses := by
  unfold Integration.addHour
  split_ifs <;> rfl

@[simp] theorem addHour_halted (acc : Integration n) (hour : ℕ) (values : Fin n → ℚ) :
    (acc.addHour v em hour values).halted = acc.halted := by
  unfold Integration.addHour
  split_ifs <;> rfl

/-- The integration stops only at a broken access, which it logs. -/
def Integration.Explained (acc : Integration n) : Prop :=
  acc.halted → ∃ a ∈ acc.accesses, a.access.Broken

theorem integrateHour_explained {acc : Integration n} (h : acc.Explained) (hour : ℕ) :
    (integrateHour v em st acc hour).Explained := by
  unfold integrateHour
  split_ifs with hh hz
  · exact h
  · exact fun hw => absurd hw hh
  · cases ha : accessHour v st hour with
    | skipped => exact fun hw => absurd hw hh
    | fault => exact fun _ => ⟨⟨v, em, hour, .fault⟩, by simp [Integration.log], trivial⟩
    | decoded message length =>
      cases hd : decode message length with
      | none =>
        simp only [hd]
        exact fun _ => ⟨⟨v, em, hour, .decoded message length⟩, by simp [Integration.log], hd⟩
      | some values =>
        simp only [hd]
        intro hw
        rw [addHour_halted] at hw
        exact absurd hw hh

theorem integrateFrom_explained {acc : Integration n} (h : acc.Explained) (hours : List ℕ) :
    (integrateFrom v em st acc hours).Explained := by
  induction hours generalizing acc with
  | nil => exact h
  | cons hour rest ih => exact ih (integrateHour_explained v em st h hour)

theorem start_explained : (Integration.start : Integration n).Explained :=
  fun h => absurd h Bool.false_ne_true

theorem integrate_explained : (integrate v em st).Explained :=
  integrateFrom_explained v em st start_explained _

theorem integrate_broken (hlast : accessHour v st (FORECAST_HOURS / 6) = .fault) :
    ∃ a ∈ (integrate v em st).accesses, a.access.Broken := by
  have hsplit : integrate v em st = integrateHour v em st
      (integrateFrom v em st .start (List.range (FORECAST_HOURS / 6)))
      (FORECAST_HOURS / 6) := by
    rw [integrate, hoursPerMember, List.range_succ]
    simp only [integrateFrom, List.foldl_append, List.foldl_cons, List.foldl_nil]
  have hex : (integrateFrom v em st .start
      (List.range (FORECAST_HOURS / 6))).Explained :=
    integrateFrom_explained v em st start_explained _
  rw [hsplit]
  by_cases hh : (integrateFrom v em st .start
      (List.range (FORECAST_HOURS / 6))).halted
  · rw [integrateHour_halted v em st hh]
    exact hex hh
  · rw [integrateHour, if_neg hh, if_neg (fun h => absurd h.2 (by decide)), hlast]
    exact ⟨⟨v, em, FORECAST_HOURS / 6, .fault⟩, by simp [Integration.log], trivial⟩

end

/-- Every record that the integrator of `v` reads is there. -/
def Readable (v : TiggeVariable) (records : List (Message n)) : Prop :=
  ∀ hour < hoursPerMember, v = totalPrecipitation ∧ hour = 0 ∨
    ∃ r, records[hour]? = some (.grib r)

/-- What a complete integration logs at one hour. -/
def readLog (v : TiggeVariable) (em : ℕ) (records : List (Message n)) (hour : ℕ) :
    List (ResourceAccess n) :=
  if v = totalPrecipitation ∧ hour = 0 then []
  else (records[hour]?.map fun m => ⟨v, em, hour, .decoded m m.size⟩).toList

section
variable (v : TiggeVariable) (em : ℕ) {st : VariableStore n}
  {records : List (Message n)}

theorem integrateHour_readable (hst : st.Holds records) {acc : Integration n} {hour : ℕ}
    (hr : v = totalPrecipitation ∧ hour = 0 ∨ ∃ r, records[hour]? = some (.grib r))
    (hacc : acc.halted = false) :
    (integrateHour v em st acc hour).halted = false ∧
    (integrateHour v em st acc hour).accesses = acc.accesses ++ readLog v em records hour ∧
    ∃ values, (integrateHour v em st acc hour).outputs =
      acc.outputs ++ [⟨v, 6 * hour, em, values⟩] := by
  rw [integrateHour, hacc, if_neg Bool.false_ne_true, readLog]
  by_cases hz : v = totalPrecipitation ∧ hour = 0
  · rw [if_pos hz, if_pos hz, List.append_nil]
    exact ⟨hacc, rfl, _, rfl⟩
  · obtain ⟨r, hrec⟩ := hr.resolve_left hz
    rw [if_neg hz, if_neg hz, accessHour_holds hst v hrec, hrec]
    simp only [decode_grib, addHour_halted, addHour_accesses]
    refine ⟨hacc, rfl, ?_⟩
    unfold Integration.addHour
    split_ifs <;> exact ⟨_, rfl⟩

def outputKey (o : Output n) : TiggeVariable × ℕ × ℕ := (o.varName, o.fff, o.em)

theorem integrateFrom_readable (hst : st.Holds records) (acc : Integration n) {hours : List ℕ}
    (hr : ∀ hour ∈ hours, v = totalPrecipitation ∧ hour = 0 ∨
      ∃ r, records[hour]? = some (.grib r)) (hacc : acc.halted = false) :
    (integrateFrom v em st acc hours).halted = false ∧
    (integrateFrom v em st acc hours).accesses =
      acc.accesses ++ hours.flatMap (readLog v em records) ∧
    (integrateFrom v em st acc hours).outputs.map outputKey =
      acc.outputs.map outputKey ++ hours.map fun hour => (v, 6 * hour, em) := by
  induction hours generalizing acc with
  | nil => simp [integrateFrom, hacc]
  | cons hour rest ih =>
    obtain ⟨h1, h2, values, h3⟩ :=
      integrateHour_readable v em hst (hr hour List.mem_cons_self) hacc
    obtain ⟨i1, i2, i3⟩ := ih _ (fun k hk => hr k (List.mem_cons_of_mem _ hk)) h1
    refine ⟨i1, ?_, ?_⟩
    · rw [integrateFrom, List.foldl_cons, ← integrateFrom, i2, h2, List.append_assoc,
        List.flatMap_cons]
    · rw [integrateFrom, List.foldl_cons, ← integrateFrom, i3, h3]
      simp [outputKey]

theorem integrate_readable (hst : st.Holds records) (hr : Readable v records) :
    (integrate v em st).halted = false ∧
    (integrate v em st).accesses = (List.range hoursPerMember).flatMap (readLog v em records) ∧
    (integrate v em st).outputs.map outputKey =
      (List.range hoursPerMember).map fun hour => (v, 6 * hour, em) := by
  have h := integrateFrom_readable v em hst .start
    (fun hour h => hr hour (List.mem_range.mp h)) rfl
  simpa only [integrate, Integration.start, List.nil_append, List.map_nil] using h

theorem integrate_congr {st' : VariableStore n} (hst : st.Holds records) (hst' : st'.Holds records)
    (hr : Readable v records) : integrate v em st = integrate v em st' := by
  simp only [integrate, integrateFrom]
  refine List.foldl_ext _ _ _ fun acc hour hm => ?_
  by_cases hz : v = totalPrecipitation ∧ hour = 0
  · simp only [integrateHour, if_pos hz]
  · obtain ⟨r, hrec⟩ := (hr hour (List.mem_range.mp hm)).resolve_left hz
    simp only [integrateHour, accessHour_holds hst v hrec, accessHour_holds hst' v hrec]

end
end Tigge
