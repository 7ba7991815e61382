import Tigge.Steady

/-! What the integrators write: for every hour the sum of the periods up to it, in the units of
the variable. -/

namespace Tigge
open TiggeVariable
variable {n : ℕ}

/-- What a sum of mean fluxes over six hours, or of amounts, is to be multiplied with. -/
def integrationFactors : List (TiggeVariable × ℚ) :=
  [(timeIntegratedSurfaceNetSolarRadiation, 21600),
    (timeIntegratedSurfaceNetThermalRadiation, 21600),
    (timeIntegratedOutgoingLongWaveRadiation, -21600),
    (timeIntegratedSurfaceLatentHeatFlux, -21600),
    (timeIntegratedSurfaceSensibleHeatFlux, -21600),
    (timeIntegratedSnowFallWaterEquivalent, 1),
    (totalPrecipitation, 1)]

/-- The values of an unavailable hour, which are left out of a sum. -/
def periodValues (r : ℕ → Option (Fin n → ℚ)) (j : ℕ) : Fin n → ℚ := (r j).getD 0

/-- The sum of the periods 1 to `hour`. -/
def periodSum (r : ℕ → Option (Fin n → ℚ)) (hour : ℕ) (i : Fin n) : ℚ :=
  ∑ j ∈ Finset.Icc 1 hour, periodValues r j i

/-- The files that an integration is to write, one for each available hour. -/
def integralOutputs (v : TiggeVariable) (c : ℚ) (em : ℕ) (r : ℕ → Option (Fin n → ℚ))
    (hours : List ℕ) : List (Output n) :=
  hours.filterMap fun hour => (r hour).map fun _ => ⟨v, 6 * hour, em, fun i => c * periodSum r hour i⟩

/-- A store with these values for the hours of a member. Hour zero of `tp` may hold anything,
and only `ttr` and `sf` may find an hour unavailable. -/
structure StoresHours (v : TiggeVariable) (st : VariableStore n) (r : ℕ → Option (Fin n → ℚ)) :
    Prop where
  available : ∀ hour < hoursPerMember, ∀ values, r hour = some values →
    v = totalPrecipitation ∧ hour = 0 ∨ ∃ record : GribRecord n, record.values = values ∧
      st.array.bind (·[hour]?) = some (.stored (.grib record)) ∧
        st.bytesPerRecord hour = record.totalLength
  unavailable : ∀ hour < hoursPerMember, r hour = none →
    (v = timeIntegratedOutgoingLongWaveRadiation ∨ v = timeIntegratedSnowFallWaterEquivalent) ∧
      (st.array.bind (·[hour]?) = some .null ∨
        (∃ m, st.array.bind (·[hour]?) = some (.stored m)) ∧ st.bytesPerRecord hour = 0)

section Sums
variable (r : ℕ → Option (Fin n → ℚ))

theorem periodSum_zero : periodSum r 0 = 0 := by
  funext i
  exact Finset.sum_empty

theorem periodSum_succ (k : ℕ) :
    periodSum r (k + 1) = fun i => periodSum r k i + periodValues r (k + 1) i := by
  funext i
  exact Finset.sum_Icc_succ_top (by omega) _

theorem periodSum_congr {r' : ℕ → Option (Fin n → ℚ)} (h : ∀ k ≠ 0, r k = r' k) (hour : ℕ) :
    periodSum r hour = periodSum r' hour := by
  funext i
  refine Finset.sum_congr rfl fun j hj => ?_
  have hj1 : 1 ≤ j := (Finset.mem_Icc.mp hj).1
  rw [periodValues, periodValues, h j (by omega)]

/-- A sum of six-hour means, in seconds, is their mean over all seconds so far. -/
theorem factor_mul_periodSum (sign : ℚ) {k : ℕ} (hk : k ≠ 0) (i : Fin n) :
    sign * 21600 * periodSum r k i = sign * (periodSum r k i / k) * (3600 * (6 * k)) := by
  have hk' : (k : ℚ) ≠ 0 := Nat.cast_ne_zero.mpr hk
  field_simp
  ring

end Sums

theorem unitFactor_of_mem {v : TiggeVariable} {c : ℚ} (h : (v, c) ∈ integrationFactors) :
    unitFactor v = c := by
  simp only [integrationFactors, List.mem_cons, Prod.mk.injEq, List.not_mem_nil, or_false] at h
  rcases h with h | h | h | h | h | h | h <;> (obtain ⟨rfl, rfl⟩ := h; rfl)

section Step
variable {v : TiggeVariable} {em : ℕ} {st : VariableStore n} {r : ℕ → Option (Fin n → ℚ)}

/-- The running sum before hour `k`, and the files so far. -/
structure Summed (v : TiggeVariable) (em : ℕ) (r : ℕ → Option (Fin n → ℚ)) (k : ℕ)
    (acc : Integration n) : Prop where
  halted : acc.halted = false
  runningSum : acc.runningSum = periodSum r (k - 1)
  outputs : acc.outputs = integralOutputs v (unitFactor v) em r (List.range k)

theorem accessHour_available (hst : StoresHours v st r) {hour : ℕ} (hh : hour < hoursPerMember)
    (htp : ¬ (v = totalPrecipitation ∧ hour = 0)) {values : Fin n → ℚ}
    (hr : r hour = some values) : ∃ record : GribRecord n, record.values = values ∧
      accessHour v st hour = .decoded (.grib record) record.totalLength := by
  obtain ⟨record, hvalues, hslot, hbytes⟩ := (hst.available hour hh values hr).resolve_left htp
  refine ⟨record, hvalues, ?_⟩
  have hpos : (record.totalLength : ℕ) ≠ 0 := record.totalLength.ne_zero
  simp only [accessHour, hslot, hbytes, hpos, and_false, if_false]

theorem accessHour_unavailable (hst : StoresHours v st r) {hour : ℕ}
    (hh : hour < hoursPerMember) (hr : r hour = none) : accessHour v st hour = .skipped := by
  obtain ⟨hv, hslot⟩ := hst.unavailable hour hh hr
  have hchecks : checksResource v = true := by
    rcases hv with rfl | rfl <;> rfl
  rcases hslot with hslot | ⟨⟨m, hslot⟩, hbytes⟩
  · simp only [accessHour, hslot, hchecks, if_true]
  · simp only [accessHour, hslot, hchecks, hbytes, and_self, if_true]

theorem integralOutputs_succ (c : ℚ) (k : ℕ) :
    integralOutputs v c em r (List.range (k + 1)) =
      integralOutputs v c em r (List.range k) ++ integralOutputs v c em r [k] := by
  rw [List.range_succ, integralOutputs, integralOutputs, integralOutputs, List.filterMap_append]

theorem Summed.addHour {acc : Integration n} {k : ℕ} (h : Summed v em r k acc)
    {values : Fin n → ℚ} (hr : r k = some values) :
    Summed v em r (k + 1) (acc.addHour v em k values) := by
  refine ⟨(addHour_halted v em acc k values).trans h.halted, ?_, ?_⟩
  · rw [Nat.add_sub_cancel]
    cases k with
    | zero => exact (periodSum_zero r).symm
    | succ k =>
      have hsum := h.runningSum
      rw [Nat.add_sub_cancel] at hsum
      rw [periodSum_succ, periodValues, hr, ← hsum]
      rfl
  · rw [integralOutputs_succ, ← h.outputs, integralOutputs, List.filterMap_cons, hr]
    cases k with
    | zero =>
      have hzero : (fun i => unitFactor v * periodSum r 0 i) = 0 := by
        funext i
        rw [periodSum_zero]
        exact mul_zero _
      rw [hzero]
      rfl
    | succ k =>
      have hsum := h.runningSum
      rw [Nat.add_sub_cancel] at hsum
      have hvalues : (fun i => unitFactor v * periodSum r (k + 1) i) =
          fun i => (acc.runningSum i + values i) * unitFactor v := by
        funext i
        rw [periodSum_succ, periodValues, hr, hsum]
        exact mul_comm _ _
      rw [hvalues]
      rfl

theorem Summed.skip {acc : Integration n} {k : ℕ} (h : Summed v em r k acc) (hr : r k = none) :
    Summed v em r (k + 1) acc := by
  refine ⟨h.halted, ?_, ?_⟩
  · rw [h.runningSum, Nat.add_sub_cancel]
    cases k with
    | zero => rfl
    | succ k =>
      rw [Nat.add_sub_cancel, periodSum_succ, periodValues, hr]
      funext i
      exact (add_zero _).symm
  · rw [integralOutputs_succ, ← h.outputs, integralOutputs, List.filterMap_cons, hr]
    exact (List.append_nil _).symm

theorem integrateHour_summed (hst : StoresHours v st r) {acc : Integration n} {hour : ℕ}
    (hh : hour < hoursPerMember) (h : Summed v em r hour acc) :
    Summed v em r (hour + 1) (integrateHour v em st acc hour) := by
  have hlog : ∀ a : Access n, Summed v em r hour (acc.log v em hour a) :=
    fun _ => ⟨h.halted, h.runningSum, h.outputs⟩
  rw [integrateHour, h.halted, if_neg Bool.false_ne_true]
  by_cases htp : v = totalPrecipitation ∧ hour = 0
  · -- written without a look at the record
    rw [if_pos htp]
    cases hr : r hour with
    | none =>
      obtain ⟨hv, -⟩ := hst.unavailable hour hh hr
      rw [htp.1] at hv
      exact absurd hv (by decide)
    | some values =>
      have hwritten := h.addHour hr
      obtain ⟨-, rfl⟩ := htp
      exact hwritten
  · rw [if_neg htp]
    cases hr : r hour with
    | none =>
      rw [accessHour_unavailable hst hh hr]
      exact (hlog .skipped).skip hr
    | some values =>
      obtain ⟨record, rfl, haccess⟩ := accessHour_available hst hh htp hr
      simp only [haccess, decode_grib]
      exact (hlog _).addHour hr

theorem integrateFrom_summed (hst : StoresHours v st r) {k : ℕ} (hk : k ≤ hoursPerMember) :
    Summed v em r k (integrateFrom v em st .start (List.range k)) := by
  induction k with
  | zero => exact ⟨rfl, (periodSum_zero r).symm, rfl⟩
  | succ k ih =>
    have hstep := integrateHour_summed hst hk (ih (Nat.le_of_succ_le hk))
    rw [integrateFrom, List.range_succ, List.foldl_append]
    exact hstep

end Step

/-- Each integrator writes, for every available hour, the sum of the periods up to it in the
units of its variable; for a flux this is the mean flux over the time so far. -/
theorem integrate_writes_sums {v : TiggeVariable} {c : ℚ} (hvc : (v, c) ∈ integrationFactors)
    (em : ℕ) {st : VariableStore n} {r : ℕ → Option (Fin n → ℚ)} (hst : StoresHours v st r) :
    (integrate v em st).halted = false ∧
      (integrate v em st).outputs = integralOutputs v c em r (List.range hoursPerMember) ∧
      (∀ i, c * periodSum r 0 i = 0) ∧
      (∀ r', (∀ k ≠ 0, r k = r' k) → periodSum r = periodSum r') ∧
      ∀ sign, c = sign * 21600 → ∀ k ≠ 0, ∀ i,
        c * periodSum r k i = sign * (periodSum r k i / k) * (3600 * (6 * k)) := by
  have hsummed : Summed v em r hoursPerMember (integrate v em st) :=
    integrateFrom_summed hst le_rfl
  have houtputs := hsummed.outputs
  rw [unitFactor_of_mem hvc] at houtputs
  refine ⟨hsummed.halted, houtputs, fun i => ?_, fun r' h => ?_, fun sign hc k hk i => ?_⟩
  · rw [periodSum_zero]
    exact mul_zero _
  · funext hour
    exact periodSum_congr r h hour
  · rw [hc]
    exact factor_mul_periodSum r sign hk i

def Message.values : Message n → Fin n → ℚ
  | .grib record => record.values
  | .zeros _ => 0

theorem storesHours_of_readable {v : TiggeVariable} {records : List (Message n)}
    (hr : Readable v records) : StoresHours v (storeOf records) fun hour =>
      some ((records[hour]?.map Message.values).getD 0) := by
  refine ⟨fun hour hh values hvalues => ?_, fun hour _ h => absurd h (Option.some_ne_none _)⟩
  refine (hr hour hh).imp_right fun ⟨record, hrecord⟩ => ⟨record, ?_, ?_, ?_⟩
  · rw [hrecord] at hvalues
    exact Option.some.inj hvalues
  · simp [storeOf, hrecord]
  · simp [storeOf, hrecord, Message.size]

/-- A solar flux of one watt per square metre throughout. -/
def unitFlux : GribRecord 1 := ⟨⟨0, 4, 192, 1, 0⟩, 1, fun _ => 1⟩

theorem integrate_writes_sums_ssr :
    (integrate timeIntegratedSurfaceNetSolarRadiation 0
      (storeOf (List.replicate hoursPerMember (.grib unitFlux)))).outputs =
      integralOutputs timeIntegratedSurfaceNetSolarRadiation 21600 0
        (fun hour => some (((List.replicate hoursPerMember (Message.grib unitFlux))[hour]?.map
          Message.values).getD 0)) (List.range hoursPerMember) := by
  have hread : Readable timeIntegratedSurfaceNetSolarRadiation
      (List.replicate hoursPerMember (Message.grib unitFlux)) := by
    intro hour hh
    exact .inr ⟨unitFlux, by rw [List.getElem?_replicate, if_pos hh]⟩
  exact (integrate_writes_sums (by decide) 0 (storesHours_of_readable hread)).2.1

/-- What the runs write for a variable of this kind, from what was loaded for it. -/
theorem integratedOutputs_sums {σ : Type} {S : Source n σ} {q : ProcessQueue} {members : ℕ}
    {loaded : TiggeVariable → ℕ → ℕ → Message n} {made : TiggeVariable → ℕ → ℕ → Fin n → ℚ}
    (h : Served S q members loaded made) {v : TiggeVariable} (hv : v ∈ integrators)
    (hq : requested q v) {em : ℕ} (hem : em < members) :
    integratedOutputs q loaded em v = integralOutputs v (unitFactor v) em
      (fun hour => some (((memberRecords loaded v em hoursPerMember)[hour]?.map
        Message.values).getD 0)) (List.range hoursPerMember) := by
  rw [integratedOutputs, if_pos hq]
  exact (integrateFrom_summed (storesHours_of_readable
    (readable_of_served h hv hq hem)) le_rfl).outputs

end Tigge
