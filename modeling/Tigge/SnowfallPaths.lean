import Tigge.Lib.ScanBoth
import Tigge.Retrieval

/-! The two ways to the snowfall of an hour: `generateSnowFallWaterEquivalent` takes the first
record of each kind, the loader for the time integration keeps the latest of each until it has seen
both. -/

namespace Tigge
open Lib
variable {n : ℕ}

namespace GribRecord

def isRain (r : GribRecord n) : Bool := r.isParameter 0 1 8

def isSnow (r : GribRecord n) : Bool := r.isParameter 0 1 195

theorem not_isSnow_of_isRain {r : GribRecord n} (h : r.isRain = true) : r.isSnow = false := by
  simp only [isRain, isParameter, Bool.and_eq_true, decide_eq_true_eq] at h
  simp [isSnow, isParameter, h.2]

end GribRecord

open GribRecord

def rainsAhead : List (GribRecord n) → List (GribRecord n) := aheadOf isSnow isRain

def snowsAhead : List (GribRecord n) → List (GribRecord n) := aheadOf isRain isSnow

/-- What the loader stores for the hour. -/
def loadedSnowfall (a : List (GribRecord n)) : Fin n → ℚ :=
  match scanSnowfall none none a with
  | none => 0
  | some (rain, snow) => snowfall snow rain

/-- The scan for the two arrays is a scan for two records. -/
theorem scanSnowfall_eq (rain snow last : Option (GribRecord n)) (l : List (GribRecord n)) :
    scanSnowfall (rain.map (·.values)) (snow.map (·.values)) l =
      (scanBoth isRain isSnow rain snow last l).1.map fun found =>
        (found.1.values, found.2.values) := by
  induction l generalizing rain snow last with
  | nil => cases rain <;> cases snow <;> rfl
  | cons x l ih =>
    have hstep : ∀ rain snow : Option (GribRecord n), rain = none ∨ snow = none →
        scanSnowfall (rain.map (·.values)) (snow.map (·.values)) (x :: l) =
          scanSnowfall ((if x.isRain then some x else rain).map (·.values))
            ((if x.isSnow then some x else snow).map (·.values)) l := by
      intro rain snow hmissing
      rw [apply_ite (Option.map _), apply_ite (Option.map _)]
      rcases hmissing with rfl | rfl
      · rfl
      · cases rain <;> rfl
    cases rain with
    | none => rw [hstep none snow (.inl rfl), scanBoth_cons (.inl rfl), ih]
    | some r =>
      cases snow with
      | none => rw [hstep (some r) none (.inr rfl), scanBoth_cons (.inr rfl), ih]
      | some s => rfl

/-- The loader keeps the last record of the kind that comes first and the first of the other. -/
theorem loadedSnowfall_eq {rain snow : GribRecord n} {l : List (GribRecord n)}
    (hrain : l.find? isRain = some rain) (hsnow : l.find? isSnow = some snow) : loadedSnowfall l =
      snowfall ((snowsAhead l).getLastD snow).values ((rainsAhead l).getLastD rain).values := by
  have hscan := scanSnowfall_eq none none none l
  rw [scanBoth_eq (fun _ => not_isSnow_of_isRain) hrain hsnow] at hscan
  rw [loadedSnowfall]
  change scanSnowfall none none l = _ at hscan
  rw [hscan]
  rfl

/-- Of the rain records that precede the first snow record, the last agrees with the first where it
snows; of the snow records that precede the first rain record, the last and the first mark the
same points among those with rain. -/
structure RepeatsAgree (a : List (GribRecord n)) : Prop where
  rains : ∀ rain ∈ a.find? isRain, ∀ snow ∈ a.find? isSnow, ∀ last ∈ (rainsAhead a).getLast?,
    ∀ i, snow.values i = 1 → last.values i = rain.values i
  snows : ∀ rain ∈ a.find? isRain, ∀ snow ∈ a.find? isSnow, ∀ last ∈ (snowsAhead a).getLast?,
    ∀ i, rain.values i ≠ 0 → (last.values i = 1 ↔ snow.values i = 1)

theorem snowfall_rain_eq_iff (snow last rain : Fin n → ℚ) :
    snowfall snow last = snowfall snow rain ↔ ∀ i, snow i = 1 → last i = rain i := by
  rw [funext_iff]
  apply forall_congr'
  intro i
  simp only [snowfall]
  split_ifs with h <;> simp [h]

theorem snowfall_snow_eq_iff (last snow rain : Fin n → ℚ) :
    snowfall last rain = snowfall snow rain ↔ ∀ i, rain i ≠ 0 → (last i = 1 ↔ snow i = 1) := by
  rw [funext_iff]
  apply forall_congr'
  intro i
  simp only [snowfall]
  split_ifs with h h' <;> simp [*, eq_comm]

theorem generateSnowFallWaterEquivalent_result {fff : ℕ} (hfff : fff ≠ 0)
    (a b : List (GribRecord n)) : (generateSnowFallWaterEquivalent fff (.opened a b)).result =
      (a.find? isSnow).bind fun snow => (a.find? isRain).map fun rain =>
        snowfall snow.values rain.values := by
  rw [generateSnowFallWaterEquivalent, if_neg hfff]
  dsimp only
  split
  next h =>
    rw [RecordStream.seek_fst] at h
    change a.find? isSnow = none at h
    rw [h]
    rfl
  next snow h =>
    rw [RecordStream.seek_fst] at h
    change a.find? isSnow = some snow at h
    rw [RecordStream.seek_rewind, RecordStream.seek_fst, h]
    change _ = (a.find? isRain).map _
    split
    next hrain =>
      change a.find? isRain = none at hrain
      rw [hrain]
      rfl
    next rain hrain =>
      change a.find? isRain = some rain at hrain
      rw [hrain]
      rfl

theorem repeatsAgree_iff {a : List (GribRecord n)} {rain snow : GribRecord n}
    (hrain : a.find? isRain = some rain) (hsnow : a.find? isSnow = some snow) :
    RepeatsAgree a ↔
      (∀ last ∈ (rainsAhead a).getLast?, ∀ i, snow.values i = 1 → last.values i = rain.values i) ∧
      ∀ last ∈ (snowsAhead a).getLast?, ∀ i, rain.values i ≠ 0 →
        (last.values i = 1 ↔ snow.values i = 1) := by
  constructor
  · intro h
    exact ⟨h.rains rain hrain snow hsnow, h.snows rain hrain snow hsnow⟩
  · rintro ⟨hrains, hsnows⟩
    constructor <;> intro rain' hrain' snow' hsnow' <;>
      obtain rfl := Option.some.inj (hrain.symm.trans hrain') <;>
      obtain rfl := Option.some.inj (hsnow.symm.trans hsnow')
    · exact hrains
    · exact hsnows

/-- The array that is stored for an hour and the one that is written for it are the same exactly
when the repeats agree. -/
theorem snowfall_paths_agree_iff (api : GribApi n) (a b : List (GribRecord n)) (fff : ℕ)
    (hfff : 0 < fff) (hrain : ∃ r ∈ a, r.isRain) (hsnow : ∃ r ∈ a, r.isSnow) :
    (∃ values, (loadDataForTimeIntegratedSnowFallWaterEquivalent api (.opened a b)).result =
        some (.grib (newGribRecord api values)) ∧
      (generateSnowFallWaterEquivalent fff (.opened a b)).result = some values) ↔
      RepeatsAgree a := by
  obtain ⟨rain, hrain⟩ := Option.isSome_iff_exists.mp (List.find?_isSome.mpr hrain)
  obtain ⟨snow, hsnow⟩ := Option.isSome_iff_exists.mp (List.find?_isSome.mpr hsnow)
  have hload : (loadDataForTimeIntegratedSnowFallWaterEquivalent api (.opened a b)).result =
    some (.grib (newGribRecord api (loadedSnowfall a))) := rfl
  have hgenerate := generateSnowFallWaterEquivalent_result hfff.ne' a b
  rw [hrain, hsnow] at hgenerate
  have hfields : (∃ values, (loadDataForTimeIntegratedSnowFallWaterEquivalent api
        (.opened a b)).result = some (.grib (newGribRecord api values)) ∧
      (generateSnowFallWaterEquivalent fff (.opened a b)).result = some values) ↔
      loadedSnowfall a = snowfall snow.values rain.values := by
    rw [hload, hgenerate]
    constructor
    · rintro ⟨values, hstored, hwritten⟩
      have hvalues : (newGribRecord api (loadedSnowfall a)).values =
          (newGribRecord api values).values := by
        rw [Message.grib.inj (Option.some.inj hstored)]
      exact hvalues.trans (Option.some.inj hwritten).symm
    · intro h
      exact ⟨snowfall snow.values rain.values, by rw [h], rfl⟩
  rw [hfields, loadedSnowfall_eq hrain hsnow]
  rw [repeatsAgree_iff hrain hsnow, List.getLastD_eq_getLast?, List.getLastD_eq_getLast?]
  rcases aheadOf_eq_nil (p := isRain) (q := isSnow) a with hnil | hnil
  · rw [rainsAhead, hnil]
    cases (snowsAhead a).getLast? with
    | none => simp
    | some last => simpa using snowfall_snow_eq_iff last.values snow.values rain.values
  · rw [snowsAhead, hnil]
    cases (rainsAhead a).getLast? with
    | none => simp
    | some last => simpa using snowfall_rain_eq_iff snow.values last.values rain.values

/-- A precipitation record and a categorical snow record of one point. -/
def rainRecord (value : ℚ) : GribRecord 1 := pointRecord ⟨0, 1, 8, 1, 0⟩ value

def snowRecord (value : ℚ) : GribRecord 1 := pointRecord ⟨0, 1, 195, 1, 0⟩ value

theorem snowfall_paths_agree_once :
    ∃ values, (loadDataForTimeIntegratedSnowFallWaterEquivalent plainApi
        (.opened [snowRecord 1, rainRecord 4] [])).result =
        some (.grib (newGribRecord plainApi values)) ∧
      (generateSnowFallWaterEquivalent 6 (.opened [snowRecord 1, rainRecord 4] [])).result =
        some values := by
  refine (snowfall_paths_agree_iff plainApi [snowRecord 1, rainRecord 4] [] 6 (by decide)
    ⟨rainRecord 4, by simp, rfl⟩ ⟨snowRecord 1, by simp, rfl⟩).mpr ?_
  constructor
  · rintro rain - snow - last hlast
    cases hlast
  · rintro rain - snow hsnow last hlast i -
    cases hsnow
    cases hlast
    rfl

/-- The precipitation comes twice before the snow: the loader stores the second, the generator
writes the first. -/
theorem snowfall_paths_differ :
    ¬ ∃ values, (loadDataForTimeIntegratedSnowFallWaterEquivalent plainApi
        (.opened [rainRecord 1, rainRecord 2, snowRecord 1] [])).result =
        some (.grib (newGribRecord plainApi values)) ∧
      (generateSnowFallWaterEquivalent 6
        (.opened [rainRecord 1, rainRecord 2, snowRecord 1] [])).result = some values := by
  rintro ⟨values, hstored, hwritten⟩
  have hload : (newGribRecord plainApi (snowfall (snowRecord 1).values (rainRecord 2).values)) =
      newGribRecord plainApi values := Message.grib.inj (Option.some.inj hstored)
  have hgenerate : snowfall (snowRecord 1).values (rainRecord 1).values = values :=
    Option.some.inj hwritten
  have hvalues := congrArg (fun r => r.values 0) hload
  rw [← hgenerate] at hvalues
  have h21 : (2 : ℚ) = 1 := hvalues
  norm_num at h21

end Tigge
