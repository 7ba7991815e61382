import Tigge.Lib.CArray
import Tigge.SnowfallPaths

/-! The point loops of four routines over records that need not have the same number of values. One
variable holds the size of every array in turn, and then bounds the loop. -/

namespace Tigge
open Lib
variable {n : ℕ}

/-- A record with a number of values of its own. -/
abbrev SizedRecord := (size : ℕ) × GribRecord size

namespace SizedRecord
variable (r : SizedRecord)

/-- What `grib_get_size` reports. -/
def size : ℕ := r.1

def values : List ℚ := List.ofFn r.2.values

def isField (discipline category number level : ℤ) : Bool :=
  r.2.isField discipline category number level

def levValue : ℤ := r.2.scaledValueOfFirstFixedSurface

def isRain : Bool := r.2.isRain

def isSnow : Bool := r.2.isSnow

theorem length_values : r.values.length = r.size := List.length_ofFn

end SizedRecord

/-- What a routine comes to: it stops before its point loop, an access of the loop is outside its
array, or the loop ends. -/
inductive PointRun
  | stops
  | leaves
  | ends (values : List ℚ)
  deriving DecidableEq

namespace Arrays
open CArray SizedRecord

/-- `grib_get_double_array`, whose last argument is the size of the array and then the number of
values; an array that is too small is an error. -/
def gribGetDoubleArray (h : SizedRecord) (array : List ℚ) (length : ℕ) : Option (List ℚ × ℕ) :=
  if length < h.size then none else some (h.values ++ array.drop h.size, h.size)

/-- The size of a record, an array of that size, and the values in it. -/
def readValues (h : SizedRecord) : Option (List ℚ × ℕ) :=
  gribGetDoubleArray h (calloc h.size) h.size

/-- The result array and the loop that fills it. -/
def runPoints (ncepValuesSize : ℕ) (point : ℕ → Option ℚ) : PointRun :=
  match pointLoop ncepValuesSize point (calloc ncepValuesSize) with
  | none => .leaves
  | some values => .ends values

/-- `none` where the routine returns or exits. -/
def orStops (run : Option PointRun) : PointRun := run.getD .stops

def generateTotalColumnWater (aFile bFile : RecordStream SizedRecord) : PointRun := orStops do
  let ncepTotalPrecipWater ← (aFile.seek (·.isField 0 1 3 200)).1
  let (precip, _) ← readValues ncepTotalPrecipWater
  let ncepTotalCloudWater ← (bFile.seek (·.isField 0 6 6 200)).1
  let (cloud, ncepValuesSize) ← readValues ncepTotalCloudWater
  return runPoints ncepValuesSize fun i => do return (← precip[i]?) + (← cloud[i]?)

/-- The handles that the search for the potential temperature collects. -/
structure HemisphereHandles where
  pressureNorth : Option SizedRecord := none
  pressureSouth : Option SizedRecord := none
  temperatureNorth : Option SizedRecord := none
  temperatureSouth : Option SizedRecord := none

/-- One record of the search; the test for the southern level assigns, so it always holds. -/
def HemisphereHandles.take (found : HemisphereHandles) (temp : SizedRecord) : HemisphereHandles :=
  if found.pressureNorth.isNone ∧ temp.isField 0 3 0 109 ∧ temp.levValue = 2000 then
    { found with pressureNorth := some temp }
  else if found.pressureSouth.isNone ∧ temp.isField 0 3 0 109 then
    { found with pressureSouth := some temp }
  else if found.temperatureNorth.isNone ∧ temp.isField 0 0 0 109 ∧ temp.levValue = 2000 then
    { found with temperatureNorth := some temp }
  else if found.temperatureSouth.isNone ∧ temp.isField 0 0 0 109 then
    { found with temperatureSouth := some temp }
  else found

def scanHandles (found : HemisphereHandles) (rest : List SizedRecord) :
    Option (SizedRecord × SizedRecord × SizedRecord × SizedRecord) :=
  match found with
  | ⟨some pn, some ps, some tn, some ts⟩ => some (pn, ps, tn, ts)
  | _ =>
    match rest with
    | [] => none
    | temp :: rest => scanHandles (found.take temp) rest

def generatePotentialTemperature (api : GribApi n) (bFile : RecordStream SizedRecord) :
    PointRun := orStops do
  let (pn, ps, tn, ts) ← scanHandles {} bFile.rest
  let (pressureNorth, _) ← readValues pn
  let (pressureSouth, _) ← readValues ps
  let (temperatureNorth, _) ← readValues tn
  let (temperatureSouth, ncepValuesSize) ← readValues ts
  return runPoints ncepValuesSize fun i => do
    let pressure := mergeHemispheres (← pressureSouth[i]?) (← pressureNorth[i]?)
    let temperature := mergeHemispheres (← temperatureSouth[i]?) (← temperatureNorth[i]?)
    return potentialTemperatureAt api pressure temperature

/-- Precipitation where it snows; it is only read there. -/
def snowfallAt (snow rain : List ℚ) (i : ℕ) : Option ℚ := do
  if (← snow[i]?) = 1 then rain[i]? else return 0

/-- `nPoints` is what `get_n_points` gives. -/
def generateSnowFallWaterEquivalent (nPoints fff : ℕ) (aFile : RecordStream SizedRecord) :
    PointRun :=
  if fff = 0 then runPoints nPoints fun _ => some 0
  else orStops do
    let s := aFile.seek (·.isSnow)
    let ncepCategoricalSnowfall ← s.1
    let (snow, _) ← readValues ncepCategoricalSnowfall
    let ncepTotalRainfall ← (s.2.rewind.seek (·.isRain)).1
    let (rain, ncepValuesSize) ← readValues ncepTotalRainfall
    return runPoints ncepValuesSize (snowfallAt snow rain)

/-- The record loop of the snowfall loader: the arrays it ends with, `none` at end of file, and the
size. The outcome of `grib_get_double_array` is printed only. -/
def scanSnowfallSizes (rain snow : Option (List ℚ)) (ncepValuesSize : ℕ) :
    List SizedRecord → Option (List ℚ × List ℚ) × ℕ
  | [] =>
    match rain, snow with
    | some r, some s => (some (r, s), ncepValuesSize)
    | _, _ => (none, ncepValuesSize)
  | h1 :: rest =>
    match rain, snow with
    | some r, some s => (some (r, s), ncepValuesSize)
    | _, _ =>
      let read := (readValues h1).getD (calloc h1.size, 0)
      scanSnowfallSizes (if h1.isRain then some read.1 else rain)
        (if h1.isSnow then some read.1 else snow)
        (if h1.isRain || h1.isSnow then read.2 else ncepValuesSize) rest

/-- Without both records the loop reads nothing and the new array stays zero. -/
def loadDataForTimeIntegratedSnowFallWaterEquivalent (nPoints : ℕ)
    (aFile : RecordStream SizedRecord) : PointRun :=
  match scanSnowfallSizes none none nPoints aFile.rewind.rest with
  | (none, ncepValuesSize) => .ends (calloc ncepValuesSize)
  | (some (rain, snow), ncepValuesSize) => runPoints ncepValuesSize (snowfallAt snow rain)

section Bounds

@[simp] theorem readValues_eq (h : SizedRecord) : readValues h = some (h.values, h.size) := by
  rw [readValues, gribGetDoubleArray, if_neg (lt_irrefl _), calloc, List.drop_replicate,
    Nat.sub_self]
  simp

@[simp] theorem isSome_getElem_values (h : SizedRecord) (i : ℕ) :
    (h.values[i]?).isSome = true ↔ i < h.size := by
  rw [← h.length_values]
  simp

theorem runPoints_ne_leaves_iff (size : ℕ) (point : ℕ → Option ℚ) :
    runPoints size point ≠ .leaves ↔ ∀ i < size, (point i).isSome = true := by
  have hlen : size ≤ (calloc size : List ℚ).length := List.length_replicate.ge
  rw [← isSome_pointLoop_iff hlen, runPoints]
  cases pointLoop size point (calloc size) <;> simp

theorem orStops_ne_leaves_iff (run : Option PointRun) :
    orStops run ≠ .leaves ↔ ∀ r ∈ run, r ≠ .leaves := by
  cases run <;> simp [orStops]

theorem isSome_bind_read (h : SizedRecord) (i : ℕ) (f : ℚ → Option ℚ) (p : Prop)
    (hf : ∀ v, (f v).isSome = true ↔ p) :
    (h.values[i]?.bind f).isSome = true ↔ i < h.size ∧ p := by
  rw [← isSome_getElem_values]
  cases h.values[i]? with
  | none => simp
  | some v => simp [hf]

theorem forall_lt_and_lt_iff (size other : ℕ) : (∀ i < size, i < other) ↔ size ≤ other := by
  constructor
  · intro h
    by_contra hlt
    exact lt_irrefl other (h other (not_le.mp hlt))
  · intro h i hi
    exact hi.trans_le h

theorem generateTotalColumnWater_inside_iff (aFile bFile : RecordStream SizedRecord) :
    generateTotalColumnWater aFile bFile ≠ .leaves ↔
      ∀ precip ∈ (aFile.seek (·.isField 0 1 3 200)).1,
        ∀ cloud ∈ (bFile.seek (·.isField 0 6 6 200)).1, cloud.size ≤ precip.size := by
  rw [generateTotalColumnWater, orStops_ne_leaves_iff]
  cases (aFile.seek (·.isField 0 1 3 200)).1 with
  | none => simp
  | some precip =>
    cases (bFile.seek (·.isField 0 6 6 200)).1 with
    | none => simp
    | some cloud =>
      have hpoint : ∀ i, (precip.values[i]?.bind fun a =>
          cloud.values[i]?.bind fun b => some (a + b)).isSome = true ↔
            i < precip.size ∧ i < cloud.size ∧ True := fun i =>
        isSome_bind_read precip i _ _ fun a => isSome_bind_read cloud i _ _ fun b => by simp
      simp only [readValues_eq, Option.bind_eq_bind, Option.bind_some, Option.pure_def,
        Option.mem_def, Option.some.injEq, forall_eq', runPoints_ne_leaves_iff, hpoint]
      rw [← forall_lt_and_lt_iff]
      constructor
      · intro h i hi
        exact (h i hi).1
      · intro h i hi
        exact ⟨h i hi, hi, trivial⟩

theorem generatePotentialTemperature_inside_iff (api : GribApi n)
    (bFile : RecordStream SizedRecord) :
    generatePotentialTemperature api bFile ≠ .leaves ↔
      ∀ pn ps tn ts, scanHandles {} bFile.rest = some (pn, ps, tn, ts) →
        ts.size ≤ pn.size ∧ ts.size ≤ ps.size ∧ ts.size ≤ tn.size := by
  rw [generatePotentialTemperature, orStops_ne_leaves_iff]
  cases scanHandles {} bFile.rest with
  | none => simp
  | some found =>
    obtain ⟨pn, ps, tn, ts⟩ := found
    have hpoint : ∀ i, (ps.values[i]?.bind fun a => pn.values[i]?.bind fun b =>
        ts.values[i]?.bind fun c => tn.values[i]?.bind fun d =>
          some (potentialTemperatureAt api (mergeHemispheres a b)
            (mergeHemispheres c d))).isSome = true ↔
          i < ps.size ∧ i < pn.size ∧ i < ts.size ∧ i < tn.size ∧ True := fun i =>
      isSome_bind_read ps i _ _ fun a => isSome_bind_read pn i _ _ fun b =>
        isSome_bind_read ts i _ _ fun c => isSome_bind_read tn i _ _ fun d => by simp
    simp only [readValues_eq, Option.bind_eq_bind, Option.bind_some, Option.pure_def,
      Option.mem_def, Option.some.injEq, forall_eq', runPoints_ne_leaves_iff, hpoint]
    constructor
    · rintro h pn' ps' tn' ts' hfound
      obtain ⟨rfl, rfl, rfl, rfl⟩ : pn = pn' ∧ ps = ps' ∧ tn = tn' ∧ ts = ts' := by
        simpa using hfound
      simp only [← forall_lt_and_lt_iff]
      exact ⟨fun i hi => (h i hi).2.1, fun i hi => (h i hi).1, fun i hi => (h i hi).2.2.2.1⟩
    · intro h i hi
      obtain ⟨hpn, hps, htn⟩ := h pn ps tn ts rfl
      exact ⟨hi.trans_le hps, hi.trans_le hpn, hi, hi.trans_le htn, trivial⟩

theorem snowfallAt_isSome_iff (snow rain : SizedRecord) (i : ℕ) :
    (snowfallAt snow.values rain.values i).isSome = true ↔
      i < snow.size ∧ (snow.values[i]? = some 1 → i < rain.size) := by
  rw [snowfallAt, ← isSome_getElem_values snow, ← isSome_getElem_values rain]
  cases snow.values[i]? with
  | none => simp
  | some v => by_cases hv : v = 1 <;> simp [hv]

theorem generateSnowFallWaterEquivalent_inside_iff (nPoints fff : ℕ)
    (aFile : RecordStream SizedRecord) :
    generateSnowFallWaterEquivalent nPoints fff aFile ≠ .leaves ↔
      (fff ≠ 0 → ∀ snow ∈ (aFile.seek (·.isSnow)).1,
        ∀ rain ∈ (aFile.rewind.seek (·.isRain)).1, rain.size ≤ snow.size) := by
  rw [generateSnowFallWaterEquivalent]
  by_cases hfff : fff = 0
  · rw [if_pos hfff, runPoints_ne_leaves_iff]
    simp [hfff]
  rw [if_neg hfff, orStops_ne_leaves_iff]
  dsimp only
  rw [RecordStream.seek_rewind]
  cases (aFile.seek (·.isSnow)).1 with
  | none => simp
  | some snow =>
    cases (aFile.rewind.seek (·.isRain)).1 with
    | none => simp
    | some rain =>
      simp only [readValues_eq, Option.bind_eq_bind, Option.bind_some, Option.pure_def,
        Option.mem_def, Option.some.injEq, forall_eq', runPoints_ne_leaves_iff,
        snowfallAt_isSome_iff]
      rw [← forall_lt_and_lt_iff]
      constructor
      · intro h _ i hi
        exact (h i hi).1
      · intro h i hi
        exact ⟨h hfff i hi, fun _ => hi⟩

/-- The arrays of the snowfall loader are those of the records that the scan ends with. -/
theorem scanSnowfallSizes_eq (rain snow last : Option SizedRecord) (nPoints : ℕ)
    (l : List SizedRecord) :
    scanSnowfallSizes (rain.map values) (snow.map values) ((last.map size).getD nPoints) l =
      ((scanBoth isRain isSnow rain snow last l).1.map fun found =>
          (found.1.values, found.2.values),
        ((scanBoth isRain isSnow rain snow last l).2.map size).getD nPoints) := by
  induction l generalizing rain snow last with
  | nil => cases rain <;> cases snow <;> rfl
  | cons h1 l ih =>
    have hstep : rain = none ∨ snow = none →
        scanSnowfallSizes (rain.map values) (snow.map values) ((last.map size).getD nPoints)
            (h1 :: l) =
          scanSnowfallSizes ((if h1.isRain then some h1 else rain).map values)
            ((if h1.isSnow then some h1 else snow).map values)
            (((if h1.isRain || h1.isSnow then some h1 else last).map size).getD nPoints) l := by
      intro hmissing
      rw [apply_ite (Option.map _), apply_ite (Option.map _), apply_ite (Option.map _),
        apply_ite (Option.getD · nPoints)]
      have hread : (readValues h1).getD (calloc h1.size, 0) = (h1.values, h1.size) := by
        rw [readValues_eq, Option.getD_some]
      rcases hmissing with rfl | rfl
      · rw [Option.map_none, scanSnowfallSizes]
        · rw [hread]
          rfl
        · rintro r s hnone
          cases hnone
      · rw [Option.map_none, scanSnowfallSizes]
        · rw [hread]
          rfl
        · rintro r s - hnone
          cases hnone
    cases rain with
    | none => rw [hstep (.inl rfl), scanBoth_cons (.inl rfl), ih]
    | some r =>
      cases snow with
      | none => rw [hstep (.inr rfl), scanBoth_cons (.inr rfl), ih]
      | some s => rfl

/-- Of the two records whose arrays are used, the one read last has set the size. -/
theorem loadSnowfall_inside_iff (nPoints : ℕ) (aFile : RecordStream SizedRecord) :
    loadDataForTimeIntegratedSnowFallWaterEquivalent nPoints aFile ≠ .leaves ↔
      ∀ rain ∈ aFile.rewind.rest.find? isRain, ∀ snow ∈ aFile.rewind.rest.find? isSnow,
        (∀ last ∈ (aheadOf isSnow isRain aFile.rewind.rest).getLast?,
          ∀ i < snow.size, snow.values[i]? = some 1 → i < last.size) ∧
        ∀ last ∈ (aheadOf isRain isSnow aFile.rewind.rest).getLast?, rain.size ≤ last.size := by
  have hscan := scanSnowfallSizes_eq none none none nPoints aFile.rewind.rest
  change scanSnowfallSizes none none nPoints aFile.rewind.rest = _ at hscan
  rw [loadDataForTimeIntegratedSnowFallWaterEquivalent, hscan]
  generalize aFile.rewind.rest = l
  cases hrain : l.find? isRain with
  | none =>
    rw [scanBoth_none_left (List.find?_eq_none.mp hrain)]
    simp
  | some rain =>
    cases hsnow : l.find? isSnow with
    | none =>
      rw [scanBoth_none_right (List.find?_eq_none.mp hsnow)]
      simp
    | some snow =>
      have hexclusive : ∀ r : SizedRecord, r.isRain = true → r.isSnow = false :=
        fun r => GribRecord.not_isSnow_of_isRain
      rw [scanBoth_eq hexclusive hrain hsnow]
      simp only [Option.map_some, Option.getD_some, runPoints_ne_leaves_iff,
        snowfallAt_isSome_iff, Option.mem_some_iff, forall_eq']
      rcases aheadOf_eq_nil (p := isRain) (q := isSnow) l with hnil | hnil
      · have hne := (aheadOf_ne_nil hexclusive hrain).resolve_left (not_not.mpr hnil)
        obtain ⟨last, hlast⟩ := Option.ne_none_iff_exists'.mp (mt List.getLast?_eq_none_iff.mp hne)
        rw [hnil, if_pos rfl, List.getLastD_eq_getLast?, hlast]
        show (∀ i < rain.size, i < last.size ∧ (_ → i < rain.size)) ↔ _
        constructor
        · intro h
          refine ⟨fun _ hmem => absurd hmem (Option.not_mem_none _), fun last' hmem => ?_⟩
          cases hmem
          exact (forall_lt_and_lt_iff _ _).mp fun i hi => (h i hi).1
        · intro h i hi
          exact ⟨hi.trans_le (h.2 last rfl), fun _ => hi⟩
      · have hne := (aheadOf_ne_nil hexclusive hrain).resolve_right (not_not.mpr hnil)
        obtain ⟨last, hlast⟩ := Option.ne_none_iff_exists'.mp (mt List.getLast?_eq_none_iff.mp hne)
        rw [hnil, if_neg hne, List.getLastD_eq_getLast?, List.getLastD_eq_getLast?, hlast]
        show (∀ i < snow.size, i < snow.size ∧ (snow.values[i]? = some 1 → i < last.size)) ↔ _
        constructor
        · intro h
          refine ⟨fun last' hmem i hi => ?_, fun _ hmem => absurd hmem (Option.not_mem_none _)⟩
          cases hmem
          exact (h i hi).2
        · intro h i hi
          exact ⟨hi, h.1 last rfl i hi⟩

end Bounds

section Grid

def ofGrid (r : GribRecord n) : SizedRecord := ⟨n, r⟩

/-- A file all of whose records have the values of the grid. -/
def gridStream (s : RecordStream (GribRecord n)) : RecordStream SizedRecord :=
  ⟨s.consumed.map ofGrid, s.rest.map ofGrid⟩

/-- What a routine comes to where all records have the values of the grid. -/
def ofResult : Option (Fin n → ℚ) → PointRun
  | none => .stops
  | some values => .ends (List.ofFn values)

theorem seek_gridStream (p : SizedRecord → Bool) (s : RecordStream (GribRecord n)) :
    ((gridStream s).seek p).1 = ((s.seek fun r => p (ofGrid r)).1).map ofGrid := by
  rw [RecordStream.seek_fst, RecordStream.seek_fst]
  exact List.find?_map

theorem rewind_gridStream (s : RecordStream (GribRecord n)) :
    (gridStream s).rewind = gridStream s.rewind := by
  simp [gridStream, RecordStream.rewind]

theorem runPoints_grid (f : Fin n → ℚ) {point : ℕ → Option ℚ}
    (hpoint : ∀ i : Fin n, point i = some (f i)) : runPoints n point = .ends (List.ofFn f) := by
  have hloop : pointLoop n point (calloc n) =
      some ((List.range n).map (fun i => if h : i < n then f ⟨i, h⟩ else 0) ++
        (calloc n).drop n) := by
    apply pointLoop_eq_map List.length_replicate.ge
    intro i hi
    rw [dif_pos hi]
    exact hpoint ⟨i, hi⟩
  rw [runPoints, hloop, calloc, List.drop_replicate, Nat.sub_self]
  simp only [List.replicate_zero, List.append_nil, PointRun.ends.injEq]
  apply List.ext_getElem
  · simp
  · intro i hi _
    simp at hi ⊢
    simp [hi]

theorem getElem?_ofGrid (r : GribRecord n) (i : Fin n) :
    (ofGrid r).values[(i : ℕ)]? = some (r.values i) := by
  simp [values, ofGrid]

/-- Over records of one size the total column water is the grid's. -/
theorem generateTotalColumnWater_grid (f : NcepFiles n) :
    generateTotalColumnWater (gridStream f.aFile) (gridStream f.bFile) =
      ofResult (Tigge.generateTotalColumnWater f).result := by
  have hprecip := seek_gridStream (·.isField 0 1 3 200) f.aFile
  have hcloud := seek_gridStream (·.isField 0 6 6 200) f.bFile
  change _ = (f.aFile.seek (·.isField 0 1 3 200)).1.map ofGrid at hprecip
  change _ = (f.bFile.seek (·.isField 0 6 6 200)).1.map ofGrid at hcloud
  rw [generateTotalColumnWater, Tigge.generateTotalColumnWater, hprecip, hcloud]
  dsimp only
  cases (f.aFile.seek (·.isField 0 1 3 200)).1 with
  | none => rfl
  | some precip =>
    cases (f.bFile.seek (·.isField 0 6 6 200)).1 with
    | none => simp [orStops, ofResult]
    | some cloud =>
      simp only [Option.map_some, readValues_eq, Option.bind_eq_bind, Option.bind_some,
        Option.pure_def, orStops, Option.getD_some]
      exact runPoints_grid (fun i => precip.values i + cloud.values i) fun i => by
        rw [getElem?_ofGrid, getElem?_ofGrid]
        rfl

@[simp] theorem isField_ofGrid (r : GribRecord n) (discipline category number level : ℤ) :
    (ofGrid r).isField discipline category number level =
      r.isField discipline category number level := rfl

@[simp] theorem levValue_ofGrid (r : GribRecord n) :
    (ofGrid r).levValue = r.scaledValueOfFirstFixedSurface := rfl

def handlesOf (found : HemisphereRecords n) : HemisphereHandles where
  pressureNorth := found.pressureNorth.map ofGrid
  pressureSouth := found.pressureSouth.map ofGrid
  temperatureNorth := found.temperatureNorth.map ofGrid
  temperatureSouth := found.temperatureSouth.map ofGrid

theorem take_handlesOf (found : HemisphereRecords n) (temp : GribRecord n) :
    (handlesOf found).take (ofGrid temp) = handlesOf (found.take temp) := by
  simp only [HemisphereHandles.take, HemisphereRecords.take, handlesOf, Option.isNone_map,
    isField_ofGrid, levValue_ofGrid]
  split_ifs <;> rfl

theorem scanHandles_handlesOf (found : HemisphereRecords n) (l : List (GribRecord n)) :
    scanHandles (handlesOf found) (l.map ofGrid) = (scanHemispheres found l).map fun r =>
      (ofGrid r.1, ofGrid r.2.1, ofGrid r.2.2.1, ofGrid r.2.2.2) := by
  induction l generalizing found with
  | nil =>
    obtain ⟨_ | _, _ | _, _ | _, _ | _⟩ := found <;> rfl
  | cons temp l ih =>
    have hstep : scanHandles (handlesOf (found.take temp)) (l.map ofGrid) = _ := ih (found.take temp)
    rw [← take_handlesOf] at hstep
    obtain ⟨_ | _, _ | _, _ | _, _ | _⟩ := found <;> first | rfl | exact hstep

theorem generatePotentialTemperature_grid (api : GribApi n) (f : NcepFiles n) :
    generatePotentialTemperature api (gridStream f.bFile) =
      ofResult (Tigge.generatePotentialTemperature api f).result := by
  have hscan := scanHandles_handlesOf {} f.bFile.rest
  change scanHandles {} (gridStream f.bFile).rest = _ at hscan
  rw [generatePotentialTemperature, Tigge.generatePotentialTemperature, hscan]
  cases scanHemispheres {} f.bFile.rest with
  | none => rfl
  | some found =>
    obtain ⟨pn, ps, tn, ts⟩ := found
    simp only [Option.map_some, readValues_eq, Option.bind_eq_bind, Option.bind_some,
      Option.pure_def, orStops, Option.getD_some]
    exact runPoints_grid (fun i => potentialTemperatureAt api
      (mergeHemispheres (ps.values i) (pn.values i)) (mergeHemispheres (ts.values i) (tn.values i)))
      fun i => by simp only [getElem?_ofGrid, Option.bind_some]

theorem snowfallAt_grid (snow rain : GribRecord n) (i : Fin n) :
    snowfallAt (ofGrid snow).values (ofGrid rain).values i =
      some (snowfall snow.values rain.values i) := by
  rw [snowfallAt, getElem?_ofGrid, getElem?_ofGrid, snowfall]
  show (if snow.values i = 1 then _ else _) = _
  split_ifs <;> rfl

theorem generateSnowFallWaterEquivalent_grid (fff : ℕ) (f : NcepFiles n) :
    generateSnowFallWaterEquivalent n fff (gridStream f.aFile) =
      ofResult (Tigge.generateSnowFallWaterEquivalent fff f).result := by
  rw [generateSnowFallWaterEquivalent, Tigge.generateSnowFallWaterEquivalent]
  by_cases hfff : fff = 0
  · rw [if_pos hfff, if_pos hfff]
    exact runPoints_grid 0 fun _ => rfl
  have hsnow := seek_gridStream (·.isSnow) f.aFile
  have hrain := seek_gridStream (·.isRain) f.aFile.rewind
  rw [← rewind_gridStream] at hrain
  change _ = (f.aFile.seek (·.isParameter 0 1 195)).1.map ofGrid at hsnow
  change _ = (f.aFile.rewind.seek (·.isParameter 0 1 8)).1.map ofGrid at hrain
  rw [if_neg hfff, if_neg hfff]
  dsimp only
  rw [RecordStream.seek_rewind, RecordStream.seek_rewind, hsnow, hrain]
  cases (f.aFile.seek (·.isParameter 0 1 195)).1 with
  | none => rfl
  | some snow =>
    cases (f.aFile.rewind.seek (·.isParameter 0 1 8)).1 with
    | none => simp [orStops, ofResult]
    | some rain =>
      simp only [Option.map_some, readValues_eq, Option.bind_eq_bind, Option.bind_some,
        Option.pure_def, orStops, Option.getD_some]
      exact runPoints_grid (snowfall snow.values rain.values) (snowfallAt_grid snow rain)

theorem loadSnowfall_grid (aFile : RecordStream (GribRecord n)) :
    loadDataForTimeIntegratedSnowFallWaterEquivalent n (gridStream aFile) =
      ofResult (some (loadedSnowfall aFile.rewind.rest)) := by
  rw [loadDataForTimeIntegratedSnowFallWaterEquivalent, rewind_gridStream]
  generalize aFile.rewind = s
  have hsizes := scanSnowfallSizes_eq none none none n (gridStream s).rest
  have hmap := scanBoth_map ofGrid isRain isSnow none none none s.rest
  change scanBoth isRain isSnow none none none (gridStream s).rest =
    ((scanBoth GribRecord.isRain GribRecord.isSnow none none none s.rest).1.map _,
      (scanBoth GribRecord.isRain GribRecord.isSnow none none none s.rest).2.map ofGrid) at hmap
  have hloaded := scanSnowfall_eq none none none s.rest
  change scanSnowfall none none s.rest = _ at hloaded
  have hsize : ((scanBoth isRain isSnow none none none (gridStream s).rest).2.map size).getD n = n := by
    rw [hmap]
    cases (scanBoth GribRecord.isRain GribRecord.isSnow none none none s.rest).2 <;> rfl
  rw [hsize, hmap] at hsizes
  change scanSnowfallSizes none none n (gridStream s).rest = _ at hsizes
  rw [hsizes, loadedSnowfall, hloaded]
  cases (scanBoth GribRecord.isRain GribRecord.isSnow none none none s.rest).1 with
  | none =>
    show PointRun.ends (calloc n) = .ends (List.ofFn 0)
    rw [calloc, ← List.ofFn_const]
    rfl
  | some found =>
    obtain ⟨rain, snow⟩ := found
    exact runPoints_grid (snowfall snow.values rain.values) (snowfallAt_grid snow rain)

end Grid

/-- When the accesses of the four point loops are inside their arrays: where the record whose size is
left in the variable is no longer than the others, or than what is read of them. -/
theorem point_loops_inside_iff (api : GribApi n) (nPoints fff : ℕ)
    (aFile bFile : RecordStream SizedRecord) :
    (generateTotalColumnWater aFile bFile ≠ .leaves ↔
      ∀ precip ∈ (aFile.seek (·.isField 0 1 3 200)).1,
        ∀ cloud ∈ (bFile.seek (·.isField 0 6 6 200)).1, cloud.size ≤ precip.size) ∧
    (generatePotentialTemperature api bFile ≠ .leaves ↔
      ∀ pn ps tn ts, scanHandles {} bFile.rest = some (pn, ps, tn, ts) →
        ts.size ≤ pn.size ∧ ts.size ≤ ps.size ∧ ts.size ≤ tn.size) ∧
    (generateSnowFallWaterEquivalent nPoints fff aFile ≠ .leaves ↔
      (fff ≠ 0 → ∀ snow ∈ (aFile.seek (·.isSnow)).1,
        ∀ rain ∈ (aFile.rewind.seek (·.isRain)).1, rain.size ≤ snow.size)) ∧
    (loadDataForTimeIntegratedSnowFallWaterEquivalent nPoints aFile ≠ .leaves ↔
      ∀ rain ∈ aFile.rewind.rest.find? isRain, ∀ snow ∈ aFile.rewind.rest.find? isSnow,
        (∀ last ∈ (aheadOf isSnow isRain aFile.rewind.rest).getLast?,
          ∀ i < snow.size, snow.values[i]? = some 1 → i < last.size) ∧
        ∀ last ∈ (aheadOf isRain isSnow aFile.rewind.rest).getLast?, rain.size ≤ last.size) :=
  ⟨generateTotalColumnWater_inside_iff aFile bFile, generatePotentialTemperature_inside_iff api bFile,
    generateSnowFallWaterEquivalent_inside_iff nPoints fff aFile,
    loadSnowfall_inside_iff nPoints aFile⟩

/-- A record of the cloud water on two points, where the precipitable water has one. -/
theorem point_loops_leave :
    generateTotalColumnWater (.opened [⟨1, ⟨⟨0, 1, 3, 200, 0⟩, 1, fun _ => 1⟩⟩])
      (.opened [⟨2, ⟨⟨0, 6, 6, 200, 0⟩, 1, fun _ => 1⟩⟩]) = .leaves := rfl

end Arrays
end Tigge
