import Tigge.StepRange

/-! The tool tigge_check, without its options for local area models and for ranges of values. -/

namespace Tigge
open Lib

/-- `grib_is_missing`. -/
def GribMessage.gribIsMissing (m : GribMessage) (k : GribKey) : Bool :=
  match m k with
  | none => true
  | some _ => k.coding.canBeMissing && m.isMissing k

/-- The `unpack_long` of a key, which may change the units of the steps. -/
abbrev Reader := GribMessage → Except GribError (ℤ × GribMessage)

def GribKey.read (k : GribKey) : Reader := fun m => do
  let v ← m.getLong k
  return (v, m)

/-- A bit of a key of flags. -/
def GribKey.flagbit (k : GribKey) (bit : ℕ) : Reader := fun m => do
  let flags ← m.getLong k
  return (flags / 2 ^ bit % 2, m)

namespace TiggeCheck

/-- A check looks at a handle and counts in `error`; a division by zero is a crash. -/
abbrev Checker := StateT (GribMessage × ℕ) Option

def get (what : Reader) : Checker ℤ := fun s =>
  match what s.1 with
  | .ok (val, m) => some (val, (m, s.2))
  | .error _ => some (-1, (s.1, s.2 + 1))

def check (a : Bool) : Checker Unit := fun s => some ((), (s.1, if a then s.2 else s.2 + 1))

def divide (a b : ℤ) : Checker ℤ := if b = 0 then fun _ => none else pure (a.tdiv b)

/-- What `CHECK` asks of coded keys: `eq`, `ne`, `ge` and `le`, the same of a bit of flags,
`missing` and its negation, and alternatives. -/
inductive Condition
  | eq (what : GribKey) (value : ℤ)
  | ne (what : GribKey) (value : ℤ)
  | ge (what : GribKey) (value : ℤ)
  | le (what : GribKey) (value : ℤ)
  | bit (what : GribKey) (bit : ℕ) (value : ℤ)
  | missing (what : GribKey)
  | given (what : GribKey)
  | oneOf (what : GribKey) (values : List ℤ)
  | missingOr (what : GribKey) (value : ℤ)

def missing (what : GribKey) : Checker Bool := fun s => some (s.1.gribIsMissing what, s)

namespace Condition

def holds : Condition → Checker Bool
  | eq what value => do return decide ((← TiggeCheck.get what.read) = value)
  | ne what value => do return decide ((← TiggeCheck.get what.read) ≠ value)
  | ge what value => do return decide (value ≤ (← TiggeCheck.get what.read))
  | le what value => do return decide ((← TiggeCheck.get what.read) ≤ value)
  | bit what n value => do return decide ((← TiggeCheck.get (what.flagbit n)) = value)
  | missing what => TiggeCheck.missing what
  | given what => do return !(← TiggeCheck.missing what)
  | oneOf what values =>
    values.anyM fun value => do return decide ((← TiggeCheck.get what.read) = value)
  | missingOr what value => do
    if ← TiggeCheck.missing what then return true
    else return decide ((← TiggeCheck.get what.read) = value)

end Condition

def checkAll (conditions : List Condition) : Checker Unit :=
  conditions.forM fun c => do check (← c.holds)

section Double
variable (R : Rounding)

/-- `GRIB_MISSING_DOUBLE`. -/
def gribMissingDouble : ℚ := R.fl (-10 ^ 100)

/-- The keys of `g2grid`, in their order. -/
def gridKeys : List GribKey :=
  [.latitudeOfFirstGridPoint, .longitudeOfFirstGridPoint, .latitudeOfLastGridPoint,
    .longitudeOfLastGridPoint, .iDirectionIncrement, .jDirectionIncrement]

/-- `unpack_double` of `g2grid` for one of its keys. -/
def inDegrees (m : GribMessage) (k : GribKey) : Except GribError ℚ := do
  let basicAngle ← m.getLong .basicAngleOfTheInitialProductionDomain
  let subdivisions ← m.getLong .subdivisionsOfBasicAngle
  let _ ← gridKeys.mapM m.getLong
  let v ← m.getLong k
  let divisor : ℤ :=
    if subdivisions = gribMissingLong ∨ subdivisions = 0 then 1000000 else subdivisions
  let factor : ℤ := if basicAngle = 0 then 1 else basicAngle
  return if v = gribMissingLong then gribMissingDouble R
    else R.fl (R.fl (v / divisor) * factor)

/-- `unpack_double` of `g2latlon`: an increment that is not given is missing. -/
def incrementInDegrees (m : GribMessage) (k : GribKey) (bit : ℕ) : Except GribError ℚ := do
  let given ← GribKey.resolutionAndComponentFlags.flagbit bit m
  if given.1 = 0 then return gribMissingDouble R else inDegrees R m k

def dget (what : GribMessage → Except GribError ℚ) : Checker ℚ := fun s =>
  match what s.1 with
  | .ok val => some (val, s)
  | .error _ => some (-1, (s.1, s.2 + 1))

/-- `unpack_double` and `unpack_long` of `g2level` on a new handle, whose pressure is in hPa. -/
def readLevel : Reader := fun m => do
  let typeFirst ← m.getLong .typeOfFirstFixedSurface
  let scaleFirst ← m.getLong .scaleFactorOfFirstFixedSurface
  let valueFirst ← m.getLong .scaledValueOfFirstFixedSurface
  if valueFirst = gribMissingLong then return (0, m)
  else
    -- potential vorticity is in millionths
    let scale := if typeFirst = 109 then scaleFirst - 6 else scaleFirst
    let scaled : ℚ :=
      if scaleFirst = gribMissingLong then valueFirst
      else if scale < 0 then (fun v => R.fl (v * 10))^[scale.natAbs] valueFirst
      else (fun v => R.fl (v / 10))^[scale.natAbs] valueFirst
    let hectopascals := truncate (R.fl (scaled / 100))
    let v : ℚ :=
      if typeFirst = 100 then
        if scaleFirst ≠ gribMissingLong ∧ hectopascals = 0 then scaled
        else hectopascals
      else scaled
    return (truncate (R.fl (v + 1 / 2)), m)

end Double

/-- The checks of the table of parameters. -/
inductive CheckProc
  | pointInTime
  | sixHourly
  | threeHourly
  | fromStart
  | givenLevel
  | predefinedLevel
  | predefinedThickness
  | givenThickness
  | hasBitmap
  | pressureLevel
  | potentialTemperatureLevel
  | potentialVorticityLevel
  deriving DecidableEq

structure Parameter where
  name : String
  pairs : List (GribKey × ℤ)
  checks : List CheckProc
  deriving DecidableEq

def entry (name : String) (discipline category number surface : ℤ) (pairs : List (GribKey × ℤ))
    (checks : List CheckProc) : Parameter where
  name := name
  pairs := [(.discipline, discipline), (.parameterCategory, category), (.parameterNumber, number),
    (.typeOfFirstFixedSurface, surface)] ++ pairs
  checks := checks

/-- `parameters`, those of the model `glob`. -/
def parameters : List Parameter :=
  [entry "10_meter_u_velocity_sfc.glob" 0 2 2 103 [(.scaleFactorOfFirstFixedSurface, 0),
      (.scaledValueOfFirstFixedSurface, 10)] [.pointInTime, .givenLevel],
    entry "10_meter_v_velocity_sfc.glob" 0 2 3 103 [(.scaleFactorOfFirstFixedSurface, 0),
      (.scaledValueOfFirstFixedSurface, 10)] [.pointInTime, .givenLevel],
    entry "convective_available_potential_energy_sfc.glob" 0 7 6 1 [(.typeOfSecondFixedSurface, 8)]
      [.pointInTime, .predefinedThickness],
    entry "convective_inhibition_sfc.glob" 0 7 7 1 [(.typeOfSecondFixedSurface, 8)] [.pointInTime,
      .predefinedThickness],
    entry "field_capacity_sfc" 2 3 12 106 [(.scaleFactorOfFirstFixedSurface, 0),
      (.scaleFactorOfSecondFixedSurface, 1), (.scaledValueOfFirstFixedSurface, 0),
      (.scaledValueOfSecondFixedSurface, 2), (.typeOfSecondFixedSurface, 106)] [.pointInTime,
      .givenThickness, .hasBitmap],
    entry "geopotential_height_pl" 0 3 5 100 [] [.pointInTime, .givenLevel, .pressureLevel],
    entry "land_sea_mask_sfc.glob" 2 0 0 1 [] [.pointInTime, .predefinedLevel],
    entry "mean_sea_level_pressure_sfc.glob" 0 3 0 101 [] [.pointInTime, .predefinedLevel],
    entry "orography_sfc.glob" 0 3 5 1 [] [.pointInTime, .predefinedLevel],
    entry "potential_temperature_pv" 0 0 2 109 [] [.pointInTime, .givenLevel,
      .potentialVorticityLevel],
    entry "potential_vorticity_pt" 0 2 14 107 [(.scaleFactorOfFirstFixedSurface, 0),
      (.scaledValueOfFirstFixedSurface, 320)] [.pointInTime, .givenLevel,
      .potentialTemperatureLevel],
    entry "skin_temperature_sfc" 0 0 17 1 [] [.pointInTime, .predefinedLevel],
    entry "snow_depth_water_equivalent_sfc" 0 1 60 1 [] [.pointInTime, .predefinedLevel],
    entry "snow_fall_water_equivalent_sfc" 0 1 53 1 [(.typeOfStatisticalProcessing, 1)]
      [.fromStart, .predefinedLevel],
    entry "soil_moisture_sfc" 2 0 22 106 [(.scaleFactorOfFirstFixedSurface, 0),
      (.scaleFactorOfSecondFixedSurface, 1), (.scaledValueOfFirstFixedSurface, 0),
      (.scaledValueOfSecondFixedSurface, 2), (.typeOfSecondFixedSurface, 106)] [.pointInTime,
      .givenThickness, .hasBitmap],
    entry "soil_temperature_sfc" 2 0 2 106 [(.scaleFactorOfFirstFixedSurface, 0),
      (.scaleFactorOfSecondFixedSurface, 1), (.scaledValueOfFirstFixedSurface, 0),
      (.scaledValueOfSecondFixedSurface, 2), (.typeOfSecondFixedSurface, 106)] [.pointInTime,
      .givenThickness],
    entry "specific_humidity_pl" 0 1 0 100 [] [.pointInTime, .givenLevel, .pressureLevel],
    entry "sunshine_duration_sfc" 0 6 24 1 [(.typeOfStatisticalProcessing, 1)] [.fromStart,
      .predefinedLevel],
    entry "surface_air_temperature_sfc.glob" 0 0 0 103 [] [.pointInTime, .givenLevel],
    entry "surface_air_dew_point_temperature_sfc.glob" 0 0 6 103 [] [.pointInTime, .givenLevel],
    entry "surface_air_maximum_temperature_sfc" 0 0 0 103 [(.typeOfStatisticalProcessing, 2)]
      [.sixHourly, .givenLevel],
    entry "surface_air_minimum_temperature_sfc" 0 0 0 103 [(.typeOfStatisticalProcessing, 3)]
      [.sixHourly, .givenLevel],
    entry "surface_pressure_sfc" 0 3 0 1 [] [.pointInTime, .predefinedLevel],
    entry "temperature_pl" 0 0 0 100 [] [.pointInTime, .givenLevel, .pressureLevel],
    entry "time_integrated_outgoing_long_wave_radiation_sfc" 0 5 5 8
      [(.typeOfStatisticalProcessing, 1)] [.fromStart, .predefinedLevel],
    entry "time_integrated_surface_latent_heat_flux_sfc" 0 0 10 1
      [(.typeOfStatisticalProcessing, 1)] [.fromStart, .predefinedLevel],
    entry "time_integrated_surface_net_solar_radiation_sfc" 0 4 9 1
      [(.typeOfStatisticalProcessing, 1)] [.fromStart, .predefinedLevel],
    entry "time_integrated_surface_net_thermal_radiation_sfc" 0 5 5 1
      [(.typeOfStatisticalProcessing, 1)] [.fromStart, .predefinedLevel],
    entry "time_integrated_surface_sensible_heat_flux_sfc" 0 0 11 1
      [(.typeOfStatisticalProcessing, 1)] [.fromStart, .predefinedLevel],
    entry "total_cloud_cover_sfc" 0 6 1 1 [(.typeOfSecondFixedSurface, 8)] [.pointInTime,
      .predefinedThickness],
    entry "total_column_water_sfc" 0 1 51 1 [(.typeOfSecondFixedSurface, 8)] [.pointInTime,
      .predefinedThickness],
    entry "total_precipitation_sfc.glob" 0 1 52 1 [(.typeOfStatisticalProcessing, 1)] [.fromStart,
      .predefinedLevel],
    entry "large_scale_precipitation_sfc.glob" 0 1 54 1 [(.typeOfStatisticalProcessing, 1),
      (.typeOfSecondFixedSurface, 255)] [.fromStart, .predefinedLevel],
    entry "u_velocity_pl" 0 2 2 100 [] [.pointInTime, .givenLevel, .pressureLevel],
    entry "u_velocity_pv" 0 2 2 109 [] [.pointInTime, .givenLevel, .potentialVorticityLevel],
    entry "v_velocity_pl" 0 2 3 100 [] [.pointInTime, .givenLevel, .pressureLevel],
    entry "v_velocity_pv" 0 2 3 109 [] [.pointInTime, .givenLevel, .potentialVorticityLevel],
    entry "wilting_point_sfc" 2 0 26 106 [(.scaleFactorOfFirstFixedSurface, 0),
      (.scaleFactorOfSecondFixedSurface, 1), (.scaledValueOfFirstFixedSurface, 0),
      (.scaledValueOfSecondFixedSurface, 2), (.typeOfSecondFixedSurface, 106)] [.pointInTime,
      .givenThickness, .hasBitmap],
    entry "maximum_wind_gust.glob" 0 2 22 103 [(.typeOfStatisticalProcessing, 2),
      (.scaleFactorOfFirstFixedSurface, 0), (.scaledValueOfFirstFixedSurface, 10),
      (.typeOfSecondFixedSurface, 255)] [.threeHourly, .givenLevel]]

/-- The values that `grib_get_long` gives. -/
abbrev Readings := GribKey → Option ℤ

def readings (m : GribMessage) : Readings := fun k => (m.getLong k).toOption

/-- The definitions of these products name a `model`, which is `glob` without a section 2. -/
def isGlob (r : Readings) : Bool :=
  (r .productionStatusOfProcessedData).any fun status => 4 ≤ status && status ≤ 9

def Parameter.matches (p : Parameter) (r : Readings) : Bool :=
  isGlob r && p.pairs.all fun e => r e.1 = some e.2

/-- The first of the parameters with the most pairs that all match. -/
def bestMatch (r : Readings) : Option Parameter :=
  (parameters.foldl (fun best p =>
    if p.matches r ∧ best.1 < p.pairs.length then ((p.pairs.length : ℤ), some p) else best)
    ((-1, none) : ℤ × Option Parameter)).2

def everySixHours : Checker Unit := do
  if (← get (GribKey.read .indicatorOfUnitOfTimeRange)) = 11 then pure ()
  else do
    checkAll [.eq .indicatorOfUnitOfTimeRange 1]
    check (decide ((← get (GribKey.read .forecastTime)).tmod 6 = 0))

def pointInTime : Checker Unit := do
  let type ← get (GribKey.read .typeOfProcessedData)
  if type = 2 then do
    checkAll [.eq .productDefinitionTemplateNumber 0]
    everySixHours
  else if type = 3 then do
    checkAll [.eq .productDefinitionTemplateNumber 1, .eq .perturbationNumber 0,
      .ne .numberOfForecastsInEnsemble 0]
    everySixHours
  else if type = 4 then do
    checkAll [.ne .perturbationNumber 0, .ne .numberOfForecastsInEnsemble 0,
      .eq .productDefinitionTemplateNumber 1]
    let members ← get (GribKey.read .numberOfForecastsInEnsemble)
    checkAll [.le .perturbationNumber (members - 1)]
    everySixHours
  else do
    let _ ← get (GribKey.read .typeOfProcessedData)
    check false
    everySixHours

def checkLevel (R : Rounding) (levels : List ℤ) : Checker Unit := do
  let level ← get (readLevel R)
  check (decide (level ∈ levels))

/-- The hours of the unit of a time range. -/
def unitHours : Checker ℤ := do
  if (← get (GribKey.read .indicatorOfUnitForTimeRange)) = 11 then return 6
  else do
    if (← get (GribKey.read .indicatorOfUnitForTimeRange)) = 10 then return 3
    else do
      checkAll [.eq .indicatorOfUnitForTimeRange 1]
      return 1

def checkTimeRange : Checker Unit := do
  everySixHours
  checkAll [.eq .numberOfTimeRange 1, .eq .numberOfMissingInStatisticalProcess 0,
    .eq .typeOfTimeIncrement 2, .eq .timeIncrement 0, .eq .minuteOfEndOfOverallTimeInterval 0,
    .eq .secondOfEndOfOverallTimeInterval 0]
  check (decide ((← get GribMessage.getEndStep).tmod 6 = 0))
  check (decide ((← get GribMessage.getEndStep) ≤ 24 * 30))
  let factor ← unitHours
  let length ← get (GribKey.read .lengthOfTimeRange)
  let start ← get GribMessage.getStartStep
  let last ← get GribMessage.getEndStep
  check (decide (length * factor + start = last))

def statisticalProcess : Checker Unit := do
  let type ← get (GribKey.read .typeOfProcessedData)
  if type = 2 then do
    checkAll [.eq .productDefinitionTemplateNumber 8]
    checkTimeRange
  else if type = 3 ∨ type = 4 then do
    checkAll [.eq .productDefinitionTemplateNumber 11]
    checkTimeRange
  else do
    let _ ← get (GribKey.read .typeOfProcessedData)
    check false

/-- `six_hourly` and `three_hourly`. -/
def hourly (hours : ℤ) : Checker Unit := do
  statisticalProcess
  let units ← get (GribKey.read .indicatorOfUnitForTimeRange)
  checkAll [.eq .lengthOfTimeRange (if units = 11 then 1 else hours)]
  let last ← get GribMessage.getEndStep
  let start ← get GribMessage.getStartStep
  check (decide (last = start + hours))

def fromStart : Checker Unit := do
  let _ ← get GribMessage.getEndStep
  statisticalProcess
  check (decide ((← get GribMessage.getStartStep) = 0))

/-- The value of a surface is there or missing. -/
def surfaceValue (given : Bool) (scaleFactor scaledValue : GribKey) : List Condition :=
  if given then [.given scaleFactor, .given scaledValue]
  else [.missing scaleFactor, .missing scaledValue]

/-- The conditions on two surfaces, of which the second may be none. -/
def surfaceConditions (first second single : Bool) : List Condition :=
  Condition.ne .typeOfFirstFixedSurface 255 ::
    (surfaceValue first .scaleFactorOfFirstFixedSurface .scaledValueOfFirstFixedSurface ++
      (if single then Condition.eq .typeOfSecondFixedSurface 255
        else Condition.ne .typeOfSecondFixedSurface 255) ::
      surfaceValue second .scaleFactorOfSecondFixedSurface .scaledValueOfSecondFixedSurface)

def CheckProc.run (R : Rounding) : CheckProc → Checker Unit
  | pointInTime => TiggeCheck.pointInTime
  | sixHourly => hourly 6
  | threeHourly => hourly 3
  | fromStart => TiggeCheck.fromStart
  | givenLevel => checkAll (surfaceConditions true false true)
  | predefinedLevel => checkAll (surfaceConditions false false true)
  | predefinedThickness => checkAll (surfaceConditions false false false)
  | givenThickness => checkAll (surfaceConditions true true false)
  | hasBitmap => checkAll [.eq .bitMapIndicator 0]
  | pressureLevel => checkLevel R [1000, 200, 250, 300, 500, 700, 850, 925, 50]
  | potentialTemperatureLevel => checkLevel R [320]
  | potentialVorticityLevel => checkLevel R [2]

/-- The keys that are printed for an unknown parameter; `origin` is the centre of a product that
names its model. -/
def printedKeys : List GribKey :=
  [.discipline, .parameterCategory, .parameterNumber, .scaleFactorOfFirstFixedSurface,
    .scaleFactorOfSecondFixedSurface, .scaledValueOfFirstFixedSurface,
    .scaledValueOfSecondFixedSurface, .typeOfFirstFixedSurface, .typeOfSecondFixedSurface]

def readOrigin : Reader := fun m =>
  if isGlob (readings m) then GribKey.read .centre m else .error .notFound

/-- The checks of the parameter, where there is one. -/
def checkMatch (R : Rounding) : Option Parameter → Checker Unit
  | some p => p.checks.forM fun c => c.run R
  | none => do
    let _ ← get readOrigin
    printedKeys.forM fun k => do let _ ← get k.read
    check false

def checkParameter (R : Rounding) : Checker Unit := do
  let s ← StateT.get
  checkMatch R (bestMatch (readings s.1))

def checkSubdivisions : Checker Unit := do
  if ← (Condition.eq .basicAngleOfTheInitialProductionDomain 0).holds then
    checkAll [.missing .subdivisionsOfBasicAngle]
  else checkAll [.given .subdivisionsOfBasicAngle, .ne .subdivisionsOfBasicAngle 0]

def checkBasicAngle : Checker Unit := do
  if ← missing .subdivisionsOfBasicAngle then
    checkAll [.eq .basicAngleOfTheInitialProductionDomain 0]
  else pure ()

/-- The conditions on the flags of a grid of latitudes and longitudes, and on what follows them. -/
def gridConditions : List Condition :=
  [.bit .resolutionAndComponentFlags 7 0, .bit .resolutionAndComponentFlags 6 0,
    .bit .resolutionAndComponentFlags 7 0, .bit .resolutionAndComponentFlags 6 0,
    .bit .resolutionAndComponentFlags 6 0, .bit .resolutionAndComponentFlags 5 1,
    .bit .resolutionAndComponentFlags 4 1, .eq .numberOfOctectsForNumberOfPoints 0,
    .eq .interpretationOfNumberOfPoints 0]

/-- The bounds of a grid, which are swapped where it is scanned the other way. -/
structure Extent where
  first : ℤ
  last : ℤ
  dfirst : ℚ
  dlast : ℚ

def Extent.swapIf (e : Extent) (swap : Bool) : Extent :=
  if swap then ⟨e.last, e.first, e.dlast, e.dfirst⟩ else e

/-- The checks of a grid that the tool computes: its latitudes go from north to south, its
longitudes from west to east, with `points` of them a distance `increment` apart. -/
def checkExtents (R : Rounding) (latitude longitude : Extent) (meridian parallel ns we : ℤ)
    (dns dwe : ℚ) : Checker Unit := do
  let north := latitude.first
  let south := latitude.last
  let west := longitude.first
  let east := longitude.last
  let height := R.fl (latitude.dfirst - latitude.dlast)
  let width := R.fl (longitude.dlast - longitude.dfirst)
  check (decide (south < north))
  check (decide (west < east))
  check (decide (0 ≤ east))
  check (decide (0 ≤ west))
  check (decide (north = -south))
  check (decide (latitude.dfirst = -latitude.dlast))
  let along ← divide (east - west) we
  check (decide (parallel = along + 1))
  check (decide (|R.fl (R.fl (R.fl (width / dwe) + 1) - parallel)| < R.fl (1 / 10 ^ 10)))
  let down ← divide (north - south) ns
  check (decide (meridian = down + 1))
  check (decide (|R.fl (R.fl (R.fl (height / dns) + 1) - meridian)| < R.fl (1 / 10 ^ 10)))
  let area := R.fl (height * width)
  check (decide (area ≤ 360 * 180))
  check (decide (R.fl (360 * 180 * R.fl (95 / 100)) ≤ area))

/-- `latlon_grid`. -/
def latlonGrid (R : Rounding) : Checker Unit := do
  let dataPoints ← get (GribKey.read .numberOfDataPoints)
  let meridian ← get (GribKey.read .Nj)
  let parallel ← get (GribKey.read .Ni)
  let north ← get (GribKey.read .latitudeOfFirstGridPoint)
  let south ← get (GribKey.read .latitudeOfLastGridPoint)
  let west ← get (GribKey.read .longitudeOfFirstGridPoint)
  let east ← get (GribKey.read .longitudeOfLastGridPoint)
  let ns ← get (GribKey.read .jDirectionIncrement)
  let we ← get (GribKey.read .iDirectionIncrement)
  let dnorth ← dget fun m => inDegrees R m .latitudeOfFirstGridPoint
  let dsouth ← dget fun m => inDegrees R m .latitudeOfLastGridPoint
  let dwest ← dget fun m => inDegrees R m .longitudeOfFirstGridPoint
  let deast ← dget fun m => inDegrees R m .longitudeOfLastGridPoint
  let dns ← dget fun m => incrementInDegrees R m .jDirectionIncrement 4
  let dwe ← dget fun m => incrementInDegrees R m .iDirectionIncrement 5
  checkSubdivisions
  checkBasicAngle
  check (decide (meridian * parallel = dataPoints))
  checkAll gridConditions
  let negatively ← get (GribKey.scanningMode.flagbit 7)
  let positively ← get (GribKey.scanningMode.flagbit 6)
  checkExtents R (Extent.swapIf ⟨north, south, dnorth, dsouth⟩ (positively ≠ 0))
    (Extent.swapIf ⟨west, east, dwest, deast⟩ (negatively ≠ 0)) meridian parallel ns we dns dwe

/-- `g2date`. -/
def readDate : Reader := fun m => do
  let year ← m.getLong .year
  let month ← m.getLong .month
  let day ← m.getLong .day
  return (year * 10000 + month * 100 + day, m)

def checkDate : Checker Unit := do
  let date ← get readDate
  let year ← get (GribKey.read .year)
  check (decide (date.tdiv 10000 = year))
  let month ← get (GribKey.read .month)
  check (decide ((date.tmod 10000).tdiv 100 = month))
  let day ← get (GribKey.read .day)
  check (decide (date.tmod 100 = day))

/-- The key `step` is the end step. -/
def checkSteps : Checker Unit := do
  check (decide ((← get GribMessage.getEndStep).tmod 6 = 0))
  check (decide (0 ≤ (← get GribMessage.getStartStep)))
  check (decide ((← get GribMessage.getEndStep) ≤ 30 * 24))

/-- The number of values, which a bit map makes smaller. -/
def checkValues : Checker Unit := do
  let whole ← (Condition.eq .bitMapIndicator 255).holds
  let values ← get (GribKey.read .numberOfValues)
  let points ← get (GribKey.read .numberOfDataPoints)
  check (if whole then decide (values = points) else decide (values ≤ points))
  checkAll [.eq .typeOfOriginalFieldValues 0]

/-- `verify`, with the checks of a Gaussian grid left open. -/
def verify (R : Rounding) (gaussianGrid : Checker Unit) : Checker Unit := do
  checkAll [.eq .editionNumber 2, .missingOr .reserved 0]
  checkParameter R
  checkAll [.ge .tablesVersion 4, .eq .localTablesVersion 0, .eq .significanceOfReferenceTime 1]
  checkDate
  checkAll [.oneOf .hour [0, 6, 12, 18], .eq .minute 0, .eq .second 0,
    .oneOf .productionStatusOfProcessedData [4, 5]]
  checkSteps
  checkAll [.oneOf .typeOfProcessedData [2, 3, 4], .eq .sourceOfGridDefinition 0]
  let template ← get (GribKey.read .gridDefinitionTemplateNumber)
  if template = 0 ∨ template = 1 then do
    latlonGrid R
    checkValues
  else if template = 40 then do
    gaussianGrid
    checkValues
  else do
    let _ ← get (GribKey.read .gridDefinitionTemplateNumber)
    check false

/-- The errors that a message adds. -/
def errors (R : Rounding) (gaussianGrid : Checker Unit) (m : GribMessage) : Option ℕ :=
  ((verify R gaussianGrid).run (m, 0)).map fun r => r.2.2

/-- `validate`: the messages without an error go to the file of `-g`. -/
def validate (R : Rounding) (gaussianGrid : Checker Unit) (file : List GribMessage) :
    Option (List GribMessage × ℕ) := do
  let counts ← file.mapM (errors R gaussianGrid)
  return (((file.zip counts).filter fun x => x.2 = 0).map Prod.fst,
    if file = [] then 1 else counts.sum)

section Validate
variable {R : Rounding} {gaussianGrid : Checker Unit} {file : List GribMessage}

theorem mapM_eq_some_iff {α β : Type} {f : α → Option β} {l : List α} {bs : List β} :
    l.mapM f = some bs ↔ l.map f = bs.map some := by
  induction l generalizing bs with
  | nil => cases bs <;> simp
  | cons a l ih =>
    rw [List.mapM_cons]
    constructor
    · intro h
      obtain ⟨b, hb, h⟩ := Option.bind_eq_some_iff.mp h
      obtain ⟨rest, hrest, h⟩ := Option.bind_eq_some_iff.mp h
      obtain rfl := Option.some.inj h
      rw [List.map_cons, List.map_cons, hb, ih.mp hrest]
    · intro h
      cases bs with
      | nil => cases h
      | cons b bs =>
        obtain ⟨hb, hrest⟩ := List.cons.inj h
        rw [hb, ih.mpr hrest]
        rfl

theorem filter_zip_errors {counts : List ℕ} (h : file.map (errors R gaussianGrid) =
    counts.map some) : ((file.zip counts).filter fun x => x.2 = 0).map Prod.fst =
      file.filter fun m => errors R gaussianGrid m = some 0 := by
  induction file generalizing counts with
  | nil => rfl
  | cons m file ih =>
    cases counts with
    | nil => cases h
    | cons c counts =>
      obtain ⟨hm, hrest⟩ := List.cons.inj h
      rw [List.zip_cons_cons, List.filter_cons, List.filter_cons, hm, ← ih hrest]
      by_cases hc : c = 0 <;> simp [hc]

/-- The file of `-g`, when no check crashes. -/
theorem validate_good {good : List GribMessage} :
    (∃ count, validate R gaussianGrid file = some (good, count)) ↔
      (∀ m ∈ file, (errors R gaussianGrid m).isSome) ∧
        file.filter (fun m => errors R gaussianGrid m = some 0) = good := by
  constructor
  · rintro ⟨count, hvalidate⟩
    obtain ⟨counts, hcounts, hresult⟩ := Option.bind_eq_some_iff.mp hvalidate
    have hmap := mapM_eq_some_iff.mp hcounts
    constructor
    · intro m hm
      have hmem : errors R gaussianGrid m ∈ counts.map some := hmap ▸ List.mem_map_of_mem hm
      obtain ⟨e, -, he⟩ := List.mem_map.mp hmem
      rw [← he]
      rfl
    · rw [← filter_zip_errors hmap]
      exact congrArg Prod.fst (Option.some.inj hresult)
  · rintro ⟨hchecks, rfl⟩
    have hmap : file.map (errors R gaussianGrid) =
        (file.map fun m => (errors R gaussianGrid m).getD 0).map some := by
      rw [List.map_map]
      refine List.map_congr_left fun m hm => ?_
      obtain ⟨e, he⟩ := Option.isSome_iff_exists.mp (hchecks m hm)
      rw [Function.comp_apply, he]
      rfl
    rw [validate, mapM_eq_some_iff.mpr hmap, ← filter_zip_errors hmap]
    exact ⟨_, rfl⟩

end Validate

section Reports
variable {m : GribMessage} {α β : Type}

/-- A check that ends with `a`, having added errors and left the handle as it was. -/
def Reports (m : GribMessage) (c : Checker α) (a : α) (added : ℕ) : Prop :=
  ∀ n, c (m, n) = some (a, (m, n + added))

namespace Reports

theorem pure (m : GribMessage) (a : α) : Reports m (Pure.pure a) a 0 := fun _ => rfl

theorem bind {c : Checker α} {f : α → Checker β} {a : α} {b : β} {k l : ℕ} (h : Reports m c a k)
    (h' : Reports m (f a) b l) : Reports m (c >>= f) b (k + l) := by
  intro n
  show (c (m, n) >>= fun r => f r.1 r.2) = _
  rw [h n]
  show f a (m, n + k) = _
  rw [h' (n + k), Nat.add_assoc]

/-- A check without an error before another one. -/
theorem andThen {c : Checker α} {f : α → Checker β} {a : α} {b : β} {l : ℕ} (h : Reports m c a 0)
    (h' : Reports m (f a) b l) : Reports m (c >>= f) b l := by
  have hboth := h.bind h'
  rwa [Nat.zero_add] at hboth

theorem get {what : Reader} {v : ℤ} (h : what m = .ok (v, m)) : Reports m (get what) v 0 := by
  intro n
  simp only [TiggeCheck.get, h, Nat.add_zero]

theorem read {k : GribKey} {v : ℤ} (h : m.getLong k = .ok v) :
    Reports m (TiggeCheck.get k.read) v 0 := by
  apply get
  simp only [GribKey.read, h]
  rfl

theorem dget {what : GribMessage → Except GribError ℚ} {v : ℚ} (h : what m = .ok v) :
    Reports m (dget what) v 0 := by
  intro n
  simp only [TiggeCheck.dget, h, Nat.add_zero]

theorem check {a : Bool} (h : a = true) : Reports m (check a) () 0 := by
  intro n
  rw [h]
  rfl

theorem check_false {a : Bool} (h : a = false) : Reports m (TiggeCheck.check a) () 1 := by
  intro n
  rw [h]
  rfl

theorem divide {a b : ℤ} (h : b ≠ 0) : Reports m (divide a b) (a.tdiv b) 0 := by
  rw [TiggeCheck.divide, if_neg h]
  exact pure m _

end Reports

/-- A condition is met without an error. -/
def Condition.met (m : GribMessage) : Condition → Bool
  | eq what value => m.getLong what = .ok value
  | ne what value => (m.getLong what).toOption.any (· ≠ value)
  | ge what value => (m.getLong what).toOption.any (value ≤ ·)
  | le what value => (m.getLong what).toOption.any (· ≤ value)
  | bit what n value => (m.getLong what).toOption.any (· / 2 ^ n % 2 = value)
  | missing what => m.gribIsMissing what
  | given what => !m.gribIsMissing what
  | oneOf what values => (m.getLong what).toOption.any (· ∈ values)
  | missingOr what value => m.gribIsMissing what || m.getLong what = .ok value

theorem reports_missing (what : GribKey) :
    Reports m (missing what) (m.gribIsMissing what) 0 := fun _ => rfl

theorem reports_any {p : ℤ → Bool} {what : GribKey}
    (h : (m.getLong what).toOption.any p = true) :
    ∃ v, m.getLong what = .ok v ∧ p v = true := by
  cases hget : m.getLong what with
  | error e =>
    rw [hget] at h
    cases h
  | ok v =>
    rw [hget] at h
    exact ⟨v, rfl, h⟩

/-- The alternatives are tried in their order. -/
theorem reports_oneOf {what : GribKey} {v : ℤ} (hget : m.getLong what = .ok v) {values : List ℤ}
    (hv : v ∈ values) : Reports m (Condition.oneOf what values).holds true 0 := by
  induction values with
  | nil => exact absurd hv List.not_mem_nil
  | cons value values ih =>
    have hfirst : Reports m (do return decide ((← TiggeCheck.get what.read) = value))
        (decide (v = value)) 0 := (Reports.read hget).andThen (Reports.pure m _)
    refine hfirst.andThen ?_
    by_cases heq : v = value
    · rw [decide_eq_true heq]
      exact Reports.pure m true
    · rw [decide_eq_false heq]
      exact ih ((List.mem_cons.mp hv).resolve_left heq)

theorem Condition.met_holds {c : Condition} (h : c.met m = true) : Reports m c.holds true 0 := by
  cases c with
  | eq what value =>
    have hget : m.getLong what = .ok value := of_decide_eq_true h
    refine (Reports.read hget).andThen ?_
    rw [decide_eq_true rfl]
    exact Reports.pure m true
  | ne what value =>
    obtain ⟨v, hget, hv⟩ := reports_any h
    exact (Reports.read hget).andThen (hv ▸ Reports.pure m _)
  | ge what value =>
    obtain ⟨v, hget, hv⟩ := reports_any h
    exact (Reports.read hget).andThen (hv ▸ Reports.pure m _)
  | le what value =>
    obtain ⟨v, hget, hv⟩ := reports_any h
    exact (Reports.read hget).andThen (hv ▸ Reports.pure m _)
  | bit what n value =>
    obtain ⟨v, hget, hv⟩ := reports_any h
    have hbit : what.flagbit n m = .ok (v / 2 ^ n % 2, m) := by
      simp only [GribKey.flagbit, hget]
      rfl
    exact (Reports.get hbit).andThen (hv ▸ Reports.pure m _)
  | missing what =>
    have hreports := reports_missing (m := m) what
    rwa [show m.gribIsMissing what = true from h] at hreports
  | given what =>
    exact (reports_missing what).andThen (h ▸ Reports.pure m _)
  | oneOf what values =>
    obtain ⟨v, hget, hv⟩ := reports_any h
    exact reports_oneOf hget (of_decide_eq_true hv)
  | missingOr what value =>
    refine (reports_missing what).andThen ?_
    cases hmissing : m.gribIsMissing what with
    | true => exact Reports.pure m true
    | false =>
      have hget : m.getLong what = .ok value := by
        simpa only [Condition.met, hmissing, Bool.false_or, decide_eq_true_eq] using h
      refine (Reports.read hget).andThen ?_
      rw [decide_eq_true rfl]
      exact Reports.pure m true

theorem reports_checkAll {conditions : List Condition}
    (h : (conditions.all fun c => c.met m) = true) : Reports m (checkAll conditions) () 0 := by
  induction conditions with
  | nil => exact Reports.pure m ()
  | cons c conditions ih =>
    rw [List.all_cons, Bool.and_eq_true] at h
    show Reports m ((do check (← c.holds)) >>= fun _ => checkAll conditions) () 0
    exact ((Condition.met_holds h.1).andThen (Reports.check rfl)).andThen (ih h.2)

end Reports

end TiggeCheck

end Tigge
