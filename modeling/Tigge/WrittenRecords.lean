import Tigge.Buffers
import Tigge.HandleSettings
import Tigge.Integration

/-! The records that the generators fill in: a handle from the template `GRIB2`, and the calls on
it. -/

namespace Tigge
open Lib TiggeVariable Setting

/-- The sample `GRIB2.tmpl`, and the step units of a new handle. -/
def sampleValues : List (GribKey × ℤ) :=
  [(.reserved, gribMissingLong), (.discipline, 0), (.editionNumber, 2), (.centre, 98),
    (.subCentre, 0), (.tablesVersion, 4), (.localTablesVersion, 0),
    (.significanceOfReferenceTime, 1), (.year, 2007), (.month, 3), (.day, 23), (.hour, 12),
    (.minute, 0), (.second, 0), (.productionStatusOfProcessedData, 0), (.typeOfProcessedData, 2),
    (.other "grib2LocalSectionPresent" 1, 0), (.sourceOfGridDefinition, 0),
    (.numberOfDataPoints, 496), (.numberOfOctectsForNumberOfPoints, 0),
    (.interpretationOfNumberOfPoints, 0), (.gridDefinitionTemplateNumber, 0),
    (.other "shapeOfTheEarth" 1, 0), (.other "scaleFactorOfRadiusOfSphericalEarth" 1, 255),
    (.other "scaledValueOfRadiusOfSphericalEarth" 4, 4294967295),
    (.other "scaleFactorOfEarthMajorAxis" 1, 255),
    (.other "scaledValueOfEarthMajorAxis" 4, 4294967295),
    (.other "scaleFactorOfEarthMinorAxis" 1, 255),
    (.other "scaledValueOfEarthMinorAxis" 4, 4294967295), (.Ni, 16), (.Nj, 31),
    (.basicAngleOfTheInitialProductionDomain, 0), (.subdivisionsOfBasicAngle, gribMissingLong),
    (.latitudeOfFirstGridPoint, 60000000), (.longitudeOfFirstGridPoint, 0),
    (.resolutionAndComponentFlags, 48), (.latitudeOfLastGridPoint, 0),
    (.longitudeOfLastGridPoint, 30000000), (.iDirectionIncrement, 2000000),
    (.jDirectionIncrement, 2000000), (.scanningMode, 0), (.other "NV" 2, 0),
    (.productDefinitionTemplateNumber, 0), (.parameterCategory, 0), (.parameterNumber, 0),
    (.other "typeOfGeneratingProcess" 1, 0), (.other "backgroundProcess" 1, 255),
    (.generatingProcessIdentifier, 128), (.other "hoursAfterDataCutoff" 2, 0),
    (.other "minutesAfterDataCutoff" 1, 0), (.indicatorOfUnitOfTimeRange, 1), (.stepUnits, 1),
    (.forecastTime, 0), (.typeOfFirstFixedSurface, 1),
    (.scaleFactorOfFirstFixedSurface, gribMissingLong),
    (.scaledValueOfFirstFixedSurface, gribMissingLong), (.typeOfSecondFixedSurface, 255),
    (.scaleFactorOfSecondFixedSurface, gribMissingLong),
    (.scaledValueOfSecondFixedSurface, gribMissingLong), (.numberOfValues, 496),
    (.dataRepresentationTemplateNumber, 0), (.other "bitsPerValue" 1, 0),
    (.typeOfOriginalFieldValues, 0), (.bitMapIndicator, 255)]

def sampleGrib2 : KeyValues := fun k => (sampleValues.find? (·.1 = k)).map (·.2)

def latInc (d : CycleDate) : ℤ := 180000000 / (getNLat d - 1)

def lonInc (d : CycleDate) : ℤ := 360000000 / getNLon d

/-- The calls of `newGribRecord` up to the product definition, with `n_lat` and `n_lon` of the
cycle. -/
def identificationSettings (d : CycleDate) (em : ℕ) : List Setting :=
  [long .discipline 0, long .editionNumber 2, long .centre 7, long .subCentre 2,
    long .tablesVersion 4, long .localTablesVersion 0, long .significanceOfReferenceTime 1,
    long .year d.yyyy, long .month d.mm, long .day d.dd, long .hour d.hh, long .minute 0,
    long .second 0, long .productionStatusOfProcessedData 4,
    long .typeOfProcessedData (if em = 0 then 3 else 4), long .sourceOfGridDefinition 0,
    long .numberOfOctectsForNumberOfPoints 0, long .interpretationOfNumberOfPoints 0,
    -- the template of the sample already has this number
    long .gridDefinitionTemplateNumber 0, long (.other "shapeOfTheEarth" 1) 6,
    long (.other "scaleFactorOfRadiusOfSphericalEarth" 1) 0,
    long (.other "scaledValueOfRadiusOfSphericalEarth" 4) 0,
    long (.other "scaleFactorOfEarthMajorAxis" 1) 0,
    long (.other "scaledValueOfEarthMajorAxis" 4) 0,
    long (.other "scaleFactorOfEarthMinorAxis" 1) 0,
    long (.other "scaledValueOfEarthMinorAxis" 4) 0, long .Ni (getNLon d), long .Nj (getNLat d),
    long .basicAngleOfTheInitialProductionDomain 0, long .subdivisionsOfBasicAngle 0,
    long .latitudeOfFirstGridPoint 90000000, long .longitudeOfFirstGridPoint 0,
    long .resolutionAndComponentFlags 48, long .latitudeOfLastGridPoint (-90000000),
    long .longitudeOfLastGridPoint (360000000 - lonInc d), long .iDirectionIncrement (lonInc d),
    long .jDirectionIncrement (latInc d), long .scanningMode 0,
    Setting.missing .subdivisionsOfBasicAngle, long (.other "NV" 2) 0]

def ensembleSettings (d : CycleDate) (fff em : ℕ) : List Setting :=
  [long (.other "typeOfGeneratingProcess" 1) 4, long (.other "backgroundProcess" 1) 0,
    long .generatingProcessIdentifier (getGenProcId d),
    long (.other "hoursAfterDataCutoff" 2) 0, long (.other "minutesAfterDataCutoff" 1) 0,
    long .indicatorOfUnitOfTimeRange 1, long .forecastTime fff,
    long .typeOfEnsembleForecast (if em = 0 then 1 else 3), long .perturbationNumber em,
    long .numberOfForecastsInEnsemble (getNMembers d), long .numberOfValues (getNPoints d)]

def packingSettings : List Setting :=
  [long (.other "bitsPerValue" 1) 14, long .typeOfOriginalFieldValues 0,
    long (.other "typeOfCompressionUsed" 1) 0, long (.other "targetCompressionRatio" 1) 255,
    long .bitMapIndicator 255]

/-- The calls of `newGribRecord`. -/
def newGribRecordSettings (d : CycleDate) (fff em : ℕ) : List Setting :=
  identificationSettings d em ++ [productTemplate .ensemblePoint] ++ ensembleSettings d fff em ++
    [jpegPacking] ++ packingSettings

/-- A surface without a value, and no second one. -/
def predefinedLevel (surface : ℤ) : List Setting :=
  [long .typeOfFirstFixedSurface surface, Setting.missing .scaleFactorOfFirstFixedSurface,
    Setting.missing .scaledValueOfFirstFixedSurface, long .typeOfSecondFixedSurface 255,
    Setting.missing .scaleFactorOfSecondFixedSurface,
    Setting.missing .scaledValueOfSecondFixedSurface]

def parameterSettings (category number : ℤ) : List Setting :=
  [long .parameterCategory category, long .parameterNumber number]

def timeRangeSettings (length : ℤ) : List Setting :=
  [long .indicatorOfUnitOfTimeRange 1, long .lengthOfTimeRange length,
    long .indicatorOfUnitForTimeIncrement 255, long .timeIncrement 0]

/-- The time that a generator sets as the end of the interval. -/
def Dt.time (t : Dt) : GribDateTime := ⟨t.yr, t.mo, t.dy, t.hr, 0, 0⟩

/-- The calls for a field accumulated since the start. The end of the interval is set first as the
generator computes it. -/
def fluxSettings (category number surface : ℤ) (tmEnd : Dt) (fff : ℕ) : List Setting :=
  [productTemplate .ensembleInterval] ++
  (parameterSettings category number ++ predefinedLevel surface ++
    endOfIntervalSettings tmEnd.time ++
    [long .typeOfStatisticalProcessing 1, long .typeOfTimeIncrement 2,
      long .numberOfMissingInStatisticalProcess 0] ++ timeRangeSettings fff) ++
  [startStep 0, endStep fff]

/-- The calls of `generateTimeIntegratedSnowFallWaterEquivalent`. -/
def snowFallSettings (tmEnd : Dt) (fff : ℕ) : List Setting :=
  [productTemplate .ensembleInterval] ++
  (parameterSettings 1 53 ++ predefinedLevel 1 ++ [long .forecastTime 0] ++
    endOfIntervalSettings tmEnd.time ++
    [long .numberOfMissingInStatisticalProcess 0, long .typeOfStatisticalProcessing 1,
      long .typeOfTimeIncrement 2] ++ timeRangeSettings fff) ++
  [startStep 0, endStep fff] ++ [long .lengthOfTimeRange fff]

/-- The calls of `generateTotalPrecipitation`, which sets the reference time as the end of the
interval. -/
def precipitationSettings (d : CycleDate) (fff : ℕ) : List Setting :=
  [productTemplate .ensembleInterval] ++
  ([long .tablesVersion 5, long (.other "grib2LocalSectionPresent" 1) 0] ++
    parameterSettings 1 52 ++ predefinedLevel 1 ++
    endOfIntervalSettings ⟨d.yyyy, d.mm, d.dd, d.hh, 0, 0⟩ ++
    [long .typeOfStatisticalProcessing 1, long .typeOfTimeIncrement 2,
      long .numberOfMissingInStatisticalProcess 0] ++ timeRangeSettings fff) ++
  [startStep 0, endStep fff]

/-- The calls of `generateSnowFallWaterEquivalent`, for the six hours after the forecast hour. -/
def sixHourSnowFallSettings (tmEnd : Dt) (fff : ℕ) : List Setting :=
  [productTemplate .ensembleInterval] ++
  (parameterSettings 1 53 ++ predefinedLevel 1 ++ [long .forecastTime fff]) ++
  [startStep fff, endStep fff] ++
  (endOfIntervalSettings tmEnd.time ++
    [long .numberOfMissingInStatisticalProcess 0, long .typeOfStatisticalProcessing 1,
      long .typeOfTimeIncrement 2] ++ timeRangeSettings 6)

/-- The calls for a field of the soil between the surface and two decimetres below. -/
def soilSettings (number : ℤ) (fff : ℕ) : List Setting :=
  [long .discipline 2] ++ [productTemplate .ensemblePoint] ++
  (parameterSettings 0 number ++
    [long .typeOfFirstFixedSurface 106, long .scaleFactorOfFirstFixedSurface 0,
      long .scaledValueOfFirstFixedSurface 0, long .typeOfSecondFixedSurface 106,
      long .scaleFactorOfSecondFixedSurface 1, long .scaledValueOfSecondFixedSurface 2]) ++
  [startStep 0] ++ [long .forecastTime fff, long .bitMapIndicator 0]

/-- The calls of `generateTotalColumnWater`, which sets all ones for a missing value. -/
def columnWaterSettings (fff : ℕ) : List Setting :=
  [productTemplate .ensemblePoint] ++
  (parameterSettings 1 51 ++
    [long .typeOfFirstFixedSurface 1, long .typeOfSecondFixedSurface 8,
      long .scaledValueOfFirstFixedSurface 4294967295, long .scaleFactorOfFirstFixedSurface 255,
      long .scaledValueOfSecondFixedSurface 4294967295,
      long .scaleFactorOfSecondFixedSurface 255]) ++
  [startStep 0] ++ [long .forecastTime fff]

/-- The calls of `generatePotentialTemperature`. -/
def potentialTemperatureSettings : List Setting :=
  [productTemplate .ensemblePoint] ++
  (parameterSettings 0 2 ++
    [long .typeOfFirstFixedSurface 109, long .scaleFactorOfFirstFixedSurface 9,
      long .scaledValueOfFirstFixedSurface 2000, long .typeOfSecondFixedSurface 255,
      Setting.missing .scaleFactorOfSecondFixedSurface,
      Setting.missing .scaledValueOfSecondFixedSurface, long .bitMapIndicator 0])

/-- The calls of the generator of a variable, given the end of the interval that it computes. -/
def generatorSettings (d : CycleDate) (tmEnd : Dt) (fff : ℕ) :
    TiggeVariable → List Setting
  | potentialTemperature => potentialTemperatureSettings
  | snowFallWaterEquivalent => sixHourSnowFallSettings tmEnd fff
  | timeIntegratedSnowFallWaterEquivalent => snowFallSettings tmEnd fff
  | soilMoisture => soilSettings 22 fff
  | soilTemperature => soilSettings 2 fff
  | timeIntegratedOutgoingLongWaveRadiation => fluxSettings 5 5 8 tmEnd fff
  | timeIntegratedSurfaceLatentHeatFlux => fluxSettings 0 10 1 tmEnd fff
  | timeIntegratedSurfaceNetSolarRadiation => fluxSettings 4 9 1 tmEnd fff
  | timeIntegratedSurfaceNetThermalRadiation => fluxSettings 5 5 1 tmEnd fff
  | timeIntegratedSurfaceSensibleHeatFlux => fluxSettings 0 11 1 tmEnd fff
  | totalColumnWater => columnWaterSettings fff
  | totalPrecipitation => precipitationSettings d fff
  | testVariable | testVariableTi => []

/-- The values of a field that are not the missing value `9999`. -/
def presentValues {n : ℕ} (values : Fin n → ℚ) : ℕ :=
  (List.finRange n).countP fun i => values i ≠ 9999

/-- The record of an output as the generator writes it. -/
def writtenRecord (R : Rounding) (d : CycleDate) (tmEnd : Dt)
    (o : Output (getNPoints d)) : Except GribError GribMessage :=
  applySettings R sampleGrib2.message (newGribRecordSettings d o.fff o.em ++
    generatorSettings d tmEnd o.fff o.varName ++
    [values (getNPoints d) (presentValues o.values)])

/-- The date and the hour of a cycle. -/
structure IsCycle (d : CycleDate) : Prop where
  date : IsDate d.yyyy d.mm d.dd
  gregorian : julianDay 1582 10 15 ≤ julianDay d.yyyy d.mm d.dd
  year_le : d.yyyy ≤ 9999
  synoptic : d.hh = 0 ∨ d.hh = 6 ∨ d.hh = 12 ∨ d.hh = 18

theorem isCycle_2021 : IsCycle ⟨2021, 1, 1, 0⟩ :=
  ⟨⟨by decide, by decide, by decide, by decide⟩, by decide, by decide, .inl rfl⟩

/-- The reference time of a cycle. -/
def CycleDate.time (d : CycleDate) : GribDateTime := ⟨d.yyyy, d.mm, d.dd, d.hh, 0, 0⟩

section Header
variable {d : CycleDate} {fff em : ℕ}

theorem IsCycle.year_nonneg (hd : IsCycle d) : 0 ≤ d.yyyy := by
  have hfirst := hd.gregorian
  have hnext := hd.date.year_bounds.2
  by_contra hneg
  have hmono := daysBeforeYear_mono (show d.yyyy + 1 ≤ 0 by omega)
  rw [daysBeforeYear_zero] at hmono
  simp only [julianDay_gregorian] at hfirst
  simp only [julianDay] at hfirst
  omega

theorem IsCycle.storable (hd : IsCycle d) : Storable d.time := by
  have hnonneg := hd.year_nonneg
  have hmonth := hd.date.month_pos
  have hmonth' := hd.date.month_le
  have hday := hd.date.day_pos
  have hday' := hd.date.day_le.trans (monthLength_pos _ _).2
  have hyear := hd.year_le
  have hhour := hd.synoptic
  constructor <;> simp only [CycleDate.time] <;> omega

theorem IsCycle.tmInit_valid (hd : IsCycle d) : (tmInit d).Valid := by
  have hhour := hd.synoptic
  refine ⟨hd.date, ?_, ?_, le_rfl, by norm_num [tmInit]⟩ <;> simp only [tmInit] <;> omega

/-- The end of an interval of a few years is the time that `timeAdd` finds, a full hour, and a time
that the keys hold. -/
theorem IsCycle.end_time (hd : IsCycle d) (R : Rounding) (hfff : fff < 2 ^ 16) :
    ∃ n, ∀ fuel ≥ n, ∃ r : Dt, timeAdd fuel (tmInit d) (tmEnd fff) = some r ∧
      endOfInterval R d.time fff 3600 = r.time ∧ Storable r.time := by
  obtain ⟨n, hn⟩ := timeAdd_hours hd.tmInit_valid fff
  refine ⟨n, fun fuel hfuel => ?_⟩
  obtain ⟨r, hadd, hr, hhours⟩ := hn fuel hfuel
  have hnonneg := hd.year_nonneg
  have hyear := hd.year_le
  have hstart := daysBeforeYear_mono hnonneg
  have hstart' := daysBeforeYear_mono (show d.yyyy + 1 ≤ 10000 by omega)
  rw [show daysBeforeYear 10000 = 3652425 from rfl] at hstart'
  rw [daysBeforeYear_zero] at hstart
  obtain ⟨hlow, hhigh⟩ := hd.date.year_bounds
  obtain ⟨hlow', hhigh'⟩ := hr.date.year_bounds
  have hhr := hr.hr_nonneg
  have hhr' := hr.hr_le
  have hhour := hd.synoptic
  have hbefore : r.yr ≤ 65535 := by
    by_contra hlt
    have hmono := daysBeforeYear_mono (show 65536 ≤ r.yr by omega)
    rw [show daysBeforeYear 65536 = 23936532 from rfl] at hmono
    omega
  have hafter : 0 ≤ r.yr := by
    by_contra hneg
    have hmono := daysBeforeYear_mono (show r.yr + 1 ≤ 0 by omega)
    rw [daysBeforeYear_zero] at hmono
    omega
  have hmonth := hr.date.month_pos
  have hmonth' := hr.date.month_le
  have hday := hr.date.day_pos
  have hday' := hr.date.day_le.trans (monthLength_pos _ _).2
  refine ⟨r, hadd, endOfInterval_of_hours R hd.tmInit_valid (by omega) hd.gregorian hr hhours
    hbefore, ?_⟩
  constructor <;> simp only [Dt.time] <;> omega

theorem IsCycle.end_storable (hd : IsCycle d) (R : Rounding) (hfff : fff < 2 ^ 16) :
    Storable (endOfInterval R d.time fff 3600) := by
  obtain ⟨n, hn⟩ := hd.end_time R hfff
  obtain ⟨r, -, heq, hr⟩ := hn n le_rfl
  rw [heq]
  exact hr

theorem identificationSettings_accepted (hd : Storable d.time) :
    (identificationSettings d em).all Setting.accepted = true := by
  have hyear : GribKey.year.coding.accepts d.yyyy = true :=
    Coding.accepts_of_lt hd.year.1 hd.year.2
  have hmonth : GribKey.month.coding.accepts d.mm = true :=
    Coding.accepts_of_lt hd.month.1 hd.month.2
  have hday : GribKey.day.coding.accepts d.dd = true := Coding.accepts_of_lt hd.day.1 hd.day.2
  have hhour : GribKey.hour.coding.accepts d.hh = true :=
    Coding.accepts_of_lt hd.hour.1 hd.hour.2
  have htype : GribKey.typeOfProcessedData.coding.accepts (if em = 0 then 3 else 4) = true := by
    split <;> rfl
  have hgrid : GribKey.Ni.coding.accepts (getNLon d) = true ∧
      GribKey.Nj.coding.accepts (getNLat d) = true ∧
      GribKey.iDirectionIncrement.coding.accepts (lonInc d) = true ∧
      GribKey.jDirectionIncrement.coding.accepts (latInc d) = true := by
    simp only [getNLon, getNLat, lonInc, latInc]
    cases beforeUpgrade d <;> exact ⟨by decide, by decide, by decide, by decide⟩
  simp only [identificationSettings, List.all_cons, List.all_nil, Setting.accepted, hyear, hmonth,
    hday, hhour, htype, hgrid]
  rfl

theorem ensembleSettings_accepted (hfff : fff < 2 ^ 32) (hem : em < 2 ^ 8) :
    (ensembleSettings d fff em).all Setting.accepted = true := by
  have hstep : GribKey.forecastTime.coding.accepts fff = true :=
    Coding.accepts_of_lt (Int.natCast_nonneg _) (by exact_mod_cast hfff)
  have hmember : GribKey.perturbationNumber.coding.accepts em = true :=
    Coding.accepts_of_lt (Int.natCast_nonneg _) (by exact_mod_cast hem)
  have htype : GribKey.typeOfEnsembleForecast.coding.accepts (if em = 0 then 1 else 3) = true := by
    split <;> rfl
  have hcounts : GribKey.generatingProcessIdentifier.coding.accepts (getGenProcId d) = true ∧
      GribKey.numberOfForecastsInEnsemble.coding.accepts (getNMembers d) = true ∧
      GribKey.numberOfValues.coding.accepts (getNPoints d) = true := by
    simp only [getGenProcId, getNMembers, getNPoints, getNLat, getNLon]
    cases beforeUpgrade d <;> exact ⟨by decide, by decide, by decide⟩
  simp only [ensembleSettings, List.all_cons, List.all_nil, Setting.accepted, hstep, hmember, htype,
    hcounts]
  rfl

variable {R : Rounding}

/-- The table of values that `newGribRecord` leaves. -/
def newGribRecordValues (R : Rounding) (d : CycleDate) (fff em : ℕ) : KeyValues :=
  (newGribRecordSettings d fff em).foldl (KeyValues.after R) sampleGrib2

theorem newGribRecord_runs (hd : Storable d.time) (hfff : fff < 2 ^ 32) (hem : em < 2 ^ 8) :
    Runs R sampleGrib2 (newGribRecordSettings d fff em) := by
  refine ((((Runs.plain rfl (identificationSettings_accepted hd)).append
    (Runs.productTemplate .point rfl)).append ?_).append Runs.jpegPacking).append ?_
  · exact Runs.plain rfl (ensembleSettings_accepted hfff hem)
  · exact Runs.plain rfl rfl

theorem hour_accepted (hfff : fff < 2 ^ 16) {c : Coding} (hc : c = ⟨4, false, false⟩) :
    c.accepts fff = true := by
  subst hc
  apply Coding.accepts_of_lt (Int.natCast_nonneg _)
  exact_mod_cast hfff.trans (show 2 ^ 16 < 256 ^ 4 by norm_num)

theorem timeRangeSettings_accepted {length : ℤ} (h : 0 ≤ length) (h' : length < 2 ^ 32) :
    (timeRangeSettings length).all Setting.accepted = true := by
  have hlength : GribKey.lengthOfTimeRange.coding.accepts length = true :=
    Coding.accepts_of_lt h h'
  simp only [timeRangeSettings, List.all_cons, List.all_nil, Setting.accepted, hlength]
  rfl

theorem predefinedLevel_accepted {surface : ℤ} (h : 0 ≤ surface) (h' : surface < 2 ^ 8) :
    (predefinedLevel surface).all Setting.accepted = true := by
  have hsurface : GribKey.typeOfFirstFixedSurface.coding.accepts surface = true :=
    Coding.accepts_of_lt h h'
  simp only [predefinedLevel, List.all_cons, List.all_nil, Setting.accepted, hsurface]
  rfl

theorem parameterSettings_accepted {category number : ℤ} (hcategory : 0 ≤ category)
    (hcategory' : category < 2 ^ 8) (hnumber : 0 ≤ number) (hnumber' : number < 2 ^ 8) :
    (parameterSettings category number).all Setting.accepted = true := by
  have hc : GribKey.parameterCategory.coding.accepts category = true :=
    Coding.accepts_of_lt hcategory hcategory'
  have hn : GribKey.parameterNumber.coding.accepts number = true :=
    Coding.accepts_of_lt hnumber hnumber'
  simp only [parameterSettings, List.all_cons, List.all_nil, Setting.accepted, hc, hn]
  rfl

section Generators
variable {tmEnd : Dt} (hd : IsCycle d) (hfff : fff < 2 ^ 16) (hend : Storable tmEnd.time)
include hd hfff hend

theorem flux_runs {category number surface : ℤ} (hcategory : 0 ≤ category)
    (hcategory' : category < 2 ^ 8) (hnumber : 0 ≤ number) (hnumber' : number < 2 ^ 8)
    (hsurface : 0 ≤ surface) (hsurface' : surface < 2 ^ 8) :
    Runs R (newGribRecordValues R d fff em)
      (fluxSettings category number surface tmEnd fff) := by
  have hplain := parameterSettings_accepted hcategory hcategory' hnumber hnumber'
  have hlevel := predefinedLevel_accepted hsurface hsurface'
  have hrange := timeRangeSettings_accepted (show 0 ≤ (fff : ℤ) by omega) (by omega)
  refine ((Runs.productTemplate .ensemblePoint rfl).append (Runs.plain rfl ?_)).append ?_
  · simp only [List.all_append, hplain, hlevel, hrange, endOfIntervalSettings_accepted hend]
    rfl
  · apply Runs.steps (f := fff) (l := fff) (t := d.time)
    · exact ⟨rfl, rfl, rfl, by omega, by omega⟩
    · exact ⟨rfl, ⟨by omega, by omega⟩, rfl, rfl, rfl⟩
    · exact ⟨rfl, rfl, rfl, rfl, rfl, rfl⟩
    · exact hd.storable
    · rfl
    · exact le_rfl
    · omega
    · omega
    · omega
    · exact hd.end_storable R hfff

theorem snowFall_runs :
    Runs R (newGribRecordValues R d fff em) (snowFallSettings tmEnd fff) := by
  have hrange := timeRangeSettings_accepted (show 0 ≤ (fff : ℤ) by omega) (by omega)
  have hlength : ([long .lengthOfTimeRange fff].all Setting.accepted) = true := by
    rw [List.all_cons, List.all_nil, Bool.and_true]
    exact hour_accepted hfff rfl
  refine (((Runs.productTemplate .ensemblePoint rfl).append (Runs.plain rfl ?_)).append ?_).append
    (Runs.plain rfl hlength)
  · simp only [List.all_append, hrange, endOfIntervalSettings_accepted hend]
    rfl
  · apply Runs.steps (f := 0) (l := fff) (t := d.time)
    · exact ⟨rfl, rfl, rfl, by omega, by omega⟩
    · exact ⟨rfl, ⟨by omega, by omega⟩, rfl, rfl, rfl⟩
    · exact ⟨rfl, rfl, rfl, rfl, rfl, rfl⟩
    · exact hd.storable
    · rfl
    · exact le_rfl
    · omega
    · omega
    · omega
    · exact hd.end_storable R hfff

omit hend in
theorem precipitation_runs :
    Runs R (newGribRecordValues R d fff em) (precipitationSettings d fff) := by
  have hrange := timeRangeSettings_accepted (show 0 ≤ (fff : ℤ) by omega) (by omega)
  have hreference := endOfIntervalSettings_accepted hd.storable
  rw [CycleDate.time] at hreference
  refine ((Runs.productTemplate .ensemblePoint rfl).append (Runs.plain rfl ?_)).append ?_
  · simp only [List.all_append, hrange, hreference]
    rfl
  · apply Runs.steps (f := fff) (l := fff) (t := d.time)
    · exact ⟨rfl, rfl, rfl, by omega, by omega⟩
    · exact ⟨rfl, ⟨by omega, by omega⟩, rfl, rfl, rfl⟩
    · exact ⟨rfl, rfl, rfl, rfl, rfl, rfl⟩
    · exact hd.storable
    · rfl
    · exact le_rfl
    · omega
    · omega
    · omega
    · exact hd.end_storable R hfff

theorem sixHourSnowFall_runs :
    Runs R (newGribRecordValues R d fff em) (sixHourSnowFallSettings tmEnd fff) := by
  have hstep : GribKey.forecastTime.coding.accepts fff = true := hour_accepted hfff rfl
  refine (((Runs.productTemplate .ensemblePoint rfl).append (Runs.plain rfl ?_)).append ?_).append
    (Runs.plain rfl ?_)
  · simp only [List.all_append, List.all_cons, List.all_nil, Setting.accepted, hstep]
    rfl
  -- a new time range has the length 0
  · apply Runs.steps (f := fff) (l := 0) (t := d.time)
    · exact ⟨rfl, rfl, rfl, by omega, by omega⟩
    · exact ⟨rfl, ⟨by omega, by omega⟩, rfl, rfl, rfl⟩
    · exact ⟨rfl, rfl, rfl, rfl, rfl, rfl⟩
    · exact hd.storable
    · rfl
    · omega
    · omega
    · omega
    · omega
    · exact hd.end_storable R hfff
  · simp only [List.all_append, endOfIntervalSettings_accepted hend]
    rfl

omit hend hd in
theorem soil_runs {number : ℤ} (hnumber : 0 ≤ number) (hnumber' : number < 2 ^ 8) :
    Runs R (newGribRecordValues R d fff em) (soilSettings number fff) := by
  have hplain := parameterSettings_accepted (le_refl (0 : ℤ)) (by omega) hnumber hnumber'
  have hstep : GribKey.forecastTime.coding.accepts fff = true := hour_accepted hfff rfl
  refine ((((Runs.plain rfl rfl).append (Runs.productTemplate .ensemblePoint rfl)).append
    (Runs.plain rfl ?_)).append ?_).append (Runs.plain rfl ?_)
  · simp only [List.all_append, hplain]
    rfl
  · exact Runs.startStep (f := fff) ⟨rfl, rfl, rfl, by omega, by omega⟩ rfl (by decide)
  · simp only [List.all_cons, List.all_nil, Setting.accepted, hstep]
    rfl

omit hend hd in
theorem columnWater_runs : Runs R (newGribRecordValues R d fff em) (columnWaterSettings fff) := by
  have hstep : GribKey.forecastTime.coding.accepts fff = true := hour_accepted hfff rfl
  refine (((Runs.productTemplate .ensemblePoint rfl).append (Runs.plain rfl rfl)).append ?_).append
    (Runs.plain rfl ?_)
  · exact Runs.startStep (f := fff) ⟨rfl, rfl, rfl, by omega, by omega⟩ rfl (by decide)
  · simp only [List.all_cons, List.all_nil, Setting.accepted, hstep]
    rfl

omit hend hd hfff in
theorem potentialTemperature_runs :
    Runs R (newGribRecordValues R d fff em) potentialTemperatureSettings :=
  (Runs.productTemplate .ensemblePoint rfl).append (Runs.plain rfl rfl)

theorem generator_runs {v : TiggeVariable} :
    Runs R (newGribRecordValues R d fff em) (generatorSettings d tmEnd fff v) := by
  cases v with
  | potentialTemperature => exact potentialTemperature_runs
  | snowFallWaterEquivalent => exact sixHourSnowFall_runs hd hfff hend
  | timeIntegratedSnowFallWaterEquivalent => exact snowFall_runs hd hfff hend
  | soilMoisture => exact soil_runs hfff (by decide) (by decide)
  | soilTemperature => exact soil_runs hfff (by decide) (by decide)
  | totalColumnWater => exact columnWater_runs hfff
  | totalPrecipitation => exact precipitation_runs hd hfff
  | testVariable => rfl
  | testVariableTi => rfl
  | timeIntegratedOutgoingLongWaveRadiation | timeIntegratedSurfaceLatentHeatFlux
  | timeIntegratedSurfaceNetSolarRadiation | timeIntegratedSurfaceNetThermalRadiation
  | timeIntegratedSurfaceSensibleHeatFlux =>
    exact flux_runs hd hfff hend (by decide) (by decide) (by decide) (by decide) (by decide)
      (by decide)

omit hd hfff hend in
theorem generator_bitMap (R : Rounding) (d : CycleDate) (tmEnd : Dt) (fff em : ℕ)
    (v : TiggeVariable) : ∃ bitMapIndicator : ℤ,
    (generatorSettings d tmEnd fff v).foldl (KeyValues.after R) (newGribRecordValues R d fff em)
      .bitMapIndicator = some bitMapIndicator ∧ (bitMapIndicator = 0 ∨ bitMapIndicator = 255) := by
  cases v with
  | potentialTemperature | soilMoisture | soilTemperature => exact ⟨0, rfl, .inl rfl⟩
  | _ => exact ⟨255, rfl, .inr rfl⟩

end Generators

theorem presentValues_le {n : ℕ} (values : Fin n → ℚ) : presentValues values ≤ n :=
  (List.countP_le_length ..).trans_eq (List.length_finRange ..)

/-- The table of values of a record. -/
def recordValues (R : Rounding) (d : CycleDate) (tmEnd : Dt) (o : Output (getNPoints d)) :
    KeyValues :=
  ((generatorSettings d tmEnd o.fff o.varName).foldl (KeyValues.after R)
    (newGribRecordValues R d o.fff o.em)).after R
      (.values (getNPoints d) (presentValues o.values))

theorem writtenRecord_eq {tmEnd : Dt} {o : Output (getNPoints d)} (hd : IsCycle d)
    (hfff : o.fff < 2 ^ 16) (hem : o.em < 2 ^ 8) (hend : Storable tmEnd.time) :
    writtenRecord R d tmEnd o = .ok (recordValues R d tmEnd o).message := by
  obtain ⟨bitMapIndicator, hmap, hbyte⟩ := generator_bitMap R d tmEnd o.fff o.em
    o.varName
  have hcounts : ∀ k ∈ [GribKey.numberOfValues, .numberOfDataPoints],
      ((generatorSettings d tmEnd o.fff o.varName).foldl (KeyValues.after R)
        (newGribRecordValues R d o.fff o.em) k).isSome := by
    intro k hk
    have hkeeps : (generatorSettings d tmEnd o.fff o.varName).all (Setting.keeps k) = true := by
      rcases List.mem_cons.mp hk with rfl | hk
      · cases o.varName <;> rfl
      · rw [List.mem_singleton.mp hk]
        cases o.varName <;> rfl
    have hthere : (newGribRecordValues R d o.fff o.em k).isSome := by
      rcases List.mem_cons.mp hk with rfl | hk
      · rfl
      · rw [List.mem_singleton.mp hk]
        rfl
    obtain ⟨v, hv⟩ := Option.isSome_iff_exists.mp hthere
    rw [Setting.foldl_keeps hkeeps hv]
    rfl
  have hpoints : getNPoints d < 2 ^ 32 := by
    simp only [getNPoints, getNLat, getNLon]
    cases beforeUpgrade d <;> decide
  have hheader := newGribRecord_runs (R := R) hd.storable
    (hfff.trans (show 2 ^ 16 < 2 ^ 32 by norm_num)) hem
  have hgenerator : Runs R (newGribRecordValues R d o.fff o.em)
      (generatorSettings d tmEnd o.fff o.varName) := generator_runs hd hfff hend
  have hvalues := Runs.values (R := R) hmap (by rcases hbyte with rfl | rfl <;> decide)
    (hcounts _ (by decide)) (hcounts _ (by decide)) (presentValues_le o.values) hpoints
  have hboth := hheader.append hgenerator
  have hall : Runs R sampleGrib2 (newGribRecordSettings d o.fff o.em ++
      generatorSettings d tmEnd o.fff o.varName ++
        [.values (getNPoints d) (presentValues o.values)]) := hboth.append (by
    rw [List.foldl_append]
    exact hvalues)
  rw [Runs, List.foldl_append, List.foldl_append] at hall
  exact hall

end Header

end Tigge
