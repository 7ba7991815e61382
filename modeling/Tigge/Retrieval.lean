import Tigge.Grib
import Tigge.Queue

/-! The record searches of the twelve products. Every search that succeeds puts both files
back to their beginning; a search that fails returns before it rewinds. -/

namespace Tigge
open Lib TiggeVariable
variable {n : ℕ}

def GribRecord.isParameter (r : GribRecord n) (discipline category number : ℤ) : Bool :=
  r.discipline = discipline && r.parameterCategory = category && r.parameterNumber = number

def GribRecord.isField (r : GribRecord n) (discipline category number level : ℤ) : Bool :=
  r.isParameter discipline category number && r.typeOfFirstFixedSurface = level

/-- A missing record is replaced by `blank` when `ignoreMissingInput` is set. -/
def orBlank (ignoreMissingInput : Bool) (blank : GribRecord n) :
    Option (GribRecord n) → Option (GribRecord n)
  | some h => some h
  | none => if ignoreMissingInput then some blank else none

/-- The loaders of one flux record. -/
def loadFlux (api : GribApi n) (category number level : ℤ) (ignoreMissingInput : Bool)
    (f : NcepFiles n) : Retrieved (NcepFiles n) (Message n) :=
  let s := f.seekEither (·.isField 0 category number level)
  match orBlank ignoreMissingInput (newBlankGribRecord api 0 category number level) s.1 with
  | some h => ⟨some (.grib h), s.2.rewind, f.positions⟩
  | none => ⟨none, s.2, f.positions⟩

def loadDataForTimeIntegratedOutgoingLongWaveRadiation (api : GribApi n) :
    Bool → NcepFiles n → Retrieved (NcepFiles n) (Message n) := loadFlux api 5 193 8

def loadDataForTimeIntegratedSurfaceLatentHeatFlux (api : GribApi n) :
    Bool → NcepFiles n → Retrieved (NcepFiles n) (Message n) := loadFlux api 0 10 1

def loadDataForTimeIntegratedSurfaceSensibleHeatFlux (api : GribApi n) :
    Bool → NcepFiles n → Retrieved (NcepFiles n) (Message n) := loadFlux api 0 11 1

/-- Downward (192) minus upward (193); any other pair is taken in the opposite order. -/
def netFlux (h1 h2 : GribRecord n) : Fin n → ℚ :=
  if h1.parameterNumber = 192 ∧ h2.parameterNumber = 193 then
    fun i => h1.values i - h2.values i
  else fun i => h2.values i - h1.values i

/-- The loaders of a net radiation: two records of either direction, the second searched from
where the first was found. -/
def loadNetRadiation (api : GribApi n) (category : ℤ) (ignoreMissingInput : Bool)
    (f : NcepFiles n) : Retrieved (NcepFiles n) (Message n) :=
  let wanted (r : GribRecord n) := r.isField 0 category 193 1 || r.isField 0 category 192 1
  let s1 := f.seekEither wanted
  match orBlank ignoreMissingInput (newBlankGribRecord api 0 category 192 1) s1.1 with
  | none => ⟨none, s1.2, f.positions⟩
  | some h1 =>
    let s2 := s1.2.seekEither wanted
    match orBlank ignoreMissingInput (newBlankGribRecord api 0 category 193 1) s2.1 with
    | none => ⟨none, s2.2, f.positions⟩
    | some h2 => ⟨some (.grib (newGribRecord api (netFlux h1 h2))), s2.2.rewind, f.positions⟩

def loadDataForTimeIntegratedSurfaceNetSolarRadiation (api : GribApi n) :
    Bool → NcepFiles n → Retrieved (NcepFiles n) (Message n) := loadNetRadiation api 4

def loadDataForTimeIntegratedSurfaceNetThermalRadiation (api : GribApi n) :
    Bool → NcepFiles n → Retrieved (NcepFiles n) (Message n) := loadNetRadiation api 5

/-- The first record of a member is a zeroed buffer; the A file is not searched for it. -/
def loadDataForTotalPrecipitation (numberOfSavedRecords : ℕ) (f : NcepFiles n) :
    Retrieved (NcepFiles n) (Message n) :=
  if numberOfSavedRecords = 0 then
    ⟨some (.zeros n), { f with aFile := f.aFile.rewind }, []⟩
  else
    let s := f.aFile.seek (·.isParameter 0 1 8)
    match s.1 with
    | none => ⟨none, { f with aFile := s.2 }, [f.aFile.position]⟩
    | some h => ⟨some (.grib h), { f with aFile := s.2.rewind }, [f.aFile.position]⟩

/-- Precipitation where it snows, zero elsewhere. -/
def snowfall (categoricalSnowfall totalRainfall : Fin n → ℚ) : Fin n → ℚ :=
  fun i => if categoricalSnowfall i = 1 then totalRainfall i else 0

/-- The loop over the A file: the last record of each kind until both are found, `none` at
end of file. -/
def scanSnowfall (rain snow : Option (Fin n → ℚ)) :
    List (GribRecord n) → Option ((Fin n → ℚ) × (Fin n → ℚ))
  | [] => match rain, snow with
    | some r, some s => some (r, s)
    | _, _ => none
  | h1 :: rest => match rain, snow with
    | some r, some s => some (r, s)
    | _, _ => scanSnowfall (if h1.isParameter 0 1 8 then some h1.values else rain)
        (if h1.isParameter 0 1 195 then some h1.values else snow) rest

/-- Never fails: at end of file a field of zeros is stored. -/
def loadDataForTimeIntegratedSnowFallWaterEquivalent (api : GribApi n) (f : NcepFiles n) :
    Retrieved (NcepFiles n) (Message n) :=
  let values := match scanSnowfall none none f.aFile.rewind.rest with
    | none => 0
    | some (rain, snow) => snowfall snow rain
  ⟨some (.grib (newGribRecord api values)), f.rewind, [f.aFile.rewind.position]⟩

def generateSnowFallWaterEquivalent (fff : ℕ) (f : NcepFiles n) :
    Retrieved (NcepFiles n) (Fin n → ℚ) :=
  if fff = 0 then ⟨some 0, { f with aFile := f.aFile.rewind }, []⟩
  else
    let s1 := f.aFile.seek (·.isParameter 0 1 195)
    match s1.1 with
    | none => ⟨none, { f with aFile := s1.2 }, [f.aFile.position]⟩
    | some snow =>
      let s2 := s1.2.rewind.seek (·.isParameter 0 1 8)
      let started := [f.aFile.position, s1.2.rewind.position]
      match s2.1 with
      | none => ⟨none, { f with aFile := s2.2 }, started⟩
      | some rain =>
        ⟨some (snowfall snow.values rain.values), { f with aFile := s2.2.rewind }, started⟩

def generateTotalColumnWater (f : NcepFiles n) : Retrieved (NcepFiles n) (Fin n → ℚ) :=
  let s1 := f.aFile.seek (·.isField 0 1 3 200)
  match s1.1 with
  | none => ⟨none, { f with aFile := s1.2 }, [f.aFile.position]⟩
  | some precipWater =>
    let s2 := f.bFile.seek (·.isField 0 6 6 200)
    match s2.1 with
    | none => ⟨none, ⟨s1.2, s2.2⟩, f.positions⟩
    | some cloudWater =>
      ⟨some fun i => precipWater.values i + cloudWater.values i, ⟨s1.2.rewind, s2.2.rewind⟩,
        f.positions⟩

/-- The four records that the search for the potential temperature collects. -/
structure HemisphereRecords (n : ℕ) where
  pressureNorth : Option (GribRecord n) := none
  pressureSouth : Option (GribRecord n) := none
  temperatureNorth : Option (GribRecord n) := none
  temperatureSouth : Option (GribRecord n) := none

/-- One record of the search. The test for the southern level assigns instead of comparing,
so it accepts every level. -/
def HemisphereRecords.take (found : HemisphereRecords n) (temp : GribRecord n) :
    HemisphereRecords n :=
  let levValue := temp.scaledValueOfFirstFixedSurface
  if found.pressureNorth.isNone ∧ temp.isField 0 3 0 109 ∧ levValue = 2000 then
    { found with pressureNorth := some temp }
  else if found.pressureSouth.isNone ∧ temp.isField 0 3 0 109 then
    { found with pressureSouth := some temp }
  else if found.temperatureNorth.isNone ∧ temp.isField 0 0 0 109 ∧ levValue = 2000 then
    { found with temperatureNorth := some temp }
  else if found.temperatureSouth.isNone ∧ temp.isField 0 0 0 109 then
    { found with temperatureSouth := some temp }
  else found

/-- The record loop over the B file, until all four are found or the file ends. -/
def scanHemispheres (found : HemisphereRecords n) (rest : List (GribRecord n)) :
    Option (GribRecord n × GribRecord n × GribRecord n × GribRecord n) :=
  match found with
  | ⟨some pn, some ps, some tn, some ts⟩ => some (pn, ps, tn, ts)
  | _ => match rest with
    | [] => none
    | temp :: rest => scanHemispheres (found.take temp) rest

/-- The merge of one point. The mean of two present values is computed and then overwritten. -/
def mergeHemispheres (south north : ℚ) : ℚ := Id.run do
  let mut temp := 9999
  if south ≠ 9999 ∧ north ≠ 9999 then temp := (south + north) / 2
  if south = 9999 ∧ north ≠ 9999 then temp := north
  else if south ≠ 9999 ∧ north = 9999 then temp := south
  else temp := 9999
  return temp

def potentialTemperatureAt (api : GribApi n) (pressure temperature : ℚ) : ℚ :=
  if pressure = 9999 ∨ temperature = 9999 then 9999
  else temperature * api.pow (100000 / pressure) (2854 / 10000)

def generatePotentialTemperature (api : GribApi n) (f : NcepFiles n) :
    Retrieved (NcepFiles n) (Fin n → ℚ) :=
  match scanHemispheres {} f.bFile.rest with
  | none => ⟨none, { f with bFile := f.bFile.exhausted }, [f.bFile.position]⟩
  | some (pn, ps, tn, ts) =>
    ⟨some fun i => potentialTemperatureAt api (mergeHemispheres (ps.values i) (pn.values i))
      (mergeHemispheres (ts.values i) (tn.values i)), f.rewind, [f.bFile.position]⟩

/-- A soil layer starting at the surface or ten centimetres below. -/
def GribRecord.isSoilLayer (r : GribRecord n) (number : ℤ) : Bool :=
  r.isField 2 0 number 106 &&
    (r.scaledValueOfFirstFixedSurface = 0 || r.scaledValueOfFirstFixedSurface = 10)

/-- The first layer is searched in the B file, the second in the A file. -/
def generateSoilMoisture (f : NcepFiles n) : Retrieved (NcepFiles n) (Fin n → ℚ) :=
  let s1 := f.bFile.seek (·.isSoilLayer 192)
  match s1.1 with
  | none => ⟨none, { f with bFile := s1.2 }, [f.bFile.position]⟩
  | some upper =>
    let s2 := f.aFile.seek (·.isSoilLayer 192)
    let started := [f.bFile.position, f.aFile.position]
    match s2.1 with
    | none => ⟨none, ⟨s2.2, s1.2⟩, started⟩
    | some lower =>
      let values (i : Fin n) :=
        if upper.values i = 9999 ∨ lower.values i = 9999 then 9999
        else (upper.values i + lower.values i) / 2 * 1000
      ⟨some values, ⟨s2.2.rewind, s1.2.rewind⟩, started⟩

/-- Rewinds before it searches, and then reads the A file before the B file. -/
def generateSoilTemperature (f : NcepFiles n) : Retrieved (NcepFiles n) (Fin n → ℚ) :=
  let s1 := f.rewind.seekEither (·.isSoilLayer 2)
  match s1.1 with
  | none => ⟨none, s1.2, f.rewind.positions⟩
  | some upper =>
    let s2 := s1.2.seekEither (·.isSoilLayer 2)
    match s2.1 with
    | none => ⟨none, s2.2, f.rewind.positions⟩
    | some lower =>
      ⟨some fun i => (upper.values i + lower.values i) / 2, s2.2.rewind, f.rewind.positions⟩

/-- The dispatch of `loadDataForVariable`, after its queue test. -/
def loadRecord (api : GribApi n) (varName : TiggeVariable) (ignoreMissingInput : Bool)
    (numberOfSavedRecords : ℕ) (f : NcepFiles n) : Retrieved (NcepFiles n) (Message n) :=
  match varName with
  | timeIntegratedOutgoingLongWaveRadiation =>
    loadDataForTimeIntegratedOutgoingLongWaveRadiation api ignoreMissingInput f
  | timeIntegratedSurfaceLatentHeatFlux =>
    loadDataForTimeIntegratedSurfaceLatentHeatFlux api ignoreMissingInput f
  | timeIntegratedSurfaceSensibleHeatFlux =>
    loadDataForTimeIntegratedSurfaceSensibleHeatFlux api ignoreMissingInput f
  | timeIntegratedSurfaceNetSolarRadiation =>
    loadDataForTimeIntegratedSurfaceNetSolarRadiation api ignoreMissingInput f
  | timeIntegratedSurfaceNetThermalRadiation =>
    loadDataForTimeIntegratedSurfaceNetThermalRadiation api ignoreMissingInput f
  | timeIntegratedSnowFallWaterEquivalent =>
    loadDataForTimeIntegratedSnowFallWaterEquivalent api f
  | totalPrecipitation => loadDataForTotalPrecipitation numberOfSavedRecords f
  | _ => ⟨none, f, []⟩

/-- The dispatch of `generateVariable` for the variables of a single hour. -/
def generateInstant (api : GribApi n) (varName : TiggeVariable) (fff : ℕ) (f : NcepFiles n) :
    Retrieved (NcepFiles n) (Fin n → ℚ) :=
  match varName with
  | snowFallWaterEquivalent => generateSnowFallWaterEquivalent fff f
  | totalColumnWater => generateTotalColumnWater f
  | potentialTemperature => generatePotentialTemperature api f
  | soilMoisture => generateSoilMoisture f
  | soilTemperature => generateSoilTemperature f
  | _ => ⟨none, f, []⟩

/-- Success puts the files back as they were opened, and no search began further on. -/
structure Restores {ρ : Type} (f : NcepFiles n) (r : Retrieved (NcepFiles n) ρ) : Prop where
  files : r.result.isSome → r.files = f
  started : ∀ p ∈ r.started, p = 0

section
variable {f : NcepFiles n} (hf : f.rewind = f)
include hf

theorem aFile_rewind : f.aFile.rewind = f.aFile := congrArg NcepFiles.aFile hf

theorem bFile_rewind : f.bFile.rewind = f.bFile := congrArg NcepFiles.bFile hf

theorem aFile_position : f.aFile.position = 0 := by
  rw [← aFile_rewind hf, RecordStream.rewind_position]

theorem bFile_position : f.bFile.position = 0 := by
  rw [← bFile_rewind hf, RecordStream.rewind_position]

theorem positions_eq : f.positions = [0, 0] := by
  rw [← hf, NcepFiles.rewind_positions]

theorem loadFlux_restores (api : GribApi n) (category number level : ℤ) (ignore : Bool) :
    Restores f (loadFlux api category number level ignore f) := by
  unfold loadFlux
  dsimp only
  split
  · exact ⟨fun _ => by simp only [NcepFiles.seekEither_rewind, hf], by simp [positions_eq hf]⟩
  · exact ⟨fun h => by simp at h, by simp [positions_eq hf]⟩

theorem loadNetRadiation_restores (api : GribApi n) (category : ℤ) (ignore : Bool) :
    Restores f (loadNetRadiation api category ignore f) := by
  unfold loadNetRadiation
  dsimp only
  split
  · exact ⟨fun h => by simp at h, by simp [positions_eq hf]⟩
  · split
    · exact ⟨fun h => by simp at h, by simp [positions_eq hf]⟩
    · exact ⟨fun _ => by simp only [NcepFiles.seekEither_rewind, hf], by simp [positions_eq hf]⟩

theorem loadDataForTotalPrecipitation_restores (count : ℕ) :
    Restores f (loadDataForTotalPrecipitation count f) := by
  unfold loadDataForTotalPrecipitation
  split_ifs
  · exact ⟨fun _ => by simp only [aFile_rewind hf], by simp⟩
  · dsimp only
    split
    · exact ⟨fun h => by simp at h, by simp [aFile_position hf]⟩
    · exact ⟨fun _ => by simp only [RecordStream.seek_rewind, aFile_rewind hf],
        by simp [aFile_position hf]⟩

theorem loadDataForTimeIntegratedSnowFallWaterEquivalent_restores (api : GribApi n) :
    Restores f (loadDataForTimeIntegratedSnowFallWaterEquivalent api f) :=
  ⟨fun _ => hf, by simp [loadDataForTimeIntegratedSnowFallWaterEquivalent]⟩

theorem generateSnowFallWaterEquivalent_restores (fff : ℕ) :
    Restores f (generateSnowFallWaterEquivalent fff f) := by
  unfold generateSnowFallWaterEquivalent
  split_ifs
  · exact ⟨fun _ => by simp only [aFile_rewind hf], by simp⟩
  · dsimp only
    split
    · exact ⟨fun h => by simp at h, by simp [aFile_position hf]⟩
    · split
      · exact ⟨fun h => by simp at h, by simp [aFile_position hf]⟩
      · refine ⟨fun _ => ?_, by simp [aFile_position hf]⟩
        simp only [RecordStream.seek_rewind, aFile_rewind hf]

theorem generateTotalColumnWater_restores : Restores f (generateTotalColumnWater f) := by
  unfold generateTotalColumnWater
  dsimp only
  split
  · exact ⟨fun h => by simp at h, by simp [aFile_position hf]⟩
  · split
    · exact ⟨fun h => by simp at h, by simp [positions_eq hf]⟩
    · refine ⟨fun _ => ?_, by simp [positions_eq hf]⟩
      simp only [RecordStream.seek_rewind, aFile_rewind hf, bFile_rewind hf]

theorem generatePotentialTemperature_restores (api : GribApi n) :
    Restores f (generatePotentialTemperature api f) := by
  unfold generatePotentialTemperature
  split
  · exact ⟨fun h => by simp at h, by simp [bFile_position hf]⟩
  · exact ⟨fun _ => hf, by simp [bFile_position hf]⟩

theorem generateSoilMoisture_restores : Restores f (generateSoilMoisture f) := by
  unfold generateSoilMoisture
  dsimp only
  split
  · exact ⟨fun h => by simp at h, by simp [bFile_position hf]⟩
  · split
    · exact ⟨fun h => by simp at h, by simp [aFile_position hf, bFile_position hf]⟩
    · refine ⟨fun _ => ?_, by simp [aFile_position hf, bFile_position hf]⟩
      simp only [RecordStream.seek_rewind, aFile_rewind hf, bFile_rewind hf]

theorem generateSoilTemperature_restores : Restores f (generateSoilTemperature f) := by
  unfold generateSoilTemperature
  dsimp only
  split
  · exact ⟨fun h => by simp at h, by simp⟩
  · split
    · exact ⟨fun h => by simp at h, by simp⟩
    · refine ⟨fun _ => ?_, by simp⟩
      simp only [NcepFiles.seekEither_rewind, hf]

theorem loadRecord_restores (api : GribApi n) (v : TiggeVariable) (ignore : Bool) (count : ℕ) :
    Restores f (loadRecord api v ignore count f) := by
  cases v <;> first
    | exact loadFlux_restores hf ..
    | exact loadNetRadiation_restores hf ..
    | exact loadDataForTotalPrecipitation_restores hf _
    | exact loadDataForTimeIntegratedSnowFallWaterEquivalent_restores hf api
    | exact ⟨fun _ => rfl, by simp [loadRecord]⟩

theorem generateInstant_restores (api : GribApi n) (v : TiggeVariable) (fff : ℕ) :
    Restores f (generateInstant api v fff f) := by
  cases v <;> first
    | exact generateSnowFallWaterEquivalent_restores hf fff
    | exact generateTotalColumnWater_restores hf
    | exact generatePotentialTemperature_restores hf api
    | exact generateSoilMoisture_restores hf
    | exact generateSoilTemperature_restores hf
    | exact ⟨fun _ => rfl, by simp [generateInstant]⟩

end

end Tigge
