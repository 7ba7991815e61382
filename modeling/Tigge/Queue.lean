import Tigge.Lib.Decimal

/-! The TIGGE variables, their short names and the queue of variables to process. -/

namespace Tigge
open Lib

/-- `enum tiggeVariableNames`, in the order of the header. -/
inductive TiggeVariable
  | potentialTemperature
  | snowFallWaterEquivalent
  | timeIntegratedSnowFallWaterEquivalent
  | soilMoisture
  | soilTemperature
  | timeIntegratedOutgoingLongWaveRadiation
  | timeIntegratedSurfaceLatentHeatFlux
  | timeIntegratedSurfaceNetSolarRadiation
  | timeIntegratedSurfaceNetThermalRadiation
  | timeIntegratedSurfaceSensibleHeatFlux
  | totalColumnWater
  | totalPrecipitation
  | testVariable
  | testVariableTi
  deriving DecidableEq, Repr

open TiggeVariable

def TiggeVariable.all : List TiggeVariable :=
  [potentialTemperature, snowFallWaterEquivalent, timeIntegratedSnowFallWaterEquivalent,
    soilMoisture, soilTemperature, timeIntegratedOutgoingLongWaveRadiation,
    timeIntegratedSurfaceLatentHeatFlux, timeIntegratedSurfaceNetSolarRadiation,
    timeIntegratedSurfaceNetThermalRadiation, timeIntegratedSurfaceSensibleHeatFlux,
    totalColumnWater, totalPrecipitation, testVariable, testVariableTi]

def TiggeVariable.varId (v : TiggeVariable) : ℤ := v.ctorIdx

def TiggeVariable.shortName : TiggeVariable → Str
  | potentialTemperature => "pt".toList
  | snowFallWaterEquivalent => "sf6".toList
  | soilMoisture => "sm".toList
  | soilTemperature => "st".toList
  | timeIntegratedSnowFallWaterEquivalent => "sf".toList
  | timeIntegratedOutgoingLongWaveRadiation => "ttr".toList
  | timeIntegratedSurfaceLatentHeatFlux => "slhf".toList
  | timeIntegratedSurfaceNetSolarRadiation => "ssr".toList
  | timeIntegratedSurfaceNetThermalRadiation => "str".toList
  | timeIntegratedSurfaceSensibleHeatFlux => "sshf".toList
  | totalColumnWater => "tcw".toList
  | totalPrecipitation => "tp".toList
  | testVariable => "tv".toList
  | testVariableTi => "tvt".toList

/-- The short name of an id; `none` is the `NULL` of an id that is no enumerator. -/
def variableShortName (id : ℤ) : Option Str :=
  (TiggeVariable.all.find? (·.varId = id)).map TiggeVariable.shortName

/-- The id of a short name, `-1` when there is none. -/
def variableIdFromShortName (var : Str) : ℤ :=
  match TiggeVariable.all.find? (·.shortName = var) with
  | some v => v.varId
  | none => -1

theorem TiggeVariable.mem_all (v : TiggeVariable) : v ∈ TiggeVariable.all := by
  cases v <;> decide

theorem TiggeVariable.varId_injective : Function.Injective TiggeVariable.varId := by
  intro v w h
  cases v <;> cases w <;> first | rfl | exact absurd h (by decide)

theorem TiggeVariable.shortName_injective : Function.Injective TiggeVariable.shortName := by
  intro v w h
  cases v <;> cases w <;> first | rfl | exact absurd h (by decide)

theorem TiggeVariable.varId_ne (v : TiggeVariable) : v.varId ≠ -1 := by
  cases v <;> decide

@[simp] theorem variableShortName_varId (v : TiggeVariable) :
    variableShortName v.varId = some v.shortName := by
  cases v <;> rfl

@[simp] theorem variableIdFromShortName_shortName (v : TiggeVariable) :
    variableIdFromShortName v.shortName = v.varId := by
  cases v <;> rfl

def NUMBER_OF_VARIABLES : ℕ := 13

/-- The scan of `processQueueContains`; `none` is a `strcmp` with `NULL`. -/
def scanQueue (str : Str) : List ℤ → Option ℤ
  | [] => some 0
  | slot :: rest =>
    if slot = -1 then some 0
    else match variableShortName slot with
      | none => none
      | some name => if str = name then some 1 else scanQueue str rest

def processQueueContains (variablesToProcess : List ℤ) (str : Str) : Option ℤ :=
  if variableIdFromShortName str = -1 then some (-1) else scanQueue str variablesToProcess

/-- `variablesToProcess`: every slot holds an enumerator or `-1`. -/
structure ProcessQueue where
  slots : List ℤ
  length_slots : slots.length = NUMBER_OF_VARIABLES
  sane : ∀ slot ∈ slots, slot = -1 ∨ ∃ v : TiggeVariable, slot = v.varId

theorem scanQueue_ne_none (str : Str) {slots : List ℤ}
    (h : ∀ slot ∈ slots, slot = -1 ∨ ∃ v : TiggeVariable, slot = v.varId) : scanQueue str slots ≠ none := by
  induction slots with
  | nil => simp [scanQueue]
  | cons slot rest ih =>
    have hrest := ih fun i hi => h i (List.mem_cons_of_mem _ hi)
    rcases h slot List.mem_cons_self with rfl | ⟨v, rfl⟩
    · simp [scanQueue]
    · rw [scanQueue, if_neg v.varId_ne, variableShortName_varId]
      dsimp only
      split_ifs
      · simp
      · exact hrest

/-- `strcmp` never sees the `NULL` of an invalid id. -/
theorem processQueueContains_ne_none (q : ProcessQueue) (str : Str) :
    processQueueContains q.slots str ≠ none := by
  unfold processQueueContains
  split_ifs
  · simp
  · exact scanQueue_ne_none str q.sane

/-- The test that `loadDataForVariable` and `generateVariable` make before any work. -/
def requested (q : ProcessQueue) (v : TiggeVariable) : Bool :=
  processQueueContains q.slots v.shortName != some 0

def fillQueueWithBogusData : ProcessQueue where
  slots := List.replicate NUMBER_OF_VARIABLES (-1)
  length_slots := List.length_replicate
  sane _ h := .inl (List.eq_of_mem_replicate h)

def defaultOrder : List TiggeVariable :=
  [potentialTemperature, timeIntegratedSnowFallWaterEquivalent, soilMoisture, soilTemperature,
    timeIntegratedOutgoingLongWaveRadiation, timeIntegratedSurfaceLatentHeatFlux,
    timeIntegratedSurfaceNetSolarRadiation, timeIntegratedSurfaceNetThermalRadiation,
    timeIntegratedSurfaceSensibleHeatFlux, totalColumnWater, totalPrecipitation, testVariable,
    testVariableTi]

/-- The default order; `sf6` has no place in it. -/
def fillQueueWithDefault : ProcessQueue where
  slots := defaultOrder.map TiggeVariable.varId
  length_slots := rfl
  sane slot h := by
    obtain ⟨v, _, rfl⟩ := List.mem_map.mp h
    exact .inr ⟨v, rfl⟩

def ProcessQueue.set (q : ProcessQueue) (i : ℕ) (v : TiggeVariable) : ProcessQueue where
  slots := q.slots.set i v.varId
  length_slots := by rw [List.length_set, q.length_slots]
  sane slot h := by
    rcases List.mem_or_eq_of_mem_set h with h | rfl
    · exact q.sane slot h
    · exact .inr ⟨v, rfl⟩

/-- Status and queue: `0` added, `1` for `all`, `-1` refused. -/
def addVariableToProcessList (q : ProcessQueue) (i : ℕ) (var : Str) : ℤ × ProcessQueue :=
  if var = "all".toList then (1, q)
  else if processQueueContains q.slots var = some 0 then
    match TiggeVariable.all.find? (·.shortName = var) with
    | some v => (0, q.set i v)
    | none => (-1, q)
  else (-1, q)

/-- The loop over `argv[2..]`; `none` is `return 1`. -/
def addArguments (q : ProcessQueue) (i : ℕ) : List Str → Option ProcessQueue
  | [] => some q
  | var :: rest =>
    match addVariableToProcessList q i var with
    | (0, q') => addArguments q' (i + 1) rest
    | (1, _) => some fillQueueWithDefault
    | _ => none

/-- The queue that `main` builds from the arguments after the date. With more arguments than
the table has slots the loop is skipped and the queue stays empty. -/
def queueOfArguments (args : List Str) : Option ProcessQueue :=
  if args = [] then some fillQueueWithDefault
  else if args.length ≤ NUMBER_OF_VARIABLES then addArguments fillQueueWithBogusData 0 args
  else some fillQueueWithBogusData

theorem requested_default (v : TiggeVariable) :
    requested fillQueueWithDefault v = true ↔ v ≠ snowFallWaterEquivalent := by
  cases v <;> decide

end Tigge
