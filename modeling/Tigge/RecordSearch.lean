import Tigge.Lib.Collect
import Tigge.RecordStore

/-! The search loops of the loaders that read both files, and of the soil temperature: a record
is read from the A file, at its end from the B file, and a blank record stands for what neither
has. -/

namespace Tigge
open Lib TiggeVariable VariableStore
variable {n : ℕ}

namespace NcepFiles

def streams : NcepFiles n ≃ RecordStream (GribRecord n) × RecordStream (GribRecord n) where
  toFun f := (f.aFile, f.bFile)
  invFun s := ⟨s.1, s.2⟩
  left_inv _ := rfl
  right_inv _ := rfl

/-- `grib_handle_new_from_file` on the A file and, where that fails, on the B file. -/
def newHandle (f : NcepFiles n) : Option (GribRecord n) × NcepFiles n :=
  let s := RecordStream.nextEither f.aFile f.bFile
  (s.1, ⟨s.2.1, s.2.2⟩)

/-- The same, with `newBlankGribRecord` where both fail. -/
def newHandleOrBlank (ignoreMissingInput : Bool) (blank : GribRecord n) (f : NcepFiles n) :
    Option (GribRecord n) × NcepFiles n :=
  (orBlank ignoreMissingInput blank f.newHandle.1, f.newHandle.2)

/-- How many records the two files still have. -/
def left (f : NcepFiles n) : ℕ := f.aFile.rest.length + f.bFile.rest.length

end NcepFiles

/-- The loaders of one flux record. -/
inductive FluxLoader
  | outgoingLongWaveRadiation
  | surfaceLatentHeatFlux
  | surfaceSensibleHeatFlux

namespace FluxLoader

def variableName : FluxLoader → TiggeVariable
  | outgoingLongWaveRadiation => timeIntegratedOutgoingLongWaveRadiation
  | surfaceLatentHeatFlux => timeIntegratedSurfaceLatentHeatFlux
  | surfaceSensibleHeatFlux => timeIntegratedSurfaceSensibleHeatFlux

def category : FluxLoader → ℤ
  | outgoingLongWaveRadiation => 5
  | surfaceLatentHeatFlux => 0
  | surfaceSensibleHeatFlux => 0

def number : FluxLoader → ℤ
  | outgoingLongWaveRadiation => 193
  | surfaceLatentHeatFlux => 10
  | surfaceSensibleHeatFlux => 11

def level : FluxLoader → ℤ
  | outgoingLongWaveRadiation => 8
  | surfaceLatentHeatFlux => 1
  | surfaceSensibleHeatFlux => 1

/-- The `while` goes on until a record is this one. -/
def wanted (v : FluxLoader) (r : GribRecord n) : Bool := r.isField 0 v.category v.number v.level

def blank (api : GribApi n) (v : FluxLoader) : GribRecord n :=
  newBlankGribRecord api 0 v.category v.number v.level

/-- `loadDataFor…`: the array with the record appended, or `NULL`. -/
def load (api : GribApi n) (v : FluxLoader) (ignoreMissingInput : Bool) (fuel : ℕ)
    (gribBuffers : VariableStore n) (f : NcepFiles n) :
    Option (Option (VariableStore n) × NcepFiles n) :=
  (collect (fun _ => NcepFiles.newHandleOrBlank ignoreMissingInput (v.blank api)) v.wanted 1
    fuel [] f).map fun
    | (some [h], g) => (some (gribBuffers.addGribRecordToArray (.grib h)), g.rewind)
    | (_, g) => (none, g)

end FluxLoader

/-- The loaders of a net radiation. -/
inductive NetLoader
  | solar
  | thermal

namespace NetLoader

def variableName : NetLoader → TiggeVariable
  | solar => timeIntegratedSurfaceNetSolarRadiation
  | thermal => timeIntegratedSurfaceNetThermalRadiation

def category : NetLoader → ℤ
  | solar => 4
  | thermal => 5

def downward (v : NetLoader) (r : GribRecord n) : Bool := r.isField 0 v.category 192 1

def upward (v : NetLoader) (r : GribRecord n) : Bool := r.isField 0 v.category 193 1

def wanted (v : NetLoader) (r : GribRecord n) : Bool := v.upward r || v.downward r

/-- A downward flux for the first record, an upward one for the second. -/
def blank (api : GribApi n) (v : NetLoader) (found : ℕ) : GribRecord n :=
  newBlankGribRecord api 0 v.category (if found = 0 then 192 else 193) 1

/-- `loadDataForTimeIntegratedSurfaceNet…Radiation`. -/
def load (api : GribApi n) (v : NetLoader) (ignoreMissingInput : Bool) (fuel : ℕ)
    (gribBuffers : VariableStore n) (f : NcepFiles n) :
    Option (Option (VariableStore n) × NcepFiles n) :=
  (collect (fun found => NcepFiles.newHandleOrBlank ignoreMissingInput (v.blank api found)) v.wanted 2
    fuel [] f).map fun
    | (some [h1, h2], g) =>
      (some (gribBuffers.addGribRecordToArray (.grib (newGribRecord api (netFlux h1 h2)))),
        g.rewind)
    | (_, g) => (none, g)

end NetLoader

/-- A soil layer that starts at one level. -/
def GribRecord.isLayerAt (r : GribRecord n) (number levelValue : ℤ) : Bool :=
  r.isField 2 0 number 106 && r.scaledValueOfFirstFixedSurface = levelValue

/-- The point loop of `generateSoilTemperature`. -/
def soilTemperatureValues (upper lower : Fin n → ℚ) : Fin n → ℚ := fun i =>
  (upper i + lower i) / 2

/-- The loop of `generateSoilTemperature`, and the field it writes. -/
def searchSoilTemperature (fuel : ℕ) (f : NcepFiles n) : Option (Option (Fin n → ℚ) × NcepFiles n) :=
  (collect (fun _ => NcepFiles.newHandle) (·.isSoilLayer 2) 2 fuel [] f.rewind).map fun
    | (some [upper, lower], g) =>
      (some (soilTemperatureValues upper.values lower.values), g.rewind)
    | (_, g) => (none, g)

section Loops

theorem orBlank_eq_or (ignore : Bool) (blank : GribRecord n) (o : Option (GribRecord n)) :
    orBlank ignore blank o = o.or (if ignore then some blank else none) := by
  cases o <;> rfl

theorem orBlank_false (blank : GribRecord n) (o : Option (GribRecord n)) :
    orBlank false blank o = o := by
  rw [orBlank_eq_or]
  exact Option.or_none

theorem scans_newHandleOrBlank {wanted : GribRecord n → Bool} (ignore : Bool)
    {blank : GribRecord n} (hblank : wanted blank = true) :
    Scans (NcepFiles.newHandleOrBlank ignore blank)
      (fun f => (orBlank ignore blank (f.seekEither wanted).1, (f.seekEither wanted).2)) wanted
      NcepFiles.left := by
  have hplaceholder : ∀ r ∈ (if ignore then some blank else none), wanted r = true := by
    intro r hr
    cases ignore with
    | false => cases hr
    | true =>
      cases hr
      exact hblank
  have h := (RecordStream.scans_nextEither _ hplaceholder).conj (NcepFiles.streams (n := n))
  simp only [← orBlank_eq_or] at h
  exact h

theorem scans_newHandle (wanted : GribRecord n → Bool) :
    Scans NcepFiles.newHandle (NcepFiles.seekEither wanted) wanted NcepFiles.left := by
  have h := (RecordStream.scans_nextEither (p := wanted) none (by simp)).conj
    (NcepFiles.streams (n := n))
  simp only [Option.or_none] at h
  exact h

theorem FluxLoader.wanted_blank (api : GribApi n) (v : FluxLoader) :
    v.wanted (v.blank api) = true := by
  simp [wanted, blank, newBlankGribRecord, GribApi.encode, GribRecord.isField,
    GribRecord.isParameter]

theorem NetLoader.wanted_blank (api : GribApi n) (v : NetLoader) (found : ℕ) :
    v.wanted (v.blank api found) = true := by
  by_cases h : found = 0 <;>
    simp [wanted, upward, downward, blank, newBlankGribRecord, GribApi.encode, GribRecord.isField,
      GribRecord.isParameter, h]

section
variable {api : GribApi n} {category number level : ℤ} {ignore : Bool} {f : NcepFiles n}

theorem loadFlux_of_none (h : orBlank ignore (newBlankGribRecord api 0 category number level)
      (f.seekEither (·.isField 0 category number level)).1 = none) :
    loadFlux api category number level ignore f =
      ⟨none, (f.seekEither (·.isField 0 category number level)).2, f.positions⟩ := by
  rw [loadFlux, h]

theorem loadFlux_of_some {r : GribRecord n}
    (h : orBlank ignore (newBlankGribRecord api 0 category number level)
      (f.seekEither (·.isField 0 category number level)).1 = some r) :
    loadFlux api category number level ignore f = ⟨some (.grib r),
      (f.seekEither (·.isField 0 category number level)).2.rewind, f.positions⟩ := by
  rw [loadFlux, h]

end

/-- The loop of a flux loader ends as the search of its two files does. -/
theorem FluxLoader.load_eq (api : GribApi n) (v : FluxLoader) (ignore : Bool) {fuel : ℕ}
    (st : VariableStore n) {f : NcepFiles n} (hfuel : f.left + 1 ≤ fuel) :
    v.load api ignore fuel st f =
      some ((loadFlux api v.category v.number v.level ignore f).result.map
        st.addGribRecordToArray, (loadFlux api v.category v.number v.level ignore f).files) := by
  have hscan : ∀ k < 1, Scans (NcepFiles.newHandleOrBlank ignore (v.blank api)) _ v.wanted
      NcepFiles.left := fun k _ => scans_newHandleOrBlank ignore (v.wanted_blank api)
  rw [load, collect_eq hscan (Nat.zero_le _) hfuel]
  show (some (gather _ 1 [] f)).map _ = _
  rw [gather_one]
  cases h : orBlank ignore (v.blank api) (f.seekEither v.wanted).1 with
  | none =>
    rw [loadFlux_of_none h]
    rfl
  | some r =>
    rw [loadFlux_of_some h]
    rfl

section
variable {api : GribApi n} {v : NetLoader} {ignore : Bool} {f : NcepFiles n} {h1 h2 : GribRecord n}

theorem NetLoader.loadNetRadiation_of_none
    (hfirst : orBlank ignore (v.blank api 0) (f.seekEither v.wanted).1 = none) :
    loadNetRadiation api v.category ignore f =
      ⟨none, (f.seekEither v.wanted).2, f.positions⟩ := by
  change orBlank ignore (newBlankGribRecord api 0 v.category 192 1) (f.seekEither fun r =>
    r.isField 0 v.category 193 1 || r.isField 0 v.category 192 1).1 = _ at hfirst
  rw [loadNetRadiation, hfirst]
  rfl

theorem NetLoader.loadNetRadiation_of_second_none
    (hfirst : orBlank ignore (v.blank api 0) (f.seekEither v.wanted).1 = some h1)
    (hsecond : orBlank ignore (v.blank api 1)
      ((f.seekEither v.wanted).2.seekEither v.wanted).1 = none) :
    loadNetRadiation api v.category ignore f =
      ⟨none, ((f.seekEither v.wanted).2.seekEither v.wanted).2, f.positions⟩ := by
  change orBlank ignore (newBlankGribRecord api 0 v.category 192 1) (f.seekEither fun r =>
    r.isField 0 v.category 193 1 || r.isField 0 v.category 192 1).1 = _ at hfirst
  change orBlank ignore (newBlankGribRecord api 0 v.category 193 1) ((f.seekEither fun r =>
    r.isField 0 v.category 193 1 || r.isField 0 v.category 192 1).2.seekEither fun r =>
    r.isField 0 v.category 193 1 || r.isField 0 v.category 192 1).1 = _ at hsecond
  rw [loadNetRadiation, hfirst]
  dsimp only
  rw [hsecond]
  rfl

theorem NetLoader.loadNetRadiation_of_some
    (hfirst : orBlank ignore (v.blank api 0) (f.seekEither v.wanted).1 = some h1)
    (hsecond : orBlank ignore (v.blank api 1)
      ((f.seekEither v.wanted).2.seekEither v.wanted).1 = some h2) :
    loadNetRadiation api v.category ignore f =
      ⟨some (.grib (newGribRecord api (netFlux h1 h2))),
        ((f.seekEither v.wanted).2.seekEither v.wanted).2.rewind, f.positions⟩ := by
  change orBlank ignore (newBlankGribRecord api 0 v.category 192 1) (f.seekEither fun r =>
    r.isField 0 v.category 193 1 || r.isField 0 v.category 192 1).1 = _ at hfirst
  change orBlank ignore (newBlankGribRecord api 0 v.category 193 1) ((f.seekEither fun r =>
    r.isField 0 v.category 193 1 || r.isField 0 v.category 192 1).2.seekEither fun r =>
    r.isField 0 v.category 193 1 || r.isField 0 v.category 192 1).1 = _ at hsecond
  rw [loadNetRadiation, hfirst]
  dsimp only
  rw [hsecond]
  rfl

end

theorem NetLoader.load_eq (api : GribApi n) (v : NetLoader) (ignore : Bool) {fuel : ℕ}
    (st : VariableStore n) {f : NcepFiles n} (hfuel : f.left + 2 ≤ fuel) :
    v.load api ignore fuel st f =
      some ((loadNetRadiation api v.category ignore f).result.map st.addGribRecordToArray,
        (loadNetRadiation api v.category ignore f).files) := by
  have hscan : ∀ k < 2, Scans (NcepFiles.newHandleOrBlank ignore (v.blank api k)) _ v.wanted
      NcepFiles.left := fun k _ => scans_newHandleOrBlank ignore (v.wanted_blank api k)
  rw [load, collect_eq hscan (Nat.zero_le _) hfuel]
  show (some (gather _ 2 [] f)).map _ = _
  cases h1 : orBlank ignore (v.blank api 0) (f.seekEither v.wanted).1 with
  | none =>
    rw [gather_two_of_none h1, loadNetRadiation_of_none h1]
    rfl
  | some r =>
    rw [gather_two_of_some h1]
    cases h2 : orBlank ignore (v.blank api 1)
        ((f.seekEither v.wanted).2.seekEither v.wanted).1 with
    | none =>
      rw [loadNetRadiation_of_second_none h1 h2]
      rfl
    | some s =>
      rw [loadNetRadiation_of_some h1 h2]
      rfl

theorem searchSoilTemperature_eq {fuel : ℕ} {f : NcepFiles n} (hfuel : f.rewind.left + 2 ≤ fuel) :
    searchSoilTemperature fuel f =
      some ((generateSoilTemperature f).result, (generateSoilTemperature f).files) := by
  have hscan : ∀ k < 2, Scans NcepFiles.newHandle
      (NcepFiles.seekEither fun r : GribRecord n => r.isSoilLayer 2) (·.isSoilLayer 2)
      NcepFiles.left := fun _ _ => scans_newHandle _
  rw [searchSoilTemperature, collect_eq hscan (Nat.zero_le _) hfuel]
  show (some (gather _ 2 [] f.rewind)).map _ = _
  rw [generateSoilTemperature]
  cases h1 : (f.rewind.seekEither fun r => r.isSoilLayer 2).1 with
  | none =>
    rw [gather_two_of_none h1]
    rfl
  | some upper =>
    rw [gather_two_of_some h1]
    dsimp only
    cases ((f.rewind.seekEither fun r => r.isSoilLayer 2).2.seekEither
      fun r => r.isSoilLayer 2).1 <;> rfl

end Loops

section Results

/-- Two searches in a row take the first two of the records ahead that are wanted. -/
theorem seekEither_seekEither_fst (p : GribRecord n → Bool) (f : NcepFiles n) :
    (f.seekEither p).1 = ((f.aFile.rest ++ f.bFile.rest).filter p).head? ∧
      ((f.seekEither p).2.seekEither p).1 =
        ((f.aFile.rest ++ f.bFile.rest).filter p).tail.head? := by
  refine ⟨RecordStream.seekEither_fst p _ _, ?_⟩
  rw [← RecordStream.seekEither_filter]
  exact RecordStream.seekEither_fst p _ _

theorem loadFlux_result_or (api : GribApi n) (category number level : ℤ) (ignore : Bool)
    (f : NcepFiles n) : (loadFlux api category number level ignore f).result =
      (orBlank ignore (newBlankGribRecord api 0 category number level)
        ((f.aFile.rest ++ f.bFile.rest).filter
          (·.isField 0 category number level)).head?).map .grib := by
  rw [loadFlux, (seekEither_seekEither_fst _ f).1]
  cases orBlank ignore (newBlankGribRecord api 0 category number level) _ <;> rfl

theorem loadNetRadiation_result_or (api : GribApi n) (category : ℤ) (ignore : Bool)
    (f : NcepFiles n) : (loadNetRadiation api category ignore f).result =
      let found := (f.aFile.rest ++ f.bFile.rest).filter fun r =>
        r.isField 0 category 193 1 || r.isField 0 category 192 1
      (orBlank ignore (newBlankGribRecord api 0 category 192 1) found.head?).bind fun h1 =>
        (orBlank ignore (newBlankGribRecord api 0 category 193 1) found.tail.head?).map fun h2 =>
          .grib (newGribRecord api (netFlux h1 h2)) := by
  obtain ⟨hfirst, hsecond⟩ := seekEither_seekEither_fst
    (fun r => r.isField 0 category 193 1 || r.isField 0 category 192 1) f
  rw [loadNetRadiation]
  dsimp only
  rw [hfirst, hsecond]
  cases orBlank ignore (newBlankGribRecord api 0 category 192 1) _ with
  | none => rfl
  | some h1 => cases orBlank ignore (newBlankGribRecord api 0 category 193 1) _ <;> rfl

theorem generateSoilTemperature_result (f : NcepFiles n) : (generateSoilTemperature f).result =
    let found := (f.rewind.aFile.rest ++ f.rewind.bFile.rest).filter (·.isSoilLayer 2)
    found.head?.bind fun upper => found.tail.head?.map fun lower =>
      fun i => (upper.values i + lower.values i) / 2 := by
  obtain ⟨hfirst, hsecond⟩ := seekEither_seekEither_fst (·.isSoilLayer 2) f.rewind
  rw [generateSoilTemperature]
  dsimp only
  rw [hfirst, hsecond]
  cases ((f.rewind.aFile.rest ++ f.rewind.bFile.rest).filter (·.isSoilLayer 2)).head? with
  | none => rfl
  | some upper =>
    cases ((f.rewind.aFile.rest ++ f.rewind.bFile.rest).filter (·.isSoilLayer 2)).tail.head? <;>
      rfl

end Results

section TwoRecords

/-- The values of the only record of a kind, zero where there is none. -/
def fluxOf (records : List (GribRecord n)) : Fin n → ℚ :=
  match records.head? with
  | some r => r.values
  | none => 0

theorem netFlux_downward {h1 h2 : GribRecord n} (hdown : h1.parameterNumber = 192)
    (hup : h2.parameterNumber = 193) : netFlux h1 h2 = fun i => h1.values i - h2.values i := by
  rw [netFlux, if_pos ⟨hdown, hup⟩]

theorem netFlux_upward {h1 h2 : GribRecord n} (hup : h1.parameterNumber = 193) :
    netFlux h1 h2 = fun i => h2.values i - h1.values i := by
  rw [netFlux, if_neg]
  rintro ⟨hdown, -⟩
  rw [hup] at hdown
  cases hdown

variable (api : GribApi n) (v : NetLoader) (ignore : Bool)

theorem NetLoader.number_of_downward {r : GribRecord n} (h : v.downward r = true) :
    r.parameterNumber = 192 := by
  simp only [downward, GribRecord.isField, GribRecord.isParameter, Bool.and_eq_true,
    decide_eq_true_eq] at h
  exact h.1.2

theorem NetLoader.number_of_upward {r : GribRecord n} (h : v.upward r = true) :
    r.parameterNumber = 193 := by
  simp only [upward, GribRecord.isField, GribRecord.isParameter, Bool.and_eq_true,
    decide_eq_true_eq] at h
  exact h.1.2

theorem NetLoader.not_downward_of_upward {r : GribRecord n} (h : v.upward r = true) :
    v.downward r = false := by
  by_contra hne
  have h192 := v.number_of_downward (Bool.not_eq_false _ ▸ hne)
  rw [v.number_of_upward h] at h192
  cases h192

/-- Whichever record is found first, the pair is taken as downward minus upward, and a blank
record counts as zero. -/
theorem NetLoader.exists_pair {l downs ups : List (GribRecord n)}
    (hdowns : l.filter v.downward = downs) (hups : l.filter v.upward = ups)
    (hdown : downs.length ≤ 1) (hup : ups.length ≤ 1)
    (hmissing : ignore = true ∨ downs ≠ [] ∧ ups ≠ []) :
    ∃ h1 h2, orBlank ignore (v.blank api 0) (l.filter v.wanted).head? = some h1 ∧
      orBlank ignore (v.blank api 1) (l.filter v.wanted).tail.head? = some h2 ∧
      netFlux h1 h2 = fun i => fluxOf downs i - fluxOf ups i := by
  have hexclusive : ∀ r : GribRecord n, v.upward r = true → v.downward r = false :=
    fun _ => v.not_downward_of_upward
  have hperm := filter_or_perm l hexclusive
  rw [hdowns, hups] at hperm
  have hd : ∀ d ∈ downs, d.parameterNumber = 192 := by
    rintro d hd
    rw [← hdowns] at hd
    exact v.number_of_downward (List.mem_filter.mp hd).2
  have hu : ∀ u ∈ ups, u.parameterNumber = 193 := by
    rintro u hu
    rw [← hups] at hu
    exact v.number_of_upward (List.mem_filter.mp hu).2
  change (l.filter v.wanted).Perm _ at hperm
  match downs, ups with
  | [d], [u] =>
    rcases List.perm_pair.mp hperm with hfound | hfound <;> rw [hfound]
    · exact ⟨u, d, rfl, rfl, netFlux_upward (hu u List.mem_cons_self)⟩
    · exact ⟨d, u, rfl, rfl, netFlux_downward (hd d List.mem_cons_self) (hu u List.mem_cons_self)⟩
  | [d], [] =>
    obtain rfl : ignore = true := hmissing.resolve_right fun h => h.2 rfl
    rw [List.perm_singleton.mp hperm]
    exact ⟨d, v.blank api 1, rfl, rfl, netFlux_downward (hd d List.mem_cons_self) rfl⟩
  | [], [u] =>
    obtain rfl : ignore = true := hmissing.resolve_right fun h => h.1 rfl
    rw [List.perm_singleton.mp hperm]
    exact ⟨u, v.blank api 1, rfl, rfl, netFlux_upward (hu u List.mem_cons_self)⟩
  | [], [] =>
    obtain rfl : ignore = true := hmissing.resolve_right fun h => h.1 rfl
    rw [List.perm_nil.mp hperm]
    exact ⟨v.blank api 0, v.blank api 1, rfl, rfl, netFlux_downward rfl rfl⟩
  | _ :: _ :: _, _ => exact absurd hdown (by simp)
  | _, _ :: _ :: _ => exact absurd hup (by simp)

/-- What a loader of a net radiation appends, whichever of its two records come first. -/
theorem NetLoader.load_found (st : VariableStore n) {a b downs ups : List (GribRecord n)} {fuel : ℕ}
    (hfuel : a.length + b.length + 2 ≤ fuel) (hdowns : (a ++ b).filter v.downward = downs)
    (hups : (a ++ b).filter v.upward = ups) (hdown : downs.length ≤ 1) (hup : ups.length ≤ 1)
    (hmissing : ignore = true ∨ downs ≠ [] ∧ ups ≠ []) :
    v.load api ignore fuel st (.opened a b) =
      some (some (st.addGribRecordToArray (.grib (newGribRecord api fun i =>
        fluxOf downs i - fluxOf ups i))), .opened a b) := by
  obtain ⟨h1, h2, hfirst, hsecond, hnet⟩ :=
    v.exists_pair api ignore hdowns hups hdown hup hmissing
  have hresult : (loadNetRadiation api v.category ignore (.opened a b)).result =
      some (.grib (newGribRecord api (netFlux h1 h2))) := by
    rw [loadNetRadiation_result_or]
    change ((orBlank ignore (v.blank api 0) ((a ++ b).filter v.wanted).head?).bind fun h1 =>
      (orBlank ignore (v.blank api 1) ((a ++ b).filter v.wanted).tail.head?).map fun h2 =>
        Message.grib (newGribRecord api (netFlux h1 h2))) = _
    rw [hfirst, hsecond]
    rfl
  have hfiles := (loadNetRadiation_restores (NcepFiles.opened_rewind a b) api v.category ignore).files
  rw [v.load_eq api ignore st hfuel, hresult, hfiles (by rw [hresult]; rfl), hnet]
  rfl

theorem isSoilLayer_eq (number : ℤ) : (fun r : GribRecord n => r.isSoilLayer number) =
    fun r => r.isLayerAt number 0 || r.isLayerAt number 10 := by
  funext r
  simp only [GribRecord.isSoilLayer, GribRecord.isLayerAt]
  cases r.isField 2 0 number 106 <;> rfl

theorem soilLayers_pair {l : List (GribRecord n)} {number : ℤ} {surface deeper : GribRecord n}
    (hsurface : l.filter (·.isLayerAt number 0) = [surface])
    (hdeeper : l.filter (·.isLayerAt number 10) = [deeper]) :
    l.filter (·.isSoilLayer number) = [surface, deeper] ∨
      l.filter (·.isSoilLayer number) = [deeper, surface] := by
  have hexclusive : ∀ r : GribRecord n,
      r.isLayerAt number 0 = true → r.isLayerAt number 10 = false := by
    intro r hr
    simp only [GribRecord.isLayerAt, Bool.and_eq_true, decide_eq_true_eq] at hr
    simp [GribRecord.isLayerAt, hr.2]
  have hperm := filter_or_perm l hexclusive
  rw [hsurface, hdeeper] at hperm
  rw [isSoilLayer_eq]
  exact List.perm_pair.mp hperm

/-- The two layers may come in either order, in either file. -/
theorem searchSoilTemperature_found {a b : List (GribRecord n)} {surface deeper : GribRecord n}
    {fuel : ℕ} (hfuel : a.length + b.length + 2 ≤ fuel)
    (hsurface : (a ++ b).filter (·.isLayerAt 2 0) = [surface])
    (hdeeper : (a ++ b).filter (·.isLayerAt 2 10) = [deeper]) :
    searchSoilTemperature fuel (.opened a b) =
      some (some fun i => (surface.values i + deeper.values i) / 2, .opened a b) := by
  have hresult : (generateSoilTemperature (.opened a b)).result =
      some fun i => (surface.values i + deeper.values i) / 2 := by
    rw [generateSoilTemperature_result, NcepFiles.opened_rewind]
    show (((a ++ b).filter _).head?.bind fun upper => ((a ++ b).filter _).tail.head?.map _) = _
    rcases soilLayers_pair hsurface hdeeper with hfound | hfound
    · rw [hfound]
      rfl
    · rw [hfound]
      show some _ = some _
      congr 1
      funext i
      rw [add_comm]
  have hfiles := (generateSoilTemperature_restores (NcepFiles.opened_rewind a b)).files
  rw [searchSoilTemperature_eq hfuel, hresult, hfiles (by rw [hresult]; rfl)]

end TwoRecords

/-- The net radiations and the soil temperature do not depend on the order of their two records or
on which file holds them, and a net radiation reads a record that is missing as zero if it may. -/
theorem two_record_products (api : GribApi n) (a b : List (GribRecord n)) (st : VariableStore n)
    (fuel : ℕ) (hfuel : a.length + b.length + 2 ≤ fuel) :
    (∀ (v : NetLoader) (ignore : Bool) (down up : GribRecord n),
      (a ++ b).filter v.downward = [down] → (a ++ b).filter v.upward = [up] →
        v.load api ignore fuel st (.opened a b) =
          some (some (st.addGribRecordToArray (.grib (newGribRecord api fun i =>
            down.values i - up.values i))), .opened a b)) ∧
    (∀ (v : NetLoader) (downs ups : List (GribRecord n)),
      (a ++ b).filter v.downward = downs → (a ++ b).filter v.upward = ups →
        downs.length ≤ 1 → ups.length ≤ 1 →
          v.load api true fuel st (.opened a b) =
            some (some (st.addGribRecordToArray (.grib (newGribRecord api fun i =>
              fluxOf downs i - fluxOf ups i))), .opened a b)) ∧
    ∀ surface deeper : GribRecord n,
      (a ++ b).filter (·.isLayerAt 2 0) = [surface] →
        (a ++ b).filter (·.isLayerAt 2 10) = [deeper] →
          searchSoilTemperature fuel (.opened a b) =
            some (some fun i => (surface.values i + deeper.values i) / 2, .opened a b) := by
  refine ⟨fun v ignore down up hdown hup => ?_, fun v downs ups hdowns hups hdown hup => ?_,
    fun surface deeper hsurface hdeeper => searchSoilTemperature_found hfuel hsurface hdeeper⟩
  · exact v.load_found api ignore st hfuel hdown hup le_rfl le_rfl
      (.inr ⟨List.cons_ne_nil _ _, List.cons_ne_nil _ _⟩)
  · exact v.load_found api true st hfuel hdowns hups hdown hup (.inl rfl)

/-- The upward flux in the A file, the downward one in the B file. -/
theorem two_record_products_thermal :
    NetLoader.thermal.load plainApi false 4 .initial
        (.opened [pointRecord ⟨0, 5, 193, 1, 0⟩ 3] [pointRecord ⟨0, 5, 192, 1, 0⟩ 5]) =
      some (some (VariableStore.initial.addGribRecordToArray
        (.grib (newGribRecord plainApi fun _ => 5 - 3))),
        .opened [pointRecord ⟨0, 5, 193, 1, 0⟩ 3] [pointRecord ⟨0, 5, 192, 1, 0⟩ 5]) :=
  (two_record_products plainApi [pointRecord ⟨0, 5, 193, 1, 0⟩ 3] [pointRecord ⟨0, 5, 192, 1, 0⟩ 5]
    .initial 4 (by decide)).1 .thermal false (pointRecord ⟨0, 5, 192, 1, 0⟩ 5)
    (pointRecord ⟨0, 5, 193, 1, 0⟩ 3) rfl rfl

/-- A flux loader appends the first record of the two files that it looks for, a record of zeros
where there is none and it may, and nothing otherwise. -/
theorem load_takes_first (api : GribApi n) (v : FluxLoader) (ignore : Bool)
    (a b : List (GribRecord n)) (st : VariableStore n) (fuel : ℕ)
    (hfuel : a.length + b.length + 1 ≤ fuel) :
    ∃ r, v.load api ignore fuel st (.opened a b) = some r ∧
      (∀ h, (a ++ b).find? v.wanted = some h →
        r = (some (st.addGribRecordToArray (.grib h)), .opened a b)) ∧
      ((a ++ b).find? v.wanted = none → ignore = true →
        ∃ zero : GribRecord n, zero.values = 0 ∧
          r = (some (st.addGribRecordToArray (.grib zero)), .opened a b)) ∧
      ((a ++ b).find? v.wanted = none → ignore = false → r.1 = none) := by
  have hresult := loadFlux_result_or api v.category v.number v.level ignore (.opened a b)
  have hfiles :=
    (loadFlux_restores (NcepFiles.opened_rewind a b) api v.category v.number v.level ignore).files
  change _ = (orBlank ignore (v.blank api) ((a ++ b).filter v.wanted).head?).map Message.grib
    at hresult
  rw [List.head?_filter] at hresult
  refine ⟨_, v.load_eq api ignore st hfuel, fun h hfind => ?_, fun hfind hignore => ?_,
    fun hfind hignore => ?_⟩
  · rw [hfind] at hresult
    rw [hresult, hfiles (by rw [hresult]; rfl)]
    rfl
  · rw [hfind, hignore] at hresult
    refine ⟨v.blank api, rfl, ?_⟩
    rw [hignore] at hfiles ⊢
    rw [hresult, hfiles (by rw [hresult]; rfl)]
    rfl
  · rw [hfind, hignore] at hresult
    rw [hignore, hresult]
    rfl

/-- Neither file holds the outgoing radiation at hour 0. -/
theorem load_takes_first_blank :
    ∃ zero : GribRecord 1, zero.values = 0 ∧
      FluxLoader.outgoingLongWaveRadiation.load plainApi true 3 .initial
          (.opened [pointRecord ⟨0, 5, 193, 1, 0⟩ 7] [pointRecord ⟨0, 5, 192, 1, 0⟩ 7]) =
        some (some (VariableStore.initial.addGribRecordToArray (.grib zero)),
          .opened [pointRecord ⟨0, 5, 193, 1, 0⟩ 7] [pointRecord ⟨0, 5, 192, 1, 0⟩ 7]) := by
  obtain ⟨r, hload, -, hblank, -⟩ := load_takes_first plainApi .outgoingLongWaveRadiation true
    [pointRecord ⟨0, 5, 193, 1, 0⟩ 7] [pointRecord ⟨0, 5, 192, 1, 0⟩ 7] .initial 3 (by decide)
  obtain ⟨zero, hzero, rfl⟩ := hblank rfl rfl
  exact ⟨zero, hzero, hload⟩

end Tigge
