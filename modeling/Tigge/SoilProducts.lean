import Tigge.RecordSearch

/-! The two products of the soil: from which files each takes its layers, and how each treats a
point at which a layer is missing. -/

namespace Tigge
open Lib
variable {n : ℕ}

namespace NcepFiles

/-- `grib_handle_new_from_file` on the B file for the first layer, on the A file for the second. -/
def newLayerHandle (found : ℕ) (f : NcepFiles n) : Option (GribRecord n) × NcepFiles n :=
  if found = 0 then (f.bFile.next.1, { f with bFile := f.bFile.next.2 })
  else (f.aFile.next.1, { f with aFile := f.aFile.next.2 })

def seekLayer (p : GribRecord n → Bool) (found : ℕ) (f : NcepFiles n) :
    Option (GribRecord n) × NcepFiles n :=
  if found = 0 then ((f.bFile.seek p).1, { f with bFile := (f.bFile.seek p).2 })
  else ((f.aFile.seek p).1, { f with aFile := (f.aFile.seek p).2 })

theorem scans_newLayerHandle (p : GribRecord n → Bool) (found : ℕ) :
    Scans (newLayerHandle found) (seekLayer p found) p left := by
  by_cases h : found = 0
  · have hnext : newLayerHandle (n := n) found =
        fun f => (f.bFile.next.1, { f with bFile := f.bFile.next.2 }) := by
      funext f
      rw [newLayerHandle, if_pos h]
    have hseek : seekLayer p found =
        fun f => ((f.bFile.seek p).1, { f with bFile := (f.bFile.seek p).2 }) := by
      funext f
      rw [seekLayer, if_pos h]
    rw [hnext, hseek]
    exact ((RecordStream.scans_next p).snd fun s => s.rest.length).conj streams
  · have hnext : newLayerHandle (n := n) found =
        fun f => (f.aFile.next.1, { f with aFile := f.aFile.next.2 }) := by
      funext f
      rw [newLayerHandle, if_neg h]
    have hseek : seekLayer p found =
        fun f => ((f.aFile.seek p).1, { f with aFile := (f.aFile.seek p).2 }) := by
      funext f
      rw [seekLayer, if_neg h]
    rw [hnext, hseek]
    exact ((RecordStream.scans_next p).fst fun s => s.rest.length).conj streams

end NcepFiles

/-- The point loop of `generateSoilMoisture`. -/
def soilMoistureValues (upper lower : Fin n → ℚ) : Fin n → ℚ := fun i =>
  if upper i = 9999 ∨ lower i = 9999 then 9999 else (upper i + lower i) / 2 * 1000

/-- The loop of `generateSoilMoisture`, and the field it writes. -/
def searchSoilMoisture (fuel : ℕ) (f : NcepFiles n) : Option (Option (Fin n → ℚ) × NcepFiles n) :=
  (collect NcepFiles.newLayerHandle (·.isSoilLayer 192) 2 fuel [] f).map fun
    | (some [upper, lower], g) => (some (soilMoistureValues upper.values lower.values), g.rewind)
    | (_, g) => (none, g)

section Moisture

theorem searchSoilMoisture_eq {fuel : ℕ} {f : NcepFiles n} (hfuel : f.left + 2 ≤ fuel) :
    searchSoilMoisture fuel f =
      some ((generateSoilMoisture f).result, (generateSoilMoisture f).files) := by
  have hscan : ∀ k < 2, Scans (NcepFiles.newLayerHandle k)
      (NcepFiles.seekLayer (fun r : GribRecord n => r.isSoilLayer 192) k) (·.isSoilLayer 192)
      NcepFiles.left := fun k _ => NcepFiles.scans_newLayerHandle _ k
  rw [searchSoilMoisture, collect_eq hscan (Nat.zero_le _) hfuel]
  show (some (gather _ 2 [] f)).map _ = _
  rw [generateSoilMoisture]
  cases h1 : (f.bFile.seek fun r => r.isSoilLayer 192).1 with
  | none =>
    rw [gather_two_of_none h1]
    rfl
  | some upper =>
    rw [gather_two_of_some h1]
    show Option.map _ (some (((f.aFile.seek fun r => r.isSoilLayer 192).1.map _), _)) = _
    dsimp only
    cases (f.aFile.seek fun r => r.isSoilLayer 192).1 <;> rfl

theorem generateSoilMoisture_result (f : NcepFiles n) : (generateSoilMoisture f).result =
    (f.bFile.rest.find? (·.isSoilLayer 192)).bind fun upper =>
      (f.aFile.rest.find? (·.isSoilLayer 192)).map fun lower =>
        soilMoistureValues upper.values lower.values := by
  rw [generateSoilMoisture]
  dsimp only
  rw [RecordStream.seek_fst, RecordStream.seek_fst]
  cases f.bFile.rest.find? (·.isSoilLayer 192) with
  | none => rfl
  | some upper => cases f.aFile.rest.find? (·.isSoilLayer 192) <;> rfl

theorem soilMoistureValues_comm (upper lower : Fin n → ℚ) :
    soilMoistureValues upper lower = soilMoistureValues lower upper := by
  funext i
  simp only [soilMoistureValues, or_comm, add_comm]

/-- With one layer at each level in the two files, the field is written exactly when the layers
are in different files. -/
theorem soilMoisture_written_iff (a b : List (GribRecord n)) (surface deeper : GribRecord n)
    (hsurface : (a ++ b).filter (·.isLayerAt 192 0) = [surface])
    (hdeeper : (a ++ b).filter (·.isLayerAt 192 10) = [deeper]) (fuel : ℕ)
    (hfuel : a.length + b.length + 2 ≤ fuel) :
    (searchSoilMoisture fuel (.opened a b)).map Prod.fst =
        some (some (soilMoistureValues surface.values deeper.values)) ↔
      (∃ r ∈ a, r.isSoilLayer 192) ∧ ∃ r ∈ b, r.isSoilLayer 192 := by
  rw [searchSoilMoisture_eq hfuel, Option.map_some, generateSoilMoisture_result]
  show some ((b.find? _).bind fun upper => (a.find? _).map fun lower => _) = _ ↔ _
  rw [Option.some_inj, ← List.find?_isSome, ← List.find?_isSome]
  have hpair := soilLayers_pair hsurface hdeeper
  rw [List.filter_append] at hpair
  rw [← List.head?_filter, ← List.head?_filter]
  -- where the layers are decides which of the two searches finds one
  cases ha : a.filter (·.isSoilLayer 192) with
  | nil => cases (b.filter (·.isSoilLayer 192)).head? <;> simp
  | cons x xs =>
    cases hb : b.filter (·.isSoilLayer 192) with
    | nil => simp
    | cons y ys =>
      have hvalues : soilMoistureValues y.values x.values =
          soilMoistureValues surface.values deeper.values := by
        rw [ha, hb] at hpair
        rcases hpair with hpair | hpair
        · obtain ⟨rfl, rfl⟩ : x = surface ∧ y = deeper := by
            cases xs <;> simp_all
          exact soilMoistureValues_comm _ _
        · obtain ⟨rfl, rfl⟩ : x = deeper ∧ y = surface := by
            cases xs <;> simp_all
          rfl
      simp [hvalues]

/-- The two layers of the volumetric soil moisture at one point. -/
def surfaceMoisture : GribRecord 1 := pointRecord ⟨2, 0, 192, 106, 0⟩ (1 / 5)

def deeperMoisture : GribRecord 1 := pointRecord ⟨2, 0, 192, 106, 10⟩ (2 / 5)

theorem soilMoisture_written_apart :
    (searchSoilMoisture 4 (.opened [deeperMoisture] [surfaceMoisture])).map Prod.fst =
      some (some (soilMoistureValues surfaceMoisture.values deeperMoisture.values)) :=
  (soilMoisture_written_iff [deeperMoisture] [surfaceMoisture] surfaceMoisture deeperMoisture rfl
    rfl 4 (by decide)).mpr ⟨⟨deeperMoisture, List.mem_cons_self, rfl⟩,
      surfaceMoisture, List.mem_cons_self, rfl⟩

/-- Both layers in the B file, where the input check asks for them: nothing is written. -/
theorem soilMoisture_not_written :
    ([] ++ [surfaceMoisture, deeperMoisture]).filter (·.isLayerAt 192 0) = [surfaceMoisture] ∧
      ([] ++ [surfaceMoisture, deeperMoisture]).filter (·.isLayerAt 192 10) = [deeperMoisture] ∧
      (searchSoilMoisture 4 (.opened [] [surfaceMoisture, deeperMoisture])).map Prod.fst =
        some none :=
  ⟨rfl, rfl, rfl⟩

end Moisture

section LandMask

/-- `out` is missing where a layer is, and elsewhere the scaled mean of the two. -/
structure Masked (scale : ℚ) (upper lower out : Fin n → ℚ) : Prop where
  missing : ∀ i, upper i = 9999 ∨ lower i = 9999 → out i = 9999
  present : ∀ i, upper i ≠ 9999 ∧ lower i ≠ 9999 → out i = (upper i + lower i) / 2 * scale

/-- The layers of both products, in that order. -/
structure SoilLayers (n : ℕ) where
  upperMoisture : Fin n → ℚ
  lowerMoisture : Fin n → ℚ
  upperTemperature : Fin n → ℚ
  lowerTemperature : Fin n → ℚ

namespace SoilLayers
variable (s : SoilLayers n)

def moisture : Fin n → ℚ := soilMoistureValues s.upperMoisture s.lowerMoisture

def temperature : Fin n → ℚ := soilTemperatureValues s.upperTemperature s.lowerTemperature

/-- The inputs of the two products are masked at the same points. -/
def SameMask : Prop := ∀ i, (s.upperMoisture i = 9999 ∨ s.lowerMoisture i = 9999) ↔
  (s.upperTemperature i = 9999 ∨ s.lowerTemperature i = 9999)

structure Consistent : Prop where
  moisture : Masked 1000 s.upperMoisture s.lowerMoisture s.moisture
  temperature : Masked 1 s.upperTemperature s.lowerTemperature s.temperature
  same : s.SameMask → ∀ i, s.moisture i = 9999 ↔ s.temperature i = 9999

/-- No mean of values that are present is the missing marker in one product only. -/
def NoStrayMarker : Prop := s.SameMask → ∀ i,
  s.upperTemperature i ≠ 9999 ∧ s.lowerTemperature i ≠ 9999 →
    ((s.upperMoisture i + s.lowerMoisture i) / 2 * 1000 = 9999 ↔
      (s.upperTemperature i + s.lowerTemperature i) / 2 = 9999)

end SoilLayers

theorem masked_soilMoistureValues (upper lower : Fin n → ℚ) :
    Masked 1000 upper lower (soilMoistureValues upper lower) := by
  constructor
  · intro i h
    exact if_pos h
  · intro i h
    exact if_neg (not_or.mpr h)

theorem masked_soilTemperatureValues_iff (upper lower : Fin n → ℚ) :
    Masked 1 upper lower (soilTemperatureValues upper lower) ↔
      ∀ i, upper i = 9999 ↔ lower i = 9999 := by
  constructor
  · intro h i
    constructor
    · intro hupper
      have hmean := h.missing i (.inl hupper)
      rw [soilTemperatureValues, hupper] at hmean
      linarith
    · intro hlower
      have hmean := h.missing i (.inr hlower)
      rw [soilTemperatureValues, hlower] at hmean
      linarith
  · intro h
    constructor
    · rintro i (hupper | hlower)
      · rw [soilTemperatureValues, hupper, (h i).mp hupper]
        norm_num
      · rw [soilTemperatureValues, hlower, (h i).mpr hlower]
        norm_num
    · intro i _
      rw [mul_one]
      rfl

/-- The moisture is always masked as its layers are. The temperature is if at every point both of
its layers are missing or neither is; the two are then masked alike where their inputs are, up
to means that happen to be the marker. -/
theorem soil_consistent_iff (s : SoilLayers n) : s.Consistent ↔
    (∀ i, s.upperTemperature i = 9999 ↔ s.lowerTemperature i = 9999) ∧ s.NoStrayMarker := by
  have hmoisture : Masked 1000 s.upperMoisture s.lowerMoisture s.moisture :=
    masked_soilMoistureValues _ _
  have hpresent : ∀ i, s.SameMask →
      s.upperTemperature i ≠ 9999 ∧ s.lowerTemperature i ≠ 9999 →
        s.moisture i = (s.upperMoisture i + s.lowerMoisture i) / 2 * 1000 := by
    intro i hsame hi
    apply hmoisture.present i
    rw [← not_or, hsame i, not_or]
    exact hi
  constructor
  · intro h
    refine ⟨(masked_soilTemperatureValues_iff _ _).mp h.temperature, fun hsame i hi => ?_⟩
    rw [← hpresent i hsame hi]
    exact h.same hsame i
  · rintro ⟨hboth, hstray⟩
    have htemperature : Masked 1 s.upperTemperature s.lowerTemperature s.temperature :=
      (masked_soilTemperatureValues_iff _ _).mpr hboth
    refine ⟨hmoisture, htemperature, fun hsame i => ?_⟩
    by_cases hi : s.upperTemperature i = 9999 ∨ s.lowerTemperature i = 9999
    · exact iff_of_true (hmoisture.missing i ((hsame i).mpr hi)) (htemperature.missing i hi)
    · rw [hpresent i hsame (not_or.mp hi)]
      exact hstray hsame i (not_or.mp hi)

/-- A point at the coast: the deeper layers are masked, the upper ones are not. -/
theorem soil_not_consistent :
    ¬ (⟨fun _ => 1 / 5, fun _ => 9999, fun _ => 280, fun _ => 9999⟩ : SoilLayers 1).Consistent := by
  intro h
  have hmean := h.temperature.missing 0 (.inr rfl)
  rw [SoilLayers.temperature, soilTemperatureValues] at hmean
  norm_num at hmean

end LandMask
end Tigge
