import Tigge.Coverage
import Tigge.RecordSearch

/-! What the loads of a run append at hours past zero: a record computed from the records of the
hour's two files, or a placeholder. -/

namespace Tigge
open Lib TiggeVariable VariableStore
variable {n : ℕ}

def netWanted (category : ℤ) (r : GribRecord n) : Bool :=
  r.isField 0 category 193 1 || r.isField 0 category 192 1

def netCategory : TiggeVariable → Option ℤ
  | timeIntegratedSurfaceNetSolarRadiation => some 4
  | timeIntegratedSurfaceNetThermalRadiation => some 5
  | _ => none

/-- The record is computed from records of an hour's files, as the loader of the variable
computes it. -/
def Computed (api : GribApi n) (a b : List (GribRecord n)) (m : Message n) : TiggeVariable → Prop
  | timeIntegratedOutgoingLongWaveRadiation => ∃ r ∈ a ++ b, r.isField 0 5 193 8 ∧ m = .grib r
  | timeIntegratedSurfaceLatentHeatFlux => ∃ r ∈ a ++ b, r.isField 0 0 10 1 ∧ m = .grib r
  | timeIntegratedSurfaceSensibleHeatFlux => ∃ r ∈ a ++ b, r.isField 0 0 11 1 ∧ m = .grib r
  | timeIntegratedSurfaceNetSolarRadiation => ∃ h1 ∈ a ++ b, ∃ h2 ∈ a ++ b,
      netWanted 4 h1 ∧ netWanted 4 h2 ∧ m = .grib (newGribRecord api (netFlux h1 h2))
  | timeIntegratedSurfaceNetThermalRadiation => ∃ h1 ∈ a ++ b, ∃ h2 ∈ a ++ b,
      netWanted 5 h1 ∧ netWanted 5 h2 ∧ m = .grib (newGribRecord api (netFlux h1 h2))
  | timeIntegratedSnowFallWaterEquivalent => ∃ rain ∈ a, ∃ snow ∈ a,
      rain.isParameter 0 1 8 ∧ snow.isParameter 0 1 195 ∧
        m = .grib (newGribRecord api (snowfall snow.values rain.values))
  | totalPrecipitation => ∃ r ∈ a, r.isParameter 0 1 8 ∧ m = .grib r
  | _ => False

def neededRecords : TiggeVariable → List (GribRecord n → Bool)
  | timeIntegratedOutgoingLongWaveRadiation => [(·.isField 0 5 193 8)]
  | timeIntegratedSurfaceLatentHeatFlux => [(·.isField 0 0 10 1)]
  | timeIntegratedSurfaceSensibleHeatFlux => [(·.isField 0 0 11 1)]
  | timeIntegratedSurfaceNetSolarRadiation => [(·.isField 0 4 192 1), (·.isField 0 4 193 1)]
  | timeIntegratedSurfaceNetThermalRadiation => [(·.isField 0 5 192 1), (·.isField 0 5 193 1)]
  | timeIntegratedSnowFallWaterEquivalent => [(·.isParameter 0 1 8), (·.isParameter 0 1 195)]
  | totalPrecipitation => [(·.isParameter 0 1 8)]
  | _ => []

def Absent (a b : List (GribRecord n)) (v : TiggeVariable) : Prop :=
  ∃ need ∈ neededRecords v, ∀ r ∈ a ++ b, need r = false

/-- A load of a run, with the files of its hour. -/
structure LoadPoint (api : GribApi n) (naming : InputNaming) (d : CycleDate)
    (contents : Str → Option (List (GribRecord n))) (q : ProcessQueue) where
  em : ℕ
  hour : ℕ
  before : List Statement
  varName : TiggeVariable
  protect : Bool
  after : List Statement
  body : hourBody = before ++ .load varName protect :: after
  aFile : List (GribRecord n)
  bFile : List (GribRecord n)
  opened : (ncepSource api naming d contents).fopen em (6 * hour) =
    some (NcepFiles.opened aFile bFile)
  running : (runHours (ncepSource api naming d contents) q em
    (runMembers (ncepSource api naming d contents) q .initial (List.range em))
    (List.range hour)).halted = false

namespace LoadPoint
variable {api : GribApi n} {naming : InputNaming} {d : CycleDate}
  {contents : Str → Option (List (GribRecord n))} {q : ProcessQueue}
  (pt : LoadPoint api naming d contents q)

def start : RunState n :=
  let S := ncepSource api naming d contents
  runHours S q pt.em (runMembers S q .initial (List.range pt.em)) (List.range pt.hour)

/-- The run and the files as the load meets them. -/
def state : RunState n × NcepFiles n :=
  pt.before.foldl (runStatement (ncepSource api naming d contents) q pt.em pt.hour)
    (pt.start, NcepFiles.opened pt.aFile pt.bFile)

def result : Option (Message n) :=
  loadResult (ncepSource api naming d contents) q pt.hour pt.state.1 pt.state.2
    pt.varName pt.protect

/-- A placeholder is appended at hour 0 only, and nothing at a later hour without the needed
records. -/
structure Honest : Prop where
  computed : ∀ m, pt.result = some m → ¬ Computed api pt.aFile pt.bFile m pt.varName → pt.hour = 0
  absent : pt.hour ≠ 0 → Absent pt.aFile pt.bFile pt.varName → pt.result = none

/-- What the two loaders need that do not notice what is missing: snowfall both of its records in
the A file, and net radiation one record of each direction if there are two ahead. -/
structure Supplied : Prop where
  snowfall : pt.varName = timeIntegratedSnowFallWaterEquivalent →
    (∃ r ∈ pt.aFile, r.isParameter 0 1 8) ∧ ∃ r ∈ pt.aFile, r.isParameter 0 1 195
  net : ∀ category, netCategory pt.varName = some category →
    2 ≤ ((pt.state.2.aFile.rest ++ pt.state.2.bFile.rest).filter (netWanted category)).length →
      (∃ r ∈ pt.aFile ++ pt.bFile, r.isField 0 category 192 1) ∧
        ∃ r ∈ pt.aFile ++ pt.bFile, r.isField 0 category 193 1

end LoadPoint

section Loaders
variable {api : GribApi n} {f : NcepFiles n}

def ahead (f : NcepFiles n) : List (GribRecord n) := f.aFile.rest ++ f.bFile.rest

theorem loadFlux_result (category number level : ℤ) :
    (loadFlux api category number level false f).result =
      (((ahead f).filter (·.isField 0 category number level)).head?).map .grib := by
  rw [loadFlux_result_or, orBlank_false]
  rfl

theorem loadNetRadiation_result (category : ℤ) :
    (loadNetRadiation api category false f).result =
      ((ahead f).filter (netWanted category)).head?.bind fun h1 =>
        ((ahead f).filter (netWanted category)).tail.head?.map fun h2 =>
          .grib (newGribRecord api (netFlux h1 h2)) := by
  rw [loadNetRadiation_result_or]
  simp only [orBlank_false]
  rfl

theorem loadDataForTotalPrecipitation_result {count : ℕ} (hcount : count ≠ 0) :
    (loadDataForTotalPrecipitation count f).result =
      (f.aFile.rest.find? (·.isParameter 0 1 8)).map .grib := by
  rw [loadDataForTotalPrecipitation, if_neg hcount]
  dsimp only
  rw [RecordStream.seek_fst]
  cases f.aFile.rest.find? (·.isParameter 0 1 8) <;> rfl

theorem scanSnowfall_isSome (rain snow : Option (Fin n → ℚ)) (rest : List (GribRecord n)) :
    (scanSnowfall rain snow rest).isSome =
      ((rain.isSome || rest.any (·.isParameter 0 1 8)) &&
        (snow.isSome || rest.any (·.isParameter 0 1 195))) := by
  induction rest generalizing rain snow with
  | nil => cases rain <;> cases snow <;> rfl
  | cons h1 rest ih =>
    cases rain with
    | none =>
      rw [scanSnowfall, ih, List.any_cons, List.any_cons]
      · cases h1.isParameter 0 1 8 <;> cases h1.isParameter 0 1 195 <;> cases snow <;> rfl
      · exact nofun
    | some r =>
      cases snow with
      | none =>
        rw [scanSnowfall, ih, List.any_cons, List.any_cons]
        · cases h1.isParameter 0 1 8 <;> cases h1.isParameter 0 1 195 <;> rfl
        · exact nofun
      | some s => rfl

theorem scanSnowfall_mem {rain snow : Option (Fin n → ℚ)} {rest : List (GribRecord n)}
    {p : (Fin n → ℚ) × (Fin n → ℚ)} (h : scanSnowfall rain snow rest = some p) :
    (rain = some p.1 ∨ ∃ r ∈ rest, r.isParameter 0 1 8 ∧ p.1 = r.values) ∧
      (snow = some p.2 ∨ ∃ r ∈ rest, r.isParameter 0 1 195 ∧ p.2 = r.values) := by
  induction rest generalizing rain snow with
  | nil =>
    cases rain <;> cases snow <;> cases h
    exact ⟨.inl rfl, .inl rfl⟩
  | cons h1 rest ih =>
    have hnext : ∀ (old : Option (Fin n → ℚ)) (is : GribRecord n → Bool) (v : Fin n → ℚ),
        ((if is h1 then some h1.values else old) = some v ∨
          ∃ r ∈ rest, is r = true ∧ v = r.values) →
        old = some v ∨ ∃ r ∈ h1 :: rest, is r = true ∧ v = r.values := by
      intro old is v hv
      rcases hv with hv | ⟨r, hr, his⟩
      · split_ifs at hv with his
        · exact .inr ⟨h1, List.mem_cons_self, his, (Option.some.inj hv).symm⟩
        · exact .inl hv
      · exact .inr ⟨r, List.mem_cons_of_mem _ hr, his⟩
    rw [scanSnowfall.eq_def] at h
    dsimp only at h
    split at h
    · obtain rfl := Option.some.inj h
      exact ⟨.inl rfl, .inl rfl⟩
    · obtain ⟨hr, hs⟩ := ih h
      exact ⟨hnext _ _ _ hr, hnext _ _ _ hs⟩

end Loaders

section Files
variable (api : GribApi n) (f : NcepFiles n)

theorem rewind_aFile {f : NcepFiles n} {s : RecordStream (GribRecord n)}
    (h : s.rewind = f.aFile.rewind) : ({ f with aFile := s } : NcepFiles n).rewind = f.rewind := by
  rw [NcepFiles.rewind, NcepFiles.rewind, h]

theorem loadFlux_rewind (category number level : ℤ) (ignore : Bool) :
    (loadFlux api category number level ignore f).files.rewind = f.rewind := by
  unfold loadFlux
  dsimp only
  split <;> simp

theorem loadNetRadiation_rewind (category : ℤ) (ignore : Bool) :
    (loadNetRadiation api category ignore f).files.rewind = f.rewind := by
  unfold loadNetRadiation
  dsimp only
  split
  · simp
  · split <;> simp

/-- However a load ends, the files hold what they held. -/
theorem loadRecord_rewind (v : TiggeVariable) (ignore : Bool) (count : ℕ) :
    (loadRecord api v ignore count f).files.rewind = f.rewind := by
  cases v with
  | timeIntegratedOutgoingLongWaveRadiation => exact loadFlux_rewind api f ..
  | timeIntegratedSurfaceLatentHeatFlux => exact loadFlux_rewind api f ..
  | timeIntegratedSurfaceSensibleHeatFlux => exact loadFlux_rewind api f ..
  | timeIntegratedSurfaceNetSolarRadiation => exact loadNetRadiation_rewind api f ..
  | timeIntegratedSurfaceNetThermalRadiation => exact loadNetRadiation_rewind api f ..
  | timeIntegratedSnowFallWaterEquivalent => exact f.rewind_rewind
  | totalPrecipitation =>
    show (loadDataForTotalPrecipitation count f).files.rewind = _
    unfold loadDataForTotalPrecipitation
    split_ifs
    · exact rewind_aFile f.aFile.rewind_rewind
    · dsimp only
      split
      · exact rewind_aFile (RecordStream.seek_rewind _ _)
      · exact rewind_aFile (by simp)
  | _ => rfl

theorem generateInstant_rewind (v : TiggeVariable) (fff : ℕ) :
    (generateInstant api v fff f).files.rewind = f.rewind := by
  cases v with
  | snowFallWaterEquivalent =>
    show (generateSnowFallWaterEquivalent fff f).files.rewind = _
    unfold generateSnowFallWaterEquivalent
    split_ifs
    · exact rewind_aFile f.aFile.rewind_rewind
    · dsimp only
      split
      · exact rewind_aFile (RecordStream.seek_rewind _ _)
      · split <;> exact rewind_aFile (by simp)
  | totalColumnWater =>
    show (generateTotalColumnWater f).files.rewind = _
    unfold generateTotalColumnWater
    dsimp only
    split
    · exact rewind_aFile (RecordStream.seek_rewind _ _)
    · split <;> simp [NcepFiles.rewind]
  | potentialTemperature =>
    show (generatePotentialTemperature api f).files.rewind = _
    unfold generatePotentialTemperature
    split <;> simp [NcepFiles.rewind]
  | soilMoisture =>
    show (generateSoilMoisture f).files.rewind = _
    unfold generateSoilMoisture
    dsimp only
    split
    · simp [NcepFiles.rewind]
    · split <;> simp [NcepFiles.rewind]
  | soilTemperature =>
    show (generateSoilTemperature f).files.rewind = _
    unfold generateSoilTemperature
    dsimp only
    split
    · simp
    · split <;> simp
  | _ => rfl

variable {api} {naming : InputNaming} {d : CycleDate}
  {contents : Str → Option (List (GribRecord n))} {q : ProcessQueue}

theorem foldl_runStatement_rewind (em hour : ℕ) (body : List Statement)
    (p : RunState n × NcepFiles n) :
    (body.foldl (runStatement (ncepSource api naming d contents) q em hour)
      p).2.rewind = p.2.rewind := by
  refine List.foldlRecOn (motive := fun r : RunState n × NcepFiles n => r.2.rewind = p.2.rewind)
    _ _ rfl fun r hr s _ => ?_
  cases s with
  | load v b =>
    simp only [runStatement]
    split_ifs
    · exact (loadRecord_rewind api r.2 v _ _).trans hr
    · exact hr
  | generate v =>
    simp only [runStatement]
    split_ifs
    · exact (generateInstant_rewind api r.2 v _).trans hr
    · exact hr

end Files

section Counts
variable {σ : Type} (S : Source n σ) {q : ProcessQueue} (em hour : ℕ)

theorem foldl_runStatement_count_le (v : TiggeVariable) (body : List Statement)
    (p : RunState n × σ) :
    (p.1.stores v).numberOfSavedRecords ≤
      ((body.foldl (runStatement S q em hour) p).1.stores v).numberOfSavedRecords := by
  refine List.foldlRecOn (motive := fun r : RunState n × σ =>
    (p.1.stores v).numberOfSavedRecords ≤ (r.1.stores v).numberOfSavedRecords) _ _ le_rfl
    fun r hr s _ => hr.trans ?_
  by_cases hs : s.varName = v
  · cases s with
    | load w b =>
      obtain rfl : w = v := hs
      rw [runStatement_load_stores]
      cases loadResult S q hour r.1 r.2 w b with
      | none => exact le_rfl
      | some m => exact Nat.le_succ _
    | generate w =>
      simp only [runStatement]
      split_ifs <;> exact le_rfl
  · rw [runStatement_stores_of_ne S q em hour hs]

theorem runHour_count_le (v : TiggeVariable) (st : RunState n) :
    (st.stores v).numberOfSavedRecords ≤
      ((runHour S q em st hour).stores v).numberOfSavedRecords := by
  unfold runHour
  split_ifs
  · exact le_rfl
  · split
    · exact le_rfl
    · exact foldl_runStatement_count_le S em hour v hourBody (st, _)

end Counts

section Precipitation
variable {api : GribApi n} {naming : InputNaming} {d : CycleDate}
  {contents : Str → Option (List (GribRecord n))} {q : ProcessQueue}

theorem count_pos_of_load (hq : requested q totalPrecipitation = true) (em hour : ℕ)
    (p : RunState n × NcepFiles n) (b : Bool) :
    0 < ((runStatement (ncepSource api naming d contents) q em hour p
      (.load totalPrecipitation b)).1.stores totalPrecipitation).numberOfSavedRecords := by
  rw [runStatement_load_stores, loadResult, if_pos hq]
  by_cases hcount : (p.1.stores totalPrecipitation).numberOfSavedRecords = 0
  · have hzeros : ((ncepSource api naming d contents).load totalPrecipitation
        (b && hour = 0) (p.1.stores totalPrecipitation).numberOfSavedRecords p.2).result =
        some (.zeros n) := by
      show (loadDataForTotalPrecipitation _ _).result = _
      rw [loadDataForTotalPrecipitation, if_pos hcount]
    rw [hzeros]
    exact Nat.succ_pos _
  · cases ((ncepSource api naming d contents).load totalPrecipitation
      (b && hour = 0) (p.1.stores totalPrecipitation).numberOfSavedRecords p.2).result with
    | none => exact Nat.pos_of_ne_zero hcount
    | some m => exact Nat.succ_pos _

theorem count_pos_of_hour (hq : requested q totalPrecipitation = true) (em : ℕ)
    (st : RunState n) {hour : ℕ} (hhour : hour ≠ 0) :
    let st' := runHours (ncepSource api naming d contents) q em st (List.range hour)
    st'.halted = true ∨ 0 < (st'.stores totalPrecipitation).numberOfSavedRecords := by
  obtain ⟨k, rfl⟩ := Nat.exists_eq_succ_of_ne_zero hhour
  let S := ncepSource api naming d contents
  let P (st : RunState n) : Prop :=
    st.halted = true ∨ 0 < (st.stores totalPrecipitation).numberOfSavedRecords
  have hfirst : P (runHour S q em st 0) := by
    unfold runHour
    split_ifs with hh
    · exact .inl hh
    · split
      · exact .inl rfl
      · next files _ =>
        have hbody : hourBody = hourBody.take 10 ++ .load totalPrecipitation false ::
            hourBody.drop 11 := rfl
        rw [hbody, List.foldl_append, List.foldl_cons]
        exact .inr ((count_pos_of_load hq em 0 _ false).trans_le
          (foldl_runStatement_count_le S em 0 totalPrecipitation _ _))
  show P (runHours S q em st (List.range (k + 1)))
  rw [List.range_succ_eq_map, runHours, List.foldl_cons]
  refine List.foldlRecOn (motive := P) _ _ hfirst fun st' hst hour _ => ?_
  rcases hst with hst | hst
  · exact .inl (by rw [runHour, if_pos hst]; exact hst)
  · exact .inr (hst.trans_le (runHour_count_le S em hour totalPrecipitation st'))

end Precipitation

namespace LoadPoint
variable {api : GribApi n} {naming : InputNaming} {d : CycleDate}
  {contents : Str → Option (List (GribRecord n))} {q : ProcessQueue}
  (pt : LoadPoint api naming d contents q)

theorem state_rewind : pt.state.2.rewind = NcepFiles.opened pt.aFile pt.bFile :=
  foldl_runStatement_rewind pt.em pt.hour pt.before _

theorem mem_of_mem_rest {r : GribRecord n} (h : r ∈ pt.state.2.aFile.rest) : r ∈ pt.aFile := by
  have hrew := congrArg NcepFiles.aFile pt.state_rewind
  have hrest : pt.state.2.aFile.consumed ++ pt.state.2.aFile.rest = pt.aFile :=
    congrArg RecordStream.rest hrew
  exact hrest ▸ List.mem_append_right _ h

theorem mem_of_mem_ahead {r : GribRecord n} (h : r ∈ ahead pt.state.2) :
    r ∈ pt.aFile ++ pt.bFile := by
  have hrew := congrArg NcepFiles.bFile pt.state_rewind
  have hrest : pt.state.2.bFile.consumed ++ pt.state.2.bFile.rest = pt.bFile :=
    congrArg RecordStream.rest hrew
  rcases List.mem_append.mp h with h | h
  · exact List.mem_append_left _ (pt.mem_of_mem_rest h)
  · exact List.mem_append_right _ (hrest ▸ List.mem_append_right _ h)

theorem result_eq (hq : requested q pt.varName = true) (hhour : pt.hour ≠ 0) :
    pt.result = (loadRecord api pt.varName false
      (pt.state.1.stores pt.varName).numberOfSavedRecords pt.state.2).result := by
  have hflag : (pt.protect && pt.hour = 0) = false := by simp [hhour]
  rw [result, loadResult, if_pos hq, hflag]
  rfl

theorem result_eq_none (hq : ¬ requested q pt.varName = true) : pt.result = none := by
  rw [result, loadResult, if_neg hq]

theorem count_ne_zero (hq : requested q totalPrecipitation = true) (hhour : pt.hour ≠ 0) :
    (pt.state.1.stores totalPrecipitation).numberOfSavedRecords ≠ 0 := by
  have hstart : 0 < (pt.start.stores totalPrecipitation).numberOfSavedRecords :=
    (count_pos_of_hour hq pt.em _ hhour).resolve_left (by rw [pt.running]; exact Bool.false_ne_true)
  have hmono := foldl_runStatement_count_le (q := q)
    (ncepSource api naming d contents) pt.em pt.hour totalPrecipitation pt.before
    (pt.start, NcepFiles.opened pt.aFile pt.bFile)
  exact (hstart.trans_le hmono).ne'

section Variables
variable {pt}

theorem honest_of (hcomputed : ∀ m, pt.result = some m →
    Computed api pt.aFile pt.bFile m pt.varName)
    (habsent : Absent pt.aFile pt.bFile pt.varName → pt.result = none) : pt.Honest :=
  ⟨fun m hm hnot => absurd (hcomputed m hm) hnot, fun _ => habsent⟩

theorem Honest.computed_of (h : pt.Honest) (hhour : pt.hour ≠ 0) {m : Message n}
    (hm : pt.result = some m) : Computed api pt.aFile pt.bFile m pt.varName := by
  by_contra hnot
  exact hhour (h.computed m hm hnot)

theorem mem_of_mem_filter_ahead {p : GribRecord n → Bool} {r : GribRecord n}
    (h : r ∈ (ahead pt.state.2).filter p) : r ∈ pt.aFile ++ pt.bFile ∧ p r = true :=
  (List.mem_filter.mp h).imp_left pt.mem_of_mem_ahead

theorem honest_flux {category number level : ℤ}
    (hresult : pt.result = (loadFlux api category number level false pt.state.2).result)
    (hcomputed : ∀ m, Computed api pt.aFile pt.bFile m pt.varName ↔
      ∃ r ∈ pt.aFile ++ pt.bFile, r.isField 0 category number level ∧ m = .grib r)
    (hneeded : (neededRecords pt.varName : List (GribRecord n → Bool)) =
      [(·.isField 0 category number level)]) : pt.Honest := by
  refine honest_of (fun m hm => ?_) ?_
  · rw [hresult, loadFlux_result, Option.map_eq_some_iff] at hm
    obtain ⟨r, hr, rfl⟩ := hm
    obtain ⟨hmem, hfield⟩ := mem_of_mem_filter_ahead (List.mem_of_head? hr)
    exact (hcomputed _).mpr ⟨r, hmem, hfield, rfl⟩
  · rintro ⟨need, hneed, habsent⟩
    rw [hneeded, List.mem_singleton] at hneed
    subst hneed
    have hnil : (ahead pt.state.2).filter (·.isField 0 category number level) = [] := by
      rw [List.filter_eq_nil_iff]
      exact fun r hr => Bool.eq_false_iff.mp (habsent r (pt.mem_of_mem_ahead hr))
    rw [hresult, loadFlux_result, hnil]
    rfl

theorem not_absent_iff {aFile bFile : List (GribRecord n)} {v : TiggeVariable} :
    ¬ Absent aFile bFile v ↔ ∀ need ∈ (neededRecords v : List (GribRecord n → Bool)),
      ∃ r ∈ aFile ++ bFile, need r = true := by
  simp only [Absent, not_exists, not_and, not_forall, Bool.not_eq_false, exists_prop]

theorem loadNetRadiation_isSome_iff (api : GribApi n) (category : ℤ) (f : NcepFiles n) :
    (loadNetRadiation api category false f).result.isSome ↔
      2 ≤ ((ahead f).filter (netWanted category)).length := by
  rw [loadNetRadiation_result]
  match (ahead f).filter (netWanted category) with
  | [] => simp
  | [_] => simp
  | _ :: _ :: _ => simp

/-- A net radiation is appended when two records are ahead, of whatever directions. -/
theorem honest_net_iff {category : ℤ} (hhour : pt.hour ≠ 0)
    (hresult : pt.result = (loadNetRadiation api category false pt.state.2).result)
    (hcomputed : ∀ m, Computed api pt.aFile pt.bFile m pt.varName ↔
      ∃ h1 ∈ pt.aFile ++ pt.bFile, ∃ h2 ∈ pt.aFile ++ pt.bFile,
        netWanted category h1 ∧ netWanted category h2 ∧
          m = .grib (newGribRecord api (netFlux h1 h2)))
    (hneeded : (neededRecords pt.varName : List (GribRecord n → Bool)) =
      [(·.isField 0 category 192 1), (·.isField 0 category 193 1)]) :
    pt.Honest ↔ (2 ≤ ((ahead pt.state.2).filter (netWanted category)).length →
      (∃ r ∈ pt.aFile ++ pt.bFile, r.isField 0 category 192 1) ∧
        ∃ r ∈ pt.aFile ++ pt.bFile, r.isField 0 category 193 1) := by
  have hpresent : ¬ Absent pt.aFile pt.bFile pt.varName ↔
      (∃ r ∈ pt.aFile ++ pt.bFile, r.isField 0 category 192 1) ∧
        ∃ r ∈ pt.aFile ++ pt.bFile, r.isField 0 category 193 1 := by
    rw [not_absent_iff, hneeded, List.forall_mem_cons, List.forall_mem_singleton]
  rw [← loadNetRadiation_isSome_iff api, ← hresult, ← hpresent]
  constructor
  · intro h hsome habsent
    rw [h.absent hhour habsent] at hsome
    cases hsome
  · intro h
    refine honest_of (fun m hm => ?_) fun habsent => ?_
    · rw [hresult, loadNetRadiation_result, Option.bind_eq_some_iff] at hm
      obtain ⟨h1, hh1, hm⟩ := hm
      obtain ⟨h2, hh2, rfl⟩ := Option.map_eq_some_iff.mp hm
      obtain ⟨hmem1, hw1⟩ := mem_of_mem_filter_ahead (List.mem_of_head? hh1)
      obtain ⟨hmem2, hw2⟩ :=
        mem_of_mem_filter_ahead (List.mem_of_mem_tail (List.mem_of_head? hh2))
      exact (hcomputed _).mpr ⟨h1, hmem1, h2, hmem2, hw1, hw2, rfl⟩
    · by_contra hne
      exact h (Option.isSome_iff_ne_none.mpr hne) habsent

theorem honest_snowfall_iff (hhour : pt.hour ≠ 0)
    (hv : pt.varName = timeIntegratedSnowFallWaterEquivalent)
    (hresult : pt.result =
      (loadDataForTimeIntegratedSnowFallWaterEquivalent api pt.state.2).result) :
    pt.Honest ↔
      (∃ r ∈ pt.aFile, r.isParameter 0 1 8) ∧ ∃ r ∈ pt.aFile, r.isParameter 0 1 195 := by
  have hfile : pt.state.2.aFile.rewind.rest = pt.aFile :=
    congrArg (fun f => f.aFile.rest) pt.state_rewind
  rw [loadDataForTimeIntegratedSnowFallWaterEquivalent, hfile] at hresult
  constructor
  · intro h
    have hcomputed := h.computed_of hhour hresult
    rw [hv] at hcomputed
    obtain ⟨rain, hrain, snow, hsnow, hr, hs, -⟩ := hcomputed
    exact ⟨⟨rain, hrain, hr⟩, snow, hsnow, hs⟩
  · rintro ⟨⟨rain, hrain, hr⟩, snow, hsnow, hs⟩
    have hscan := scanSnowfall_isSome none none pt.aFile
    rw [List.any_eq_true.mpr ⟨rain, hrain, hr⟩, List.any_eq_true.mpr ⟨snow, hsnow, hs⟩] at hscan
    obtain ⟨p, hp⟩ := Option.isSome_iff_exists.mp hscan
    rw [hp] at hresult
    refine honest_of (fun m hm => ?_) fun habsent => ?_
    · obtain ⟨hrainMem, hsnowMem⟩ := scanSnowfall_mem hp
      obtain ⟨r, hrmem, hr, hrvalues⟩ := hrainMem.resolve_left (by simp)
      obtain ⟨s, hsmem, hs, hsvalues⟩ := hsnowMem.resolve_left (by simp)
      rw [hv, ← Option.some.inj (hresult.symm.trans hm)]
      exact ⟨r, hrmem, s, hsmem, hr, hs, by rw [← hrvalues, ← hsvalues]⟩
    · obtain ⟨need, hneed, hnone⟩ := habsent
      rw [hv] at hneed
      simp only [neededRecords, List.mem_cons, List.not_mem_nil, or_false] at hneed
      rcases hneed with rfl | rfl
      · exact absurd hr (Bool.eq_false_iff.mp (hnone rain (List.mem_append_left _ hrain)))
      · exact absurd hs (Bool.eq_false_iff.mp (hnone snow (List.mem_append_left _ hsnow)))

theorem honest_precipitation {count : ℕ} (hcount : count ≠ 0)
    (hv : pt.varName = totalPrecipitation)
    (hresult : pt.result = (loadDataForTotalPrecipitation count pt.state.2).result) :
    pt.Honest := by
  rw [loadDataForTotalPrecipitation_result hcount] at hresult
  refine honest_of (fun m hm => ?_) fun habsent => ?_
  · obtain ⟨r, hr, rfl⟩ := Option.map_eq_some_iff.mp (hresult.symm.trans hm)
    have hparameter : r.isParameter 0 1 8 = true :=
      List.find?_some (p := fun r : GribRecord n => r.isParameter 0 1 8) hr
    rw [hv]
    exact ⟨r, pt.mem_of_mem_rest (List.mem_of_find?_eq_some hr), hparameter, rfl⟩
  · obtain ⟨need, hneed, hnone⟩ := habsent
    rw [hv, neededRecords, List.mem_singleton] at hneed
    subst hneed
    have hfind : pt.state.2.aFile.rest.find? (·.isParameter 0 1 8) = none := by
      rw [List.find?_eq_none]
      exact fun r hr => Bool.eq_false_iff.mp
        (hnone r (List.mem_append_left _ (pt.mem_of_mem_rest hr)))
    rw [hresult, hfind]
    rfl

end Variables

section Supply
variable {pt}

theorem supplied_of_flux (hsf : pt.varName ≠ timeIntegratedSnowFallWaterEquivalent)
    (hnet : netCategory pt.varName = none) : pt.Supplied where
  snowfall := fun hv => absurd hv hsf
  net := fun category hcategory => by
    rw [hnet] at hcategory
    cases hcategory

theorem supplied_net_iff {category : ℤ} (hcategory : netCategory pt.varName = some category)
    (hsf : pt.varName ≠ timeIntegratedSnowFallWaterEquivalent) :
    pt.Supplied ↔ (2 ≤ ((ahead pt.state.2).filter (netWanted category)).length →
      (∃ r ∈ pt.aFile ++ pt.bFile, r.isField 0 category 192 1) ∧
        ∃ r ∈ pt.aFile ++ pt.bFile, r.isField 0 category 193 1) := by
  constructor
  · intro h
    exact h.net category hcategory
  · intro h
    refine ⟨fun hv => absurd hv hsf, fun c hc htwo => ?_⟩
    obtain rfl := Option.some.inj (hcategory.symm.trans hc)
    exact h htwo

theorem supplied_snowfall_iff (hv : pt.varName = timeIntegratedSnowFallWaterEquivalent) :
    pt.Supplied ↔
      (∃ r ∈ pt.aFile, r.isParameter 0 1 8) ∧ ∃ r ∈ pt.aFile, r.isParameter 0 1 195 := by
  constructor
  · intro h
    exact h.snowfall hv
  · intro h
    refine ⟨fun _ => h, fun category hcategory => ?_⟩
    rw [hv] at hcategory
    cases hcategory

end Supply

/-- A load that was asked for, past hour 0. The loaders differ in what they notice to be
missing, so each variable has its own case. -/
theorem honest_iff_supplied (hhour : pt.hour ≠ 0) (hq : requested q pt.varName = true) :
    pt.Honest ↔ pt.Supplied := by
  have hresult := pt.result_eq hq hhour
  have hmem : .load pt.varName pt.protect ∈ hourBody :=
    pt.body ▸ List.mem_append_right _ List.mem_cons_self
  cases hv : pt.varName <;> rw [hv] at hresult hmem
  case timeIntegratedOutgoingLongWaveRadiation =>
    exact iff_of_true (honest_flux hresult (fun m => by rw [hv]; rfl) (by rw [hv]; rfl))
      (supplied_of_flux (by rw [hv]; decide) (by rw [hv]; rfl))
  case timeIntegratedSurfaceLatentHeatFlux =>
    exact iff_of_true (honest_flux hresult (fun m => by rw [hv]; rfl) (by rw [hv]; rfl))
      (supplied_of_flux (by rw [hv]; decide) (by rw [hv]; rfl))
  case timeIntegratedSurfaceSensibleHeatFlux =>
    exact iff_of_true (honest_flux hresult (fun m => by rw [hv]; rfl) (by rw [hv]; rfl))
      (supplied_of_flux (by rw [hv]; decide) (by rw [hv]; rfl))
  case timeIntegratedSurfaceNetSolarRadiation =>
    rw [supplied_net_iff (show netCategory pt.varName = some 4 by rw [hv]; rfl)
      (by rw [hv]; decide)]
    exact honest_net_iff hhour hresult (fun m => by rw [hv]; rfl) (by rw [hv]; rfl)
  case timeIntegratedSurfaceNetThermalRadiation =>
    rw [supplied_net_iff (show netCategory pt.varName = some 5 by rw [hv]; rfl)
      (by rw [hv]; decide)]
    exact honest_net_iff hhour hresult (fun m => by rw [hv]; rfl) (by rw [hv]; rfl)
  case timeIntegratedSnowFallWaterEquivalent =>
    rw [supplied_snowfall_iff hv]
    exact honest_snowfall_iff hhour hv hresult
  case totalPrecipitation =>
    rw [hv] at hq
    exact iff_of_true (honest_precipitation (pt.count_ne_zero hq hhour) hv hresult)
      (supplied_of_flux (by rw [hv]; decide) (by rw [hv]; rfl))
  -- the other variables are not loaded
  all_goals simp [hourBody] at hmem

/-- A load of a run appends no placeholder past hour 0, and nothing without the needed records,
exactly when it was not asked for at such an hour or is supplied with what its loader does not
notice to be missing. -/
theorem honest_iff : pt.Honest ↔
    (pt.hour ≠ 0 → requested q pt.varName = true → pt.Supplied) := by
  by_cases hhour : pt.hour = 0
  · exact ⟨fun _ h => absurd hhour h, fun _ => ⟨fun _ _ _ => hhour, fun h => absurd hhour h⟩⟩
  by_cases hq : requested q pt.varName = true
  · rw [honest_iff_supplied pt hhour hq]
    exact ⟨fun h _ _ => h, fun h => h hhour hq⟩
  · refine ⟨fun _ _ h => absurd h hq, fun _ => ⟨fun m hm => ?_, fun _ _ => pt.result_eq_none hq⟩⟩
    rw [pt.result_eq_none hq] at hm
    cases hm

/-- Files that hold a total precipitation but no categorical snowfall. -/
def rainOnly : Str → Option (List (GribRecord (getNPoints ⟨2021, 1, 1, 0⟩))) :=
  fun _ => some (recordsOf [⟨0, 1, 8, 1, 0⟩])

/-- The load of `sf` at the second hour of the first member of a run for `sf` alone. -/
def snowfallWithoutSnow : LoadPoint plainApi plainNaming ⟨2021, 1, 1, 0⟩ rainOnly
    (fillQueueWithBogusData.set 0 timeIntegratedSnowFallWaterEquivalent) where
  em := 0
  hour := 1
  before := hourBody.take 11
  varName := timeIntegratedSnowFallWaterEquivalent
  protect := false
  after := []
  body := rfl
  aFile := recordsOf [⟨0, 1, 8, 1, 0⟩]
  bFile := recordsOf [⟨0, 1, 8, 1, 0⟩]
  opened := rfl
  running := rfl

/-- Six hours into the forecast a field of zeros is stored as snowfall. -/
theorem not_honest : ¬ snowfallWithoutSnow.Honest := by
  have hhour : snowfallWithoutSnow.hour ≠ 0 := Nat.one_ne_zero
  rw [honest_snowfall_iff hhour rfl (snowfallWithoutSnow.result_eq (by decide) hhour)]
  rintro ⟨-, r, hr, hsnow⟩
  obtain rfl := List.mem_singleton.mp hr
  cases hsnow

end LoadPoint
end Tigge
