import Tigge.Fabrication
import Tigge.TwoRuns

/-! Two runs over the same files with different queues: what they write for a product that
both were asked for. -/

namespace Tigge
open Lib TiggeVariable
variable {n : ℕ} {σ : Type}

/-- The two runs wrote the same files for `v`, with the same values. -/
def SameOutputs (v : TiggeVariable) (st st' : RunState n) : Prop :=
  ∀ o : Output n, o.varName = v → (o ∈ st.written ↔ o ∈ st'.written)

section Passed

/-- The records behind the positions of the two files. -/
def passed (f : NcepFiles n) : List (GribRecord n) := f.aFile.consumed ++ f.bFile.consumed

/-- A record that the search of a variable looks for has not been passed over. `sf` and `st`
rewind first, the zeros of `tp` and of the snowfall at hour 0 are not searched, and a second file
is searched only after the first. -/
def Unpassed (f : NcepFiles n) (hour count : ℕ) : TiggeVariable → Prop
  | timeIntegratedOutgoingLongWaveRadiation => ∀ r ∈ passed f, r.isField 0 5 193 8 = false
  | timeIntegratedSurfaceLatentHeatFlux => ∀ r ∈ passed f, r.isField 0 0 10 1 = false
  | timeIntegratedSurfaceSensibleHeatFlux => ∀ r ∈ passed f, r.isField 0 0 11 1 = false
  | timeIntegratedSurfaceNetSolarRadiation => ∀ r ∈ passed f, netWanted 4 r = false
  | timeIntegratedSurfaceNetThermalRadiation => ∀ r ∈ passed f, netWanted 5 r = false
  | totalPrecipitation => count ≠ 0 → ∀ r ∈ f.aFile.consumed, r.isParameter 0 1 8 = false
  | snowFallWaterEquivalent => hour ≠ 0 → ∀ r ∈ f.aFile.consumed, r.isParameter 0 1 195 = false
  | totalColumnWater => (∀ r ∈ f.aFile.consumed, r.isField 0 1 3 200 = false) ∧
      ((∃ r ∈ f.aFile.rest, r.isField 0 1 3 200 = true) →
        ∀ r ∈ f.bFile.consumed, r.isField 0 6 6 200 = false)
  | potentialTemperature => ∀ r ∈ f.bFile.consumed,
      r.isField 0 3 0 109 = false ∧ r.isField 0 0 0 109 = false
  | soilMoisture => (∀ r ∈ f.bFile.consumed, r.isSoilLayer 192 = false) ∧
      ((∃ r ∈ f.bFile.rest, r.isSoilLayer 192 = true) →
        ∀ r ∈ f.aFile.consumed, r.isSoilLayer 192 = false)
  | _ => True

variable {f g : NcepFiles n} {api : GribApi n}

theorem ahead_rewind_filter {p : GribRecord n → Bool} (h : ∀ r ∈ passed f, p r = false) :
    (f.rewind.aFile.rest ++ f.rewind.bFile.rest).filter p =
      (f.aFile.rest ++ f.bFile.rest).filter p := by
  have ha : f.aFile.rewind.rest.filter p = f.aFile.rest.filter p :=
    RecordStream.filter_rewind fun r hr => h r (List.mem_append_left _ hr)
  have hb : f.bFile.rewind.rest.filter p = f.bFile.rest.filter p :=
    RecordStream.filter_rewind fun r hr => h r (List.mem_append_right _ hr)
  rw [NcepFiles.rewind, List.filter_append, List.filter_append, ha, hb]

theorem loadFlux_unpassed {category number level : ℤ} (ignore : Bool)
    (h : ∀ r ∈ passed f, r.isField 0 category number level = false) :
    (loadFlux api category number level ignore f).result =
      (loadFlux api category number level ignore f.rewind).result := by
  rw [loadFlux_result_or, loadFlux_result_or, ahead_rewind_filter h]

theorem loadNetRadiation_unpassed {category : ℤ} (ignore : Bool)
    (h : ∀ r ∈ passed f, netWanted category r = false) :
    (loadNetRadiation api category ignore f).result =
      (loadNetRadiation api category ignore f.rewind).result := by
  have hfilter : (f.rewind.aFile.rest ++ f.rewind.bFile.rest).filter
      (fun r => r.isField 0 category 193 1 || r.isField 0 category 192 1) = _ :=
    ahead_rewind_filter h
  rw [loadNetRadiation_result_or, loadNetRadiation_result_or, hfilter]

theorem loadRecord_unpassed {v : TiggeVariable} {hour count : ℕ} (ignore : Bool)
    (h : Unpassed f hour count v) : (loadRecord api v ignore count f).result =
      (loadRecord api v ignore count f.rewind).result := by
  cases v with
  | timeIntegratedOutgoingLongWaveRadiation => exact loadFlux_unpassed ignore h
  | timeIntegratedSurfaceLatentHeatFlux => exact loadFlux_unpassed ignore h
  | timeIntegratedSurfaceSensibleHeatFlux => exact loadFlux_unpassed ignore h
  | timeIntegratedSurfaceNetSolarRadiation => exact loadNetRadiation_unpassed ignore h
  | timeIntegratedSurfaceNetThermalRadiation => exact loadNetRadiation_unpassed ignore h
  | totalPrecipitation =>
    show (loadDataForTotalPrecipitation count f).result =
      (loadDataForTotalPrecipitation count f.rewind).result
    by_cases hcount : count = 0
    · rw [loadDataForTotalPrecipitation, loadDataForTotalPrecipitation, if_pos hcount,
        if_pos hcount]
    · rw [loadDataForTotalPrecipitation_result hcount, loadDataForTotalPrecipitation_result hcount,
        NcepFiles.rewind, RecordStream.find?_rewind (h hcount)]
  | _ => rfl

/-- Records that are not collected may be passed over or not. -/
theorem scanHemispheres_skip (found : HemisphereRecords n) {l rest : List (GribRecord n)}
    (h : ∀ r ∈ l, r.isField 0 3 0 109 = false ∧ r.isField 0 0 0 109 = false) :
    scanHemispheres found (l ++ rest) = scanHemispheres found rest := by
  induction l with
  | nil => rfl
  | cons r l ih =>
    obtain ⟨hpressure, htemperature⟩ := h r List.mem_cons_self
    have htake : found.take r = found := by
      simp [HemisphereRecords.take, hpressure, htemperature]
    rw [List.cons_append, ← ih fun r' hr' => h r' (List.mem_cons_of_mem _ hr')]
    conv_lhs => rw [scanHemispheres.eq_def]
    dsimp only
    split
    · rw [scanHemispheres.eq_def]
    · rw [htake]

theorem generateInstant_unpassed {v : TiggeVariable} {hour count : ℕ}
    (h : Unpassed f hour count v) : (generateInstant api v (6 * hour) f).result =
      (generateInstant api v (6 * hour) f.rewind).result := by
  cases v with
  | snowFallWaterEquivalent =>
    show (generateSnowFallWaterEquivalent (6 * hour) f).result =
      (generateSnowFallWaterEquivalent (6 * hour) f.rewind).result
    by_cases hhour : hour = 0
    · rw [hhour]
      rfl
    · have hfff : 6 * hour ≠ 0 := by omega
      have hfirst := RecordStream.find?_rewind (h hhour)
      rw [generateSnowFallWaterEquivalent, generateSnowFallWaterEquivalent, if_neg hfff,
        if_neg hfff]
      simp only [NcepFiles.rewind, RecordStream.seek_fst, hfirst, RecordStream.seek_rewind,
        RecordStream.rewind_rewind]
      cases f.aFile.rest.find? (·.isParameter 0 1 195) with
      | none => rfl
      | some snow => cases f.aFile.rewind.rest.find? (·.isParameter 0 1 8) <;> rfl
  | totalColumnWater =>
    obtain ⟨ha, hb⟩ := h
    show (generateTotalColumnWater f).result = (generateTotalColumnWater f.rewind).result
    simp only [generateTotalColumnWater, NcepFiles.rewind, RecordStream.seek_fst,
      RecordStream.find?_rewind ha]
    cases hfind : f.aFile.rest.find? (·.isField 0 1 3 200) with
    | none => rfl
    | some precipWater =>
      have hfound : precipWater.isField 0 1 3 200 = true :=
        List.find?_some (p := fun r : GribRecord n => r.isField 0 1 3 200) hfind
      rw [RecordStream.find?_rewind (hb ⟨_, List.mem_of_find?_eq_some hfind, hfound⟩)]
      cases f.bFile.rest.find? (·.isField 0 6 6 200) <;> rfl
  | potentialTemperature =>
    show (generatePotentialTemperature api f).result =
      (generatePotentialTemperature api f.rewind).result
    have hscan : scanHemispheres {} f.rewind.bFile.rest = scanHemispheres {} f.bFile.rest :=
      scanHemispheres_skip {} h
    rw [generatePotentialTemperature, generatePotentialTemperature, hscan]
    cases scanHemispheres {} f.bFile.rest <;> rfl
  | soilMoisture =>
    obtain ⟨hb, ha⟩ := h
    show (generateSoilMoisture f).result = (generateSoilMoisture f.rewind).result
    simp only [generateSoilMoisture, NcepFiles.rewind, RecordStream.seek_fst,
      RecordStream.find?_rewind hb]
    cases hfind : f.bFile.rest.find? (·.isSoilLayer 192) with
    | none => rfl
    | some upper =>
      have hfound : upper.isSoilLayer 192 = true :=
        List.find?_some (p := fun r : GribRecord n => r.isSoilLayer 192) hfind
      rw [RecordStream.find?_rewind (ha ⟨_, List.mem_of_find?_eq_some hfind, hfound⟩)]
      cases f.aFile.rest.find? (·.isSoilLayer 192) <;> rfl
  | _ => rfl

variable {naming : InputNaming} {d : CycleDate} {contents : Str → Option (List (GribRecord n))}

/-- Where nothing was passed over, the positions of the files do not matter. -/
theorem sameSearch_of_unpassed {s : Statement} {hour count : ℕ} (hfiles : f.rewind = g.rewind)
    (hf : Unpassed f hour count s.varName) (hg : Unpassed g hour count s.varName) :
    SameSearch (ncepSource api naming d contents) hour count f g s := by
  cases s with
  | load v b =>
    exact (loadRecord_unpassed _ hf).trans (hfiles ▸ (loadRecord_unpassed _ hg).symm)
  | generate v =>
    exact (generateInstant_unpassed hf).trans (hfiles ▸ (generateInstant_unpassed hg).symm)

end Passed

/-- What a run owes the product `v`: no search has passed over a record that its own search looks
for and, while the member's or a later file of `v` is still to come, the loads of the other
time-integrated variables of the member have stored their records. -/
structure Undisturbed (S : Source n (NcepFiles n)) (q : ProcessQueue) (members : ℕ)
    (v : TiggeVariable) : Prop where
  unpassed : ∀ em < members, ∀ hour < hoursPerMember, (hourStart S q em hour).halted = false →
    ∀ f, S.fopen em (6 * hour) = some f →
      Unpassed (atStatement S q em hour f v).2 hour
        ((atStatement S q em hour f v).1.stores v).numberOfSavedRecords v
  stored : ∀ em < members, (hourStart S q em hoursPerMember).halted = false →
    ∀ w ∈ integrators, w ≠ v → requested q w →
      em + 1 < members ∨ [w, v].Sublist integrators →
        ∀ hour < hoursPerMember, ∀ f, S.fopen em (6 * hour) = some f →
          ∀ b, .load w b ∈ hourBody → (loadResult S q hour (atStatement S q em hour f w).1
            (atStatement S q em hour f w).2 w b).isSome

section Runs
variable {api : GribApi n} {naming : InputNaming} {d : CycleDate}
  {contents : Str → Option (List (GribRecord n))} {q q' : ProcessQueue} {members em : ℕ}
  {v w : TiggeVariable}

theorem atStatement_rewind {hour : ℕ} {f : NcepFiles n}
    (hopen : (ncepSource api naming d contents).fopen em (6 * hour) = some f) (v : TiggeVariable) :
    (atStatement (ncepSource api naming d contents) q em hour f v).2.rewind = f :=
  (foldl_runStatement_rewind em hour _ _).trans (ncepSource_fopen_rewind hopen)

theorem hourStart_alike (hv : v ∈ products) (hq : requested q v) (hq' : requested q' v)
    (h : Undisturbed (ncepSource api naming d contents) q members v)
    (h' : Undisturbed (ncepSource api naming d contents) q' members v) (hem : em < members)
    (hstart : Alike v (hourStart (ncepSource api naming d contents) q em 0)
      (hourStart (ncepSource api naming d contents) q' em 0)) {k : ℕ} (hk : k ≤ hoursPerMember) :
    Alike v (hourStart (ncepSource api naming d contents) q em k)
      (hourStart (ncepSource api naming d contents) q' em k) := by
  induction k with
  | zero => exact hstart
  | succ k ih =>
    have hsame := ih (by omega)
    refine hourStart_succ_alike hv hq hq' hsame fun hrunning f hopen s hs hsv => ?_
    subst hsv
    have hstore := (((atStatement_alike _ q em k f s.varName).symm.trans hsame).trans
      (atStatement_alike _ q' em k f s.varName)).store
    refine sameSearch_of_unpassed ?_ (h.unpassed em hem k (by omega) hrunning f hopen) ?_
    · rw [atStatement_rewind hopen, atStatement_rewind hopen]
    · rw [hstore]
      exact h'.unpassed em hem k (by omega) (hsame.halted ▸ hrunning) f hopen

/-- What an hour makes of the store of a time-integrated variable. -/
theorem hourStart_succ_stores {S : Source n σ} {k : ℕ} {f : σ} {b : Bool}
    (hrunning : (hourStart S q em k).halted = false) (hopen : S.fopen em (6 * k) = some f)
    (hs : .load w b ∈ hourBody) : (hourStart S q em (k + 1)).stores w =
      ((hourStart S q em k).stores w).assign (loadResult S q k (atStatement S q em k f w).1
        (atStatement S q em k f w).2 w b) := by
  obtain ⟨after, hbody, hafter⟩ := hourBody_split hs
  replace hafter : w ∉ after.map Statement.varName := hafter
  have hbefore := (atStatement_alike S q em k f w).store
  rw [hourStart_succ_of_open hrunning hopen, hbody, List.foldl_append, List.foldl_cons,
    foldl_runStatement_stores_of_notMem S q em k hafter, hbefore]
  exact runStatement_load_stores S q em k (atStatement S q em k f w) w b

theorem unrequested_holds {S : Source n σ} (hw : w ∈ integrators) (hq : ¬ requested q w)
    (hstart : ((hourStart S q em 0).stores w).Holds []) (k : ℕ) :
    ((hourStart S q em k).stores w).Holds [] := by
  induction k with
  | zero => exact hstart
  | succ k ih =>
    cases hrunning : (hourStart S q em k).halted with
    | true =>
      rw [hourStart_succ_of_halted hrunning]
      exact ih
    | false =>
      cases hopen : S.fopen em (6 * k) with
      | none =>
        rw [hourStart_succ_of_none hopen]
        exact ih
      | some f =>
        obtain ⟨b, hs⟩ := exists_load_of_integrated hw
        rw [hourStart_succ_stores hrunning hopen hs, loadResult, if_neg hq]
        exact ⟨ih.count, fun h => absurd rfl h, fun i _ hi => by simp at hi⟩

/-- The records of a variable all of whose loads have stored one. -/
theorem stored_holds (hw : w ∈ integrators) (hq : requested q w)
    (hstart : ((hourStart (ncepSource api naming d contents) q em 0).stores w).Holds []) {k : ℕ}
    (hrunning : (hourStart (ncepSource api naming d contents) q em k).halted = false)
    (hstored : ∀ hour < k, ∀ f, (ncepSource api naming d contents).fopen em (6 * hour) = some f →
      ∀ b, .load w b ∈ hourBody → (loadResult (ncepSource api naming d contents) q hour
        (atStatement (ncepSource api naming d contents) q em hour f w).1
        (atStatement (ncepSource api naming d contents) q em hour f w).2 w b).isSome) :
    ∃ records, ((hourStart (ncepSource api naming d contents) q em k).stores w).Holds records ∧
      records.length = k ∧ ∀ i < k, w = totalPrecipitation ∧ i = 0 ∨
        ∃ r, records[i]? = some (.grib r) := by
  induction k with
  | zero => exact ⟨[], hstart, rfl, fun i hi => absurd hi (Nat.not_lt_zero i)⟩
  | succ k ih =>
    obtain ⟨hrunning', f, hopen⟩ := running_of_succ hrunning
    obtain ⟨records, hholds, hlength, hgrib⟩ := ih hrunning' fun hour hh =>
      hstored hour (hh.trans k.lt_succ_self)
    obtain ⟨b, hs⟩ := exists_load_of_integrated hw
    obtain ⟨m, hm⟩ := Option.isSome_iff_exists.mp (hstored k k.lt_succ_self f hopen b hs)
    have hcount : ((atStatement (ncepSource api naming d contents) q em k f w).1.stores
        w).numberOfSavedRecords = k := by
      rw [← (atStatement_alike _ q em k f w).store, hholds.count, hlength]
    refine ⟨records ++ [m], ?_, by rw [List.length_append, hlength]; rfl, fun i hi => ?_⟩
    · rw [hourStart_succ_stores hrunning' hopen hs, hm]
      exact hholds.add m
    · rcases Nat.lt_succ_iff_lt_or_eq.mp hi with hi | rfl
      · refine (hgrib i hi).imp_right (Exists.imp fun r hr => ?_)
        rw [List.getElem?_append_left (hlength ▸ hi), hr]
      · rw [List.getElem?_append_right hlength.le, hlength, Nat.sub_self, List.getElem?_cons_zero]
        rw [loadResult, if_pos hq, hcount] at hm
        exact (loadRecord_grib hm).imp_right (Exists.imp fun _ hr => congrArg some hr)

/-- The other products hold nothing, unless the process has stopped. -/
def OthersEmpty (v : TiggeVariable) (st : RunState n) : Prop :=
  st.halted = false → ∀ w ∈ integrators, w ≠ v → (st.stores w).Holds []

theorem Undisturbed.getsThrough (h : Undisturbed (ncepSource api naming d contents) q members v)
    (hem : em < members)
    (hempty : OthersEmpty v (hourStart (ncepSource api naming d contents) q em 0))
    (hrunning : (hourStart (ncepSource api naming d contents) q em hoursPerMember).halted = false)
    (hw : w ∈ integrators) (hne : w ≠ v)
    (hpending : em + 1 < members ∨ [w, v].Sublist integrators) :
    (∃ records, ((hourStart (ncepSource api naming d contents) q em hoursPerMember).stores
      w).Holds records) ∧
      GetsThrough q em (hourStart (ncepSource api naming d contents) q em hoursPerMember) w := by
  have hstart := hempty (running_of_le hrunning (Nat.zero_le _)) w hw hne
  by_cases hq : requested q w
  · obtain ⟨records, hholds, -, hgrib⟩ := stored_holds hw hq hstart hrunning
      (h.stored em hem hrunning w hw hne hq hpending)
    exact ⟨⟨records, hholds⟩, fun _ => (integrate_readable w em hholds hgrib).1⟩
  · exact ⟨⟨[], unrequested_holds hw hq hstart _⟩, fun hreq => absurd hreq hq⟩

theorem foldl_runIntegrator_stores (q : ProcessQueue) (em : ℕ) (st : RunState n)
    (vs : List TiggeVariable) : (vs.foldl (runIntegrator q em) st).stores = st.stores :=
  List.foldlRecOn (motive := fun r : RunState n => r.stores = st.stores) _ _ rfl
    fun r hr w _ => (runIntegrator_stores q em r w).trans hr

theorem running_of_integrators {st : RunState n} {vs : List TiggeVariable}
    (h : (vs.foldl (runIntegrator q em) st).halted = false) : st.halted = false := by
  cases hhalted : st.halted with
  | false => rfl
  | true =>
    have hsame : vs.foldl (runIntegrator q em) st = st := by
      induction vs with
      | nil => rfl
      | cons w vs ih =>
        rw [List.foldl_cons] at h ⊢
        rw [runIntegrator, if_pos hhalted] at h ⊢
        exact ih h
    rw [hsame, hhalted] at h
    cases h

/-- One member of both runs, when another one follows. -/
theorem runMembers_succ_alike (hv : v ∈ products) (hq : requested q v) (hq' : requested q' v)
    (h : Undisturbed (ncepSource api naming d contents) q members v)
    (h' : Undisturbed (ncepSource api naming d contents) q' members v) (hem : em + 1 < members)
    (hstart : Alike v (hourStart (ncepSource api naming d contents) q em 0)
      (hourStart (ncepSource api naming d contents) q' em 0))
    (hempty : OthersEmpty v (hourStart (ncepSource api naming d contents) q em 0))
    (hempty' : OthersEmpty v (hourStart (ncepSource api naming d contents) q' em 0)) :
    Alike v (hourStart (ncepSource api naming d contents) q (em + 1) 0)
        (hourStart (ncepSource api naming d contents) q' (em + 1) 0) ∧
      OthersEmpty v (hourStart (ncepSource api naming d contents) q (em + 1) 0) ∧
        OthersEmpty v (hourStart (ncepSource api naming d contents) q' (em + 1) 0) := by
  have hmember : em < members := by omega
  have hfreed : ∀ w ∈ freedVariables, w ∈ integrators := by decide
  have hall : ∀ w ∈ integrators, w ∈ freedVariables := by decide
  have hhold : ∀ {q : ProcessQueue},
      Undisturbed (ncepSource api naming d contents) q members v →
      OthersEmpty v (hourStart (ncepSource api naming d contents) q em 0) →
      OthersHold v (integrators.foldl (runIntegrator q em)
        (hourStart (ncepSource api naming d contents) q em hoursPerMember)) := by
    intro q h hempty hrunning w hw hne
    rw [foldl_runIntegrator_stores]
    exact (h.getsThrough hmember hempty (running_of_integrators hrunning) hw hne (.inl hem)).1
  have hhours := hourStart_alike hv hq hq' h h' hmember hstart le_rfl
  have hintegrated := foldl_runIntegrator_alike em hq hq' integrators hhours
    (fun hrunning w hw hne => (h.getsThrough hmember hempty hrunning hw hne (.inl hem)).2)
    (fun hrunning w hw hne => (h'.getsThrough hmember hempty' hrunning hw hne (.inl hem)).2)
  rw [hourStart_zero, hourStart_zero, runMembers_succ, runMembers_succ]
  refine ⟨foldl_runFree_alike hfreed hintegrated (hhold h hempty) (hhold h' hempty'), ?_, ?_⟩
  · exact fun hrunning w hw hne =>
      foldl_runFree_empty hfreed (hhold h hempty) hrunning hw hne (.inl (hall w hw))
  · exact fun hrunning w hw hne =>
      foldl_runFree_empty hfreed (hhold h' hempty') hrunning hw hne (.inl (hall w hw))

theorem runMembers_alike (hv : v ∈ products) (hq : requested q v) (hq' : requested q' v)
    (h : Undisturbed (ncepSource api naming d contents) q members v)
    (h' : Undisturbed (ncepSource api naming d contents) q' members v) (hem : em < members) :
    Alike v (hourStart (ncepSource api naming d contents) q em 0)
        (hourStart (ncepSource api naming d contents) q' em 0) ∧
      OthersEmpty v (hourStart (ncepSource api naming d contents) q em 0) ∧
        OthersEmpty v (hourStart (ncepSource api naming d contents) q' em 0) := by
  induction em with
  | zero =>
    exact ⟨Alike.refl v .initial, fun _ _ _ _ => VariableStore.initial_holds,
      fun _ _ _ _ => VariableStore.initial_holds⟩
  | succ em ih =>
    obtain ⟨hstart, hempty, hempty'⟩ := ih (by omega)
    exact runMembers_succ_alike hv hq hq' h h' hem hstart hempty hempty'

/-- The integrators of the last member, of which those after `v` may stop the process. -/
theorem integrators_outputsOf (hq : requested q v) (hq' : requested q' v) {st st' : RunState n}
    (hsame : Alike v st st')
    (h : st.halted = false → ∀ w ∈ integrators, w ≠ v → [w, v].Sublist integrators →
      GetsThrough q em st w)
    (h' : st'.halted = false → ∀ w ∈ integrators, w ≠ v → [w, v].Sublist integrators →
      GetsThrough q' em st' w) :
    outputsOf v (integrators.foldl (runIntegrator q em) st) =
      outputsOf v (integrators.foldl (runIntegrator q' em) st') := by
  by_cases hv : v ∈ integrators
  · obtain ⟨before, after, hsplit⟩ := List.append_of_mem hv
    have hnodup : integrators.Nodup := by decide
    have hbefore : ∀ w ∈ before, w ∈ integrators ∧ [w, v].Sublist integrators := by
      intro w hw
      rw [hsplit]
      exact ⟨List.mem_append_left _ hw, (List.singleton_sublist.mpr hw).append
        (List.singleton_sublist.mpr List.mem_cons_self)⟩
    rw [hsplit, List.nodup_append, List.nodup_cons] at hnodup
    have hpart := foldl_runIntegrator_alike em hq hq' before hsame
      (fun hrunning w hw hne => h hrunning w (hbefore w hw).1 hne (hbefore w hw).2)
      (fun hrunning w hw hne => h' hrunning w (hbefore w hw).1 hne (hbefore w hw).2)
    rw [hsplit, List.foldl_append, List.foldl_append, List.foldl_cons, List.foldl_cons,
      foldl_runIntegrator_outputsOf q em _ hnodup.2.1.1,
      foldl_runIntegrator_outputsOf q' em _ hnodup.2.1.1]
    exact (runIntegrator_both hq hq' hpart).outputs
  · rw [foldl_runIntegrator_outputsOf q em st hv, foldl_runIntegrator_outputsOf q' em st' hv]
    exact hsame.outputs

theorem run_outputsOf (hv : v ∈ products) (hq : requested q v) (hq' : requested q' v)
    (h : Undisturbed (ncepSource api naming d contents) q members v)
    (h' : Undisturbed (ncepSource api naming d contents) q' members v) :
    outputsOf v (run (ncepSource api naming d contents) q members) =
      outputsOf v (run (ncepSource api naming d contents) q' members) := by
  cases members with
  | zero => rfl
  | succ em =>
    have hem := em.lt_succ_self
    obtain ⟨hstart, hempty, hempty'⟩ := runMembers_alike hv hq hq' h h' hem
    have hhours := hourStart_alike hv hq hq' h h' hem hstart le_rfl
    rw [run, run, runMembers_succ, runMembers_succ, foldl_runFree_outputsOf,
      foldl_runFree_outputsOf]
    exact integrators_outputsOf hq hq' hhours
      (fun hrunning w hw hne hbefore =>
        (h.getsThrough hem hempty hrunning hw hne (.inr hbefore)).2)
      (fun hrunning w hw hne hbefore =>
        (h'.getsThrough hem hempty' hrunning hw hne (.inr hbefore)).2)

end Runs

/-- Where neither run disturbs a product, it does not depend on what else was requested, whatever
the files hold and whichever searches fail. -/
theorem main_noninterference (d : CycleDate) (api : GribApi (getNPoints d))
    (naming : InputNaming) (contents : Str → Option (List (GribRecord (getNPoints d))))
    (q q' : ProcessQueue) (v : TiggeVariable) (hv : v ∈ products) (hq : requested q v)
    (hq' : requested q' v)
    (h : Undisturbed (ncepSource api naming d contents) q (getNMembers d) v)
    (h' : Undisturbed (ncepSource api naming d contents) q' (getNMembers d) v) :
    SameOutputs v (main d api naming contents q) (main d api naming contents q') := by
  intro o ho
  have hmem : ∀ st : RunState (getNPoints d), o ∈ st.written ↔ o ∈ outputsOf v st := fun st => by
    rw [outputsOf, List.mem_filter, decide_eq_true ho, and_iff_left rfl]
  rw [hmem, hmem]
  exact iff_of_eq (congrArg (o ∈ ·) (run_outputsOf hv hq hq' h h'))

/-- Every record but the cloud water that `tcw` needs. -/
def cloudlessKeys : List GribKeys := searchedKeys.dropLast

def cloudlessSource : Source n (NcepFiles n) :=
  ncepSource plainApi plainNaming ⟨2021, 1, 1, 0⟩ fun _ => some (recordsOf cloudlessKeys)

def queueSt : ProcessQueue := fillQueueWithBogusData.set 0 soilTemperature

def queueTcwSt : ProcessQueue :=
  (fillQueueWithBogusData.set 0 totalColumnWater).set 1 soilTemperature

/-- `st` rewinds, so that no other product of a single hour disturbs it. -/
theorem undisturbed_soilTemperature (S : Source n (NcepFiles n)) {q : ProcessQueue}
    (hq : ∀ w ∈ integrators, ¬ requested q w) (members : ℕ) :
    Undisturbed S q members soilTemperature where
  unpassed _ _ _ _ _ _ _ := trivial
  stored _ _ _ w hw _ hreq _ := absurd hreq (hq w hw)

/-- `st` does not depend on `tcw`, which finds nothing and leaves the B file at its end. -/
theorem main_noninterference_st :
    SameOutputs soilTemperature
      (main ⟨2021, 1, 1, 0⟩ plainApi plainNaming (fun _ => some (recordsOf cloudlessKeys)) queueSt)
      (main ⟨2021, 1, 1, 0⟩ plainApi plainNaming (fun _ => some (recordsOf cloudlessKeys))
        queueTcwSt) :=
  main_noninterference ⟨2021, 1, 1, 0⟩ plainApi plainNaming _ queueSt queueTcwSt soilTemperature
    (by decide) (by decide) (by decide) (undisturbed_soilTemperature _ (by decide) _)
    (undisturbed_soilTemperature _ (by decide) _)

def queuePt : ProcessQueue := fillQueueWithBogusData.set 0 potentialTemperature

def queueTcwPt : ProcessQueue :=
  (fillQueueWithBogusData.set 0 totalColumnWater).set 1 potentialTemperature

theorem available_queuePt (members : ℕ) :
    Available (cloudlessSource : Source n (NcepFiles n)) queuePt members := by
  intro em _ hour _ s hs hq
  refine ⟨.opened (recordsOf cloudlessKeys) (recordsOf cloudlessKeys), rfl, ?_⟩
  obtain rfl : s = .generate potentialTemperature := by
    revert hq
    simp only [hourBody, List.mem_cons, List.not_mem_nil, or_false] at hs
    rcases hs with rfl | rfl | rfl | rfl | rfl | rfl | rfl | rfl | rfl | rfl | rfl | rfl <;> decide
  simp [Finds, cloudlessSource, ncepSource, generateInstant, generatePotentialTemperature,
    scanHemispheres, HemisphereRecords.take, recordsOf, cloudlessKeys, searchedKeys,
    GribRecord.isField, GribRecord.isParameter, NcepFiles.opened, RecordStream.opened]

theorem foldl_runStatement_idle (S : Source n σ) {q : ProcessQueue} (em hour : ℕ)
    {body : List Statement} (hq : ∀ s ∈ body, ¬ requested q s.varName) (p : RunState n × σ) :
    (body.foldl (runStatement S q em hour) p).1.written = p.1.written ∧
    (body.foldl (runStatement S q em hour) p).2 = p.2 := by
  refine List.foldlRecOn
    (motive := fun p' : RunState n × σ => p'.1.written = p.1.written ∧ p'.2 = p.2) _ _ ⟨rfl, rfl⟩
    fun p' hp s hs => ?_
  cases s with
  | load v b =>
    have hv : ¬ requested q v := hq _ hs
    rw [runStatement, if_neg hv]
    exact hp
  | generate v =>
    have hv : ¬ requested q v := hq _ hs
    rw [runStatement, if_neg hv]
    exact hp

/-- A variable that is not found leaves the output as it is and the files where it stopped. -/
theorem runStatement_generate_none (S : Source n σ) {q : ProcessQueue} {v : TiggeVariable}
    (hv : requested q v) (em hour : ℕ) (p : RunState n × σ)
    (hnone : (S.generate v (6 * hour) p.2).result = none) :
    (runStatement S q em hour p (.generate v)).1.written = p.1.written ∧
      (runStatement S q em hour p (.generate v)).2 = (S.generate v (6 * hour) p.2).files := by
  rw [runStatement, if_pos hv]
  dsimp only
  rw [hnone]
  exact ⟨List.append_nil _, rfl⟩

/-- Without cloud water `tcw` leaves the B file at its end. -/
theorem generateTotalColumnWater_cloudless :
    let f : NcepFiles n := .opened (recordsOf cloudlessKeys) (recordsOf cloudlessKeys)
    (generateTotalColumnWater f).result = none ∧
      (generateTotalColumnWater f).files.bFile.rest = [] := by
  constructor <;>
    simp [generateTotalColumnWater, RecordStream.seek, RecordStream.seekFrom, NcepFiles.opened,
      RecordStream.opened, recordsOf, cloudlessKeys, searchedKeys, GribRecord.isField,
      GribRecord.isParameter]

/-- At the end of the B file `pt` finds nothing. -/
theorem generatePotentialTemperature_exhausted (api : GribApi n) {f : NcepFiles n}
    (hf : f.bFile.rest = []) : (generatePotentialTemperature api f).result = none := by
  simp [generatePotentialTemperature, hf, scanHemispheres]

theorem runHour_cloudless (em : ℕ) (st : RunState n) (hour : ℕ) :
    (runHour cloudlessSource queueTcwPt em st hour).written = st.written := by
  let f : NcepFiles n := .opened (recordsOf cloudlessKeys) (recordsOf cloudlessKeys)
  obtain ⟨htcw, hend⟩ : (generateTotalColumnWater f).result = none ∧
    (generateTotalColumnWater f).files.bFile.rest = [] := generateTotalColumnWater_cloudless
  have hsplit : hourBody = hourBody.take 6 ++ ([.generate totalColumnWater,
      .generate potentialTemperature] ++ hourBody.drop 8) := rfl
  unfold runHour
  split_ifs
  · rfl
  · change (hourBody.foldl (runStatement cloudlessSource queueTcwPt em hour) (st, f)).1.written = _
    rw [hsplit, List.foldl_append, List.foldl_append, List.foldl_cons, List.foldl_cons,
      List.foldl_nil]
    obtain ⟨h1, h2⟩ := foldl_runStatement_idle cloudlessSource em hour
      (show ∀ s ∈ hourBody.take 6, ¬ requested queueTcwPt s.varName by decide) (st, f)
    obtain ⟨h3, h4⟩ := runStatement_generate_none cloudlessSource
      (show requested queueTcwPt totalColumnWater by decide) em hour
      ((hourBody.take 6).foldl (runStatement cloudlessSource queueTcwPt em hour) (st, f))
      (by rw [h2]; exact htcw)
    obtain ⟨h5, _⟩ := runStatement_generate_none cloudlessSource
      (show requested queueTcwPt potentialTemperature by decide) em hour _
      (by rw [h4, h2]; exact generatePotentialTemperature_exhausted plainApi hend)
    rw [(foldl_runStatement_idle cloudlessSource em hour
      (show ∀ s ∈ hourBody.drop 8, ¬ requested queueTcwPt s.varName by decide) _).1, h5, h3, h1]

theorem run_cloudless_written (members : ℕ) :
    (run (cloudlessSource : Source n (NcepFiles n)) queueTcwPt members).written = [] :=
  run_preserves _ members (fun st => st.written = []) (by decide) (fun _ _ _ h => h)
    (fun em st hour h => (runHour_cloudless em st hour).trans h) rfl

theorem run_queuePt_written :
    ∃ o ∈ (run (cloudlessSource : Source n (NcepFiles n)) queuePt 31).written,
      o.varName = potentialTemperature := by
  have hs := served_of_available (available_queuePt (n := n) 31) ⟨.generate potentialTemperature,
    by decide, by decide⟩
  have hk : (potentialTemperature, 6 * 0, 0) ∈
      (run (cloudlessSource : Source n (NcepFiles n)) queuePt 31).written.map outputKey := by
    rw [cloudlessSource, run_keys hs, mem_run_keys]
    exact ⟨by decide, by decide, by decide, 0, by rw [hoursPerMember]; decide, rfl⟩
  obtain ⟨o, ho, hkey⟩ := List.mem_map.mp hk
  exact ⟨o, ho, congrArg Prod.fst hkey⟩

/-- A product that lacks its record takes another product of the hour with it. -/
theorem main_interference :
    ¬ ∀ (d : CycleDate) (api : GribApi (getNPoints d)) (naming : InputNaming)
      (contents : Str → Option (List (GribRecord (getNPoints d)))) (q q' : ProcessQueue)
      (v : TiggeVariable), v ∈ products → requested q v → requested q' v →
      SameOutputs v (main d api naming contents q)
        (main d api naming contents q') := by
  intro h
  have hsame := h ⟨2021, 1, 1, 0⟩ plainApi plainNaming (fun _ => some (recordsOf cloudlessKeys))
    queuePt queueTcwPt potentialTemperature (by decide) (by decide) (by decide)
  obtain ⟨o, ho, hv⟩ := run_queuePt_written (n := getNPoints ⟨2021, 1, 1, 0⟩)
  have hmem := (hsame o hv).mp ho
  have hnone := run_cloudless_written (n := getNPoints ⟨2021, 1, 1, 0⟩) 31
  change o ∈ (run cloudlessSource queueTcwPt 31).written at hmem
  rw [hnone] at hmem
  exact absurd hmem List.not_mem_nil

end Tigge
