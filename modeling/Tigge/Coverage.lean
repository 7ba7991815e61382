import Tigge.Steady

/-! A complete run over the A and B files of a cycle: what it searches and what it writes. -/

namespace Tigge
open Lib TiggeVariable
variable {n : ℕ} {σ : Type}

/-- The files of a cycle, found by name under `TIGGE_INPUT`. -/
def ncepSource (api : GribApi n) (naming : InputNaming) (d : CycleDate)
    (contents : Str → Option (List (GribRecord n))) : Source n (NcepFiles n) where
  fopen em fff :=
    ((generateInputFilename naming .aFile d fff em).bind contents).bind fun a =>
      ((generateInputFilename naming .bFile d fff em).bind contents).map fun b =>
        NcepFiles.opened a b
  load := loadRecord api
  generate := generateInstant api

/-- The search of a statement succeeds on the given files. A load of hour `6 * hour` comes
after one load for each earlier hour of the member. -/
def Finds (S : Source n σ) (hour : ℕ) (f : σ) : Statement → Prop
  | .load v protect => (S.load v (protect && hour = 0) hour f).result.isSome
  | .generate v => (S.generate v (6 * hour) f).result.isSome

/-- Each requested product finds its records with both files read from their beginning. -/
def Available (S : Source n σ) (q : ProcessQueue) (members : ℕ) : Prop :=
  ∀ em < members, ∀ hour < hoursPerMember, ∀ s ∈ hourBody, requested q s.varName →
    ∃ f, S.fopen em (6 * hour) = some f ∧ Finds S hour f s

/-- The loads that `main` makes while missing input may be ignored. -/
def isProtected (v : TiggeVariable) : Bool := Statement.load v true ∈ hourBody

theorem load_isProtected {v : TiggeVariable} {p : Bool} (h : Statement.load v p ∈ hourBody) :
    p = isProtected v := by
  cases p with
  | true => exact (decide_eq_true h).symm
  | false =>
    refine (decide_eq_false fun h' => ?_).symm
    simp only [hourBody, List.mem_cons, Statement.load.injEq, reduceCtorEq, List.not_mem_nil,
      or_false, false_or, Bool.false_eq_true, Bool.true_eq_false, and_false, and_true] at h h'
    rcases h with rfl | rfl <;> simp at h'

def foundRecord (S : Source n σ) (v : TiggeVariable) (em hour : ℕ) : Message n :=
  ((S.fopen em (6 * hour)).bind fun f =>
    (S.load v (isProtected v && hour = 0) hour f).result).getD (.zeros 0)

def foundField (S : Source n σ) (v : TiggeVariable) (em hour : ℕ) : Fin n → ℚ :=
  ((S.fopen em (6 * hour)).bind fun f => (S.generate v (6 * hour) f).result).getD 0

/-- A record that is loaded is a GRIB message, but for the first of `tp`. -/
theorem loadRecord_grib {api : GribApi n} {v : TiggeVariable} {ignore : Bool} {count : ℕ}
    {f : NcepFiles n} {m : Message n} (h : (loadRecord api v ignore count f).result = some m) :
    v = totalPrecipitation ∧ count = 0 ∨ ∃ r, m = .grib r := by
  have hflux : ∀ c p l, (loadFlux api c p l ignore f).result = some m → ∃ r, m = .grib r := by
    intro c p l hm
    unfold loadFlux at hm
    dsimp only at hm
    split at hm
    · exact ⟨_, (Option.some.inj hm).symm⟩
    · cases hm
  have hnet : ∀ c, (loadNetRadiation api c ignore f).result = some m → ∃ r, m = .grib r := by
    intro c hm
    unfold loadNetRadiation at hm
    dsimp only at hm
    split at hm
    · cases hm
    · split at hm
      · cases hm
      · exact ⟨_, (Option.some.inj hm).symm⟩
  cases v with
  | timeIntegratedOutgoingLongWaveRadiation => exact .inr (hflux _ _ _ h)
  | timeIntegratedSurfaceLatentHeatFlux => exact .inr (hflux _ _ _ h)
  | timeIntegratedSurfaceSensibleHeatFlux => exact .inr (hflux _ _ _ h)
  | timeIntegratedSurfaceNetSolarRadiation => exact .inr (hnet _ h)
  | timeIntegratedSurfaceNetThermalRadiation => exact .inr (hnet _ h)
  | timeIntegratedSnowFallWaterEquivalent => exact .inr ⟨_, (Option.some.inj h).symm⟩
  | totalPrecipitation =>
    rw [loadRecord, loadDataForTotalPrecipitation] at h
    by_cases hc : count = 0
    · exact .inl ⟨rfl, hc⟩
    · rw [if_neg hc] at h
      dsimp only at h
      split at h
      · cases h
      · exact .inr ⟨_, (Option.some.inj h).symm⟩
  | _ => cases h

section
variable {api : GribApi n} {naming : InputNaming} {d : CycleDate}
  {contents : Str → Option (List (GribRecord n))} {q : ProcessQueue} {members : ℕ}

theorem ncepSource_fopen_rewind {em fff : ℕ} {f : NcepFiles n}
    (h : (ncepSource api naming d contents).fopen em fff = some f) : f.rewind = f := by
  simp only [ncepSource, Option.bind_eq_some_iff, Option.map_eq_some_iff] at h
  obtain ⟨a, _, b, _, rfl⟩ := h
  rfl

/-- When every requested product is available the run is served. -/
theorem served_of_available
    (h : Available (ncepSource api naming d contents) q members)
    (hq : ∃ s ∈ hourBody, requested q s.varName) :
    Served (ncepSource api naming d contents) q members
      (foundRecord (ncepSource api naming d contents))
      (foundField (ncepSource api naming d contents)) := by
  obtain ⟨s₀, hs₀, hq₀⟩ := hq
  refine ⟨fun em hem hour hh => ?_, fun v hv hqv em hem hour hh => ?_⟩
  · obtain ⟨f, hf, _⟩ := h em hem hour hh s₀ hs₀ hq₀
    have hrew := ncepSource_fopen_rewind hf
    refine ⟨f, hf, fun s hs hqs => ?_⟩
    obtain ⟨g, hg, hfind⟩ := h em hem hour hh s hs hqs
    obtain rfl : f = g := Option.some.inj (hf.symm.trans hg)
    cases s with
    | load v p =>
      obtain ⟨m, hm⟩ := Option.isSome_iff_exists.mp hfind
      have hp := load_isProtected hs
      have hrest := loadRecord_restores hrew api v (p && hour = 0) hour
      refine ⟨?_, hrest.files hfind, hrest.started⟩
      dsimp only
      rw [foundRecord, hf, Option.bind_some, ← hp, hm, Option.getD_some]
    | generate v =>
      obtain ⟨m, hm⟩ := Option.isSome_iff_exists.mp hfind
      have hrest := generateInstant_restores hrew api v (6 * hour)
      refine ⟨?_, hrest.files hfind, hrest.started⟩
      dsimp only
      rw [foundField, hf, Option.bind_some, hm, Option.getD_some]
  · obtain ⟨p, hm⟩ := exists_load_of_integrated hv
    obtain ⟨f, hf, hfind⟩ := h em hem hour hh _ hm hqv
    obtain ⟨m, hsome⟩ := Option.isSome_iff_exists.mp hfind
    rw [foundRecord, hf, Option.bind_some, ← load_isProtected hm, hsome, Option.getD_some]
    exact loadRecord_grib hsome

end

/-! The names written by a served run. -/

def instants : List TiggeVariable :=
  [snowFallWaterEquivalent, totalColumnWater, potentialTemperature, soilMoisture, soilTemperature]

def products : List TiggeVariable := instants ++ integrators

def instantKeys (q : ProcessQueue) (em hour : ℕ) : List (TiggeVariable × ℕ × ℕ) :=
  instants.flatMap fun v => if requested q v then [(v, 6 * hour, em)] else []

def integratedKeys (q : ProcessQueue) (em : ℕ) (v : TiggeVariable) :
    List (TiggeVariable × ℕ × ℕ) :=
  if requested q v then (List.range hoursPerMember).map fun hour => (v, 6 * hour, em) else []

def memberKeys (q : ProcessQueue) (em : ℕ) : List (TiggeVariable × ℕ × ℕ) :=
  (List.range hoursPerMember).flatMap (instantKeys q em) ++
    integrators.flatMap (integratedKeys q em)

section
variable {S : Source n σ} {q : ProcessQueue} {members : ℕ}
  {loaded : TiggeVariable → ℕ → ℕ → Message n} {made : TiggeVariable → ℕ → ℕ → Fin n → ℚ}

theorem memberOutputs_keys (h : Served S q members loaded made) {em : ℕ} (hem : em < members) :
    (memberOutputs q loaded made em).map outputKey = memberKeys q em := by
  have hinst : ∀ hour, (hourOutputs q made em hour).map outputKey = instantKeys q em hour := by
    intro hour
    have he : hourOutputs q made em hour = instants.flatMap fun v =>
        if requested q v then [⟨v, 6 * hour, em, made v em hour⟩] else [] := rfl
    rw [he, instantKeys, List.map_flatMap]
    congr 1
    funext v
    split_ifs <;> rfl
  have hint : ∀ v ∈ integrators,
      (integratedOutputs q loaded em v).map outputKey = integratedKeys q em v := by
    intro v hv
    rw [integratedOutputs, integratedKeys]
    split_ifs with hq
    · exact (integrate_readable v em (storeOf_holds _) (readable_of_served h hv hq hem)).2.2
    · rfl
  rw [memberOutputs, memberKeys, List.map_append, List.map_flatMap, List.map_flatMap]
  simp only [hinst]
  congr 1
  exact List.flatMap_congr hint

theorem run_keys (h : Served S q members loaded made) :
    (run S q members).written.map outputKey = (List.range members).flatMap (memberKeys q) := by
  rw [(run_served h).written, List.map_append, List.map_flatMap]
  exact List.flatMap_congr fun em hem => memberOutputs_keys h (List.mem_range.mp hem)

theorem mem_memberKeys {em : ℕ} {v : TiggeVariable} {fff e : ℕ} :
    (v, fff, e) ∈ memberKeys q em ↔
      requested q v ∧ v ∈ products ∧ e = em ∧ ∃ hour < hoursPerMember, fff = 6 * hour := by
  simp only [memberKeys, instantKeys, integratedKeys, products, List.mem_append, List.mem_flatMap,
    List.mem_range, List.mem_ite_nil_right, List.mem_singleton, List.mem_map, Prod.mk.injEq]
  constructor
  · rintro (⟨hour, hh, w, hw, hq, rfl, rfl, rfl⟩ | ⟨w, hw, hq, hour, hh, rfl, rfl, rfl⟩)
    · exact ⟨hq, .inl hw, rfl, hour, hh, rfl⟩
    · exact ⟨hq, .inr hw, rfl, hour, hh, rfl⟩
  · rintro ⟨hq, hv | hv, rfl, hour, hh, rfl⟩
    · exact .inl ⟨hour, hh, v, hv, hq, rfl, rfl, rfl⟩
    · exact .inr ⟨v, hv, hq, hour, hh, rfl, rfl, rfl⟩

theorem mem_run_keys {v : TiggeVariable} {fff e : ℕ} :
    (v, fff, e) ∈ (List.range members).flatMap (memberKeys q) ↔
      requested q v ∧ v ∈ products ∧ e < members ∧ ∃ hour < hoursPerMember, fff = 6 * hour := by
  simp only [List.mem_flatMap, List.mem_range, mem_memberKeys]
  constructor
  · rintro ⟨em, hem, hq, hv, rfl, hh⟩
    exact ⟨hq, hv, hem, hh⟩
  · rintro ⟨hq, hv, hem, hh⟩
    exact ⟨e, hem, hq, hv, rfl, hh⟩

theorem nodup_instantKeys (em hour : ℕ) : (instantKeys q em hour).Nodup := by
  rw [instantKeys, List.nodup_flatMap]
  refine ⟨fun v _ => by split_ifs <;> simp, ?_⟩
  refine List.Pairwise.imp ?_ (show instants.Nodup by decide)
  intro v w hvw
  simp only [Function.onFun, List.disjoint_left, List.mem_ite_nil_right, List.mem_singleton]
  rintro k ⟨_, rfl⟩ ⟨_, hk⟩
  exact hvw (congrArg Prod.fst hk)

theorem nodup_integratedKeys (em : ℕ) (v : TiggeVariable) : (integratedKeys q em v).Nodup := by
  rw [integratedKeys]
  split_ifs
  · exact List.nodup_range.map fun a b h => by simpa using h
  · exact List.nodup_nil

theorem nodup_memberKeys (em : ℕ) : (memberKeys q em).Nodup := by
  rw [memberKeys, List.nodup_append, List.nodup_flatMap, List.nodup_flatMap]
  refine ⟨⟨fun hour _ => nodup_instantKeys em hour, ?_⟩,
    ⟨fun v _ => nodup_integratedKeys em v, ?_⟩, ?_⟩
  · -- two hours
    refine List.Pairwise.imp ?_ List.nodup_range
    intro i j hij
    simp only [Function.onFun, List.disjoint_left, instantKeys, List.mem_flatMap,
      List.mem_ite_nil_right, List.mem_singleton]
    rintro k ⟨v, _, _, rfl⟩ ⟨w, _, _, hk⟩
    simp only [Prod.mk.injEq] at hk
    omega
  · -- two integrated variables
    refine List.Pairwise.imp ?_ (show integrators.Nodup by decide)
    intro v w hvw
    simp only [Function.onFun, List.disjoint_left, integratedKeys, List.mem_ite_nil_right,
      List.mem_map]
    rintro k ⟨_, i, _, rfl⟩ ⟨_, j, _, hk⟩
    exact hvw (congrArg Prod.fst hk).symm
  · have hdisj : ∀ v ∈ instants, v ∉ integrators := by decide
    simp only [instantKeys, integratedKeys, List.mem_flatMap, List.mem_ite_nil_right,
      List.mem_singleton, List.mem_map]
    rintro k ⟨i, _, v, hv, _, rfl⟩ _ ⟨w, hw, _, j, _, rfl⟩ hk
    have hvw : v = w := congrArg Prod.fst hk
    exact hdisj v hv (hvw ▸ hw)

theorem nodup_run_keys : ((List.range members).flatMap (memberKeys q)).Nodup := by
  rw [List.nodup_flatMap]
  refine ⟨fun em _ => nodup_memberKeys em, List.Pairwise.imp ?_ List.nodup_range⟩
  intro i j hij
  simp only [Function.onFun, List.disjoint_left]
  rintro ⟨v, fff, e⟩ hi hj
  rw [mem_memberKeys] at hi hj
  exact hij (hi.2.2.1.symm.trans hj.2.2.1)

theorem length_default_keys :
    ((List.range members).flatMap (memberKeys fillQueueWithDefault)).length =
      11 * 65 * members := by
  have h65 : hoursPerMember = 65 := by rw [hoursPerMember]; rfl
  have hinst : ∀ em hour, (instantKeys fillQueueWithDefault em hour).length = 4 := fun em hour => by
    simp [instantKeys, instants, requested_default]
  have hint : ∀ em, (integrators.flatMap (integratedKeys fillQueueWithDefault em)).length = 455 :=
    fun em => by simp [integrators, integratedKeys, requested_default, h65]
  have hmember : ∀ em, (memberKeys fillQueueWithDefault em).length = 715 := fun em => by
    rw [memberKeys, List.length_append, hint, List.length_flatMap]
    simp [hinst, h65]
  rw [List.length_flatMap]
  simp [hmember, Nat.mul_comm]

end

/-! A run that nothing was requested of. -/

/-- What every hour preserves holds after a run that integrates nothing, when it does not look
at the buffers. -/
theorem run_preserves (S : Source n σ) {q : ProcessQueue} (members : ℕ) (P : RunState n → Prop)
    (hq : ∀ v ∈ integrators, ¬ requested q v)
    (hstores : ∀ st stores halted, P st → P { st with stores := stores, halted := halted })
    (hhour : ∀ em st hour, P st → P (runHour S q em st hour)) (h0 : P .initial) :
    P (run S q members) := by
  refine List.foldlRecOn (motive := P) _ _ h0 fun st hst em _ => ?_
  have hhours : P (runHours S q em st (List.range hoursPerMember)) :=
    List.foldlRecOn (motive := P) _ _ hst fun st hp hour _ => hhour em st hour hp
  have hints : P (integrators.foldl (runIntegrator q em) _) :=
    List.foldlRecOn (motive := P) _ _ hhours fun st hp v hv => by
      rw [runIntegrator, if_neg (hq v hv)]
      split_ifs <;> exact hp
  refine List.foldlRecOn (motive := P) _ _ hints fun st hp v _ => ?_
  unfold runFree
  split_ifs
  · exact hp
  · split
    · exact hstores st _ _ hp
    · exact hstores st _ st.halted hp

theorem run_idle (S : Source n σ) {q : ProcessQueue} (members : ℕ)
    (hq : ∀ s ∈ hourBody, ¬ requested q s.varName) :
    (run S q members).written = [] ∧ (run S q members).started = [] := by
  refine run_preserves S members (fun st => st.written = [] ∧ st.started = []) (fun v hv => ?_)
    (fun _ _ _ h => h) (fun em st hour hst => ?_) ⟨rfl, rfl⟩
  · obtain ⟨p, hm⟩ := exists_load_of_integrated hv
    exact hq _ hm
  · unfold runHour
    split_ifs
    · exact hst
    · split
      · exact hst
      · refine List.foldlRecOn
          (motive := fun p : RunState n × σ => p.1.written = [] ∧ p.1.started = []) _ _ hst
          fun p hp s hs => ?_
        cases s with
        | load v b =>
          have hv : ¬ requested q v := hq _ hs
          rw [runStatement, if_neg hv]
          exact hp
        | generate v =>
          have hv : ¬ requested q v := hq _ hs
          rw [runStatement, if_neg hv]
          exact hp

/-- A run of `ncdcTigge` for one cycle and queue. -/
def main (d : CycleDate) (api : GribApi (getNPoints d)) (naming : InputNaming)
    (contents : Str → Option (List (GribRecord (getNPoints d)))) (q : ProcessQueue) :
    RunState (getNPoints d) :=
  run (ncepSource api naming d contents) q (getNMembers d)

section Main
variable {d : CycleDate} {api : GribApi (getNPoints d)} {naming : InputNaming}
  {contents : Str → Option (List (GribRecord (getNPoints d)))} {q : ProcessQueue}

theorem main_keys
    (h : Available (ncepSource api naming d contents) q (getNMembers d)) :
    (main d api naming contents q).written.map outputKey =
        (List.range (getNMembers d)).flatMap (memberKeys q) ∧
      ∀ p ∈ (main d api naming contents q).started, p = 0 := by
  by_cases hq : ∃ s ∈ hourBody, requested q s.varName
  · have hs := served_of_available h hq
    exact ⟨run_keys hs, fun p hp => ((run_served hs).started p hp).elim (by simp [RunState.initial]) id⟩
  · -- nothing is requested, so the files need not even be there
    simp only [not_exists, not_and] at hq
    obtain ⟨hw, hst⟩ := run_idle (ncepSource api naming d contents) (getNMembers d) hq
    have hnone : ∀ v ∈ products, ¬ requested q v := by
      intro v hv
      rcases List.mem_append.mp hv with hi | hi
      · refine hq (.generate v) ?_
        revert hi
        cases v <;> decide
      · obtain ⟨p, hm⟩ := exists_load_of_integrated hi
        exact hq _ hm
    refine ⟨?_, by rw [main, hst]; simp⟩
    rw [main, hw, List.map_nil, eq_comm, List.eq_nil_iff_forall_not_mem]
    rintro ⟨v, fff, e⟩ hm
    rw [mem_run_keys] at hm
    exact hnone v hm.2.1 hm.1

theorem main_fileNames
    (h : Available (ncepSource api naming d contents) q (getNMembers d)) :
    (main d api naming contents q).written.map (Output.fileName d) =
      ((List.range (getNMembers d)).flatMap (memberKeys q)).map fun k =>
        generateFileName k.1 d k.2.1 k.2.2 := by
  rw [← (main_keys h).1, List.map_map]
  rfl

theorem nodup_main_fileNames
    (h : Available (ncepSource api naming d contents) q (getNMembers d)) :
    ((main d api naming contents q).written.map (Output.fileName d)).Nodup := by
  rw [main_fileNames h]
  refine nodup_run_keys.map ?_
  rintro ⟨v, f, e⟩ ⟨w, g, m⟩ hk
  obtain ⟨rfl, rfl, rfl⟩ := generateFileName_injective hk
  rfl

theorem mem_main_fileNames
    (h : Available (ncepSource api naming d contents) q (getNMembers d)) {name : Str} :
    name ∈ (main d api naming contents q).written.map (Output.fileName d) ↔
      ∃ v ∈ products, requested q v ∧ ∃ hour < hoursPerMember, ∃ em < getNMembers d,
        name = generateFileName v d (6 * hour) em := by
  rw [main_fileNames h, List.mem_map]
  constructor
  · rintro ⟨⟨v, fff, e⟩, hm, rfl⟩
    obtain ⟨hq, hv, he, hour, hh, rfl⟩ := mem_run_keys.mp hm
    exact ⟨v, hv, hq, hour, hh, e, he, rfl⟩
  · rintro ⟨v, hv, hq, hour, hh, e, he, rfl⟩
    exact ⟨(v, 6 * hour, e), mem_run_keys.mpr ⟨hq, hv, he, hour, hh, rfl⟩, rfl⟩

theorem expectedCycleCount_eq {cycle : Str} (hc : isDtg cycle) (hp : parseDate cycle = some d) :
    expectedCycleCount cycle = 11 * 65 * getNMembers d := by
  obtain ⟨hl, hdig⟩ := isDtg_digits hc
  rw [getNMembers_eq_perl hl hdig hp, expectedCycleCount, expectedVarCount]
  have h65 : FCT_HOURS / FCT_INC + 1 = 65 := rfl
  have h11 : tiggeVarCodes.length = 11 := rfl
  rw [h65, h11]
  ring

end Main

/-- A run whose requested products are all available searches from the beginning of the files,
writes one file for each product, hour and member under different names, and nothing else. -/
theorem main_covers (d : CycleDate) (api : GribApi (getNPoints d)) (naming : InputNaming)
    (contents : Str → Option (List (GribRecord (getNPoints d)))) (q : ProcessQueue)
    (h : Available (ncepSource api naming d contents) q (getNMembers d)) :
    (∀ p ∈ (main d api naming contents q).started, p = 0) ∧
    ((main d api naming contents q).written.map (Output.fileName d)).Nodup ∧
    (∀ name, name ∈ (main d api naming contents q).written.map (Output.fileName d) ↔
      ∃ v ∈ products, requested q v ∧ ∃ hour < hoursPerMember, ∃ em < getNMembers d,
        name = generateFileName v d (6 * hour) em) ∧
    (q = fillQueueWithDefault →
      (main d api naming contents q).written.length = 11 * 65 * getNMembers d ∧
      ∀ cycle, isDtg cycle → parseDate cycle = some d →
        (main d api naming contents q).written.length = expectedCycleCount cycle) := by
  obtain ⟨hk, hstart⟩ := main_keys h
  refine ⟨hstart, nodup_main_fileNames h, fun name => mem_main_fileNames h, ?_⟩
  rintro rfl
  have hlen : (main d api naming contents fillQueueWithDefault).written.length =
      11 * 65 * getNMembers d := by
    rw [← length_default_keys, ← hk, List.length_map]
  exact ⟨hlen, fun cycle hc hp => hlen.trans (expectedCycleCount_eq hc hp).symm⟩

/-- The keys of one record of every kind that a search looks for. -/
def searchedKeys : List GribKeys :=
  [⟨0, 5, 193, 8, 0⟩, ⟨0, 0, 10, 1, 0⟩, ⟨0, 0, 11, 1, 0⟩, ⟨0, 4, 192, 1, 0⟩, ⟨0, 4, 193, 1, 0⟩,
    ⟨0, 5, 192, 1, 0⟩, ⟨0, 5, 193, 1, 0⟩, ⟨0, 1, 195, 1, 0⟩, ⟨0, 1, 8, 1, 0⟩, ⟨0, 1, 3, 200, 0⟩,
    ⟨0, 3, 0, 109, 2000⟩, ⟨0, 3, 0, 109, -2147485648⟩, ⟨0, 0, 0, 109, 2000⟩,
    ⟨0, 0, 0, 109, -2147485648⟩, ⟨2, 0, 192, 106, 0⟩, ⟨2, 0, 192, 106, 10⟩, ⟨2, 0, 2, 106, 0⟩,
    ⟨2, 0, 2, 106, 10⟩, ⟨0, 6, 6, 200, 0⟩]

def recordsOf (keys : List GribKeys) : List (GribRecord n) :=
  keys.map fun k => { k with totalLength := 1, values := 0 }

/-- Input below the working directory, and a stack that nothing is overwritten on. -/
def plainNaming : InputNaming := ⟨".".toList, .unused⟩

theorem available_of_searchedKeys (api : GribApi n) (d : CycleDate) (q : ProcessQueue)
    (members : ℕ) :
    Available (ncepSource api plainNaming d fun _ => some (recordsOf searchedKeys)) q
      members := by
  intro em _ hour _ s hs _
  refine ⟨.opened (recordsOf searchedKeys) (recordsOf searchedKeys), rfl, ?_⟩
  simp only [hourBody, List.mem_cons, List.not_mem_nil, or_false] at hs
  rcases hs with rfl | rfl | rfl | rfl | rfl | rfl | rfl | rfl | rfl | rfl | rfl | rfl
  case inr.inr.inr.inr.inr.inl =>
    simp only [Finds, ncepSource, generateInstant, generateSnowFallWaterEquivalent]
    split_ifs <;> rfl
  case inr.inr.inr.inr.inr.inr.inr.inr.inr.inr.inl =>
    simp only [Finds, ncepSource, loadRecord, loadDataForTotalPrecipitation]
    split_ifs <;> rfl
  case inr.inr.inr.inr.inr.inr.inr.inl =>
    simp [Finds, ncepSource, generateInstant, generatePotentialTemperature, scanHemispheres,
      HemisphereRecords.take, recordsOf, searchedKeys, GribRecord.isField, GribRecord.isParameter,
      NcepFiles.opened, RecordStream.opened]
  all_goals rfl

/-- The first cycle of 2021, with the default queue. -/
theorem main_covers_2021 :
    (∀ p ∈ (main ⟨2021, 1, 1, 0⟩ plainApi plainNaming (fun _ => some (recordsOf searchedKeys))
      fillQueueWithDefault).started, p = 0) ∧
    (main ⟨2021, 1, 1, 0⟩ plainApi plainNaming (fun _ => some (recordsOf searchedKeys))
      fillQueueWithDefault).written.length = 11 * 65 * 31 :=
  ⟨(main_covers ⟨2021, 1, 1, 0⟩ plainApi plainNaming _ fillQueueWithDefault
      (available_of_searchedKeys plainApi _ _ _)).1,
    ((main_covers ⟨2021, 1, 1, 0⟩ plainApi plainNaming _ fillQueueWithDefault
      (available_of_searchedKeys plainApi _ _ _)).2.2.2 rfl).1⟩

end Tigge
