import Tigge.Steady

/-! Runs over arbitrary loader outcomes: which records the integrators decode when loads fail. -/

namespace Tigge
open Lib TiggeVariable VariableStore
variable {n : ℕ}

/-- Loaders that store the given record of a member and hour, or fail. `tp` stores zeros as
its first record. The products of a single hour do not touch the buffers. -/
def outcomeSource (outcome : TiggeVariable → ℕ → ℕ → Option (GribRecord n)) :
    Source n (ℕ × ℕ) where
  fopen em fff := some (em, fff / 6)
  load v _ numberOfSavedRecords f :=
    ⟨if v = totalPrecipitation ∧ numberOfSavedRecords = 0 then some (.zeros n)
      else (outcome v f.1 f.2).map .grib, f, []⟩
  generate _ _ f := ⟨some 0, f, []⟩

/-- The access is to the record loaded for its own member and hour, with its own length, or
the hour is skipped. -/
def GoodAccess (outcome : TiggeVariable → ℕ → ℕ → Option (GribRecord n)) (a : ResourceAccess n) :
    Prop :=
  match a.access with
  | .skipped => True
  | .fault => False
  | .decoded message length =>
    ∃ r, outcome a.varName a.em a.hour = some r ∧ message = .grib r ∧ length = r.totalLength

/-- The load stores something: `tp` at hour zero, or a record that is there. -/
def Stores (outcome : TiggeVariable → ℕ → ℕ → Option (GribRecord n)) (v : TiggeVariable)
    (em hour : ℕ) : Prop :=
  v = totalPrecipitation ∧ hour = 0 ∨ (outcome v em hour).isSome

section
variable {outcome : TiggeVariable → ℕ → ℕ → Option (GribRecord n)} {q : ProcessQueue}

theorem GoodAccess.not_broken {a : ResourceAccess n} (h : GoodAccess outcome a) :
    ¬ a.access.Broken := by
  obtain ⟨v, em, hour, access⟩ := a
  cases access with
  | skipped => exact id
  | fault => exact h.elim
  | decoded message length =>
    obtain ⟨r, _, rfl, rfl⟩ := h
    simp [Access.Broken]

/-- The record of a load that stores something. -/
def storedRecord (outcome : TiggeVariable → ℕ → ℕ → Option (GribRecord n)) (v : TiggeVariable)
    (em hour : ℕ) : Message n :=
  if v = totalPrecipitation ∧ hour = 0 then .zeros n
  else ((outcome v em hour).map .grib).getD (.zeros 0)

theorem served_of_stores {members : ℕ}
    (h : ∀ v ∈ integrators, requested q v → ∀ em < members, ∀ hour < hoursPerMember,
      Stores outcome v em hour) :
    Served (outcomeSource outcome) q members (storedRecord outcome) fun _ _ _ => 0 := by
  refine ⟨fun em hem hour hh => ⟨(em, hour), by simp [outcomeSource], fun s hs hq => ?_⟩,
    fun v hv hq em hem hour hh => ?_⟩
  · cases s with
    | load v b =>
      refine ⟨?_, rfl, fun p hp => by simp [outcomeSource] at hp⟩
      simp only [outcomeSource, storedRecord]
      by_cases hz : v = totalPrecipitation ∧ hour = 0
      · rw [if_pos hz, if_pos hz]
      · rw [if_neg hz, if_neg hz]
        obtain ⟨r, hr⟩ := Option.isSome_iff_exists.mp
          ((h v (integrated_of_load hs) hq em hem hour hh).resolve_left hz)
        rw [hr]
        rfl
    | generate v => exact ⟨rfl, rfl, fun p hp => by simp [outcomeSource] at hp⟩
  · by_cases hz : v = totalPrecipitation ∧ hour = 0
    · exact .inl hz
    · obtain ⟨r, hr⟩ := Option.isSome_iff_exists.mp
        ((h v hv hq em hem hour hh).resolve_left hz)
      exact .inr ⟨r, by rw [storedRecord, if_neg hz, hr]; rfl⟩

theorem readLog_good {v : TiggeVariable} {em : ℕ}
    (h : ∀ hour < hoursPerMember, Stores outcome v em hour) {hour : ℕ}
    (hh : hour < hoursPerMember) :
    ∀ a ∈ readLog v em (memberRecords (storedRecord outcome) v em hoursPerMember) hour,
      GoodAccess outcome a := by
  intro a ha
  rw [readLog, memberRecords, List.getElem?_map, List.getElem?_range hh] at ha
  by_cases hz : v = totalPrecipitation ∧ hour = 0
  · rw [if_pos hz] at ha
    exact absurd ha List.not_mem_nil
  · obtain ⟨r, hr⟩ := Option.isSome_iff_exists.mp ((h hour hh).resolve_left hz)
    rw [if_neg hz, Option.map_some, Option.map_some, storedRecord, if_neg hz, hr] at ha
    simp only [Option.map_some, Option.getD_some, Option.toList_some, List.mem_singleton] at ha
    rw [ha]
    exact ⟨r, hr, rfl, rfl⟩

/-- The buffer of `v` after `k` loads of a member: it holds at most the loads that stored
something, and nothing at all after a failure that no load followed. -/
structure AfterLoads (outcome : TiggeVariable → ℕ → ℕ → Option (GribRecord n))
    (v : TiggeVariable) (em k : ℕ) (st : VariableStore n) : Prop where
  le : st.numberOfSavedRecords ≤ k
  first : v = totalPrecipitation → 0 < k → 0 < st.numberOfSavedRecords
  length : 0 < k → ∀ slots, st.array = some slots → slots.length = st.numberOfSavedRecords
  lost : (∃ hour < k, ¬ Stores outcome v em hour) → st.numberOfSavedRecords < k

theorem AfterLoads.assign {v : TiggeVariable} {em k : ℕ} {st : VariableStore n}
    (h : AfterLoads outcome v em k st) : AfterLoads outcome v em (k + 1)
      (st.assign (if v = totalPrecipitation ∧ st.numberOfSavedRecords = 0 then some (.zeros n)
        else (outcome v em k).map .grib)) := by
  have hzero : v = totalPrecipitation → (st.numberOfSavedRecords = 0 ↔ k = 0) := fun hv => by
    have hle := h.le
    have hfirst := h.first hv
    omega
  have hadd : ∀ m : Message n, Stores outcome v em k →
      AfterLoads outcome v em (k + 1) (st.addGribRecordToArray m) := by
    intro m hm
    have hle := h.le
    refine ⟨Nat.succ_le_succ hle, fun _ _ => Nat.succ_pos _, fun _ slots hs => ?_, ?_⟩
    · obtain rfl := Option.some.inj hs
      simp [reallocArray_length, addGribRecordToArray]
    · rintro ⟨hour, hlt, hnot⟩
      have hne : hour ≠ k := by rintro rfl; exact hnot hm
      have hlost := h.lost ⟨hour, by omega, hnot⟩
      simp only [addGribRecordToArray]
      omega
  by_cases hz : v = totalPrecipitation ∧ st.numberOfSavedRecords = 0
  · rw [if_pos hz]
    exact hadd _ (.inl ⟨hz.1, (hzero hz.1).mp hz.2⟩)
  · rw [if_neg hz]
    cases ho : outcome v em k with
    | some r => exact hadd _ (.inr (by rw [ho]; rfl))
    | none =>
      have hle := h.le
      refine ⟨by simp only [VariableStore.assign, Option.map_none]; omega, fun hv hk => ?_,
        fun _ slots hs => by simp [VariableStore.assign] at hs, fun _ => ?_⟩
      · simp only [VariableStore.assign, Option.map_none]
        exact Nat.pos_of_ne_zero fun h0 => hz ⟨hv, h0⟩
      · simp only [VariableStore.assign, Option.map_none]
        omega

/-- After a failure the buffer ends before the last hour. -/
theorem AfterLoads.last_fault {v : TiggeVariable} {em : ℕ} {st : VariableStore n}
    (h : AfterLoads outcome v em hoursPerMember st)
    (hlost : ∃ hour < hoursPerMember, ¬ Stores outcome v em hour) :
    accessHour v st (FORECAST_HOURS / 6) = .fault := by
  have hlt := h.lost hlost
  have hnone : st.array.bind (·[FORECAST_HOURS / 6]?) = none := by
    cases ha : st.array with
    | none => rfl
    | some slots =>
      have hlen := h.length (by rw [hoursPerMember]; decide) slots ha
      rw [Option.bind_some, List.getElem?_eq_none_iff, hlen]
      rw [hoursPerMember] at hlt
      omega
  rw [accessHour, hnone]

theorem runHour_afterLoads {em k : ℕ} {st : RunState n} (hal : st.halted = false)
    (hst : ∀ v ∈ integrators, requested q v → AfterLoads outcome v em k (st.stores v)) :
    (runHour (outcomeSource outcome) q em st k).halted = false ∧
    ∀ v ∈ integrators, requested q v → AfterLoads outcome v em (k + 1)
      ((runHour (outcomeSource outcome) q em st k).stores v) := by
  have hf : (outcomeSource outcome).fopen em (6 * k) = some (em, k) := by simp [outcomeSource]
  have hkeep : ∀ s ∈ hourBody, requested q s.varName →
      Keeps (outcomeSource outcome) k st (em, k) s := fun s _ _ => by
    cases s <;> exact ⟨rfl, fun p hp => by simp [outcomeSource] at hp⟩
  obtain ⟨ha, hl⟩ := foldl_runStatement_keeps (outcomeSource outcome) q em k hkeep hourBody_nodup
  rw [runHour, hal, if_neg Bool.false_ne_true, hf]
  refine ⟨ha.halted.trans hal, fun v hv hq => ?_⟩
  obtain ⟨b, hm⟩ := exists_load_of_integrated hv
  rw [hl v b hm, loadResult, if_pos hq]
  exact (hst v hv hq).assign

theorem runHours_afterLoads (outcome : TiggeVariable → ℕ → ℕ → Option (GribRecord n))
    (em k : ℕ) {st : RunState n} (hal : st.halted = false)
    (hst : ∀ v ∈ integrators, requested q v → (st.stores v).numberOfSavedRecords = 0) :
    (runHours (outcomeSource outcome) q em st (List.range k)).halted = false ∧
    ∀ v ∈ integrators, requested q v → AfterLoads outcome v em k
      ((runHours (outcomeSource outcome) q em st (List.range k)).stores v) := by
  induction k with
  | zero =>
    exact ⟨hal, fun v hv hq => ⟨(hst v hv hq).le, fun _ h => absurd h (lt_irrefl _),
      fun h => absurd h (lt_irrefl _), fun ⟨_, h, _⟩ => absurd h (Nat.not_lt_zero _)⟩⟩
  | succ k ih =>
    obtain ⟨ih1, ih2⟩ := ih
    have hsplit : runHours (outcomeSource outcome) q em st (List.range (k + 1)) =
        runHour (outcomeSource outcome) q em
          (runHours (outcomeSource outcome) q em st (List.range k)) k := by
      rw [List.range_succ]
      simp only [runHours, List.foldl_append, List.foldl_cons, List.foldl_nil]
    rw [hsplit]
    exact runHour_afterLoads ih1 ih2

end

section Integrators
variable {q : ProcessQueue} {v : TiggeVariable} {st : RunState n}

theorem runIntegrator_requested (hal : st.halted = false) (hv : requested q v) (em : ℕ) :
    runIntegrator q em st v =
      { st with
        written := st.written ++ (integrate v em (st.stores v)).outputs
        accesses := st.accesses ++ (integrate v em (st.stores v)).accesses
        halted := (integrate v em (st.stores v)).halted } := by
  rw [runIntegrator, hal, if_neg Bool.false_ne_true, if_pos hv]

theorem runIntegrator_unrequested (hal : st.halted = false) (hv : ¬ requested q v) (em : ℕ) :
    runIntegrator q em st v = st := by
  rw [runIntegrator, hal, if_neg Bool.false_ne_true, if_neg hv]

theorem mem_runIntegrator_accesses (hal : st.halted = false) (hv : requested q v) {em : ℕ}
    {a : ResourceAccess n} (ha : a ∈ (integrate v em (st.stores v)).accesses) :
    a ∈ (runIntegrator q em st v).accesses := by
  rw [runIntegrator_requested hal hv]
  exact List.mem_append_right _ ha

end Integrators

/-- An integrator whose resource ends too early logs a broken access, and so does whichever
stopped the process before it. -/
theorem foldl_runIntegrator_broken (q : ProcessQueue) (em : ℕ) {vs : List TiggeVariable}
    {v : TiggeVariable} (hv : v ∈ vs) (hq : requested q v) {st : RunState n}
    (hlast : accessHour v (st.stores v) (FORECAST_HOURS / 6) = .fault) (hal : st.halted = false) :
    ∃ a ∈ (vs.foldl (runIntegrator q em) st).accesses, a.access.Broken := by
  induction vs generalizing st with
  | nil => exact absurd hv List.not_mem_nil
  | cons w rest ih =>
    rw [List.foldl_cons]
    have hkeep : ∀ a ∈ (runIntegrator q em st w).accesses, a.access.Broken →
        ∃ a ∈ (rest.foldl (runIntegrator q em) (runIntegrator q em st w)).accesses,
          a.access.Broken :=
      fun a ha hb => ⟨a, foldl_runIntegrator_accesses q em _ rest ha, hb⟩
    by_cases hw : requested q w
    · by_cases he : w = v
      · subst he
        obtain ⟨a, ha, hb⟩ := integrate_broken w em (st.stores w) hlast
        exact hkeep a (mem_runIntegrator_accesses hal hw ha) hb
      · by_cases hh : (integrate w em (st.stores w)).halted
        · obtain ⟨a, ha, hb⟩ := integrate_explained w em (st.stores w) hh
          exact hkeep a (mem_runIntegrator_accesses hal hw ha) hb
        · rw [runIntegrator_requested hal hw]
          exact ih ((List.mem_cons.mp hv).resolve_left (Ne.symm he)) hlast
            (Bool.eq_false_iff.mpr hh)
    · rw [runIntegrator_unrequested hal hw]
      refine ih ((List.mem_cons.mp hv).resolve_left ?_) hlast hal
      rintro rfl
      exact hw hq

theorem stores_of_good {outcome : TiggeVariable → ℕ → ℕ → Option (GribRecord n)}
    {q : ProcessQueue} {members : ℕ}
    (hgood : ∀ a ∈ (run (outcomeSource outcome) q members).accesses, GoodAccess outcome a)
    {k : ℕ} (hk : k ≤ members) : ∀ v ∈ integrators, requested q v → ∀ em < k,
      ∀ hour < hoursPerMember, Stores outcome v em hour := by
  induction k with
  | zero => exact fun _ _ _ em hem => absurd hem (Nat.not_lt_zero em)
  | succ k ih =>
    have hbefore := ih (by omega)
    obtain ⟨hadds, hheld⟩ := runMembers_served (served_of_stores hbefore) le_rfl
    intro v hv hq em hem hour hh
    rcases Nat.lt_succ_iff_lt_or_eq.mp hem with hlt | rfl
    · exact hbefore v hv hq em hlt hour hh
    · by_contra hnot
      -- the first member with a failed load: its buffer is too short at the last hour
      obtain ⟨hal, hloads⟩ := runHours_afterLoads outcome em hoursPerMember hadds.halted
        fun w hw _ => (hheld w hw).count
      obtain ⟨a, ha, hb⟩ := foldl_runIntegrator_broken q em hv hq
        ((hloads v hv hq).last_fault ⟨hour, hh, hnot⟩) hal
      refine (hgood a ?_).not_broken hb
      have hmember : a ∈ (runMember (outcomeSource outcome) q
          (runMembers (outcomeSource outcome) q .initial (List.range em)) em).accesses := by
        rw [runMember, foldl_runFree_accesses]
        exact ha
      obtain ⟨rest, rfl⟩ := Nat.exists_eq_add_of_le hk
      rw [run, List.range_add, List.range_succ, runMembers, List.foldl_append, List.foldl_append]
      exact runMembers_accesses _ q _ _ hmember

theorem good_of_stores {outcome : TiggeVariable → ℕ → ℕ → Option (GribRecord n)}
    {q : ProcessQueue} {members : ℕ} (h : ∀ v ∈ integrators, requested q v → ∀ em < members,
      ∀ hour < hoursPerMember, Stores outcome v em hour) :
    ∀ a ∈ (run (outcomeSource outcome) q members).accesses, GoodAccess outcome a := by
  intro a ha
  rw [(run_served (served_of_stores h)).accesses, RunState.initial, List.nil_append,
    List.mem_flatMap] at ha
  obtain ⟨em, hem, ha⟩ := ha
  obtain ⟨v, hv, ha⟩ := List.mem_flatMap.mp ha
  rw [integratedAccesses, List.mem_ite_nil_right] at ha
  obtain ⟨hq, ha⟩ := ha
  obtain ⟨hour, hh, ha⟩ := List.mem_flatMap.mp ha
  exact readLog_good (h v hv hq em (List.mem_range.mp hem)) (List.mem_range.mp hh) a ha

/-- The integrators decode the right record at every hour exactly when no load has failed. -/
theorem accesses_good_iff (outcome : TiggeVariable → ℕ → ℕ → Option (GribRecord n))
    (q : ProcessQueue) (members : ℕ) :
    (∀ a ∈ (run (outcomeSource outcome) q members).accesses, GoodAccess outcome a) ↔
      ∀ v ∈ integrators, requested q v → ∀ em < members, ∀ hour < hoursPerMember,
        Stores outcome v em hour :=
  ⟨fun h => stores_of_good h le_rfl, good_of_stores⟩

/-- One failed load of `ssr`, at hour 6 of the only member. -/
theorem accesses_not_good : ¬ ∀ (outcome : TiggeVariable → ℕ → ℕ → Option (GribRecord 65160))
    (q : ProcessQueue) (members : ℕ), ∀ a ∈ (run (outcomeSource outcome) q members).accesses,
      GoodAccess outcome a := by
  intro h
  have hstores := stores_of_good (h
    (fun _ _ hour => if hour = 1 then none else some ⟨⟨0, 4, 192, 1, 0⟩, 1, 0⟩)
    (fillQueueWithBogusData.set 0 timeIntegratedSurfaceNetSolarRadiation) 1) le_rfl
    timeIntegratedSurfaceNetSolarRadiation (by decide) (by decide) 0 (by decide) 1
    (by rw [hoursPerMember]; decide)
  rcases hstores with ⟨hv, _⟩ | hsome
  · exact absurd hv (by decide)
  · exact absurd hsome (by decide)

end Tigge
