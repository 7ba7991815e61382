import Tigge.Run

/-! A run in which every requested statement is served: what it writes and reads, member by
member, in terms of the records alone. -/

namespace Tigge
open Lib TiggeVariable VariableStore
variable {n : ℕ} {σ : Type}

/-- The statement yields the given record or field, leaves the files as they were, and starts
no search elsewhere than at the beginning. -/
def Serves (S : Source n σ) (hour : ℕ) (f : σ) (loaded : TiggeVariable → Message n)
    (made : TiggeVariable → Fin n → ℚ) : Statement → Prop
  | .load v protect =>
    let r := S.load v (protect && hour = 0) hour f
    r.result = some (loaded v) ∧ r.files = f ∧ ∀ p ∈ r.started, p = 0
  | .generate v =>
    let r := S.generate v (6 * hour) f
    r.result = some (made v) ∧ r.files = f ∧ ∀ p ∈ r.started, p = 0

def instantOutput (q : ProcessQueue) (em hour : ℕ) (made : TiggeVariable → Fin n → ℚ) :
    Statement → List (Output n)
  | .load _ _ => []
  | .generate v =>
    if requested q v then [⟨v, 6 * hour, em, made v⟩] else []

theorem foldl_runStatement_serves (S : Source n σ) (q : ProcessQueue) (em hour : ℕ) {f : σ}
    {loaded : TiggeVariable → Message n} {made : TiggeVariable → Fin n → ℚ}
    {body : List Statement} {st : RunState n}
    (hs : ∀ s ∈ body, requested q s.varName → Serves S hour f loaded made s)
    (hc : ∀ v p, .load v p ∈ body → requested q v → (st.stores v).numberOfSavedRecords = hour)
    (hnd : (body.map Statement.varName).Nodup) :
    Adds st (body.foldl (runStatement S q em hour) (st, f)).1
      (body.flatMap (instantOutput q em hour made)) [] ∧
    ∀ v p, .load v p ∈ body → (body.foldl (runStatement S q em hour) (st, f)).1.stores v =
      (st.stores v).assign (if requested q v then some (loaded v) else none) := by
  have hkeep : ∀ s ∈ body, requested q s.varName → Keeps S hour st f s := by
    intro s hm hq
    have hserve := hs s hm hq
    cases s with
    | load v b =>
      simp only [Keeps, hc v b hm hq]
      exact hserve.2
    | generate v => exact hserve.2
  obtain ⟨ha, hl⟩ := foldl_runStatement_keeps S q em hour hkeep hnd
  refine ⟨?_, fun v b hm => ?_⟩
  · have hout : body.flatMap (statementOutputs S q em hour f) =
        body.flatMap (instantOutput q em hour made) := by
      refine List.flatMap_congr fun s hm => ?_
      cases s with
      | load v b => rfl
      | generate v =>
        by_cases hq : requested q v
        · rw [statementOutputs, instantOutput, if_pos hq, if_pos hq, (hs _ hm hq).1]
          rfl
        · rw [statementOutputs, instantOutput, if_neg hq, if_neg hq]
    rwa [hout] at ha
  · rw [hl v b hm, loadResult]
    by_cases hq : requested q v
    · rw [if_pos hq, if_pos hq, hc v b hm hq, (hs _ hm hq).1]
    · rw [if_neg hq, if_neg hq]

/-- Every requested statement of every member and hour is served on the files as they are
opened; what the integrators read of it are GRIB messages. -/
structure Served (S : Source n σ) (q : ProcessQueue) (members : ℕ)
    (loaded : TiggeVariable → ℕ → ℕ → Message n)
    (made : TiggeVariable → ℕ → ℕ → Fin n → ℚ) : Prop where
  serves : ∀ em < members, ∀ hour < hoursPerMember, ∃ f, S.fopen em (6 * hour) = some f ∧
    ∀ s ∈ hourBody, requested q s.varName →
      Serves S hour f (fun v => loaded v em hour) (fun v => made v em hour) s
  grib : ∀ v ∈ integrators, requested q v → ∀ em < members, ∀ hour < hoursPerMember,
    v = totalPrecipitation ∧ hour = 0 ∨ ∃ r, loaded v em hour = .grib r

def storeOf (records : List (Message n)) : VariableStore n :=
  ⟨some (records.map .stored), records.length, fun i => (records[i]?.map Message.size).getD 0⟩

theorem storeOf_holds (records : List (Message n)) : (storeOf records).Holds records :=
  ⟨rfl, fun _ => rfl, fun i m h => by simp [storeOf, h]⟩

/-- The records of one variable and member up to an hour. -/
def memberRecords (loaded : TiggeVariable → ℕ → ℕ → Message n) (v : TiggeVariable) (em k : ℕ) :
    List (Message n) :=
  (List.range k).map (loaded v em)

section
variable (S : Source n σ) (q : ProcessQueue) (members : ℕ)
  (loaded : TiggeVariable → ℕ → ℕ → Message n) (made : TiggeVariable → ℕ → ℕ → Fin n → ℚ)

def hourOutputs (em hour : ℕ) : List (Output n) :=
  hourBody.flatMap (instantOutput q em hour fun v => made v em hour)

def integratedOutputs (em : ℕ) (v : TiggeVariable) : List (Output n) :=
  if requested q v then
    (integrate v em (storeOf (memberRecords loaded v em hoursPerMember))).outputs
  else []

def integratedAccesses (em : ℕ) (v : TiggeVariable) : List (ResourceAccess n) :=
  if requested q v then
    (List.range hoursPerMember).flatMap (readLog v em (memberRecords loaded v em hoursPerMember))
  else []

def memberOutputs (em : ℕ) : List (Output n) :=
  (List.range hoursPerMember).flatMap (hourOutputs q made em) ++
    integrators.flatMap (integratedOutputs q loaded em)

/-- Every buffer holds the first `k` records of the member, or nothing if not requested. -/
def HoldsFirst (em k : ℕ) (st : RunState n) : Prop :=
  ∀ v ∈ integrators,
    (st.stores v).Holds (if requested q v then memberRecords loaded v em k else [])

theorem hourBody_nodup : (hourBody.map Statement.varName).Nodup := by decide

theorem exists_load_of_integrated {v : TiggeVariable} (h : v ∈ integrators) :
    ∃ p, Statement.load v p ∈ hourBody := by
  simp only [integrators, List.mem_cons, List.not_mem_nil, or_false] at h
  rcases h with rfl | rfl | rfl | rfl | rfl | rfl | rfl <;>
    first
      | exact ⟨true, by decide⟩
      | exact ⟨false, by decide⟩

theorem integrated_of_load {v : TiggeVariable} {p : Bool} (h : Statement.load v p ∈ hourBody) :
    v ∈ integrators := by
  simp only [hourBody, List.mem_cons, Statement.load.injEq, reduceCtorEq, List.not_mem_nil,
    or_false, false_or] at h
  rcases h with h | h | h | h | h | h | h <;> (obtain ⟨rfl, _⟩ := h; decide)

variable {S q members loaded made}

theorem runHour_served (h : Served S q members loaded made) {em hour : ℕ} (hem : em < members)
    (hh : hour < hoursPerMember) {st : RunState n} (hst : HoldsFirst q loaded em hour st)
    (hal : st.halted = false) :
    Adds st (runHour S q em st hour) (hourOutputs q made em hour) [] ∧
    HoldsFirst q loaded em (hour + 1) (runHour S q em st hour) := by
  obtain ⟨f, hf, hserve⟩ := h.serves em hem hour hh
  have hc : ∀ v p, .load v p ∈ hourBody → requested q v →
      (st.stores v).numberOfSavedRecords = hour := fun v p hm hq => by
    rw [(hst v (integrated_of_load hm)).count, if_pos hq, memberRecords, List.length_map,
      List.length_range]
  obtain ⟨ha, hl⟩ := foldl_runStatement_serves S q em hour hserve hc hourBody_nodup
  rw [runHour, hal, if_neg Bool.false_ne_true, hf]
  refine ⟨ha, fun v hv => ?_⟩
  obtain ⟨p, hm⟩ := exists_load_of_integrated hv
  have hheld := hst v hv
  rw [hl v p hm]
  split_ifs at hheld ⊢
  · rw [memberRecords, List.range_succ, List.map_append]
    exact hheld.add _
  · exact ⟨hheld.count, fun h => absurd rfl h, fun i _ hi => by simp at hi⟩

theorem runHours_served (h : Served S q members loaded made) {em k : ℕ} (hem : em < members)
    (hk : k ≤ hoursPerMember) {st : RunState n} (hst : HoldsFirst q loaded em 0 st)
    (hal : st.halted = false) :
    Adds st (runHours S q em st (List.range k))
      ((List.range k).flatMap (hourOutputs q made em)) [] ∧
    HoldsFirst q loaded em k (runHours S q em st (List.range k)) := by
  induction k with
  | zero => exact ⟨Adds.refl st, hst⟩
  | succ k ih =>
    obtain ⟨ha, hf⟩ := ih (by omega)
    obtain ⟨ha', hf'⟩ := runHour_served h hem (by omega) hf (ha.halted.trans hal)
    have hsplit : runHours S q em st (List.range (k + 1)) =
        runHour S q em (runHours S q em st (List.range k)) k := by
      rw [List.range_succ]
      simp only [runHours, List.foldl_append, List.foldl_cons, List.foldl_nil]
    rw [hsplit, List.range_succ, List.flatMap_append, List.flatMap_singleton]
    exact ⟨ha.trans ha', hf'⟩

theorem readable_of_served (h : Served S q members loaded made) {v : TiggeVariable}
    (hv : v ∈ integrators) (hq : requested q v) {em : ℕ} (hem : em < members) :
    Readable v (memberRecords loaded v em hoursPerMember) := by
  intro hour hh
  refine (h.grib v hv hq em hem hour hh).imp_right fun ⟨r, hr⟩ => ⟨r, ?_⟩
  rw [memberRecords, List.getElem?_map, List.getElem?_range hh, Option.map_some, hr]

theorem foldl_runIntegrator_served (h : Served S q members loaded made) {em : ℕ}
    (hem : em < members) {vs : List TiggeVariable} (hvs : ∀ v ∈ vs, v ∈ integrators)
    {st : RunState n} (hst : HoldsFirst q loaded em hoursPerMember st) (hal : st.halted = false) :
    Adds st (vs.foldl (runIntegrator q em) st) (vs.flatMap (integratedOutputs q loaded em))
      (vs.flatMap (integratedAccesses q loaded em)) ∧
    (vs.foldl (runIntegrator q em) st).stores = st.stores := by
  induction vs generalizing st with
  | nil => exact ⟨Adds.refl st, rfl⟩
  | cons v rest ih =>
    have hv := hvs v List.mem_cons_self
    have hone : Adds st (runIntegrator q em st v) (integratedOutputs q loaded em v)
        (integratedAccesses q loaded em v) ∧
        (runIntegrator q em st v).stores = st.stores := by
      rw [runIntegrator, hal, if_neg Bool.false_ne_true, integratedOutputs, integratedAccesses]
      by_cases hq : requested q v
      · have hheld := hst v hv
        rw [if_pos hq] at hheld
        have hr := readable_of_served h hv hq hem
        obtain ⟨h1, h2, _⟩ := integrate_readable v em hheld hr
        rw [if_pos hq, if_pos hq, if_pos hq, ← h2,
          ← integrate_congr v em hheld (storeOf_holds _) hr]
        dsimp only
        exact ⟨⟨rfl, rfl, fun _ hp => .inl hp, h1.trans hal.symm⟩, rfl⟩
      · rw [if_neg hq, if_neg hq, if_neg hq]
        exact ⟨Adds.refl st, rfl⟩
    obtain ⟨ha, hs⟩ := hone
    have hst' : HoldsFirst q loaded em hoursPerMember (runIntegrator q em st v) := by
      intro w hw
      rw [hs]
      exact hst w hw
    obtain ⟨ha', hs'⟩ := ih (fun w hw => hvs w (List.mem_cons_of_mem _ hw)) hst'
      (ha.halted.trans hal)
    exact ⟨ha.trans ha', hs'.trans hs⟩

theorem foldl_runFree_holds (vs : List TiggeVariable) (st : RunState n)
    (hst : ∀ v ∈ vs, ∃ records, (st.stores v).Holds records) (hal : st.halted = false) :
    Adds st (vs.foldl runFree st) [] [] ∧
    ∀ v, v ∈ vs ∨ (st.stores v).Holds [] → ((vs.foldl runFree st).stores v).Holds [] := by
  induction vs generalizing st with
  | nil => exact ⟨Adds.refl st, fun v hv => hv.elim (fun h => by simp at h) id⟩
  | cons v rest ih =>
    obtain ⟨records, hr⟩ := hst v List.mem_cons_self
    obtain ⟨store, hfree, hempty⟩ := hr.free
    have hstep : runFree st v = { st with stores := Function.update st.stores v store } := by
      rw [runFree, hal, if_neg Bool.false_ne_true, hfree]
    have hself : ((runFree st v).stores v).Holds [] := by
      rw [hstep]
      simpa using hempty
    have hother : ∀ w, w ≠ v → (runFree st v).stores w = st.stores w := fun w hw => by
      rw [hstep]
      exact Function.update_of_ne hw _ _
    have hadd : Adds st (runFree st v) [] [] := by
      rw [hstep]
      exact ⟨by simp, by simp, fun _ hp => .inl hp, rfl⟩
    obtain ⟨ha, hh⟩ := ih (runFree st v) (fun w hw => by
      by_cases he : w = v
      · exact ⟨[], he ▸ hself⟩
      · rw [hother w he]
        exact hst w (List.mem_cons_of_mem _ hw)) (hadd.halted.trans hal)
    refine ⟨hadd.trans ha, fun w hw => hh w ?_⟩
    by_cases he : w = v
    · exact .inr (he ▸ hself)
    · rw [hother w he]
      exact hw.imp_left fun hm => (List.mem_cons.mp hm).resolve_left he

theorem runMember_served (h : Served S q members loaded made) {em : ℕ} (hem : em < members)
    {st : RunState n} (hst : ∀ v ∈ integrators, (st.stores v).Holds []) (hal : st.halted = false) :
    Adds st (runMember S q st em) (memberOutputs q loaded made em)
      (integrators.flatMap (integratedAccesses q loaded em)) ∧
    ∀ v ∈ integrators, ((runMember S q st em).stores v).Holds [] := by
  have h0 : HoldsFirst q loaded em 0 st := fun v hv => by
    rw [memberRecords, List.range_zero, List.map_nil, ite_self]
    exact hst v hv
  obtain ⟨ha, hf⟩ := runHours_served h hem le_rfl h0 hal
  obtain ⟨hb, hs⟩ := foldl_runIntegrator_served h hem (fun _ hv => hv) hf (ha.halted.trans hal)
  have hfreed : ∀ v ∈ freedVariables, v ∈ integrators := by decide
  obtain ⟨hc, he⟩ := foldl_runFree_holds freedVariables _
    (fun v hv => ⟨_, (congrFun hs v).symm ▸ hf v (hfreed v hv)⟩)
    (hb.halted.trans (ha.halted.trans hal))
  have hall : ∀ v ∈ integrators, v ∈ freedVariables := by decide
  refine ⟨?_, fun v hv => he v (.inl (hall v hv))⟩
  have hadd := (ha.trans hb).trans hc
  simpa only [runMember, memberOutputs, List.append_nil, List.nil_append] using hadd

theorem runMembers_served (h : Served S q members loaded made) {k : ℕ} (hk : k ≤ members) :
    Adds .initial (runMembers S q .initial (List.range k))
      ((List.range k).flatMap (memberOutputs q loaded made))
      ((List.range k).flatMap fun em => integrators.flatMap (integratedAccesses q loaded em)) ∧
    ∀ v ∈ integrators, ((runMembers S q .initial (List.range k)).stores v).Holds [] := by
  induction k with
  | zero => exact ⟨Adds.refl _, fun _ _ => initial_holds⟩
  | succ k ih =>
    obtain ⟨ha, hf⟩ := ih (by omega)
    have hkm : k < members := hk
    obtain ⟨ha', hf'⟩ := runMember_served h hkm hf ha.halted
    have hsplit : runMembers S q .initial (List.range (k + 1)) =
        runMember S q (runMembers S q .initial (List.range k)) k := by
      rw [List.range_succ]
      simp only [runMembers, List.foldl_append, List.foldl_cons, List.foldl_nil]
    rw [hsplit, List.range_succ, List.flatMap_append, List.flatMap_singleton,
      List.flatMap_append, List.flatMap_singleton]
    exact ⟨ha.trans ha', hf'⟩

/-- A served run: all files written and all records read, and every search from the start. -/
theorem run_served (h : Served S q members loaded made) :
    Adds .initial (run S q members) ((List.range members).flatMap (memberOutputs q loaded made))
      ((List.range members).flatMap fun em =>
        integrators.flatMap (integratedAccesses q loaded em)) :=
  (runMembers_served h le_rfl).1

end
end Tigge
