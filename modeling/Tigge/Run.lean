import Tigge.Integration

/-! `main`: the loops over members and forecast hours, over any source of records. -/

namespace Tigge
open Lib TiggeVariable
variable {n : ℕ} {σ : Type}

/-- Where the records of a run come from: opening the two files of a member and forecast hour,
and what the loaders and generators find in them. A loader is told whether missing input is
ignored and how many records its variable has saved. -/
structure Source (n : ℕ) (σ : Type) where
  fopen : ℕ → ℕ → Option σ
  load : TiggeVariable → Bool → ℕ → σ → Retrieved σ (Message n)
  generate : TiggeVariable → ℕ → σ → Retrieved σ (Fin n → ℚ)

structure RunState (n : ℕ) where
  stores : TiggeVariable → VariableStore n
  written : List (Output n)
  accesses : List (ResourceAccess n)
  started : List ℕ
  halted : Bool

def RunState.initial : RunState n := ⟨fun _ => .initial, [], [], [], false⟩

/-- A statement of the hour loop. The flag marks the loads before the second assignment to
`ignoreMissingInput`. -/
inductive Statement
  | load (varName : TiggeVariable) (protect : Bool)
  | generate (varName : TiggeVariable)
  deriving DecidableEq

def Statement.varName : Statement → TiggeVariable
  | .load v _ => v
  | .generate v => v

def hourBody : List Statement :=
  [.load timeIntegratedOutgoingLongWaveRadiation true,
    .load timeIntegratedSurfaceLatentHeatFlux true,
    .load timeIntegratedSurfaceSensibleHeatFlux true,
    .load timeIntegratedSurfaceNetSolarRadiation true,
    .load timeIntegratedSurfaceNetThermalRadiation true,
    .generate snowFallWaterEquivalent, .generate totalColumnWater, .generate potentialTemperature,
    .generate soilMoisture, .generate soilTemperature,
    .load totalPrecipitation false, .load timeIntegratedSnowFallWaterEquivalent false]

/-- The variables integrated after the last hour of a member, in order. -/
def integrators : List TiggeVariable :=
  [timeIntegratedOutgoingLongWaveRadiation, timeIntegratedSurfaceLatentHeatFlux,
    timeIntegratedSurfaceSensibleHeatFlux, timeIntegratedSnowFallWaterEquivalent,
    timeIntegratedSurfaceNetSolarRadiation, timeIntegratedSurfaceNetThermalRadiation,
    totalPrecipitation]

/-- The variables whose records are freed after that, in order. -/
def freedVariables : List TiggeVariable :=
  [timeIntegratedOutgoingLongWaveRadiation, timeIntegratedSurfaceLatentHeatFlux,
    timeIntegratedSurfaceSensibleHeatFlux, timeIntegratedSurfaceNetSolarRadiation,
    timeIntegratedSurfaceNetThermalRadiation, timeIntegratedSnowFallWaterEquivalent,
    totalPrecipitation]

section
variable (S : Source n σ) (q : ProcessQueue)

def RunState.assign (st : RunState n) (v : TiggeVariable) (record : Option (Message n)) :
    RunState n :=
  { st with stores := Function.update st.stores v ((st.stores v).assign record) }

/-- `loadDataForVariable` and `generateVariable`; both do nothing unless the queue holds the
variable. -/
def runStatement (em hour : ℕ) (p : RunState n × σ) : Statement → RunState n × σ
  | .load v protect =>
    if requested q v then
      let r := S.load v (protect && hour = 0) (p.1.stores v).numberOfSavedRecords p.2
      ({ p.1.assign v r.result with started := p.1.started ++ r.started }, r.files)
    else (p.1.assign v none, p.2)
  | .generate v =>
    if requested q v then
      let r := S.generate v (6 * hour) p.2
      ({ p.1 with
        written := p.1.written ++ (r.result.map fun values => ⟨v, 6 * hour, em, values⟩).toList
        started := p.1.started ++ r.started }, r.files)
    else p

def runHour (em : ℕ) (st : RunState n) (hour : ℕ) : RunState n :=
  if st.halted then st
  else match S.fopen em (6 * hour) with
    | none => { st with halted := true }
    | some files => (hourBody.foldl (runStatement S q em hour) (st, files)).1

def runIntegrator (em : ℕ) (st : RunState n) (v : TiggeVariable) : RunState n :=
  if st.halted then st
  else if requested q v then
    let r := integrate v em (st.stores v)
    { st with
      written := st.written ++ r.outputs
      accesses := st.accesses ++ r.accesses
      halted := r.halted }
  else st

def runFree (st : RunState n) (v : TiggeVariable) : RunState n :=
  if st.halted then st
  else match (st.stores v).freeDataForVariable with
    | none => { st with halted := true }
    | some store => { st with stores := Function.update st.stores v store }

def runHours (em : ℕ) (st : RunState n) (hours : List ℕ) : RunState n :=
  hours.foldl (runHour S q em) st

def runMember (st : RunState n) (em : ℕ) : RunState n :=
  freedVariables.foldl runFree
    (integrators.foldl (runIntegrator q em)
      (runHours S q em st (List.range hoursPerMember)))

def runMembers (st : RunState n) (members : List ℕ) : RunState n :=
  members.foldl (runMember S q) st

def run (members : ℕ) : RunState n := runMembers S q .initial (List.range members)

end

/-! What one statement and one hour add to a run. -/

/-- What a stretch of a run adds to the logs of the state before it. -/
structure Adds (st st' : RunState n) (outputs : List (Output n))
    (accesses : List (ResourceAccess n)) : Prop where
  written : st'.written = st.written ++ outputs
  accesses : st'.accesses = st.accesses ++ accesses
  started : ∀ p ∈ st'.started, p ∈ st.started ∨ p = 0
  halted : st'.halted = st.halted

theorem Adds.refl (st : RunState n) : Adds st st [] [] :=
  ⟨by simp, by simp, fun _ h => .inl h, rfl⟩

theorem Adds.trans {st st' st'' : RunState n} {o o' : List (Output n)}
    {a a' : List (ResourceAccess n)} (h : Adds st st' o a) (h' : Adds st' st'' o' a') :
    Adds st st'' (o ++ o') (a ++ a') := by
  refine ⟨?_, ?_, fun p hp => ?_, h'.halted.trans h.halted⟩
  · rw [h'.written, h.written, List.append_assoc]
  · rw [h'.accesses, h.accesses, List.append_assoc]
  · exact (h'.started p hp).elim (h.started p) .inr

section
variable (S : Source n σ) (q : ProcessQueue) (em hour : ℕ)

/-- A requested statement leaves the files as they were and starts no search elsewhere. -/
def Keeps (st : RunState n) (f : σ) : Statement → Prop
  | .load v protect =>
    let r := S.load v (protect && hour = 0) (st.stores v).numberOfSavedRecords f
    r.files = f ∧ ∀ p ∈ r.started, p = 0
  | .generate v =>
    let r := S.generate v (6 * hour) f
    r.files = f ∧ ∀ p ∈ r.started, p = 0

/-- The file written by a statement of the hour. -/
def statementOutputs (f : σ) : Statement → List (Output n)
  | .load _ _ => []
  | .generate v =>
    if requested q v then
      ((S.generate v (6 * hour) f).result.map fun values => ⟨v, 6 * hour, em, values⟩).toList
    else []

/-- What a load statement hands to `main`'s pointer. -/
def loadResult (st : RunState n) (f : σ) (v : TiggeVariable) (protect : Bool) :
    Option (Message n) :=
  if requested q v then
    (S.load v (protect && hour = 0) (st.stores v).numberOfSavedRecords f).result
  else none

theorem runStatement_keeps {st : RunState n} {f : σ} {s : Statement}
    (hs : requested q s.varName → Keeps S hour st f s) :
    (runStatement S q em hour (st, f) s).2 = f ∧
    Adds st (runStatement S q em hour (st, f) s).1 (statementOutputs S q em hour f s) [] := by
  cases s with
  | load v p =>
    by_cases hq : requested q v
    · obtain ⟨h1, h2⟩ := hs hq
      simp only [runStatement, if_pos hq]
      refine ⟨h1, by simp [RunState.assign, statementOutputs], by simp [RunState.assign], ?_, rfl⟩
      exact fun x hx => (List.mem_append.mp hx).elim .inl fun h => .inr (h2 x h)
    · simp only [runStatement, if_neg hq]
      exact ⟨trivial, by simp [RunState.assign, statementOutputs], by simp [RunState.assign],
        fun _ h => .inl h, rfl⟩
  | generate v =>
    by_cases hq : requested q v
    · obtain ⟨h1, h2⟩ := hs hq
      simp only [runStatement, if_pos hq, statementOutputs]
      refine ⟨h1, rfl, by simp, ?_, rfl⟩
      exact fun x hx => (List.mem_append.mp hx).elim .inl fun h => .inr (h2 x h)
    · simp only [runStatement, if_neg hq, statementOutputs]
      exact ⟨trivial, Adds.refl st⟩

theorem runStatement_load_stores (p : RunState n × σ) (v : TiggeVariable) (b : Bool) :
    (runStatement S q em hour p (.load v b)).1.stores v =
      (p.1.stores v).assign (loadResult S q hour p.1 p.2 v b) := by
  unfold loadResult
  by_cases hq : requested q v
  · simp only [runStatement, if_pos hq, RunState.assign, Function.update_self]
  · simp only [runStatement, if_neg hq, RunState.assign, Function.update_self]

theorem runStatement_stores_of_ne {p : RunState n × σ} {s : Statement} {v : TiggeVariable}
    (h : s.varName ≠ v) : (runStatement S q em hour p s).1.stores v = p.1.stores v := by
  cases s with
  | load w b =>
    simp only [runStatement]
    split_ifs <;> exact Function.update_of_ne (Ne.symm h) _ _
  | generate w =>
    simp only [runStatement]
    split_ifs <;> rfl

theorem foldl_runStatement_stores_of_notMem {p : RunState n × σ} {v : TiggeVariable}
    {body : List Statement} (h : v ∉ body.map Statement.varName) :
    (body.foldl (runStatement S q em hour) p).1.stores v = p.1.stores v := by
  induction body generalizing p with
  | nil => rfl
  | cons s rest ih =>
    rw [List.map_cons, List.mem_cons, not_or] at h
    rw [List.foldl_cons, ih h.2, runStatement_stores_of_ne S q em hour (Ne.symm h.1)]

theorem foldl_runStatement_keeps {f : σ} {body : List Statement} {st : RunState n}
    (hs : ∀ s ∈ body, requested q s.varName → Keeps S hour st f s)
    (hnd : (body.map Statement.varName).Nodup) :
    Adds st (body.foldl (runStatement S q em hour) (st, f)).1
      (body.flatMap (statementOutputs S q em hour f)) [] ∧
    ∀ v b, .load v b ∈ body → (body.foldl (runStatement S q em hour) (st, f)).1.stores v =
      (st.stores v).assign (loadResult S q hour st f v b) := by
  induction body generalizing st with
  | nil => exact ⟨Adds.refl st, fun _ _ h => by simp at h⟩
  | cons s rest ih =>
    rw [List.map_cons, List.nodup_cons] at hnd
    obtain ⟨hf, ha⟩ := runStatement_keeps S q em hour (hs s List.mem_cons_self)
    have hother : ∀ t ∈ rest,
        (runStatement S q em hour (st, f) s).1.stores t.varName = st.stores t.varName :=
      fun t ht => runStatement_stores_of_ne S q em hour fun he =>
        hnd.1 (he ▸ List.mem_map_of_mem ht)
    have hpair : runStatement S q em hour (st, f) s =
        ((runStatement S q em hour (st, f) s).1, f) := Prod.ext rfl hf
    have hkeep : ∀ t ∈ rest, requested q t.varName →
        Keeps S hour (runStatement S q em hour (st, f) s).1 f t := by
      intro t ht hq
      have hold := hs t (List.mem_cons_of_mem _ ht) hq
      have hstore := hother t ht
      cases t with
      | load v b =>
        simp only [Keeps] at hold ⊢
        rwa [show (runStatement S q em hour (st, f) s).1.stores v = st.stores v from hstore]
      | generate v => exact hold
    obtain ⟨hb, hl⟩ := ih hkeep hnd.2
    rw [List.foldl_cons, hpair]
    refine ⟨ha.trans hb, fun v b hm => ?_⟩
    rcases List.mem_cons.mp hm with rfl | hm
    · have hv : v ∉ rest.map Statement.varName := hnd.1
      rw [foldl_runStatement_stores_of_notMem S q em hour hv, runStatement_load_stores]
    · have hstore : (runStatement S q em hour (st, f) s).1.stores v = st.stores v :=
        hother _ hm
      rw [hl v b hm, loadResult, loadResult, hstore]

theorem runIntegrator_stores (st : RunState n) (v : TiggeVariable) :
    (runIntegrator q em st v).stores = st.stores := by
  unfold runIntegrator
  split_ifs <;> rfl

end

/-! Running on adds to the accesses that were logged. -/

section
variable (S : Source n σ) (q : ProcessQueue)

theorem runHour_accesses (em : ℕ) (st : RunState n) (hour : ℕ) :
    (runHour S q em st hour).accesses = st.accesses := by
  unfold runHour
  split_ifs
  · rfl
  · split
    · rfl
    · refine List.foldlRecOn (motive := fun p : RunState n × σ => p.1.accesses = st.accesses) _ _
        rfl fun p hp s _ => ?_
      cases s <;> (simp only [runStatement]; split_ifs <;> exact hp)

theorem runIntegrator_accesses (em : ℕ) (st : RunState n) (v : TiggeVariable) :
    st.accesses ⊆ (runIntegrator q em st v).accesses := by
  unfold runIntegrator
  split_ifs
  · exact fun _ h => h
  · exact List.subset_append_left _ _
  · exact fun _ h => h

theorem runFree_accesses (st : RunState n) (v : TiggeVariable) :
    (runFree st v).accesses = st.accesses := by
  unfold runFree
  split_ifs
  · rfl
  · split <;> rfl

theorem runHours_accesses (em : ℕ) (st : RunState n) (hours : List ℕ) :
    (runHours S q em st hours).accesses = st.accesses :=
  List.foldlRecOn (motive := fun st' : RunState n => st'.accesses = st.accesses) _ _ rfl
    fun st' h hour _ => (runHour_accesses S q em st' hour).trans h

theorem foldl_runIntegrator_accesses (em : ℕ) (st : RunState n) (vs : List TiggeVariable) :
    st.accesses ⊆ (vs.foldl (runIntegrator q em) st).accesses :=
  List.foldlRecOn (motive := fun st' : RunState n => st.accesses ⊆ st'.accesses) _ _
    (fun _ h => h) fun st' h v _ => List.Subset.trans h (runIntegrator_accesses q em st' v)

theorem foldl_runFree_accesses (st : RunState n) (vs : List TiggeVariable) :
    (vs.foldl runFree st).accesses = st.accesses :=
  List.foldlRecOn (motive := fun st' : RunState n => st'.accesses = st.accesses) _ _ rfl
    fun st' h v _ => (runFree_accesses st' v).trans h

theorem runMember_accesses (st : RunState n) (em : ℕ) :
    st.accesses ⊆ (runMember S q st em).accesses := by
  rw [runMember, foldl_runFree_accesses]
  refine List.Subset.trans ?_ (foldl_runIntegrator_accesses q em _ integrators)
  rw [runHours_accesses]
  exact fun _ h => h

theorem runMembers_accesses (st : RunState n) (members : List ℕ) :
    st.accesses ⊆ (runMembers S q st members).accesses :=
  List.foldlRecOn (motive := fun st' : RunState n => st.accesses ⊆ st'.accesses) _ _
    (fun _ h => h) fun st' h em _ => List.Subset.trans h (runMember_accesses S q st' em)

end
end Tigge
