import Tigge.Coverage

/-! Two runs over the same source with different queues, as one product sees them. -/

namespace Tigge
open Lib TiggeVariable VariableStore
variable {n : ℕ} {σ : Type}

/-- The files that a run has written for `v`, in their order. -/
def outputsOf (v : TiggeVariable) (st : RunState n) : List (Output n) :=
  st.written.filter (·.varName = v)

/-- The product `v` cannot tell the runs apart. -/
structure Alike (v : TiggeVariable) (st st' : RunState n) : Prop where
  halted : st.halted = st'.halted
  store : st.stores v = st'.stores v
  outputs : outputsOf v st = outputsOf v st'

namespace Alike
variable {v : TiggeVariable} {st st' st'' : RunState n}

theorem refl (v : TiggeVariable) (st : RunState n) : Alike v st st := ⟨rfl, rfl, rfl⟩

theorem symm (h : Alike v st st') : Alike v st' st := ⟨h.halted.symm, h.store.symm, h.outputs.symm⟩

theorem trans (h : Alike v st st') (h' : Alike v st' st'') : Alike v st st'' :=
  ⟨h.halted.trans h'.halted, h.store.trans h'.store, h.outputs.trans h'.outputs⟩

end Alike

section Statements
variable (S : Source n σ) {q q' : ProcessQueue} {em hour : ℕ} {v : TiggeVariable}

/-- A statement of another product changes its store and its outputs only. -/
theorem runStatement_alike (q : ProcessQueue) (p : RunState n × σ) {s : Statement}
    (hs : s.varName ≠ v) : Alike v p.1 (runStatement S q em hour p s).1 := by
  refine ⟨?_, (runStatement_stores_of_ne S q em hour hs).symm, ?_⟩
  · cases s with
    | load w b => simp only [runStatement]; split_ifs <;> rfl
    | generate w => simp only [runStatement]; split_ifs <;> rfl
  · cases s with
    | load w b => simp only [runStatement, outputsOf]; split_ifs <;> rfl
    | generate w =>
      have hw : w ≠ v := hs
      simp only [runStatement, outputsOf]
      split_ifs
      · cases (S.generate w (6 * hour) p.2).result with
        | none => simp
        | some values => simp [hw]
      · rfl

theorem foldl_runStatement_alike (q : ProcessQueue) {body : List Statement}
    (h : v ∉ body.map Statement.varName) (p : RunState n × σ) :
    Alike v p.1 (body.foldl (runStatement S q em hour) p).1 := by
  refine List.foldlRecOn (motive := fun r : RunState n × σ => Alike v p.1 r.1) _ _
    (Alike.refl v p.1) fun r hr s hs => hr.trans (runStatement_alike S q r ?_)
  rintro rfl
  exact h (List.mem_map_of_mem hs)

/-- The search of a statement finds the same in both files. -/
def SameSearch (hour count : ℕ) (f g : σ) : Statement → Prop
  | .load v protect =>
    (S.load v (protect && hour = 0) count f).result =
      (S.load v (protect && hour = 0) count g).result
  | .generate v => (S.generate v (6 * hour) f).result = (S.generate v (6 * hour) g).result

theorem runStatement_sameSearch {s : Statement} (hq : requested q s.varName)
    (hq' : requested q' s.varName) {p p' : RunState n × σ} (h : Alike s.varName p.1 p'.1)
    (hsearch : SameSearch S hour (p.1.stores s.varName).numberOfSavedRecords p.2 p'.2 s) :
    Alike s.varName (runStatement S q em hour p s).1 (runStatement S q' em hour p' s).1 := by
  cases s with
  | load v b =>
    have hv : requested q v = true := hq
    have hv' : requested q' v = true := hq'
    have hstore : p.1.stores v = p'.1.stores v := h.store
    refine ⟨?_, ?_, ?_⟩
    · simp only [runStatement, Statement.varName] at hq hq' ⊢
      rw [if_pos hq, if_pos hq']
      exact h.halted
    · show (runStatement S q em hour p (.load v b)).1.stores v =
        (runStatement S q' em hour p' (.load v b)).1.stores v
      have hresult : loadResult S q hour p.1 p.2 v b = loadResult S q' hour p'.1 p'.2 v b := by
        rw [loadResult, loadResult, if_pos hv, if_pos hv', ← hstore]
        exact hsearch
      rw [runStatement_load_stores, runStatement_load_stores, hresult, hstore]
    · simp only [runStatement, Statement.varName] at hq hq' ⊢
      rw [if_pos hq, if_pos hq']
      exact h.outputs
  | generate v =>
    have hresult : (S.generate v (6 * hour) p.2).result =
      (S.generate v (6 * hour) p'.2).result := hsearch
    have hwritten : outputsOf v p.1 = outputsOf v p'.1 := h.outputs
    simp only [runStatement, Statement.varName] at hq hq' ⊢
    rw [if_pos hq, if_pos hq']
    refine ⟨h.halted, h.store, ?_⟩
    simp only [outputsOf, List.filter_append, hresult] at hwritten ⊢
    rw [hwritten]

end Statements

theorem exists_statement {v : TiggeVariable} (hv : v ∈ products) :
    ∃ s ∈ hourBody, s.varName = v := by
  rcases List.mem_append.mp hv with hi | hi
  · refine ⟨.generate v, ?_, rfl⟩
    revert hi
    cases v <;> decide
  · obtain ⟨p, hm⟩ := exists_load_of_integrated hi
    exact ⟨_, hm, rfl⟩

/-- The statements of an hour before the one of `v`. -/
def statementsBefore (v : TiggeVariable) : List Statement :=
  hourBody.takeWhile (·.varName ≠ v)

theorem notMem_statementsBefore (v : TiggeVariable) :
    v ∉ (statementsBefore v).map Statement.varName := by
  intro h
  obtain ⟨s, hs, hv⟩ := List.mem_map.mp h
  have hne : decide (s.varName ≠ v) = true :=
    List.mem_takeWhile_imp (p := fun s : Statement => decide (s.varName ≠ v)) hs
  exact of_decide_eq_true hne hv

/-- Each product has one statement in the hour. -/
theorem hourBody_split {s : Statement} (hs : s ∈ hourBody) :
    ∃ after, hourBody = statementsBefore s.varName ++ s :: after ∧
      s.varName ∉ after.map Statement.varName := by
  have hsplit : statementsBefore s.varName ++ hourBody.dropWhile (·.varName ≠ s.varName) =
      hourBody := List.takeWhile_append_dropWhile
  have hnodup := hourBody_nodup
  cases hdrop : hourBody.dropWhile (·.varName ≠ s.varName) with
  | nil =>
    rw [hdrop, List.append_nil] at hsplit
    have hmem := notMem_statementsBefore s.varName
    rw [hsplit] at hmem
    exact absurd (List.mem_map_of_mem hs) hmem
  | cons t after =>
    have ht : t.varName = s.varName := by
      have hhead := List.head?_dropWhile_not
        (fun t : Statement => decide (t.varName ≠ s.varName)) hourBody
      rw [hdrop] at hhead
      simpa using hhead
    rw [hdrop] at hsplit
    obtain rfl : t = s := List.inj_on_of_nodup_map hnodup
      (hsplit ▸ List.mem_append_right _ List.mem_cons_self) hs ht
    refine ⟨after, hsplit.symm, ?_⟩
    rw [← hsplit, List.map_append, List.map_cons, List.nodup_append, List.nodup_cons] at hnodup
    exact hnodup.2.1.1

section Hours
variable (S : Source n σ) (q : ProcessQueue) (em hour : ℕ)

/-- A run when it comes to an hour of a member. -/
def hourStart : RunState n :=
  runHours S q em (runMembers S q .initial (List.range em)) (List.range hour)

/-- The run and the files of an hour when it comes to the statement of `v`. -/
def atStatement (f : σ) (v : TiggeVariable) : RunState n × σ :=
  (statementsBefore v).foldl (runStatement S q em hour) (hourStart S q em hour, f)

/-- The statements before it mean nothing to `v`. -/
theorem atStatement_alike (f : σ) (v : TiggeVariable) :
    Alike v (hourStart S q em hour) (atStatement S q em hour f v).1 :=
  foldl_runStatement_alike S q (notMem_statementsBefore v) (hourStart S q em hour, f)

theorem hourStart_zero : hourStart S q em 0 = runMembers S q .initial (List.range em) := rfl

theorem hourStart_succ :
    hourStart S q em (hour + 1) = runHour S q em (hourStart S q em hour) hour := by
  rw [hourStart, List.range_succ, runHours, List.foldl_append, List.foldl_cons, List.foldl_nil]
  rfl

theorem runMembers_succ : runMembers S q .initial (List.range (em + 1)) =
    freedVariables.foldl runFree
      (integrators.foldl (runIntegrator q em) (hourStart S q em hoursPerMember)) := by
  rw [List.range_succ, runMembers, List.foldl_append, List.foldl_cons, List.foldl_nil]
  rfl

variable {S q em hour}

/-- A run that has not stopped had not stopped before, and had opened the files. -/
theorem running_of_succ (h : (hourStart S q em (hour + 1)).halted = false) :
    (hourStart S q em hour).halted = false ∧ ∃ f, S.fopen em (6 * hour) = some f := by
  rw [hourStart_succ, runHour] at h
  split_ifs at h with hhalted
  · rw [hhalted] at h
    cases h
  · refine ⟨Bool.eq_false_iff.mpr hhalted, ?_⟩
    cases hopen : S.fopen em (6 * hour) with
    | none =>
      rw [hopen] at h
      cases h
    | some f => exact ⟨f, rfl⟩

theorem running_of_le {last : ℕ} (h : (hourStart S q em last).halted = false) (hle : hour ≤ last) :
    (hourStart S q em hour).halted = false := by
  induction hle with
  | refl => exact h
  | step _ ih => exact ih (running_of_succ h).1

theorem hourStart_succ_of_open {f : σ} (hrunning : (hourStart S q em hour).halted = false)
    (hopen : S.fopen em (6 * hour) = some f) :
    hourStart S q em (hour + 1) =
      (hourBody.foldl (runStatement S q em hour) (hourStart S q em hour, f)).1 := by
  rw [hourStart_succ, runHour, hrunning, if_neg Bool.false_ne_true, hopen]

theorem hourStart_succ_of_none (hopen : S.fopen em (6 * hour) = none) :
    hourStart S q em (hour + 1) = { hourStart S q em hour with halted := true } := by
  rw [hourStart_succ, runHour]
  split_ifs with h
  · rw [← h]
  · rw [hopen]

theorem hourStart_succ_of_halted (hhalted : (hourStart S q em hour).halted = true) :
    hourStart S q em (hour + 1) = hourStart S q em hour := by
  rw [hourStart_succ, runHour, if_pos hhalted]

/-- One hour of both runs. -/
theorem hourStart_succ_alike {q' : ProcessQueue} {v : TiggeVariable} (hv : v ∈ products)
    (hq : requested q v) (hq' : requested q' v)
    (h : Alike v (hourStart S q em hour) (hourStart S q' em hour))
    (hsearch : (hourStart S q em hour).halted = false → ∀ f, S.fopen em (6 * hour) = some f →
      ∀ s ∈ hourBody, s.varName = v →
        SameSearch S hour ((atStatement S q em hour f v).1.stores v).numberOfSavedRecords
          (atStatement S q em hour f v).2 (atStatement S q' em hour f v).2 s) :
    Alike v (hourStart S q em (hour + 1)) (hourStart S q' em (hour + 1)) := by
  cases hrunning : (hourStart S q em hour).halted with
  | true =>
    rw [hourStart_succ_of_halted hrunning, hourStart_succ_of_halted (h.halted ▸ hrunning)]
    exact h
  | false =>
    cases hopen : S.fopen em (6 * hour) with
    | none =>
      rw [hourStart_succ_of_none hopen, hourStart_succ_of_none hopen]
      exact ⟨rfl, h.store, h.outputs⟩
    | some f =>
      obtain ⟨s, hs, rfl⟩ := exists_statement hv
      obtain ⟨after, hbody, hafter⟩ := hourBody_split hs
      have hstep := hsearch hrunning f hopen s hs rfl
      have hbefore : Alike s.varName (atStatement S q em hour f s.varName).1
          (atStatement S q' em hour f s.varName).1 :=
        ((atStatement_alike S q em hour f _).symm.trans h).trans
          (atStatement_alike S q' em hour f _)
      rw [hourStart_succ_of_open hrunning hopen,
        hourStart_succ_of_open (h.halted ▸ hrunning) hopen, hbody, List.foldl_append,
        List.foldl_append, List.foldl_cons, List.foldl_cons]
      exact ((foldl_runStatement_alike S q hafter _).symm.trans
        (runStatement_sameSearch S hq hq' hbefore hstep)).trans
          (foldl_runStatement_alike S q' hafter _)

end Hours

section Integrators
variable {q q' : ProcessQueue} {em : ℕ} {v w : TiggeVariable} {st st' : RunState n}

theorem integrate_varName (w : TiggeVariable) (em : ℕ) (store : VariableStore n) :
    ∀ o ∈ (integrate w em store).outputs, o.varName = w := by
  refine List.foldlRecOn (motive := fun acc : Integration n => ∀ o ∈ acc.outputs, o.varName = w)
    _ _ (fun o ho => absurd ho List.not_mem_nil) fun acc hacc hour _ => ?_
  have hwrite : ∀ values, ∀ o ∈ acc.outputs ++ [⟨w, 6 * hour, em, values⟩], o.varName = w := by
    intro values o ho
    rcases List.mem_append.mp ho with ho | ho
    · exact hacc o ho
    · rw [List.mem_singleton.mp ho]
  unfold integrateHour
  split_ifs
  · exact hacc
  · exact hwrite 0
  · dsimp only
    split
    · exact hacc
    · exact hacc
    · split
      · exact hacc
      · unfold Integration.addHour
        split_ifs <;> exact hwrite _

theorem runIntegrator_outputsOf (q : ProcessQueue) (em : ℕ) (st : RunState n) (hw : w ≠ v) :
    outputsOf v (runIntegrator q em st w) = outputsOf v st := by
  unfold runIntegrator
  split_ifs
  · rfl
  · have hnone : (integrate w em (st.stores w)).outputs.filter (·.varName = v) = [] := by
      rw [List.filter_eq_nil_iff]
      intro o ho
      rw [integrate_varName w em _ o ho, decide_eq_true_eq]
      exact hw
    rw [outputsOf, outputsOf, List.filter_append, hnone, List.append_nil]
  · rfl

theorem foldl_runIntegrator_outputsOf (q : ProcessQueue) (em : ℕ) (st : RunState n)
    {vs : List TiggeVariable} (hv : v ∉ vs) :
    outputsOf v (vs.foldl (runIntegrator q em) st) = outputsOf v st := by
  refine List.foldlRecOn (motive := fun r : RunState n => outputsOf v r = outputsOf v st) _ _ rfl
    fun r hr w hw => (runIntegrator_outputsOf q em r ?_).trans hr
  rintro rfl
  exact hv hw

/-- The integrator of `w` gets through. -/
def GetsThrough (q : ProcessQueue) (em : ℕ) (st : RunState n) (w : TiggeVariable) : Prop :=
  requested q w → (integrate w em (st.stores w)).halted = false

theorem runIntegrator_alike (hw : w ≠ v) (h : st.halted = false → GetsThrough q em st w) :
    Alike v st (runIntegrator q em st w) := by
  refine ⟨?_, by rw [runIntegrator_stores], (runIntegrator_outputsOf q em st hw).symm⟩
  unfold runIntegrator
  split_ifs with hhalted hq
  · rfl
  · rw [Bool.not_eq_true] at hhalted
    exact hhalted.trans (h hhalted hq).symm
  · rfl

theorem runIntegrator_both (hq : requested q v) (hq' : requested q' v) (h : Alike v st st') :
    Alike v (runIntegrator q em st v) (runIntegrator q' em st' v) := by
  cases hhalted : st.halted with
  | true =>
    rw [runIntegrator, runIntegrator, if_pos hhalted, if_pos (h.halted ▸ hhalted)]
    exact h
  | false =>
    have hhalted' : st'.halted = false := h.halted ▸ hhalted
    have hwritten := h.outputs
    rw [runIntegrator, runIntegrator, hhalted, hhalted', if_neg Bool.false_ne_true,
      if_neg Bool.false_ne_true, if_pos hq, if_pos hq', ← h.store]
    refine ⟨rfl, h.store, ?_⟩
    simp only [outputsOf, List.filter_append] at hwritten ⊢
    rw [hwritten]

variable (em) in
theorem foldl_runIntegrator_alike (hq : requested q v) (hq' : requested q' v)
    (vs : List TiggeVariable) (h : Alike v st st')
    (hs : st.halted = false → ∀ w ∈ vs, w ≠ v → GetsThrough q em st w)
    (hs' : st'.halted = false → ∀ w ∈ vs, w ≠ v → GetsThrough q' em st' w) :
    Alike v (vs.foldl (runIntegrator q em) st) (vs.foldl (runIntegrator q' em) st') := by
  induction vs generalizing st st' with
  | nil => exact h
  | cons w vs ih =>
    have hrunning : ∀ {q : ProcessQueue} {st : RunState n},
        (runIntegrator q em st w).halted = false → st.halted = false := by
      intro q st hafter
      cases hhalted : st.halted with
      | true =>
        rw [runIntegrator, if_pos hhalted, hhalted] at hafter
        cases hafter
      | false => rfl
    have hkeep : ∀ {q : ProcessQueue} {st : RunState n},
        (st.halted = false → ∀ w' ∈ w :: vs, w' ≠ v → GetsThrough q em st w') →
        (runIntegrator q em st w).halted = false → ∀ w' ∈ vs, w' ≠ v →
          GetsThrough q em (runIntegrator q em st w) w' := by
      intro q st hs hafter w' hw' hne
      rw [GetsThrough, runIntegrator_stores]
      exact hs (hrunning hafter) w' (List.mem_cons_of_mem _ hw') hne
    refine ih ?_ (hkeep hs) (hkeep hs')
    by_cases hw : w = v
    · subst hw
      exact runIntegrator_both hq hq' h
    · exact ((runIntegrator_alike hw fun hh => hs hh w List.mem_cons_self hw).symm.trans h).trans
        (runIntegrator_alike hw fun hh => hs' hh w List.mem_cons_self hw)

end Integrators

section Freeing
variable {v w : TiggeVariable} {st st' : RunState n}

theorem runFree_of_halted (h : st.halted = true) (w : TiggeVariable) : runFree st w = st := by
  rw [runFree, if_pos h]

theorem foldl_runFree_of_halted (h : st.halted = true) (vs : List TiggeVariable) :
    vs.foldl runFree st = st := by
  induction vs with
  | nil => rfl
  | cons w vs ih => rw [List.foldl_cons, runFree_of_halted h, ih]

theorem runFree_outputsOf (st : RunState n) (w : TiggeVariable) :
    outputsOf v (runFree st w) = outputsOf v st := by
  unfold runFree
  split_ifs
  · rfl
  · split <;> rfl

theorem foldl_runFree_outputsOf (st : RunState n) (vs : List TiggeVariable) :
    outputsOf v (vs.foldl runFree st) = outputsOf v st :=
  List.foldlRecOn (motive := fun r : RunState n => outputsOf v r = outputsOf v st) _ _ rfl
    fun r hr w _ => (runFree_outputsOf r w).trans hr

theorem runFree_of_some {store : VariableStore n} (hrunning : st.halted = false)
    (hfree : (st.stores w).freeDataForVariable = some store) :
    runFree st w = { st with stores := Function.update st.stores w store } := by
  rw [runFree, hrunning, if_neg Bool.false_ne_true, hfree]

theorem runFree_of_none (hrunning : st.halted = false)
    (hfree : (st.stores w).freeDataForVariable = none) :
    runFree st w = { st with halted := true } := by
  rw [runFree, hrunning, if_neg Bool.false_ne_true, hfree]

theorem runFree_holds {records : List (Message n)} (hrunning : st.halted = false)
    (h : (st.stores w).Holds records) : (runFree st w).halted = false ∧
      ((runFree st w).stores w).Holds [] ∧
        ∀ u, u ≠ w → (runFree st w).stores u = st.stores u := by
  obtain ⟨store, hfree, hempty⟩ := h.free
  rw [runFree_of_some hrunning hfree]
  exact ⟨hrunning, by simpa using hempty, fun u hu => Function.update_of_ne hu _ _⟩

theorem runFree_both (h : Alike v st st') : Alike v (runFree st v) (runFree st' v) := by
  cases hhalted : st.halted with
  | true =>
    rw [runFree_of_halted hhalted, runFree_of_halted (h.halted ▸ hhalted)]
    exact h
  | false =>
    have hhalted' : st'.halted = false := h.halted ▸ hhalted
    cases hfree : (st.stores v).freeDataForVariable with
    | none =>
      rw [runFree_of_none hhalted hfree, runFree_of_none hhalted' (h.store ▸ hfree)]
      exact ⟨rfl, h.store, h.outputs⟩
    | some store =>
      rw [runFree_of_some hhalted hfree, runFree_of_some hhalted' (h.store ▸ hfree)]
      exact ⟨h.halted, by simp, h.outputs⟩

theorem runFree_stores_of_ne (hw : w ≠ v) (st : RunState n) :
    (runFree st w).stores v = st.stores v := by
  unfold runFree
  split_ifs
  · rfl
  · split
    · rfl
    · exact Function.update_of_ne (Ne.symm hw) _ _

/-- The other products hold something that can be freed. -/
def OthersHold (v : TiggeVariable) (st : RunState n) : Prop :=
  st.halted = false → ∀ w ∈ integrators, w ≠ v → ∃ records, (st.stores w).Holds records

theorem runFree_othersHold (hw : w ∈ integrators) (h : OthersHold v st) :
    OthersHold v (runFree st w) := by
  intro hrunning u hu hne
  cases hhalted : st.halted with
  | true =>
    rw [runFree_of_halted hhalted, hhalted] at hrunning
    cases hrunning
  | false =>
    by_cases huw : u = w
    · subst huw
      obtain ⟨records, hheld⟩ := h hhalted u hu hne
      exact ⟨[], (runFree_holds hhalted hheld).2.1⟩
    · rw [runFree_stores_of_ne (Ne.symm huw)]
      exact h hhalted u hu hne

theorem foldl_runFree_alike {vs : List TiggeVariable} (hvs : ∀ w ∈ vs, w ∈ integrators)
    (h : Alike v st st') (hs : OthersHold v st) (hs' : OthersHold v st') :
    Alike v (vs.foldl runFree st) (vs.foldl runFree st') := by
  induction vs generalizing st st' with
  | nil => exact h
  | cons w vs ih =>
    have hw := hvs w List.mem_cons_self
    refine ih (fun u hu => hvs u (List.mem_cons_of_mem _ hu)) ?_ (runFree_othersHold hw hs)
      (runFree_othersHold hw hs')
    by_cases hwv : w = v
    · subst hwv
      exact runFree_both h
    · have hone : ∀ {st : RunState n}, OthersHold v st → Alike v st (runFree st w) := by
        intro st hs
        refine ⟨?_, (runFree_stores_of_ne hwv st).symm, (runFree_outputsOf st w).symm⟩
        cases hhalted : st.halted with
        | true => rw [runFree_of_halted hhalted, hhalted]
        | false =>
          obtain ⟨records, hheld⟩ := hs hhalted w hw hwv
          exact (runFree_holds hhalted hheld).1.symm
      exact ((hone hs).symm.trans h).trans (hone hs')

/-- What is freed holds nothing afterwards, unless the process has stopped. -/
theorem foldl_runFree_empty {vs : List TiggeVariable} (hvs : ∀ w ∈ vs, w ∈ integrators)
    (hs : OthersHold v st) (hrunning : (vs.foldl runFree st).halted = false)
    (hw : w ∈ integrators) (hne : w ≠ v) (hmem : w ∈ vs ∨ (st.stores w).Holds []) :
    ((vs.foldl runFree st).stores w).Holds [] := by
  induction vs generalizing st with
  | nil => exact hmem.resolve_left List.not_mem_nil
  | cons u vs ih =>
    have hu := hvs u List.mem_cons_self
    refine ih (fun x hx => hvs x (List.mem_cons_of_mem _ hx)) (runFree_othersHold hu hs) hrunning ?_
    cases hhalted : st.halted with
    | true =>
      rw [foldl_runFree_of_halted hhalted, hhalted] at hrunning
      cases hrunning
    | false =>
      by_cases huw : u = w
      · subst huw
        obtain ⟨records, hheld⟩ := hs hhalted u hu hne
        exact .inr (runFree_holds hhalted hheld).2.1
      · rw [runFree_stores_of_ne huw]
        exact hmem.imp_left fun h => (List.mem_cons.mp h).resolve_left (Ne.symm huw)

end Freeing

end Tigge
