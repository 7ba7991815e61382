import Tigge.Lib.Ledger
import Tigge.Outcomes

/-! The record store between any two steps of `main`: what it holds are the records loaded since
the variable was last freed. -/

namespace Tigge
open Lib Lib.Entry TiggeVariable VariableStore
variable {n : ℕ} {σ : Type}

inductive Step
  | fopen (em hour : ℕ)
  | statement (em hour : ℕ) (s : Statement)
  | integrate (em : ℕ) (v : TiggeVariable)
  | free (v : TiggeVariable)

def hourSteps (em hour : ℕ) : List Step := .fopen em hour :: hourBody.map (.statement em hour)

def loadingSteps (em : ℕ) : List Step := (List.range hoursPerMember).flatMap (hourSteps em)

def closingSteps (em : ℕ) : List Step := integrators.map (.integrate em) ++ freedVariables.map .free

def memberSteps (em : ℕ) : List Step := loadingSteps em ++ closingSteps em

def programSteps (members : ℕ) : List Step := (List.range members).flatMap memberSteps

structure Load (n : ℕ) where
  em : ℕ
  hour : ℕ
  record : Message n

/-- The state between two steps, with what was loaded and freed on the way and whether a load
that was asked for has failed. -/
structure Point (n : ℕ) (σ : Type) where
  state : RunState n
  files : Option σ
  log : List (Entry TiggeVariable (Load n))
  failed : Bool

def Point.start : Point n σ := ⟨.initial, none, [], false⟩

/-- The records of `v` loaded since it was last freed. -/
def Point.loads (pt : Point n σ) (v : TiggeVariable) : List (Load n) := since v [] pt.log

section
variable (S : Source n σ) (q : ProcessQueue)

/-- What a statement of an hour adds to the log. -/
def statementLog (em hour : ℕ) (st : RunState n) (files : σ) :
    Statement → List (Entry TiggeVariable (Load n))
  | .load v protect =>
    ((loadResult S q hour st files v protect).map fun m => .add v ⟨em, hour, m⟩).toList
  | .generate _ => []

def statementFails (hour : ℕ) (st : RunState n) (files : σ) : Statement → Bool
  | .load v protect => requested q v && (loadResult S q hour st files v protect).isNone
  | .generate _ => false

def takeStep (pt : Point n σ) (s : Step) : Point n σ :=
  if pt.state.halted then pt
  else match s with
    | .fopen em hour => match S.fopen em (6 * hour) with
      | none => { pt with state := { pt.state with halted := true } }
      | some files => { pt with files := some files }
    | .statement em hour s => match pt.files with
      | none => { pt with state := { pt.state with halted := true } }
      | some files =>
        let p := runStatement S q em hour (pt.state, files) s
        { state := p.1
          files := some p.2
          log := pt.log ++ statementLog S q em hour pt.state files s
          failed := pt.failed || statementFails S q hour pt.state files s }
    | .integrate em v => { pt with state := runIntegrator q em pt.state v }
    | .free v =>
      let state := runFree pt.state v
      { pt with state := state, log := pt.log ++ if state.halted then [] else [.clear v] }

def afterSteps (steps : List Step) : Point n σ := steps.foldl (takeStep S q) .start

end

section Program
variable (S : Source n σ) (q : ProcessQueue)

theorem takeStep_halted {pt : Point n σ} (h : pt.state.halted = true) (s : Step) :
    takeStep S q pt s = pt := if_pos h

theorem foldl_takeStep_halted {pt : Point n σ} (h : pt.state.halted = true) (steps : List Step) :
    steps.foldl (takeStep S q) pt = pt :=
  List.foldlRecOn (motive := fun pt' => pt' = pt) _ _ rfl fun _ h' s _ => by
    rw [h', takeStep_halted S q h]

/-- Everything one step can do. -/
inductive Takes (pt : Point n σ) : Step → Point n σ → Prop
  | idle {s : Step} : pt.state.halted = true → Takes pt s pt
  | ends {s : Step} : Takes pt s { pt with state := { pt.state with halted := true } }
  | opened {em hour : ℕ} (files : σ) : Takes pt (.fopen em hour) { pt with files := some files }
  | stated {em hour : ℕ} {s : Statement} (files : σ) : pt.state.halted = false →
      Takes pt (.statement em hour s)
        ⟨(runStatement S q em hour (pt.state, files) s).1,
          some (runStatement S q em hour (pt.state, files) s).2,
          pt.log ++ statementLog S q em hour pt.state files s,
          pt.failed || statementFails S q hour pt.state files s⟩
  | integrated {em : ℕ} {v : TiggeVariable} :
      Takes pt (.integrate em v) { pt with state := runIntegrator q em pt.state v }
  | freed {v : TiggeVariable} : pt.state.halted = false → (runFree pt.state v).halted = false →
      Takes pt (.free v) { pt with state := runFree pt.state v, log := pt.log ++ [.clear v] }
  | stuck {v : TiggeVariable} : pt.state.halted = false → (runFree pt.state v).halted = true →
      Takes pt (.free v) { pt with state := runFree pt.state v }

theorem takeStep_takes (pt : Point n σ) (s : Step) : Takes S q pt s (takeStep S q pt s) := by
  cases hal : pt.state.halted with
  | true =>
    rw [takeStep_halted S q hal]
    exact .idle hal
  | false =>
    rw [takeStep.eq_def, hal, if_neg Bool.false_ne_true]
    cases s with
    | fopen em hour =>
      dsimp only
      split
      · exact .ends
      · exact .opened _
    | statement em hour s =>
      dsimp only
      split
      · exact .ends
      · exact .stated _ hal
    | integrate em v => exact .integrated
    | free v =>
      cases hrun : (runFree pt.state v).halted with
      | true => simpa only [hrun, if_true, List.append_nil] using .stuck hal hrun
      | false => simpa only [hrun, Bool.false_eq_true, if_false] using .freed hal hrun

theorem running_of_takeStep {pt : Point n σ} {s : Step}
    (hrun : (takeStep S q pt s).state.halted = false) : pt.state.halted = false := by
  cases hal : pt.state.halted with
  | true =>
    rw [takeStep_halted S q hal, hal] at hrun
    exact hrun
  | false => rfl

theorem runStatement_halted (em hour : ℕ) (p : RunState n × σ) (s : Statement) :
    (runStatement S q em hour p s).1.halted = p.1.halted := by
  cases s <;> (simp only [runStatement]; split_ifs <;> rfl)

theorem takeStep_statement {pt : Point n σ} {files : σ} (hal : pt.state.halted = false)
    (hf : pt.files = some files) (em hour : ℕ) (s : Statement) :
    (takeStep S q pt (.statement em hour s)).state =
        (runStatement S q em hour (pt.state, files) s).1 ∧
      (takeStep S q pt (.statement em hour s)).files =
        some (runStatement S q em hour (pt.state, files) s).2 := by
  rw [takeStep, hal, if_neg Bool.false_ne_true]
  simp only [hf, and_self]

theorem foldl_takeStep_statements (em hour : ℕ) {body : List Statement} (pt : Point n σ)
    {files : σ} (hal : pt.state.halted = false) (hf : pt.files = some files) :
    ((body.map (Step.statement em hour)).foldl (takeStep S q) pt).state =
      (body.foldl (runStatement S q em hour) (pt.state, files)).1 := by
  induction body generalizing pt files with
  | nil => rfl
  | cons s body ih =>
    obtain ⟨hstate, hfiles⟩ := takeStep_statement S q hal hf em hour s
    have hhalted : (takeStep S q pt (.statement em hour s)).state.halted = false := by
      rw [hstate, runStatement_halted]
      exact hal
    rw [List.map_cons, List.foldl_cons, List.foldl_cons, ih _ hhalted hfiles, hstate]

theorem foldl_hourSteps (em hour : ℕ) (pt : Point n σ) :
    ((hourSteps em hour).foldl (takeStep S q) pt).state = runHour S q em pt.state hour := by
  cases hal : pt.state.halted with
  | true => rw [foldl_takeStep_halted S q hal, runHour, if_pos hal]
  | false =>
    rw [hourSteps, List.foldl_cons, runHour, hal, if_neg Bool.false_ne_true]
    cases hopen : S.fopen em (6 * hour) with
    | none =>
      have hstep : takeStep S q pt (.fopen em hour) =
          { pt with state := { pt.state with halted := true } } := by
        simp only [takeStep, hal, Bool.false_eq_true, if_false, hopen]
      rw [hstep, foldl_takeStep_halted S q rfl]
    | some files =>
      have hstep : takeStep S q pt (.fopen em hour) = { pt with files := some files } := by
        simp only [takeStep, hal, Bool.false_eq_true, if_false, hopen]
      rw [hstep]
      exact foldl_takeStep_statements S q em hour { pt with files := some files } hal rfl

theorem takeStep_integrate (em : ℕ) (v : TiggeVariable) (pt : Point n σ) :
    (takeStep S q pt (.integrate em v)).state = runIntegrator q em pt.state v := by
  cases hal : pt.state.halted with
  | true => rw [takeStep_halted S q hal, runIntegrator, if_pos hal]
  | false => rw [takeStep, hal, if_neg Bool.false_ne_true]

theorem takeStep_free (v : TiggeVariable) (pt : Point n σ) :
    (takeStep S q pt (.free v)).state = runFree pt.state v := by
  cases hal : pt.state.halted with
  | true => rw [takeStep_halted S q hal, runFree, if_pos hal]
  | false => rw [takeStep, hal, if_neg Bool.false_ne_true]

theorem foldl_memberSteps (em : ℕ) (pt : Point n σ) :
    ((memberSteps em).foldl (takeStep S q) pt).state = runMember S q pt.state em := by
  have hhours : ∀ hours : List ℕ, ((hours.flatMap (hourSteps em)).foldl (takeStep S q) pt).state =
      runHours S q em pt.state hours := by
    intro hours
    rw [List.foldl_flatMap, runHours]
    exact (List.foldl_hom Point.state fun pt' hour => (foldl_hourSteps S q em hour pt').symm).symm
  rw [memberSteps, closingSteps, List.foldl_append, List.foldl_append, List.foldl_map,
    List.foldl_map, runMember, ← hhours]
  rw [← List.foldl_hom Point.state fun pt' v => (takeStep_free S q v pt').symm]
  rw [← List.foldl_hom Point.state fun pt' v => (takeStep_integrate S q em v pt').symm]
  rfl

/-- The steps of `main`, one after the other, are its run. -/
theorem afterSteps_program (members : ℕ) :
    (afterSteps S q (programSteps members)).state = run S q members := by
  rw [afterSteps, programSteps, List.foldl_flatMap, run, runMembers]
  exact (List.foldl_hom Point.state fun pt em => (foldl_memberSteps S q em pt).symm).symm

end Program

/-- Every store holds what was loaded since it was freed, and nothing is loaded for a variable
that was not asked for. -/
structure Point.Agrees (q : ProcessQueue) (pt : Point n σ) : Prop where
  holds : ∀ v, (pt.state.stores v).Holds ((pt.loads v).map Load.record)
  asked : ∀ v, requested q v = false → pt.loads v = []

section Agreement
variable {S : Source n σ} {q : ProcessQueue} {pt : Point n σ}

theorem requested_of_loadResult {hour : ℕ} {st : RunState n} {files : σ} {v : TiggeVariable}
    {protect : Bool} {m : Message n} (h : loadResult S q hour st files v protect = some m) :
    requested q v = true := by
  by_contra hq
  rw [loadResult, if_neg hq] at h
  cases h

/-- A load that stores a record, the only store it touches being that of its variable. -/
theorem Point.Agrees.add (h : pt.Agrees q) {w : TiggeVariable} (hq : requested q w = true)
    {l : Load n} {st : RunState n} (hself : st.stores w = (pt.state.stores w).assign (some l.record))
    (hother : ∀ v, w ≠ v → st.stores v = pt.state.stores v) (files : Option σ) (failed : Bool) :
    Point.Agrees q ⟨st, files, pt.log ++ [.add w l], failed⟩ := by
  have hloads : ∀ v, since v [] (pt.log ++ [.add w l]) =
      if w = v then pt.loads v ++ [l] else pt.loads v := fun v => since_append
  refine ⟨fun v => ?_, fun v hv => ?_⟩
  · show VariableStore.Holds _ ((since v [] _).map Load.record)
    rw [hloads]
    by_cases hwv : w = v
    · subst hwv
      rw [hself, if_pos rfl, List.map_append]
      exact (h.holds w).add l.record
    · rw [hother v hwv, if_neg hwv]
      exact h.holds v
  · show since v [] _ = []
    have hwv : w ≠ v := by
      rintro rfl
      exact Bool.false_ne_true (hv.symm.trans hq)
    rw [hloads, if_neg hwv]
    exact h.asked v hv

/-- A load that was not asked for sets its pointer to `NULL`, which was `NULL` before. -/
theorem Point.Agrees.refuse (h : pt.Agrees q) {w : TiggeVariable} (hq : requested q w = false)
    {st : RunState n} (hself : st.stores w = (pt.state.stores w).assign none)
    (hother : ∀ v, w ≠ v → st.stores v = pt.state.stores v) (files : Option σ) (failed : Bool) :
    Point.Agrees q ⟨st, files, pt.log, failed⟩ := by
  refine ⟨fun v => ?_, h.asked⟩
  by_cases hwv : w = v
  · subst hwv
    have hheld := h.holds w
    have hnil : Point.loads pt w = [] := h.asked w hq
    rw [hnil] at hheld
    rw [hself]
    show VariableStore.Holds _ ((Point.loads pt w).map Load.record)
    rw [hnil]
    exact ⟨hheld.count, fun hne => absurd rfl hne, hheld.bytes⟩
  · rw [hother v hwv]
    exact h.holds v

theorem agrees_statement (h : pt.Agrees q) (em hour : ℕ) (files : σ) {s : Statement}
    (hok : statementFails S q hour pt.state files s = false) (files' : Option σ) (failed : Bool) :
    Point.Agrees q ⟨(runStatement S q em hour (pt.state, files) s).1, files',
      pt.log ++ statementLog S q em hour pt.state files s, failed⟩ := by
  cases s with
  | generate w =>
    have hstores : (runStatement S q em hour (pt.state, files) (.generate w)).1.stores =
        pt.state.stores := by
      simp only [runStatement]
      split_ifs <;> rfl
    simp only [statementLog, List.append_nil]
    refine ⟨fun v => ?_, h.asked⟩
    rw [hstores]
    exact h.holds v
  | load w protect =>
    have hself := runStatement_load_stores S q em hour (pt.state, files) w protect
    have hother : ∀ v, w ≠ v → (runStatement S q em hour (pt.state, files)
        (.load w protect)).1.stores v = pt.state.stores v :=
      fun v hv => runStatement_stores_of_ne S q em hour hv
    dsimp only at hself
    cases hr : loadResult S q hour pt.state files w protect with
    | none =>
      have hq : requested q w = false := by
        rw [statementFails, hr] at hok
        simpa using hok
      rw [hr] at hself
      simp only [statementLog, hr, Option.map_none, Option.toList_none, List.append_nil]
      exact h.refuse hq hself hother files' failed
    | some m =>
      rw [hr] at hself
      simp only [statementLog, hr, Option.map_some, Option.toList_some]
      exact h.add (requested_of_loadResult hr) hself hother files' failed

theorem agrees_free (h : pt.Agrees q) (hal : pt.state.halted = false) (w : TiggeVariable) :
    (runFree pt.state w).halted = false ∧
      Point.Agrees q { pt with state := runFree pt.state w, log := pt.log ++ [.clear w] } := by
  obtain ⟨store, hfree, hempty⟩ := (h.holds w).free
  have hstep : runFree pt.state w =
      { pt.state with stores := Function.update pt.state.stores w store } := by
    have hnot : ¬ pt.state.halted = true := by
      rw [hal]
      exact Bool.false_ne_true
    rw [runFree, if_neg hnot, hfree]
  have hloads : ∀ v, since v [] (pt.log ++ [.clear w]) =
      if w = v then [] else pt.loads v := fun v => since_append
  rw [hstep]
  refine ⟨hal, fun v => ?_, fun v hv => ?_⟩
  · show VariableStore.Holds _ ((since v [] _).map Load.record)
    rw [hloads]
    by_cases hv : w = v
    · subst hv
      rw [if_pos rfl]
      dsimp only
      rw [Function.update_self]
      exact hempty
    · rw [if_neg hv]
      dsimp only
      rw [Function.update_of_ne (Ne.symm hv)]
      exact h.holds v
  · show since v [] _ = []
    rw [hloads, h.asked v hv, ite_self]

theorem takeStep_agrees (h : pt.Agrees q) (s : Step) (hok : (takeStep S q pt s).failed = false) :
    (takeStep S q pt s).Agrees q := by
  have htakes := takeStep_takes S q pt s
  generalize takeStep S q pt s = pt' at htakes hok
  cases htakes with
  | idle => exact h
  | ends => exact ⟨h.holds, h.asked⟩
  | opened files => exact ⟨h.holds, h.asked⟩
  | stated files hal => exact agrees_statement h _ _ files (Bool.or_eq_false_iff.mp hok).2 _ _
  | integrated =>
    refine ⟨fun w => ?_, h.asked⟩
    dsimp only
    rw [runIntegrator_stores]
    exact h.holds w
  | freed hal => exact (agrees_free h hal _).2
  | stuck hal hrun => exact absurd ((agrees_free h hal _).1.symm.trans hrun) Bool.false_ne_true

theorem failed_of_takeStep {s : Step} (hok : (takeStep S q pt s).failed = false) :
    pt.failed = false := by
  have htakes := takeStep_takes S q pt s
  generalize takeStep S q pt s = pt' at htakes hok
  cases htakes with
  | stated => exact (Bool.or_eq_false_iff.mp hok).1
  | _ => exact hok

theorem afterSteps_concat (steps : List Step) (s : Step) :
    afterSteps S q (steps ++ [s]) = takeStep S q (afterSteps S q steps) s := by
  rw [afterSteps, List.foldl_append]
  rfl

theorem start_agrees : (Point.start : Point n σ).Agrees q :=
  ⟨fun _ => initial_holds, fun _ _ => rfl⟩

/-- While no load fails, every store holds what the log says. -/
theorem afterSteps_agrees (steps : List Step) (hok : (afterSteps S q steps).failed = false) :
    (afterSteps S q steps).Agrees q := by
  induction steps using List.reverseRecOn with
  | nil => exact start_agrees
  | append_singleton steps s ih =>
    rw [afterSteps_concat] at hok ⊢
    exact takeStep_agrees (ih (failed_of_takeStep hok)) s hok

/-! The loads and frees that the steps announce. -/

def Load.key (l : Load n) : ℕ × ℕ := (l.em, l.hour)

/-- The entry that a step makes when it does not fail. -/
def Step.entry (q : ProcessQueue) : Step → Option (Entry TiggeVariable (ℕ × ℕ))
  | .statement em hour (.load v _) => if requested q v then some (.add v (em, hour)) else none
  | .free v => some (.clear v)
  | _ => none

def entries (q : ProcessQueue) (steps : List Step) : List (Entry TiggeVariable (ℕ × ℕ)) :=
  steps.filterMap (Step.entry q)

theorem entries_append (steps steps' : List Step) :
    entries q (steps ++ steps') = entries q steps ++ entries q steps' := List.filterMap_append

theorem map_statementLog {em hour : ℕ} {files : σ} {s : Statement}
    (hok : statementFails S q hour pt.state files s = false) :
    (statementLog S q em hour pt.state files s).map (Entry.map Load.key) =
      entries q [.statement em hour s] := by
  cases s with
  | generate v => rfl
  | load v protect =>
    simp only [statementLog, entries, Step.entry, List.filterMap_cons, List.filterMap_nil]
    cases hr : loadResult S q hour pt.state files v protect with
    | none =>
      have hq : requested q v = false := by
        rw [statementFails, hr] at hok
        simpa using hok
      simp [hq]
    | some m => simp [requested_of_loadResult hr, Entry.map, Load.key]

theorem takeStep_log {s : Step} (hrun : (takeStep S q pt s).state.halted = false)
    (hok : (takeStep S q pt s).failed = false) :
    (takeStep S q pt s).log.map (Entry.map Load.key) =
      pt.log.map (Entry.map Load.key) ++ entries q [s] := by
  have hal := running_of_takeStep S q hrun
  have htakes := takeStep_takes S q pt s
  generalize takeStep S q pt s = pt' at htakes hrun hok
  cases htakes with
  | idle hidle => exact absurd (hal.symm.trans hidle) Bool.false_ne_true
  | ends => exact absurd hrun.symm Bool.false_ne_true
  | opened files => exact (List.append_nil _).symm
  | stated files =>
    rw [List.map_append, map_statementLog (Bool.or_eq_false_iff.mp hok).2]
  | integrated => exact (List.append_nil _).symm
  | freed => exact List.map_append
  | stuck hal hstuck => exact absurd (hrun.symm.trans hstuck) Bool.false_ne_true

theorem takeStep_log_of_halted {s : Step} (hrun : (takeStep S q pt s).state.halted = true) :
    (takeStep S q pt s).log = pt.log := by
  have htakes := takeStep_takes S q pt s
  generalize takeStep S q pt s = pt' at htakes hrun
  cases htakes with
  | stated files hal =>
    rw [runStatement_halted] at hrun
    exact absurd (hal.symm.trans hrun) Bool.false_ne_true
  | freed hal hfreed => exact absurd (hfreed.symm.trans hrun) Bool.false_ne_true
  | _ => rfl

/-- Up to where the run ends, the log has the announced entries. -/
theorem exists_running (steps : List Step) (hok : (afterSteps S q steps).failed = false) :
    ∃ running, running <+: steps ∧ (afterSteps S q steps).log.map (Entry.map Load.key) =
      entries q running ∧ ((afterSteps S q steps).state.halted = false → running = steps) := by
  induction steps using List.reverseRecOn with
  | nil => exact ⟨[], List.prefix_rfl, rfl, fun _ => rfl⟩
  | append_singleton steps s ih =>
    rw [afterSteps_concat] at hok ⊢
    obtain ⟨running, hstop, hlog, hall⟩ := ih (failed_of_takeStep hok)
    cases hrun : (takeStep S q (afterSteps S q steps) s).state.halted with
    | true =>
      rw [takeStep_log_of_halted hrun]
      exact ⟨running, hstop.trans (List.prefix_append _ _), hlog, nofun⟩
    | false =>
      obtain rfl := hall (running_of_takeStep S q hrun)
      refine ⟨running ++ [s], List.prefix_rfl, ?_, fun _ => rfl⟩
      rw [takeStep_log hrun hok, hlog, entries_append]

end Agreement

section Announced
variable {q : ProcessQueue} {v : TiggeVariable}

theorem since_entries_body (em hour : ℕ) {body : List Statement}
    (hnodup : (body.map Statement.varName).Nodup) (items : List (ℕ × ℕ)) :
    since v items (entries q (body.map (.statement em hour))) =
      if requested q v = true ∧ ∃ p, .load v p ∈ body then items ++ [(em, hour)] else items := by
  induction body generalizing items with
  | nil =>
    rw [if_neg fun h => h.2.elim fun _ hm => List.not_mem_nil hm]
    rfl
  | cons s body ih =>
    rw [List.map_cons, List.nodup_cons] at hnodup
    rw [List.map_cons, ← List.singleton_append, entries_append, since_append, ih hnodup.2]
    by_cases hs : s.varName = v
    · -- the variable is not named again in the rest of the hour
      have hrest : ¬ ∃ p, .load v p ∈ body := fun ⟨p, hp⟩ =>
        hnodup.1 (hs ▸ List.mem_map_of_mem hp)
      rw [if_neg fun h => hrest h.2]
      cases s with
      | generate w =>
        have hnone : ¬ ∃ p, .load v p ∈ Statement.generate w :: body := fun ⟨p, hp⟩ =>
          hrest ⟨p, (List.mem_cons.mp hp).resolve_left nofun⟩
        rw [if_neg fun h => hnone h.2]
        rfl
      | load w p =>
        obtain rfl : w = v := hs
        cases hq : requested q w <;>
          simp [entries, Step.entry, hq, since, enter]
    · have hmem : (∃ p, .load v p ∈ s :: body) ↔ ∃ p, .load v p ∈ body := by
        refine exists_congr fun p => ?_
        rw [List.mem_cons]
        exact or_iff_right fun h => hs (congrArg Statement.varName h).symm
      have hfirst : since v items (entries q [.statement em hour s]) = items := by
        refine since_of_forall_ne fun e he => ?_
        cases s with
        | generate w => cases he
        | load w p =>
          cases hq : requested q w with
          | true =>
            simp only [entries, Step.entry, hq, List.filterMap_cons, List.filterMap_nil,
              if_true, List.mem_singleton] at he
            subst he
            exact hs
          | false => simp [entries, Step.entry, hq] at he
      simp only [hfirst, hmem]

theorem load_iff_integrated : (∃ p, Statement.load v p ∈ hourBody) ↔ v ∈ integrators :=
  ⟨fun ⟨_, h⟩ => integrated_of_load h, exists_load_of_integrated⟩

theorem since_entries_hours (em k : ℕ) (items : List (ℕ × ℕ)) :
    since v items (entries q ((List.range k).flatMap (hourSteps em))) =
      if requested q v = true ∧ v ∈ integrators then items ++ (List.range k).map (em, ·)
      else items := by
  induction k with
  | zero => simp [entries, since]
  | succ k ih =>
    rw [List.range_succ, List.flatMap_append, List.flatMap_singleton, entries_append,
      since_append, ih]
    have hopen : entries q (hourSteps em k) = entries q (hourBody.map (.statement em k)) := rfl
    rw [hopen, since_entries_body em k hourBody_nodup]
    simp only [load_iff_integrated]
    split_ifs
    · rw [List.map_append, List.append_assoc]
      rfl
    · rfl

theorem entries_closingSteps (em : ℕ) :
    entries q (closingSteps em) = freedVariables.map .clear := by
  rw [closingSteps, entries_append]
  rfl

theorem since_entries_member (em : ℕ) : since v [] (entries q (memberSteps em)) = [] := by
  rw [memberSteps, entries_append, since_append, entries_closingSteps]
  by_cases hv : v ∈ freedVariables
  · refine since_eq_nil (List.mem_map_of_mem hv) fun e he i => ?_
    obtain ⟨w, -, rfl⟩ := List.mem_map.mp he
    exact nofun
  · have hfreed : ∀ w ∈ integrators, w ∈ freedVariables := by decide
    have hnot : ¬ (requested q v = true ∧ v ∈ integrators) := fun h => hv (hfreed v h.2)
    rw [loadingSteps, since_entries_hours, if_neg hnot]
    refine since_of_forall_ne fun e he => ?_
    obtain ⟨w, hw, rfl⟩ := List.mem_map.mp he
    exact fun hwv => hv (hwv ▸ hw)

theorem since_entries_members (members : ℕ) :
    since v [] (entries q ((List.range members).flatMap memberSteps)) = [] := by
  induction members with
  | zero => rfl
  | succ members ih =>
    rw [List.range_succ, List.flatMap_append, List.flatMap_singleton, entries_append,
      since_append, ih, since_entries_member]

theorem length_since_entries_le {members : ℕ} {steps : List Step}
    (h : steps <+: programSteps members) :
    (since v [] (entries q steps)).length ≤ hoursPerMember := by
  obtain ⟨em, t, rfl, ht⟩ := prefix_flatMap_range h
  have hloading : (since v [] (entries q (loadingSteps em))).length ≤ hoursPerMember := by
    rw [loadingSteps, since_entries_hours]
    split_ifs
    · simp
    · exact Nat.zero_le _
  rw [entries_append, since_append, since_entries_members]
  rcases List.prefix_or_prefix_of_prefix ht (List.prefix_append _ _) with ht' | ⟨u, rfl⟩
  · -- nothing has been freed yet
    obtain ⟨u, hu⟩ := ht'
    rw [← hu, entries_append, since_append] at hloading
    refine (List.IsPrefix.length_le (prefix_since fun e he => ?_)).trans hloading
    obtain ⟨s, hs, hse⟩ := List.mem_filterMap.mp he
    have hmem : s ∈ loadingSteps em := hu ▸ List.mem_append_right _ hs
    obtain ⟨hour, -, hs⟩ := List.mem_flatMap.mp hmem
    rcases List.mem_cons.mp hs with rfl | hs
    · cases hse
    · obtain ⟨b, -, rfl⟩ := List.mem_map.mp hs
      cases b with
      | generate w => cases hse
      | load w p =>
        simp only [Step.entry, Option.ite_none_right_eq_some, Option.some.injEq] at hse
        rw [← hse.2]
        exact nofun
  · -- nothing is loaded any more
    rw [entries_append, since_append]
    refine (length_since_le fun e he i => ?_).trans hloading
    have hu : u <+: closingSteps em := (List.prefix_append_right_inj _).mp ht
    have hmem : e ∈ entries q (closingSteps em) :=
      (hu.sublist.filterMap (Step.entry q)).subset he
    rw [entries_closingSteps] at hmem
    obtain ⟨w, -, rfl⟩ := List.mem_map.mp hmem
    exact nofun

end Announced

/-- The store of `v` is what was loaded for it since it was freed. -/
structure Point.Sound (pt : Point n σ) (v : TiggeVariable) : Prop where
  count : (pt.state.stores v).numberOfSavedRecords = (pt.loads v).length
  slots : ∀ i l, (pt.loads v)[i]? = some l →
    (pt.state.stores v).array.bind (·[i]?) = some (.stored l.record) ∧
      (pt.state.stores v).bytesPerRecord i = l.record.size
  bound : (pt.state.stores v).numberOfSavedRecords ≤ FORECAST_HOURS / 6 + 1

theorem Point.Agrees.slots {q : ProcessQueue} {pt : Point n σ} (h : pt.Agrees q)
    (v : TiggeVariable) {i : ℕ} {l : Load n} (hl : (pt.loads v)[i]? = some l) :
    (pt.state.stores v).array.bind (·[i]?) = some (.stored l.record) ∧
      (pt.state.stores v).bytesPerRecord i = l.record.size := by
  have hrecord : ((pt.loads v).map Load.record)[i]? = some l.record := by
    rw [List.getElem?_map, hl]
    rfl
  have hne : (pt.loads v).map Load.record ≠ [] := by
    intro hnil
    rw [hnil] at hrecord
    cases hrecord
  refine ⟨?_, (h.holds v).bytes i _ hrecord⟩
  rw [(h.holds v).array hne, Option.bind_some, List.getElem?_map, hrecord]
  rfl

/-- At every point of a run in which no load has failed, the store of each variable is what was
loaded for it since it was freed, within the bounds of the two tables, and at the end of the
hours of a member this is one record for each hour of that member. -/
theorem afterSteps_sound (S : Source n σ) (q : ProcessQueue) (members : ℕ) {steps : List Step}
    (hsteps : steps <+: programSteps members) (hok : (afterSteps S q steps).failed = false) :
    (∀ v, (afterSteps S q steps).Sound v) ∧
      (∀ v ∈ integrators, (0 ≤ v.varId ∧ v.varId < NUMBER_OF_VARIABLES) ∧
        ((afterSteps S q steps).state.stores v).numberOfSavedRecords <
          (FORECAST_HOURS / 6 + 1) * 2) ∧
      ∀ em, steps = (List.range em).flatMap memberSteps ++ loadingSteps em →
        (afterSteps S q steps).state.halted = false → ∀ v ∈ integrators, requested q v = true →
          ∀ hour ≤ FORECAST_HOURS / 6, ∃ m,
            ((afterSteps S q steps).loads v)[hour]? = some ⟨em, hour, m⟩ ∧
            ((afterSteps S q steps).state.stores v).array.bind (·[hour]?) = some (.stored m) ∧
            ((afterSteps S q steps).state.stores v).bytesPerRecord hour = m.size := by
  have hagrees := afterSteps_agrees steps hok
  obtain ⟨running, hstop, hlog, hall⟩ := exists_running steps hok
  have hkeys : ∀ v, ((afterSteps S q steps).loads v).map Load.key =
      since v [] (entries q running) := by
    intro v
    rw [← hlog, Point.loads, ← since_map]
    rfl
  have hcount : ∀ v, ((afterSteps S q steps).state.stores v).numberOfSavedRecords =
      ((afterSteps S q steps).loads v).length := by
    intro v
    rw [(hagrees.holds v).count, List.length_map]
  have hbound : ∀ v, ((afterSteps S q steps).state.stores v).numberOfSavedRecords ≤
      FORECAST_HOURS / 6 + 1 := by
    intro v
    have hle : (since v [] (entries q running)).length ≤ hoursPerMember :=
      length_since_entries_le (hstop.trans hsteps)
    rw [← hkeys, List.length_map, hoursPerMember] at hle
    rw [hcount]
    exact hle
  refine ⟨fun v => ⟨hcount v, fun i l hl => hagrees.slots v hl, hbound v⟩, fun v hv => ⟨?_, ?_⟩, ?_⟩
  · revert v
    decide
  · exact (hbound v).trans_lt (by decide)
  · intro em hend hrun v hv hq hour hhour
    obtain rfl := hall hrun
    have hmember : since v [] (entries q running) =
        (List.range hoursPerMember).map (em, ·) := by
      rw [hend, entries_append, since_append, since_entries_members, loadingSteps,
        since_entries_hours, if_pos ⟨hq, hv⟩, List.nil_append]
    have hlt : hour < hoursPerMember := by
      rw [hoursPerMember]
      exact Nat.lt_succ_of_le hhour
    have hget := congrArg (·[hour]?) ((hkeys v).trans hmember)
    simp only [List.getElem?_map, List.getElem?_range hlt, Option.map_some] at hget
    obtain ⟨l, hl, hkey⟩ := Option.map_eq_some_iff.mp hget
    have hload : l = ⟨em, hour, l.record⟩ := by
      obtain ⟨em', hour', m⟩ := l
      obtain ⟨rfl, rfl⟩ := Prod.mk.inj hkey
      rfl
    have hslots := hagrees.slots v hl
    exact ⟨l.record, hload ▸ hl, hslots.1, hslots.2⟩

theorem afterSteps_ok {S : Source n σ} {q : ProcessQueue}
    (h : ∀ v ignore count files, (S.load v ignore count files).result.isSome) (steps : List Step) :
    (afterSteps S q steps).failed = false := by
  refine List.foldlRecOn (motive := fun pt : Point n σ => pt.failed = false) _ _ rfl
    fun pt hok s _ => ?_
  have htakes := takeStep_takes S q pt s
  generalize takeStep S q pt s = pt' at htakes
  cases htakes with
  | @stated em hour s files hal =>
    refine Bool.or_eq_false_iff.mpr ⟨hok, ?_⟩
    cases s with
    | generate w => rfl
    | load w protect =>
      cases hq : requested q w with
      | false => simp [statementFails, hq]
      | true => simp [statementFails, hq, loadResult, h]
  | _ => exact hok

def completeSource : Source 259920 (ℕ × ℕ) :=
  outcomeSource fun _ _ _ => some ⟨⟨0, 4, 192, 1, 0⟩, 1, 0⟩

/-- All 31 members of a cycle. -/
theorem afterSteps_sound_complete :
    (afterSteps completeSource fillQueueWithDefault (programSteps 31)).Sound
      timeIntegratedSurfaceNetSolarRadiation := by
  refine (afterSteps_sound completeSource fillQueueWithDefault 31 List.prefix_rfl
    (afterSteps_ok (fun v ignore count files => ?_) _)).1 _
  simp only [completeSource, outcomeSource]
  split_ifs <;> rfl

end Tigge
