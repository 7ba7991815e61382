import Tigge.Lib.Waiting
import Tigge.InputQc

/-! `runLatest`: which of the cycles below TIGGE_INPUT a call runs. -/

namespace Tigge
open Lib

/-- A directory of a cycle, with the names in it but `.` and `..`. -/
structure CycleDirectory where
  contents : List Str
  isFile : Str → Bool
  isLink : Bool

/-- `m/^\d{4}[0-1]\d[0-3]\d(00|06|12|18)$/`, on ten characters. -/
def isCycleName (name : Str) : Bool :=
  isDtg name && ["00", "06", "12", "18"].any fun hh => name.drop 8 = hh.toList

namespace CycleDirectory
variable (dir : CycleDirectory)

def holdsInput : Bool := dir.contents.any (gefsFilepattern false)

/-- What is left of a directory whose age in days is `-M`: one without an input file goes, with
the plain files in it, unless something else is in it. -/
def cleared (age : ℚ) : Option CycleDirectory :=
  if dir.isLink || dir.holdsInput then some dir
  else if dir.contents = [] then if 2 < age then none else some dir
  else if 0 < age then
    let left := dir.contents.filter fun f => !dir.isFile f
    if left = [] then none else some { dir with contents := left }
  else some dir

/-- `readdir` counts `.` and `..` too. -/
def isUncompleted : Bool :=
  10 ≤ dir.contents.length + 1 && !decide (".completed".toList ∈ dir.contents)

def completed : CycleDirectory := { dir with contents := ".completed".toList :: dir.contents }

end CycleDirectory

/-- The directories below TIGGE_INPUT, in the order of `readdir`. -/
abbrev InputArea := List (Str × CycleDirectory)

namespace InputArea

def clear (age : Str → ℚ) (a : InputArea) : InputArea :=
  a.filterMap fun e =>
    if isCycleName e.1 then (e.2.cleared (age e.1)).map fun dir => (e.1, dir) else some e

/-- `@uncompletedRuns` before it is sorted. -/
def uncompletedRuns (a : InputArea) : List Str :=
  (a.filter fun e => isCycleName e.1 && e.2.isUncompleted).map Prod.fst

def complete (runs : List Str) (a : InputArea) : InputArea :=
  a.map fun e => if e.1 ∈ runs then (e.1, e.2.completed) else e

end InputArea

/-- The newest first, or the oldest first when the number is negative. -/
def orderedRuns (numRuns : ℤ) (runs : List Str) : List Str :=
  let newestFirst := (runs.insertionSort (· ≤ ·)).reverse
  if numRuns < 0 then newestFirst.reverse else newestFirst

/-- The cycles that a call gives to `runCycle`, of which some get the tag of a completed one. -/
def runLatest (numRuns : ℤ) (age : Str → ℚ) (completes : Str → Bool) (a : InputArea) :
    List Str × InputArea :=
  let cleared := a.clear age
  let runs := (orderedRuns numRuns cleared.uncompletedRuns).take numRuns.natAbs
  (runs, cleared.complete (runs.filter completes))

/-- The area after calls of `runLatest` one after the other. -/
def afterCalls (numRuns : ℤ) (age : ℕ → Str → ℚ) (completes : Str → Bool) (a : InputArea) :
    ℕ → InputArea
  | 0 => a
  | k + 1 => (runLatest numRuns (age k) completes (afterCalls numRuns age completes a k)).2

/-- A cycle that is run before another one. -/
def runsBefore (numRuns : ℤ) (f c : Str) : Bool := if numRuns < 0 then f < c else c < f

theorem pairwise_sortedRuns {runs : List Str} (h : runs.Nodup) :
    (runs.insertionSort (· ≤ ·)).Pairwise (· < ·) := by
  have hnodup : (runs.insertionSort (· ≤ ·)).Nodup :=
    (List.perm_insertionSort _ _).nodup_iff.mpr h
  exact ((List.pairwise_insertionSort _ _).and hnodup).imp fun hab => lt_of_le_of_ne hab.1 hab.2

/-- The calls as rounds that serve the first cycles in their order. -/
def runService (numRuns : ℤ) : Service Str where
  order := orderedRuns numRuns
  before := runsBefore numRuns
  perm runs := by
    have hperm := (List.reverse_perm _).trans (List.perm_insertionSort (· ≤ ·) runs)
    rw [orderedRuns]
    split
    · exact (List.reverse_perm _).trans hperm
    · exact hperm
  sorted runs h := by
    have hsorted := pairwise_sortedRuns h
    simp only [orderedRuns, runsBefore]
    split
    · rw [List.reverse_reverse]
      exact hsorted.imp fun hab => decide_eq_true hab
    · rw [List.pairwise_reverse]
      exact hsorted.imp fun hab => decide_eq_true hab
  asymm a b h := by
    by_cases hneg : numRuns < 0
    · rw [runsBefore, if_pos hneg] at h ⊢
      exact decide_eq_false (lt_asymm (of_decide_eq_true h))
    · rw [runsBefore, if_neg hneg] at h ⊢
      exact decide_eq_false (lt_asymm (of_decide_eq_true h))

namespace InputArea
variable {a : InputArea} {age : Str → ℚ}

/-- Every directory of a cycle is a link or holds an input file. -/
def HoldsInput (a : InputArea) : Prop :=
  ∀ e ∈ a, isCycleName e.1 = true → (e.2.isLink || e.2.holdsInput) = true

theorem clear_eq (h : a.HoldsInput) : a.clear age = a := by
  have hkeeps : ∀ e ∈ a, (if isCycleName e.1 then
      (e.2.cleared (age e.1)).map fun dir => (e.1, dir) else some e) = some e := by
    intro e he
    by_cases hname : isCycleName e.1 = true
    · rw [if_pos hname, CycleDirectory.cleared, if_pos (h e he hname)]
      rfl
    · rw [if_neg hname]
  rw [clear, List.filterMap_congr hkeeps, List.filterMap_some]

theorem HoldsInput.complete (h : a.HoldsInput) (runs : List Str) :
    (a.complete runs).HoldsInput := by
  intro e he hname
  obtain ⟨e', he', rfl⟩ := List.mem_map.mp he
  by_cases hrun : e'.1 ∈ runs
  · rw [if_pos hrun] at hname ⊢
    have hinput := h e' he' hname
    rw [Bool.or_eq_true] at hinput ⊢
    refine hinput.imp id fun hany => ?_
    rw [CycleDirectory.holdsInput, CycleDirectory.completed, List.any_cons, Bool.or_eq_true]
    exact .inr hany
  · rw [if_neg hrun] at hname ⊢
    exact h e' he' hname

theorem uncompletedRuns_complete (runs : List Str) :
    (a.complete runs).uncompletedRuns = a.uncompletedRuns.filter fun c => !decide (c ∈ runs) := by
  have htag : ∀ e : Str × CycleDirectory, e.2.completed.isUncompleted = false := by
    intro e
    simp [CycleDirectory.isUncompleted, CycleDirectory.completed]
  induction a with
  | nil => rfl
  | cons e a ih =>
    simp only [uncompletedRuns, complete, List.map_cons, List.filter_cons] at ih ⊢
    by_cases hrun : e.1 ∈ runs
    · rw [if_pos hrun, htag, Bool.and_false, if_neg Bool.false_ne_true, ih]
      split
      · rw [List.map_cons, List.filter_cons, decide_eq_true hrun]
        rfl
      · rfl
    · rw [if_neg hrun]
      split
      · rw [List.map_cons, List.map_cons, List.filter_cons, decide_eq_false hrun, ih]
        rfl
      · exact ih

end InputArea

section Calls
variable {numRuns : ℤ} {age : ℕ → Str → ℚ} {completes : Str → Bool} {a : InputArea} {c : Str}

theorem runLatest_eq (h : a.HoldsInput) (age : Str → ℚ) :
    runLatest numRuns age completes a =
      ((runService numRuns).served numRuns.natAbs a.uncompletedRuns,
        a.complete (((runService numRuns).served numRuns.natAbs a.uncompletedRuns).filter
          completes)) := by
  rw [runLatest, InputArea.clear_eq h]
  rfl

theorem afterCalls_holdsInput (h : a.HoldsInput) (k : ℕ) :
    (afterCalls numRuns age completes a k).HoldsInput := by
  induction k with
  | zero => exact h
  | succ k ih =>
    rw [afterCalls, runLatest_eq ih]
    exact ih.complete _

theorem uncompletedRuns_afterCalls (h : a.HoldsInput) (k : ℕ) :
    (afterCalls numRuns age completes a k).uncompletedRuns =
      (runService numRuns).afterRounds numRuns.natAbs completes a.uncompletedRuns k := by
  induction k with
  | zero => rfl
  | succ k ih =>
    rw [afterCalls, runLatest_eq (afterCalls_holdsInput h k), InputArea.uncompletedRuns_complete,
      ih, Service.afterRounds, Service.round]
    congr 1
    funext c
    rw [Bool.eq_iff_iff]
    simp only [List.mem_filter, Bool.not_eq_true', decide_eq_false_iff_not, Bool.and_eq_false_iff,
      not_and_or, Bool.not_eq_true, or_comm]

/-- Some call runs a waiting cycle exactly when those that come before it and are never completed
leave a place. -/
theorem runLatest_runs_iff (numRuns : ℤ) (age : ℕ → Str → ℚ) (completes : Str → Bool)
    (hnames : (a.map Prod.fst).Nodup) (h : a.HoldsInput) (hc : c ∈ a.uncompletedRuns) :
    (∃ k, c ∈ (runLatest numRuns (age k) completes (afterCalls numRuns age completes a k)).1) ↔
      (a.uncompletedRuns.countP fun f => runsBefore numRuns f c && !completes f) <
        numRuns.natAbs := by
  have hnodup : a.uncompletedRuns.Nodup :=
    hnames.sublist ((List.filter_sublist ..).map Prod.fst)
  refine Iff.trans ?_ (Service.served_iff (s := runService numRuns) hnodup hc)
  refine exists_congr fun k => ?_
  rw [runLatest_eq (afterCalls_holdsInput h k), uncompletedRuns_afterCalls h k]

/-- Two cycles with the first two days of the control member each. -/
def twoCycles : InputArea :=
  ["2021010100", "2021010106"].map fun name => (name.toList,
    { contents := ["00", "06", "12", "18", "24", "30", "36", "42", "48"].map fun hh =>
        ("gec00.t00z.pgrb2af" ++ hh).toList
      isFile := fun _ => true
      isLink := false })

/-- A newest cycle that is never completed keeps an older one from being run. -/
theorem runLatest_runs_newest : ¬ ∃ k, "2021010100".toList ∈
    (runLatest 1 (fun _ => 3) (fun c => c ≠ "2021010106".toList)
      (afterCalls 1 (fun _ _ => 3) (fun c => c ≠ "2021010106".toList) twoCycles k)).1 := by
  have hinput : ∀ e ∈ twoCycles, isCycleName e.1 = true →
      (e.2.isLink || e.2.holdsInput) = true := by decide +kernel
  rw [runLatest_runs_iff 1 (fun _ _ => 3) (fun c => c ≠ "2021010106".toList) (by decide +kernel)
    hinput (by decide +kernel)]
  decide +kernel

end Calls

end Tigge
