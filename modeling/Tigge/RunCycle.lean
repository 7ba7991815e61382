import Tigge.Lib.Interleaving

/-! The calls of `runCycle` on one cycle and the lock file they share. A call is stepped from
one access to the lock to the next; what its stages find out is in its `Outcome`. -/

namespace Tigge
open Lib Lib.Configuration Relation

/-- What one call finds when it looks, and how its stages end. -/
structure Outcome where
  inputDefined : Bool
  toolsDefined : Bool
  inputIsDirectory : Bool
  inputReadable : Bool
  outputIsDirectory : Bool
  outputDefined : Bool
  lockOpened : Bool
  noQC : Bool
  inputQc : Bool
  outputQc : Bool
  deriving DecidableEq

inductive Stage
  | checking
  | testing
  | locking
  | clearing
  | inputQc
  | rejected
  | converting
  | processing
  | outputQc
  | archiving
  | packing
  | completing
  | unlocking
  | returned (code : ℕ)
  | died
  deriving DecidableEq

def environmentCheck (o : Outcome) : Stage :=
  if !o.inputDefined || !o.toolsDefined then .returned 1
  else if !o.inputIsDirectory || !o.inputReadable then .returned 2
  -- `mkdir $ENV{'TIGGE_OUTPUT'} || die` dies on an undefined variable, never on a failed mkdir
  else if !o.outputIsDirectory && !o.outputDefined then .died
  else .testing

/-- The next step of a call, with the lock file before and after it. -/
def runCycle (o : Outcome) (lock : Bool) : Stage → Option (Bool × Stage)
  | .checking => some (lock, environmentCheck o)
  | .testing => some (lock, if lock then .returned 3 else .locking)
  -- the result of `open(my $theLOCKFILE,">",..)` is not looked at
  | .locking => some (lock || o.lockOpened, .clearing)
  | .clearing => some (lock, if o.noQC then .converting else .inputQc)
  | .inputQc => some (lock, if o.inputQc then .converting else .rejected)
  | .rejected => some (false, .returned 10)
  | .converting => some (lock, .processing)
  | .processing => some (lock, .outputQc)
  -- `return(12)` stands without an unlink
  | .outputQc => some (lock, if o.outputQc then .archiving else .returned 12)
  | .archiving => some (lock, .packing)
  | .packing => some (lock, .completing)
  | .completing => some (lock, .unlocking)
  | .unlocking => some (false, .returned 0)
  | .returned _ => none
  | .died => none

/-- The stages between creating the lock file and unlinking it. -/
def inside : Set Stage :=
  {.clearing, .inputQc, .rejected, .converting, .processing, .outputQc, .archiving, .packing,
    .completing, .unlocking}

instance : DecidablePred (· ∈ inside) := fun st => by
  unfold inside; infer_instance

def Stage.ended : Stage → Bool
  | .returned _ => true
  | .died => true
  | _ => false

theorem environmentCheck_cases (o : Outcome) :
    environmentCheck o = .testing ∨ (environmentCheck o).ended = true := by
  unfold environmentCheck
  split_ifs <;> simp [Stage.ended]

@[simp] theorem returned_notMem_inside (code : ℕ) : Stage.returned code ∉ inside := by
  simp [inside]

theorem notMem_inside_of_ended {st : Stage} (h : st.ended = true) : st ∉ inside := by
  cases st <;> simp_all [Stage.ended, inside]

/-- Everything one step of a call can do. -/
inductive Moved (o : Outcome) (lock : Bool) : Stage → Bool × Stage → Prop
  | checked : Moved o lock .checking (lock, environmentCheck o)
  | refused : lock = true → Moved o lock .testing (lock, .returned 3)
  | passed : lock = false → Moved o lock .testing (lock, .locking)
  | created : Moved o lock .locking (lock || o.lockOpened, .clearing)
  | worked {st st' : Stage} : st ∈ inside → st' ∈ inside → Moved o lock st (lock, st')
  | unlinked {st : Stage} {code : ℕ} : st ∈ inside → Moved o lock st (false, .returned code)
  | abandoned : o.outputQc = false → Moved o lock .outputQc (lock, .returned 12)

theorem moved_of_runCycle {o : Outcome} {lock : Bool} {st : Stage} {t : Bool × Stage}
    (h : runCycle o lock st = some t) : Moved o lock st t := by
  cases st with
  | checking => cases h; exact .checked
  | testing =>
    cases h
    cases lock with
    | false => exact .passed rfl
    | true => exact .refused rfl
  | locking => cases h; exact .created
  | clearing =>
    cases h
    refine .worked (by decide) ?_
    split <;> decide
  | inputQc =>
    cases h
    refine .worked (by decide) ?_
    split <;> decide
  | rejected => cases h; exact .unlinked (by decide)
  | outputQc =>
    cases h
    cases hq : o.outputQc with
    | false => exact .abandoned hq
    | true => exact .worked (by decide) (by decide)
  | unlocking => cases h; exact .unlinked (by decide)
  | converting | processing | archiving | packing | completing =>
    cases h; exact .worked (by decide) (by decide)
  | returned _ => cases h
  | died => cases h

section Calls
variable {P : Type*} [DecidableEq P] (o : P → Outcome)

abbrev Calls (P : Type*) := Configuration P Bool Stage

def start (lock : Bool) : Calls P := ⟨lock, fun _ => .checking⟩

def CallStep : Calls P → Calls P → Prop := Step fun p => runCycle (o p)

/-- A step in which no call finds the lock free while another is on its way from that test
to creating the file, and in which the file is created when a call opens it. -/
def OrderlyStep (c c' : Calls P) : Prop :=
  ∃ p, StepOf (fun p => runCycle (o p)) p c c' ∧
    (c.stage p = .testing → c.shared = false → ∀ q, c.stage q ≠ .locking) ∧
    (c.stage p = .locking → (o p).lockOpened = true)

/-- From finding no lock file to the end of the work under it. -/
def claiming : Set Stage := insert .locking inside

/-- At most one call has the cycle, and the lock file tells the others. -/
structure Guarded (c : Calls P) : Prop where
  single : {p | c.stage p ∈ claiming}.Subsingleton
  locked : ∀ p, c.stage p ∈ inside → c.shared = true

variable {o}

omit [DecidableEq P] in
theorem guarded_start (lock : Bool) : Guarded (start lock : Calls P) where
  single := fun p (hp : Stage.checking ∈ claiming) => by simp [claiming, inside] at hp
  locked := fun p (hp : Stage.checking ∈ inside) => by simp [inside] at hp

omit [DecidableEq P] in
theorem Guarded.alone {c : Calls P} (hc : Guarded c) {p q : P} (hp : c.stage p ∈ claiming)
    (hq : q ≠ p) : c.stage q ∉ inside :=
  fun h => hq (hc.single (Set.mem_insert_of_mem _ h) hp)

theorem Guarded.step {c c' : Calls P} (hc : Guarded c) (h : OrderlyStep o c c') : Guarded c' := by
  obtain ⟨p, ⟨t, hrun, rfl⟩, htest, hopen⟩ := h
  have hmoved := moved_of_runCycle hrun
  -- the call that moves is the only one that can enter the region or change the lock
  have hothers : (∀ q, q ≠ p → c.stage q ∈ inside → t.1 = true) →
      (t.2 ∈ inside → t.1 = true) → ∀ q, (c.move p t).stage q ∈ inside → t.1 = true := by
    intro hne hp q hq
    by_cases hqp : q = p
    · subst hqp
      exact hp (by rwa [move_stage_self] at hq)
    · exact hne q hqp (by rwa [move_stage_of_ne c hqp] at hq)
  generalize hst : c.stage p = st at hmoved
  cases hmoved with
  | checked =>
    have hout : environmentCheck (o p) ∉ claiming := by
      rcases environmentCheck_cases (o p) with h | h
      · rw [h]; simp [claiming, inside]
      · intro hmem
        rcases hmem with h' | h'
        · rw [h'] at h; simp [Stage.ended] at h
        · exact notMem_inside_of_ended h h'
    exact ⟨subsingleton_move hc.single fun h => absurd h hout,
      hothers (fun q _ hq => hc.locked q hq) fun h => absurd (Set.mem_insert_of_mem _ h) hout⟩
  | refused hl =>
    refine ⟨subsingleton_move hc.single fun h => ?_, fun _ _ => hl⟩
    simp [claiming, inside] at h
  | passed hl =>
    have hfree : ∀ q, c.stage q ∉ claiming := by
      intro q hq
      rcases hq with hq | hq
      · exact htest hst hl q hq
      · exact absurd (hc.locked q hq) (by simp [hl])
    refine ⟨subsingleton_move hc.single fun _ _ q _ => hfree q, hothers (fun q _ hq => ?_) ?_⟩
    · exact absurd (Set.mem_insert_of_mem _ hq) (hfree q)
    · intro h; simp [inside] at h
  | created =>
    have hmem : c.stage p ∈ claiming := by rw [hst]; exact Set.mem_insert _ _
    refine ⟨subsingleton_move hc.single fun _ h => absurd hmem h, fun _ _ => ?_⟩
    simp [hopen hst]
  | worked hin hin' =>
    have hmem : c.stage p ∈ inside := by rwa [hst]
    exact ⟨subsingleton_move hc.single fun _ h => absurd (Set.mem_insert_of_mem _ hmem) h,
      fun _ _ => hc.locked p hmem⟩
  | unlinked hin =>
    have hmem : c.stage p ∈ claiming := by rw [hst]; exact Set.mem_insert_of_mem _ hin
    refine ⟨subsingleton_move hc.single fun h => ?_, hothers (fun q hq hin' => ?_) ?_⟩
    · simp [claiming, inside] at h
    · exact absurd hin' (hc.alone hmem hq)
    · intro h; simp at h
  | abandoned _ =>
    have hmem : c.stage p ∈ inside := by rw [hst]; decide
    refine ⟨subsingleton_move hc.single fun h => ?_, fun _ _ => hc.locked p hmem⟩
    simp [claiming, inside] at h

/-- In a run of orderly steps at most one call is between creating the lock file and
unlinking it. -/
theorem runCycle_exclusive (o : P → Outcome) (lock : Bool) {c : Calls P}
    (h : ReflTransGen (OrderlyStep o) (start lock) c) : {p | c.stage p ∈ inside}.Subsingleton := by
  have hc : Guarded c :=
    invariant_of_step (fun _ _ hc hs => hc.step hs) h (guarded_start lock)
  exact hc.single.anti fun p hp => Set.mem_insert_of_mem _ hp

end Calls

def smoothOutcome : Outcome where
  inputDefined := true
  toolsDefined := true
  inputIsDirectory := true
  inputReadable := true
  outputIsDirectory := true
  outputDefined := true
  lockOpened := true
  noQC := false
  inputQc := true
  outputQc := true

/-- One call has the lock and another has looked: it finds the lock file and gives up. -/
theorem runCycle_exclusive_refused :
    ∃ c : Calls Bool, ReflTransGen (OrderlyStep fun _ => smoothOutcome) (start false) c ∧
      c.stage false ∈ inside ∧ c.stage true = .returned 3 ∧
      {p | c.stage p ∈ inside}.Subsingleton := by
  -- the second call is between its own checks and the test while the first one locks
  let checked : Calls Bool :=
    ((start false).move false (false, .testing)).move true (false, .testing)
  let passed : Calls Bool := checked.move false (false, .locking)
  let created : Calls Bool := passed.move false (true, .clearing)
  let refused : Calls Bool := created.move true (true, .returned 3)
  have hfirst : OrderlyStep (fun _ => smoothOutcome) (start false)
      ((start false).move false (false, .testing)) :=
    ⟨false, ⟨_, rfl, rfl⟩, fun h => absurd h (by decide), fun h => absurd h (by decide)⟩
  have hsecond : OrderlyStep (fun _ => smoothOutcome) ((start false).move false (false, .testing))
      checked := ⟨true, ⟨_, rfl, rfl⟩, fun h => absurd h (by decide), fun h => absurd h (by decide)⟩
  have hpassed : OrderlyStep (fun _ => smoothOutcome) checked passed :=
    ⟨false, ⟨_, rfl, rfl⟩, fun _ _ q => by cases q <;> decide, fun h => absurd h (by decide)⟩
  have hcreated : OrderlyStep (fun _ => smoothOutcome) passed created :=
    ⟨false, ⟨_, rfl, rfl⟩, fun h => absurd h (by decide), fun _ => rfl⟩
  have hrefused : OrderlyStep (fun _ => smoothOutcome) created refused :=
    ⟨true, ⟨_, rfl, rfl⟩, fun _ h => absurd h (by decide), fun h => absurd h (by decide)⟩
  have h : ReflTransGen (OrderlyStep fun _ => smoothOutcome) (start false) refused :=
    ((((ReflTransGen.single hfirst).tail hsecond).tail hpassed).tail hcreated).tail hrefused
  exact ⟨_, h, by decide, by decide, runCycle_exclusive _ _ h⟩

/-- Two calls find no lock file before either creates it. -/
theorem runCycle_not_exclusive :
    ∃ c : Calls Bool, ReflTransGen (CallStep fun _ => smoothOutcome) (start false) c ∧
      c.stage false ∈ inside ∧ c.stage true ∈ inside := by
  have step : ∀ {c : Calls Bool} (p : Bool) (t : Bool × Stage),
      runCycle smoothOutcome c.shared (c.stage p) = some t →
      CallStep (fun _ => smoothOutcome) c (c.move p t) := fun p t h => ⟨p, t, h, rfl⟩
  refine ⟨_, ((((((ReflTransGen.refl.tail
    (step false (false, .testing) rfl)).tail
    (step true (false, .testing) rfl)).tail
    (step false (false, .locking) rfl)).tail
    (step true (false, .locking) rfl)).tail
    (step false (true, .clearing) rfl)).tail
    (step true (true, .clearing) rfl)), ?_, ?_⟩ <;> decide

end Tigge
