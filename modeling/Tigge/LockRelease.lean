import Tigge.RunCycle

/-! When the lock file of `runCycle` is gone once nobody works under it. -/

namespace Tigge
open Lib Lib.Configuration Relation

/-- The call gets as far as output QC under a lock of its own and fails there. -/
def LeavesLock (o : Outcome) : Prop :=
  environmentCheck o = .testing ∧ o.lockOpened = true ∧ (o.noQC = true ∨ o.inputQc = true) ∧
    o.outputQc = false

/-- What a call must have found to be where it is. -/
def Justified (o : Outcome) : Stage → Prop
  | .checking => True
  | .returned _ => True
  | .died => True
  | .testing => environmentCheck o = .testing
  | .locking => environmentCheck o = .testing
  | .clearing => environmentCheck o = .testing
  | .inputQc => environmentCheck o = .testing
  | .rejected => environmentCheck o = .testing
  | _ => environmentCheck o = .testing ∧ (o.noQC = true ∨ o.inputQc = true)

theorem justified_environmentCheck (o : Outcome) : Justified o (environmentCheck o) := by
  rcases environmentCheck_cases o with h | h
  · rw [h]; exact h
  · cases hst : environmentCheck o <;> first | trivial | simp [hst, Stage.ended] at h

theorem justified_runCycle {o : Outcome} {lock : Bool} {st : Stage} {t : Bool × Stage}
    (hst : Justified o st) (h : runCycle o lock st = some t) : Justified o t.2 := by
  cases st with
  | checking => cases h; exact justified_environmentCheck o
  | testing =>
    cases h
    show Justified o (if lock then _ else _)
    split
    · trivial
    · exact hst
  | clearing =>
    cases h
    show Justified o (if o.noQC then _ else _)
    split
    next hn => exact ⟨hst, .inl hn⟩
    next => exact hst
  | inputQc =>
    cases h
    show Justified o (if o.inputQc then _ else _)
    split
    next hi => exact ⟨hst, .inr hi⟩
    next => exact hst
  | outputQc =>
    cases h
    show Justified o (if o.outputQc then _ else _)
    split
    · exact hst
    · trivial
  | rejected | unlocking => cases h; trivial
  | locking | converting | processing | archiving | packing | completing => cases h; exact hst
  | returned _ => cases h
  | died => cases h

variable {P : Type*}

/-- The lock file is gone when nobody works under it, and refuses a call only while
somebody does. -/
structure Released (c : Calls P) : Prop where
  returned : ∀ p code, c.stage p = .returned code → (∀ q, c.stage q ∉ inside) → c.shared = false
  refused : ∀ p, c.stage p = .testing → c.shared = true → ∃ q, c.stage q ∈ inside

/-- An existing lock file belongs to a call that will still unlink it. -/
structure Owned (o : P → Outcome) (c : Calls P) : Prop where
  justified : ∀ p, Justified (o p) (c.stage p)
  owner : c.shared = true → ∃ p, c.stage p ∈ inside ∧ (o p).lockOpened = true

theorem Owned.released {o : P → Outcome} {c : Calls P} (h : Owned o c) : Released c where
  returned := fun _ _ _ hnone => by
    by_contra hl
    obtain ⟨q, hq, _⟩ := h.owner (by simpa using hl)
    exact hnone q hq
  refused := fun _ _ hl => (h.owner hl).imp fun _ hq => hq.1

theorem owned_start (o : P → Outcome) : Owned o (start false) where
  justified := fun _ => trivial
  owner := fun h => absurd h Bool.false_ne_true

variable [DecidableEq P] {o : P → Outcome}

theorem Owned.step (ho : ∀ p, ¬ LeavesLock (o p)) {c c' : Calls P} (hc : Owned o c)
    (h : CallStep o c c') : Owned o c' := by
  obtain ⟨p, t, hrun, rfl⟩ := h
  constructor
  · intro q
    by_cases hq : q = p
    · subst hq
      rw [move_stage_self]
      exact justified_runCycle (hc.justified q) hrun
    · rw [move_stage_of_ne c hq]
      exact hc.justified q
  · intro hl
    have hmoved := moved_of_runCycle hrun
    -- the owner before the step stays the owner unless it is the call that moves
    have hstays : (∃ q, q ≠ p ∧ c.stage q ∈ inside ∧ (o q).lockOpened = true) →
        ∃ q, (c.move p t).stage q ∈ inside ∧ (o q).lockOpened = true := by
      rintro ⟨q, hq, hin, hopen⟩
      exact ⟨q, by rwa [move_stage_of_ne c hq], hopen⟩
    have hother : c.shared = true → (c.stage p ∈ inside → (o p).lockOpened ≠ true) →
        ∃ q, q ≠ p ∧ c.stage q ∈ inside ∧ (o q).lockOpened = true := by
      intro hl hp
      obtain ⟨q, hq, hopen⟩ := hc.owner hl
      refine ⟨q, ?_, hq, hopen⟩
      rintro rfl
      exact hp hq hopen
    generalize hst : c.stage p = st at hmoved hother
    have hj := hc.justified p
    rw [hst] at hj
    cases hmoved with
    | checked | refused _ | passed _ =>
      exact hstays (hother hl fun h => by simp [inside] at h)
    | created =>
      cases hopen : (o p).lockOpened with
      | true => exact ⟨p, by rw [move_stage_self]; simp [inside], hopen⟩
      | false =>
        refine hstays (hother ?_ fun h => by simp [inside] at h)
        simpa [hopen] using hl
    | worked hin hin' =>
      by_cases hopen : (o p).lockOpened = true
      · exact ⟨p, by rwa [move_stage_self], hopen⟩
      · exact hstays (hother hl fun _ => hopen)
    | unlinked _ => exact absurd hl (by simp)
    | abandoned hq =>
      exact hstays (hother hl fun _ hopen => ho p ⟨hj.1, hopen, hj.2, hq⟩)

theorem reaches_abandoned {p : P} (h : LeavesLock (o p)) :
    ReflTransGen (CallStep o) (start false) ((start false).move p (true, .returned 12)) := by
  obtain ⟨henv, hopen, hqc, hout⟩ := h
  have hstep : ∀ {st : Stage} {lock : Bool} (t : Bool × Stage), runCycle (o p) lock st = some t →
      Alone (fun q => runCycle (o q)) p (lock, st) t := fun _ h => h
  have hconverting : ReflTransGen (Alone (fun q => runCycle (o q)) p)
      (true, Stage.clearing) (true, .converting) := by
    by_cases hn : (o p).noQC = true
    · exact .single (hstep _ (by simp [runCycle, hn]))
    · have hi : (o p).inputQc = true := hqc.resolve_left hn
      refine (ReflTransGen.single (hstep (true, .inputQc) ?_)).tail (hstep _ ?_)
      · simp [runCycle, hn]
      · simp [runCycle, hi]
  have hlocked : ReflTransGen (Alone (fun q => runCycle (o q)) p)
      (false, Stage.checking) (true, .clearing) := by
    refine ((ReflTransGen.single (hstep (false, .testing) ?_)).tail
      (hstep (false, .locking) ?_)).tail (hstep _ ?_)
    · simp [runCycle, henv]
    · simp [runCycle]
    · simp [runCycle, hopen]
  have hleft : ReflTransGen (Alone (fun q => runCycle (o q)) p)
      (true, Stage.converting) (true, .returned 12) := by
    refine ((ReflTransGen.single (hstep (true, .processing) rfl)).tail
      (hstep (true, .outputQc) rfl)).tail (hstep _ ?_)
    simp [runCycle, hout]
  have hall := reaches_of_alone _ ((hlocked.trans hconverting).trans hleft) (start false)
  rwa [show (start false : Calls P).move p (false, Stage.checking) = start false from
    move_self _ p] at hall

theorem not_released_abandoned (p : P) :
    ¬ Released ((start false : Calls P).move p (true, .returned 12)) := by
  intro h
  refine absurd (h.returned p 12 (move_stage_self ..) fun q hq => ?_) (by simp)
  by_cases hqp : q = p
  · subst hqp
    simp at hq
  · rw [move_stage_of_ne _ hqp] at hq
    simp [start, inside] at hq

/-- The lock file is released in every state of every interleaving exactly when no call
fails output QC under a lock of its own. -/
theorem lock_released_iff (o : P → Outcome) :
    (∀ c, ReflTransGen (CallStep o) (start false) c → Released c) ↔ ∀ p, ¬ LeavesLock (o p) := by
  constructor
  · intro h p hp
    exact not_released_abandoned p (h _ (reaches_abandoned hp))
  · intro ho c hc
    have howned : Owned o c :=
      invariant_of_step (fun _ _ hc hs => hc.step ho hs) hc (owned_start o)
    exact howned.released

/-- A call whose output is incomplete returns, and the next one is refused with code 3. -/
theorem lock_not_released :
    ∃ c : Calls Bool, ReflTransGen (CallStep fun _ => { smoothOutcome with outputQc := false })
      (start false) c ∧ c.shared = true ∧ c.stage false = .returned 12 ∧
      c.stage true = .returned 3 := by
  have hleft := reaches_abandoned (o := fun _ : Bool => { smoothOutcome with outputQc := false })
    (p := false) (by unfold LeavesLock; decide)
  refine ⟨_, (hleft.tail ⟨true, (true, .testing), rfl, rfl⟩).tail
    ⟨true, (true, .returned 3), rfl, rfl⟩, rfl, ?_, ?_⟩ <;> decide

end Tigge
