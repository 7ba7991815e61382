import Mathlib.Data.List.Basic
import Mathlib.Tactic.Common

/-! Programs of a command language whose commands change a state, emit values and can fail. -/

namespace Tigge

/-- A program of the basic commands `α` with two-way branches on the tests `β`. -/
inductive Program (α β : Type*)
  | done
  | command (a : α) (next : Program α β)
  | branch (c : β) (yes no next : Program α β)

/-- What the basic commands and the tests do on a state `σ`, with errors `ε` and emissions `ω`. -/
structure Meaning (α β σ ε ω : Type*) where
  run : α → σ → Except ε (σ × List ω)
  test : β → σ → Except ε Bool

/-- What a run emitted, and the state or the error it ended with. -/
structure Execution (σ ε ω : Type*) where
  emitted : List ω
  result : Except ε σ

section Programs

variable {α β σ ε ω : Type*}

namespace Execution

def andThen (x : Execution σ ε ω) (f : σ → Execution σ ε ω) : Execution σ ε ω :=
  match x.result with
  | .error e => ⟨x.emitted, .error e⟩
  | .ok s => ⟨x.emitted ++ (f s).emitted, (f s).result⟩

theorem andThen_error {x : Execution σ ε ω} {e : ε} (h : x.result = .error e)
    (f : σ → Execution σ ε ω) : x.andThen f = ⟨x.emitted, .error e⟩ := by
  rw [andThen, h]

theorem andThen_ok {x : Execution σ ε ω} {s : σ} (h : x.result = .ok s)
    (f : σ → Execution σ ε ω) : x.andThen f = ⟨x.emitted ++ (f s).emitted, (f s).result⟩ := by
  rw [andThen, h]

theorem andThen_assoc (x : Execution σ ε ω) (f g : σ → Execution σ ε ω) :
    (x.andThen f).andThen g = x.andThen fun s => (f s).andThen g := by
  obtain ⟨out, e | s⟩ := x
  · rfl
  · show (Execution.mk (out ++ (f s).emitted) (f s).result).andThen g = _
    cases h : (f s).result with
    | error e => simp only [andThen, h]
    | ok t => simp only [andThen, h, List.append_assoc]

end Execution

namespace Program

def exec (M : Meaning α β σ ε ω) : Program α β → σ → Execution σ ε ω
  | done, s => ⟨[], .ok s⟩
  | command a p, s =>
    match M.run a s with
    | .error e => ⟨[], .error e⟩
    | .ok (s', out) => ⟨out ++ (p.exec M s').emitted, (p.exec M s').result⟩
  | branch c yes no p, s =>
    match M.test c s with
    | .error e => ⟨[], .error e⟩
    | .ok true => (yes.exec M s).andThen (p.exec M)
    | .ok false => (no.exec M s).andThen (p.exec M)

def append : Program α β → Program α β → Program α β
  | done, q => q
  | command a p, q => command a (p.append q)
  | branch c yes no p, q => branch c yes no (p.append q)

/-- The commands one after the other. -/
def block : List α → Program α β
  | [] => done
  | a :: as => command a (block as)

/-- The programs one after the other. -/
def sequence : List (Program α β) → Program α β
  | [] => done
  | p :: ps => p.append (sequence ps)

/-- The program of the first test that holds, or the last one. -/
def select : List (β × Program α β) → Program α β → Program α β
  | [], last => last
  | (c, p) :: cases, last => branch c p (select cases last) done

/-- The commands that occur in a program. -/
def occurring : Program α β → List α
  | done => []
  | command a p => a :: p.occurring
  | branch _ yes no p => yes.occurring ++ no.occurring ++ p.occurring

variable (M : Meaning α β σ ε ω)

theorem exec_command_error {a : α} {s : σ} {e : ε} (h : M.run a s = .error e)
    (p : Program α β) : (command a p).exec M s = ⟨[], .error e⟩ := by
  rw [exec, h]

theorem exec_command_ok {a : α} {s s' : σ} {out : List ω} (h : M.run a s = .ok (s', out))
    (p : Program α β) :
    (command a p).exec M s = ⟨out ++ (p.exec M s').emitted, (p.exec M s').result⟩ := by
  rw [exec, h]

theorem exec_append (p q : Program α β) (s : σ) :
    (p.append q).exec M s = (p.exec M s).andThen (q.exec M) := by
  induction p generalizing s with
  | done => rfl
  | command a p ih =>
    rw [append]
    cases h : M.run a s with
    | error e =>
      rw [exec_command_error M h, exec_command_error M h]
      rfl
    | ok r =>
      obtain ⟨s', out⟩ := r
      rw [exec_command_ok M h, exec_command_ok M h, ih]
      cases h' : (p.exec M s').result with
      | error e => simp only [Execution.andThen, h']
      | ok t => simp only [Execution.andThen, h', List.append_assoc]
  | branch c yes no p _ _ ih =>
    rw [append, exec, exec]
    have hp : (p.append q).exec M = fun s => (p.exec M s).andThen (q.exec M) := funext ih
    rw [hp]
    rcases M.test c s with e | _ | _
    · rfl
    · exact (Execution.andThen_assoc _ _ _).symm
    · exact (Execution.andThen_assoc _ _ _).symm

theorem exec_command_result {a : α} {p : Program α β} {s t : σ}
    (h : ((command a p).exec M s).result = .ok t) :
    ∃ s' out, M.run a s = .ok (s', out) ∧ (p.exec M s').result = .ok t := by
  cases ha : M.run a s with
  | error e =>
    rw [exec_command_error M ha] at h
    cases h
  | ok r =>
    obtain ⟨s', out⟩ := r
    rw [exec_command_ok M ha] at h
    exact ⟨s', out, rfl, h⟩

theorem exec_append_result {p q : Program α β} {s t : σ}
    (h : ((p.append q).exec M s).result = .ok t) :
    ∃ s', (p.exec M s).result = .ok s' ∧ (q.exec M s').result = .ok t := by
  rw [exec_append] at h
  cases hp : (p.exec M s).result with
  | error e =>
    rw [Execution.andThen_error hp] at h
    cases h
  | ok s' =>
    rw [Execution.andThen_ok hp] at h
    exact ⟨s', rfl, h⟩

/-- A test without an error picks the program that runs. -/
theorem exec_branch_of_test {c : β} {s : σ} {b : Bool} (h : M.test c s = .ok b)
    (yes no p : Program α β) :
    (branch c yes no p).exec M s =
      ((if b then yes else no).exec M s).andThen (p.exec M) := by
  rw [exec, h]
  cases b <;> rfl

theorem exec_andThen_done (x : Execution σ ε ω) : x.andThen (done.exec M) = x := by
  obtain ⟨out, e | s⟩ := x
  · rfl
  · simp only [Execution.andThen, exec, List.append_nil]

theorem exec_select {s : σ} {holds : β → Bool} (cases : List (β × Program α β))
    (h : ∀ c ∈ cases, M.test c.1 s = .ok (holds c.1)) (last : Program α β) :
    (select cases last).exec M s =
      (((cases.find? fun c => holds c.1).map Prod.snd).getD last).exec M s := by
  induction cases with
  | nil => rfl
  | cons c cases ih =>
    obtain ⟨c, p⟩ := c
    rw [select, exec_branch_of_test M (h (c, p) List.mem_cons_self), exec_andThen_done,
      List.find?_cons]
    cases hc : holds c with
    | true => rfl
    | false => exact ih fun c' hc' => h c' (List.mem_cons_of_mem _ hc')

/-- From `P` only values of `W` are emitted, and a run that completes ends in `Q`. -/
def Triple (P : σ → Prop) (p : Program α β) (Q : σ → Prop) (W : ω → Prop) : Prop :=
  ∀ s, P s → (∀ o ∈ (p.exec M s).emitted, W o) ∧ ∀ t, (p.exec M s).result = .ok t → Q t

variable {M} {P Q R : σ → Prop} {W : ω → Prop} {p q : Program α β}

theorem Triple.done : Triple M P done P W := by
  intro s hs
  refine ⟨fun o ho => absurd ho List.not_mem_nil, fun t ht => ?_⟩
  cases ht
  exact hs

theorem Triple.command {a : α}
    (ha : ∀ s, P s → ∀ s' out, M.run a s = .ok (s', out) → Q s' ∧ ∀ o ∈ out, W o)
    (hp : Triple M Q p R W) : Triple M P (command a p) R W := by
  intro s hs
  cases h : M.run a s with
  | error e =>
    rw [exec_command_error M h]
    exact ⟨fun o ho => absurd ho List.not_mem_nil, fun t ht => by cases ht⟩
  | ok r =>
    obtain ⟨s', out⟩ := r
    obtain ⟨hs', hout⟩ := ha s hs s' out h
    obtain ⟨hemitted, hresult⟩ := hp s' hs'
    rw [exec_command_ok M h]
    refine ⟨fun o ho => ?_, hresult⟩
    rcases List.mem_append.mp ho with ho | ho
    · exact hout o ho
    · exact hemitted o ho

theorem Triple.append (hp : Triple M P p Q W) (hq : Triple M Q q R W) :
    Triple M P (p.append q) R W := by
  intro s hs
  obtain ⟨hemitted, hresult⟩ := hp s hs
  rw [exec_append]
  cases h : (p.exec M s).result with
  | error e =>
    rw [Execution.andThen_error h]
    exact ⟨hemitted, fun t ht => by cases ht⟩
  | ok t =>
    obtain ⟨hemitted', hresult'⟩ := hq t (hresult t h)
    rw [Execution.andThen_ok h]
    refine ⟨fun o ho => ?_, hresult'⟩
    rcases List.mem_append.mp ho with ho | ho
    · exact hemitted o ho
    · exact hemitted' o ho

theorem Triple.branch {c : β} {yes no : Program α β}
    (hyes : Triple M (fun s => P s ∧ M.test c s = .ok true) yes Q W)
    (hno : Triple M (fun s => P s ∧ M.test c s = .ok false) no Q W)
    (hp : Triple M Q p R W) : Triple M P (branch c yes no p) R W := by
  intro s hs
  cases h : M.test c s with
  | error e =>
    rw [exec, h]
    exact ⟨fun o ho => absurd ho List.not_mem_nil, fun t ht => by cases ht⟩
  | ok b =>
    rw [exec_branch_of_test M h]
    have hbody : Triple M (fun s => P s ∧ M.test c s = .ok b) (if b then yes else no) Q W := by
      cases b
      · exact hno
      · exact hyes
    rw [← exec_append]
    exact hbody.append hp s ⟨hs, h⟩

theorem Triple.consequence {P' Q' : σ → Prop} (hp : Triple M P p Q W)
    (hP : ∀ s, P' s → P s) (hQ : ∀ s, Q s → Q' s) : Triple M P' p Q' W := by
  intro s hs
  obtain ⟨hemitted, hresult⟩ := hp s (hP s hs)
  exact ⟨hemitted, fun t ht => hQ t (hresult t ht)⟩

theorem Triple.and {P' Q' : σ → Prop} (h : Triple M P p Q W) (h' : Triple M P' p Q' W) :
    Triple M (fun s => P s ∧ P' s) p (fun s => Q s ∧ Q' s) W := by
  intro s hs
  exact ⟨(h s hs.1).1, fun t ht => ⟨(h s hs.1).2 t ht, (h' s hs.2).2 t ht⟩⟩

/-- What every occurring command preserves, the program preserves. -/
theorem Triple.invariant (p : Program α β)
    (h : ∀ a ∈ p.occurring, ∀ s, P s → ∀ s' out, M.run a s = .ok (s', out) →
      P s' ∧ ∀ o ∈ out, W o) : Triple M P p P W := by
  induction p with
  | done => exact Triple.done
  | command a p ih =>
    apply Triple.command (h a List.mem_cons_self)
    exact ih fun b hb => h b (List.mem_cons_of_mem a hb)
  | branch c yes no p ihyes ihno ih =>
    have hmem : ∀ a, a ∈ yes.occurring ∨ a ∈ no.occurring ∨ a ∈ p.occurring →
        a ∈ (Program.branch c yes no p).occurring := by
      intro a ha
      rw [occurring, List.append_assoc, List.mem_append, List.mem_append]
      exact ha
    apply Triple.branch (Q := P)
    · exact (ihyes fun a ha => h a (hmem a (.inl ha))).consequence (fun s hs => hs.1) fun _ ht => ht
    · exact (ihno fun a ha => h a (hmem a (.inr (.inl ha)))).consequence (fun s hs => hs.1)
        fun _ ht => ht
    · exact ih fun a ha => h a (hmem a (.inr (.inr ha)))

variable (M) in
/-- From `P` a run completes, and ends in `Q`. -/
def Completes (P : σ → Prop) (p : Program α β) (Q : σ → Prop) : Prop :=
  ∀ s, P s → ∃ t, (p.exec M s).result = .ok t ∧ Q t

theorem Completes.done : Completes M P done P := fun s hs => ⟨s, rfl, hs⟩

theorem Completes.mono {P' Q' : σ → Prop} (hp : Completes M P p Q) (hP : ∀ s, P' s → P s)
    (hQ : ∀ s, Q s → Q' s) : Completes M P' p Q' := by
  intro s hs
  obtain ⟨t, hresult, ht⟩ := hp s (hP s hs)
  exact ⟨t, hresult, hQ t ht⟩

theorem Completes.command {a : α} (ha : ∀ s, P s → ∃ s' out, M.run a s = .ok (s', out) ∧ Q s')
    (hp : Completes M Q p R) : Completes M P (command a p) R := by
  intro s hs
  obtain ⟨s', out, hrun, hs'⟩ := ha s hs
  rw [exec_command_ok M hrun]
  exact hp s' hs'

theorem Completes.append (hp : Completes M P p Q) (hq : Completes M Q q R) :
    Completes M P (p.append q) R := by
  intro s hs
  obtain ⟨s', hresult, hs'⟩ := hp s hs
  rw [exec_append, Execution.andThen_ok hresult]
  exact hq s' hs'

theorem Completes.branch {c : β} {yes no : Program α β} {holds : σ → Bool}
    (htest : ∀ s, M.test c s = .ok (holds s))
    (hyes : Completes M (fun s => P s ∧ holds s = true) yes Q)
    (hno : Completes M (fun s => P s ∧ holds s = false) no Q)
    (hp : Completes M Q p R) : Completes M P (Program.branch c yes no p) R := by
  intro s hs
  rw [exec_branch_of_test M (htest s), ← exec_append]
  cases h : holds s with
  | true => exact hyes.append hp s ⟨hs, h⟩
  | false => exact hno.append hp s ⟨hs, h⟩

/-- Where the tests do not fail, it is enough that every occurring command completes. -/
theorem Completes.invariant {holds : β → σ → Bool} (htest : ∀ c s, M.test c s = .ok (holds c s))
    (p : Program α β)
    (h : ∀ a ∈ p.occurring, ∀ s, P s → ∃ s' out, M.run a s = .ok (s', out) ∧ P s') :
    Completes M P p P := by
  induction p with
  | done => exact Completes.done
  | command a p ih =>
    apply Completes.command (h a List.mem_cons_self)
    exact ih fun b hb => h b (List.mem_cons_of_mem a hb)
  | branch c yes no p ihyes ihno ih =>
    have hmem : ∀ a, a ∈ yes.occurring ∨ a ∈ no.occurring ∨ a ∈ p.occurring →
        a ∈ (Program.branch c yes no p).occurring := by
      intro a ha
      rw [occurring, List.append_assoc, List.mem_append, List.mem_append]
      exact ha
    apply Completes.branch (htest c) (Q := P)
    · exact fun s hs => ihyes (fun a ha => h a (hmem a (.inl ha))) s hs.1
    · exact fun s hs => ihno (fun a ha => h a (hmem a (.inr (.inl ha)))) s hs.1
    · exact ih fun a ha => h a (hmem a (.inr (.inr ha)))

end Program

end Programs

end Tigge
