import Tigge.Lib.Decimal

/-! Names made of tokens joined by one separator, and what the joint determines. -/

namespace Tigge.Lib
variable {α : Type*} [DecidableEq α]

/-- The tokens of a joined name, when no token holds the separator. -/
theorem intercalate_inj {sep : α} {ls ms : List (List α)} (hl : ∀ l ∈ ls, sep ∉ l)
    (hm : ∀ m ∈ ms, sep ∉ m) (hl0 : ls ≠ []) (hm0 : ms ≠ [])
    (h : [sep].intercalate ls = [sep].intercalate ms) : ls = ms := by
  rw [← List.splitOn_intercalate sep hl hl0, h, List.splitOn_intercalate sep hm hm0]

omit [DecidableEq α]

theorem intercalate_cons (sep : α) (t : List α) {ts : List (List α)} (h : ts ≠ []) :
    [sep].intercalate (t :: ts) = t ++ sep :: [sep].intercalate ts := by
  cases ts with
  | nil => exact absurd rfl h
  | cons u ts => simp [List.intercalate]

@[simp] theorem intercalate_singleton (sep : α) (t : List α) : [sep].intercalate [t] = t := by
  simp [List.intercalate]

theorem append_cons_inj {sep : α} {u t v w : List α} (hu : sep ∉ u) (ht : sep ∉ t)
    (h : u ++ sep :: v = t ++ sep :: w) : u = t ∧ v = w := by
  induction u generalizing t with
  | nil =>
    cases t with
    | nil => exact ⟨rfl, (List.cons.inj h).2⟩
    | cons a t =>
      rw [(List.cons.inj h).1] at ht
      exact absurd List.mem_cons_self ht
  | cons b u ih =>
    cases t with
    | nil =>
      rw [(List.cons.inj h).1] at hu
      exact absurd List.mem_cons_self hu
    | cons a t =>
      obtain ⟨rfl, htail⟩ := List.cons.inj h
      obtain ⟨rfl, rfl⟩ := ih (fun hb => hu (List.mem_cons_of_mem _ hb))
        (fun hb => ht (List.mem_cons_of_mem _ hb)) htail
      exact ⟨rfl, rfl⟩

theorem append_cons_inj_right {sep : α} {u t v w : List α} (hv : sep ∉ v) (hw : sep ∉ w)
    (h : u ++ sep :: v = t ++ sep :: w) : u = t ∧ v = w := by
  have hrev : v.reverse ++ sep :: u.reverse = w.reverse ++ sep :: t.reverse := by
    simpa using congrArg List.reverse h
  obtain ⟨hvw, hut⟩ := append_cons_inj (by simpa using hv) (by simpa using hw) hrev
  exact ⟨List.reverse_injective hut, List.reverse_injective hvw⟩

theorem token_of_append {sep : α} {u v t : List α} {ts : List (List α)} (hu : sep ∉ u)
    (ht : ∀ x ∈ t :: ts, sep ∉ x) (h : u ++ sep :: v = [sep].intercalate (t :: ts)) :
    u = t ∧ ts ≠ [] ∧ v = [sep].intercalate ts := by
  by_cases hts : ts = []
  · subst hts
    rw [intercalate_singleton] at h
    exact absurd (h ▸ List.mem_append_right u List.mem_cons_self) (ht t List.mem_cons_self)
  · rw [intercalate_cons sep t hts] at h
    obtain ⟨rfl, rfl⟩ := append_cons_inj hu (ht t List.mem_cons_self) h
    exact ⟨rfl, hts, rfl⟩

theorem token_of_prefix {sep : α} {u v t : List α} {ts : List (List α)} (hu : sep ∉ u)
    (ht : sep ∉ t) (h : u ++ v = [sep].intercalate (t :: ts)) : u <+: t := by
  by_cases hts : ts = []
  · subst hts
    rw [intercalate_singleton] at h
    exact ⟨v, h⟩
  · rw [intercalate_cons sep t hts] at h
    rcases List.append_eq_append_iff.mp h with ⟨w, rfl, hw⟩ | ⟨w, rfl, hw⟩
    · exact ⟨w, rfl⟩
    · cases w with
      | nil => exact ⟨[], by simp⟩
      | cons a w =>
        obtain ⟨rfl, _⟩ := List.cons.inj hw
        exact absurd (List.mem_append_right t List.mem_cons_self) hu

/-- A separator in a joined name stands between two tokens. -/
theorem tokens_of_separator {sep : α} {pre s : List α} {ts : List (List α)}
    (ht : ∀ x ∈ ts, sep ∉ x) (h : [sep].intercalate ts = pre ++ sep :: s) :
    ∃ us vs, ts = us ++ vs ∧ us ≠ [] ∧ vs ≠ [] ∧ s = [sep].intercalate vs := by
  induction ts generalizing pre with
  | nil => exact absurd h.symm (by simp [List.intercalate])
  | cons t ts ih =>
    by_cases hts : ts = []
    · subst hts
      rw [intercalate_singleton] at h
      exact absurd (h ▸ List.mem_append_right pre List.mem_cons_self) (ht t List.mem_cons_self)
    · rw [intercalate_cons sep t hts] at h
      rcases List.append_eq_append_iff.mp h with ⟨w, rfl, hw⟩ | ⟨w, rfl, hw⟩
      · -- the separator found lies in what follows the first token
        cases w with
        | nil =>
          obtain ⟨_, rfl⟩ := List.cons.inj hw
          exact ⟨[t], ts, rfl, List.cons_ne_nil _ _, hts, rfl⟩
        | cons a w =>
          obtain ⟨rfl, hrest⟩ := List.cons.inj hw
          obtain ⟨us, vs, rfl, _, hvs, rfl⟩ :=
            ih (fun x hx => ht x (List.mem_cons_of_mem _ hx)) hrest
          exact ⟨t :: us, vs, rfl, List.cons_ne_nil _ _, hvs, rfl⟩
      · cases w with
        | nil =>
          obtain ⟨_, rfl⟩ := List.cons.inj hw
          exact ⟨[pre ++ []], ts, rfl, List.cons_ne_nil _ _, hts, rfl⟩
        | cons a w =>
          obtain ⟨rfl, _⟩ := List.cons.inj hw
          exact absurd (List.mem_append_right pre List.mem_cons_self) (ht _ List.mem_cons_self)

theorem intercalate_append {sep : α} {us vs : List (List α)} (hu : us ≠ []) (hv : vs ≠ []) :
    [sep].intercalate (us ++ vs) = [sep].intercalate us ++ sep :: [sep].intercalate vs := by
  induction us with
  | nil => exact absurd rfl hu
  | cons t us ih =>
    by_cases hus : us = []
    · subst hus
      rw [List.singleton_append, intercalate_cons sep t hv, intercalate_singleton]
    · rw [List.cons_append, intercalate_cons sep t (List.append_ne_nil_of_left_ne_nil hus vs),
        ih hus, intercalate_cons sep t hus, List.append_assoc, List.cons_append]

/-- Joined tokens come apart at their separators, whatever follows the last of them. -/
theorem splitOnP_intercalate_append {p : α → Bool} {sep : α} (hsep : p sep = true)
    {ts : List (List α)} (hts : ts ≠ []) (ht : ∀ t ∈ ts, ∀ c ∈ t, p c = false) (rest : List α) :
    ([sep].intercalate ts ++ sep :: rest).splitOnP p = ts ++ rest.splitOnP p := by
  induction ts with
  | nil => exact absurd rfl hts
  | cons t ts ih =>
    have hhead : ∀ c ∈ t, p c = false := ht t List.mem_cons_self
    by_cases hnil : ts = []
    · subst hnil
      rw [intercalate_singleton, List.splitOnP_append_cons_of_forall_mem hhead sep hsep]
      rfl
    · rw [intercalate_cons sep t hnil, List.append_assoc, List.cons_append,
        List.splitOnP_append_cons_of_forall_mem hhead sep hsep,
        ih hnil fun x hx => ht x (List.mem_cons_of_mem t hx)]
      rfl

end Tigge.Lib
