import Tigge.Lib.Decimal

/-! Trees of directories and leaves below one root, and paths through them with `.` and `..`. -/

namespace Tigge.Lib

theorem keys_erase_eq_filter {κ : Type*} {β : κ → Type*} [DecidableEq κ] (s : AList β) (a : κ) :
    (s.erase a).keys = s.keys.filter (· ≠ a) := by
  rw [AList.keys_erase, s.keys_nodup.erase_eq_filter]
  refine List.filter_congr fun b _ => ?_
  by_cases h : b = a <;> simp [h]

/-- The names from the root to an entry. -/
abbrev Path := List Str

inductive Node (α : Type*)
  | dir
  | leaf (a : α)
  deriving DecidableEq

def here : Str := ".".toList

def up : Str := "..".toList

structure FileTree (α : Type*) where
  entries : AList fun _ : Path => Node α
  root : entries.lookup [] = some .dir
  parent : ∀ p n, p ++ [n] ∈ entries → entries.lookup p = some .dir
  named : ∀ p n, p ++ [n] ∈ entries → n ≠ here ∧ n ≠ up

namespace FileTree
variable {α : Type*} (t : FileTree α)

def lookup (p : Path) : Option (Node α) := t.entries.lookup p

/-- One name of a path, from the directory that the names before it lead to. -/
def step (p : Path) (n : Str) : Option Path :=
  match t.lookup p with
  | some .dir =>
    if n = here then some p
    else if n = up then some p.dropLast
    else if p ++ [n] ∈ t.entries then some (p ++ [n]) else none
  | _ => none

/-- The entry that a path leads to. -/
def walk (p : Path) (names : List Str) : Option Path := names.foldlM t.step p

def children (p : Path) : List Str :=
  t.entries.keys.filterMap fun q => if q.dropLast = p then q.getLast? else none

/-- What a directory lists. -/
def names (p : Path) : List Str := here :: up :: t.children p

variable {t} {p q : Path} {n : Str}

theorem mem_entries_iff : p ∈ t.entries ↔ ∃ e, t.lookup p = some e := by
  rw [← AList.lookup_isSome, Option.isSome_iff_exists]
  rfl

theorem mem_children : n ∈ t.children p ↔ p ++ [n] ∈ t.entries := by
  simp only [children, List.mem_filterMap, AList.mem_keys.symm, Option.ite_none_right_eq_some]
  constructor
  · rintro ⟨q, hq, rfl, hn⟩
    rwa [List.dropLast_append_getLast? n hn]
  · exact fun h => ⟨p ++ [n], h, List.dropLast_concat, List.getLast?_concat⟩

theorem nodup_children (t : FileTree α) (p : Path) : (t.children p).Nodup := by
  refine t.entries.keys_nodup.filterMap fun q q' n hq hq' => ?_
  obtain ⟨hp, hn⟩ := Option.ite_none_right_eq_some.mp hq
  obtain ⟨hp', hn'⟩ := Option.ite_none_right_eq_some.mp hq'
  rw [← List.dropLast_append_getLast? n hn, ← List.dropLast_append_getLast? n hn', hp, hp']

theorem dir_of_step (h : t.step p n = some q) : t.lookup p = some .dir := by
  unfold step at h
  split at h
  next hdir => exact hdir
  next => cases h

theorem step_of_dir (h : t.lookup p = some .dir) : t.step p n =
    if n = here then some p else if n = up then some p.dropLast
    else if p ++ [n] ∈ t.entries then some (p ++ [n]) else none := by
  rw [step, h]

theorem step_cases (h : t.step p n = some q) :
    n = here ∧ q = p ∨ n = up ∧ q = p.dropLast ∨ p ++ [n] ∈ t.entries ∧ q = p ++ [n] := by
  rw [step_of_dir (dir_of_step h)] at h
  split_ifs at h with hhere hup hmem
  · exact .inl ⟨hhere, (Option.some.inj h).symm⟩
  · exact .inr (.inl ⟨hup, (Option.some.inj h).symm⟩)
  · exact .inr (.inr ⟨hmem, (Option.some.inj h).symm⟩)

theorem nodup_names (t : FileTree α) (p : Path) : (t.names p).Nodup := by
  have hhere : here ∉ t.children p := fun h => (t.named p here (mem_children.mp h)).1 rfl
  have hup : up ∉ t.children p := fun h => (t.named p up (mem_children.mp h)).2 rfl
  rw [names, List.nodup_cons, List.nodup_cons, List.mem_cons, not_or]
  exact ⟨⟨by decide, hhere⟩, hup, nodup_children t p⟩

/-- What a directory lists leads somewhere. -/
theorem step_child (h : p ++ [n] ∈ t.entries) : t.step p n = some (p ++ [n]) := by
  obtain ⟨hhere, hup⟩ := t.named p n h
  rw [step_of_dir (t.parent p n h), if_neg hhere, if_neg hup, if_pos h]

theorem dir_dropLast (h : t.lookup p = some .dir) : t.lookup p.dropLast = some .dir := by
  rcases List.eq_nil_or_concat p with rfl | ⟨q, n, rfl⟩
  · exact h
  · rw [List.concat_eq_append, List.dropLast_concat]
    refine t.parent q n ?_
    rw [← List.concat_eq_append]
    exact mem_entries_iff.mpr ⟨_, h⟩

@[simp] theorem walk_nil : t.walk p [] = some p := rfl

theorem walk_concat (names : List Str) :
    t.walk p (names ++ [n]) = (t.walk p names).bind fun q => t.step q n := by
  simp [walk, List.foldlM_append]

theorem walk_concat_eq_some {names : List Str} :
    t.walk p (names ++ [n]) = some q ↔ ∃ r, t.walk p names = some r ∧ t.step r n = some q := by
  rw [walk_concat, Option.bind_eq_some_iff]

/-- A path without `.` and `..` leads where it says. -/
theorem walk_eq_append {names : List Str} (h : ∀ n ∈ names, n ≠ here ∧ n ≠ up)
    (hwalk : t.walk p names = some q) : q = p ++ names := by
  induction names using List.reverseRecOn generalizing q with
  | nil => simpa using hwalk.symm
  | append_singleton names n ih =>
    obtain ⟨r, hr, hstep⟩ := walk_concat_eq_some.mp hwalk
    obtain ⟨hhere, hup⟩ := h n (by simp)
    have hp := ih (fun m hm => h m (by simp [hm])) hr
    rw [step_of_dir (dir_of_step hstep), if_neg hhere, if_neg hup] at hstep
    obtain ⟨-, hq⟩ := Option.ite_none_right_eq_some.mp hstep
    rw [← Option.some.inj hq, hp, List.append_assoc]

theorem walk_of_mem {names : List Str} (h : p ++ names ∈ t.entries) :
    t.walk p names = some (p ++ names) := by
  induction names using List.reverseRecOn with
  | nil => rw [List.append_nil, walk_nil]
  | append_singleton names n ih =>
    rw [← List.append_assoc] at h ⊢
    have hdir : p ++ names ∈ t.entries := mem_entries_iff.mpr ⟨_, t.parent _ n h⟩
    exact walk_concat_eq_some.mpr ⟨p ++ names, ih hdir, step_child h⟩

/-- The tree of a list of entries. -/
def ofEntries (entries : AList fun _ : Path => Node α) (root : entries.lookup [] = some .dir)
    (h : ∀ q ∈ entries.keys, q = [] ∨ entries.lookup q.dropLast = some .dir ∧
      q.getLast? ≠ some here ∧ q.getLast? ≠ some up) : FileTree α where
  entries := entries
  root := root
  parent p n hn := by
    have hdir := ((h _ hn).resolve_left (by simp)).1
    rwa [List.dropLast_concat] at hdir
  named p n hn := by
    obtain ⟨-, hhere, hup⟩ := (h _ hn).resolve_left (by simp)
    rw [List.getLast?_concat] at hhere hup
    exact ⟨fun h => hhere (congrArg some h), fun h => hup (congrArg some h)⟩

section Unlink
variable [DecidableEq α]

/-- Without one leaf. Directories are not unlinked. -/
def unlink (t : FileTree α) (p : Path) : FileTree α :=
  if h : t.lookup p = some .dir then t
  else
    have hkept : ∀ q, t.lookup q = some .dir → (t.entries.erase p).lookup q = some .dir := by
      intro q hq
      rw [AList.lookup_erase_ne]
      · exact hq
      · rintro rfl
        exact h hq
    { entries := t.entries.erase p
      root := hkept [] t.root
      parent := fun q n hn => hkept q (t.parent q n (AList.mem_erase.mp hn).2)
      named := fun q n hn => t.named q n (AList.mem_erase.mp hn).2 }

end Unlink

/-- What is left of a tree from which some leaves have been unlinked. -/
structure Trimmed (t t' : FileTree α) (removed : List Path) : Prop where
  keys : t'.entries.keys = t.entries.keys.filter (· ∉ removed)
  lookup : ∀ p, t'.lookup p = if p ∈ removed then none else t.lookup p
  leaves : ∀ p ∈ removed, ∃ a, t.lookup p = some (.leaf a)

namespace Trimmed
variable {t' : FileTree α} {removed : List Path}

theorem refl (t : FileTree α) : Trimmed t t [] where
  keys := by simp
  lookup := by simp
  leaves := by simp

theorem unlink [DecidableEq α] (h : Trimmed t t' removed) {a : α}
    (hp : t'.lookup p = some (.leaf a)) : Trimmed t (t'.unlink p) (removed ++ [p]) := by
  have hne : t'.lookup p ≠ some .dir := by simp [hp]
  have hentries : (t'.unlink p).entries = t'.entries.erase p := by
    rw [FileTree.unlink, dif_neg hne]
  refine ⟨?_, fun q => ?_, fun q hq => ?_⟩
  · rw [hentries, keys_erase_eq_filter, h.keys, List.filter_filter]
    refine List.filter_congr fun q _ => ?_
    by_cases hqp : q = p <;> simp [hqp]
  · have hq := h.lookup q
    rw [FileTree.lookup, hentries]
    by_cases hqp : q = p
    · subst hqp
      simp
    · rw [AList.lookup_erase_ne hqp]
      simp only [List.mem_append, List.mem_singleton, hqp, or_false]
      exact hq
  · rcases List.mem_append.mp hq with hq | hq
    · exact h.leaves q hq
    · rw [List.mem_singleton.mp hq]
      refine ⟨a, ?_⟩
      rw [h.lookup] at hp
      exact (Option.ite_none_left_eq_some.mp hp).2

variable (h : Trimmed t t' removed)
include h

theorem lookup_of_lookup {e : Node α} (hp : t'.lookup p = some e) : t.lookup p = some e := by
  rw [h.lookup] at hp
  exact (Option.ite_none_left_eq_some.mp hp).2

theorem lookup_eq (hp : p ∉ removed) : t'.lookup p = t.lookup p := by
  rw [h.lookup, if_neg hp]

theorem dir_notMem (hp : t.lookup p = some .dir) : p ∉ removed := by
  intro hr
  obtain ⟨a, ha⟩ := h.leaves p hr
  rw [hp] at ha
  cases ha

theorem dir (hp : t.lookup p = some .dir) : t'.lookup p = some .dir := by
  rw [h.lookup_eq (h.dir_notMem hp), hp]

theorem mem_entries : p ∈ t'.entries ↔ p ∈ t.entries ∧ p ∉ removed := by
  rw [AList.mem_keys, AList.mem_keys, h.keys, List.mem_filter, decide_eq_true_eq]

theorem step_of_step (hstep : t'.step p n = some q) : t.step p n = some q := by
  have hdir := dir_of_step hstep
  rw [step_of_dir (h.lookup_of_lookup hdir)]
  rw [step_of_dir hdir] at hstep
  by_cases hhere : n = here
  · rwa [if_pos hhere] at hstep ⊢
  by_cases hup : n = up
  · rwa [if_neg hhere, if_pos hup] at hstep ⊢
  rw [if_neg hhere, if_neg hup] at hstep ⊢
  obtain ⟨hmem, hq⟩ := Option.ite_none_right_eq_some.mp hstep
  rw [if_pos (h.mem_entries.mp hmem).1, hq]

theorem walk_of_walk {names : List Str} (hwalk : t'.walk p names = some q) :
    t.walk p names = some q := by
  induction names using List.reverseRecOn generalizing q with
  | nil => exact hwalk
  | append_singleton names n ih =>
    obtain ⟨r, hr, hstep⟩ := walk_concat_eq_some.mp hwalk
    exact walk_concat_eq_some.mpr ⟨r, ih hr, h.step_of_step hstep⟩

/-- A path still leads where it led, unless that has been unlinked. -/
theorem walk_eq {names : List Str} (hwalk : t.walk p names = some q) (hq : q ∉ removed) :
    t'.walk p names = some q := by
  induction names using List.reverseRecOn generalizing q with
  | nil => exact hwalk
  | append_singleton names n ih =>
    obtain ⟨r, hr, hstep⟩ := walk_concat_eq_some.mp hwalk
    have hdir := dir_of_step hstep
    refine walk_concat_eq_some.mpr ⟨r, ih hr (h.dir_notMem hdir), ?_⟩
    rw [step_of_dir (h.dir hdir)]
    rw [step_of_dir hdir] at hstep
    by_cases hhere : n = here
    · rwa [if_pos hhere] at hstep ⊢
    by_cases hup : n = up
    · rwa [if_neg hhere, if_pos hup] at hstep ⊢
    rw [if_neg hhere, if_neg hup] at hstep ⊢
    obtain ⟨hmem, hname⟩ := Option.ite_none_right_eq_some.mp hstep
    rw [← Option.some.inj hname] at hq ⊢
    rw [if_pos (h.mem_entries.mpr ⟨hmem, hq⟩)]

theorem children_eq (hp : ∀ n, p ++ [n] ∉ removed) : t'.children p = t.children p := by
  rw [children, children, h.keys, List.filterMap_filter]
  refine List.filterMap_congr fun q _ => ?_
  by_cases hq : q ∈ removed
  · have hne : ∀ n, ¬ (q.dropLast = p ∧ q.getLast? = some n) := by
      rintro n ⟨rfl, hn⟩
      exact hp n (by rwa [List.dropLast_append_getLast? n hn])
    simp only [hq, not_true_eq_false, decide_false, Bool.false_eq_true, if_false]
    split_ifs with hdrop
    · cases hlast : q.getLast? with
      | none => rfl
      | some n => exact absurd ⟨hdrop, hlast⟩ (hne n)
    · rfl
  · simp [hq]

end Trimmed
end FileTree
end Tigge.Lib
