import Tigge.CleanupLevels

/-! Where the files are that a call unlinks. -/

namespace Tigge
open Lib

namespace CleanupCall
/-- The targets that directories of the tree at the start can list, and where they lead. -/
inductive Reached (c : CleanupCall) (tree : FileTree Leaf) : Path → Path → Prop
  | top {n : Str} (hmem : c.location ++ [n] ∈ tree.entries) (hdot : startsWithDot n = false)
      (hlisted : c.excluded n = false) : Reached c tree [n] (c.location ++ [n])
  | next {t p q : Path} {n : Str} (h : Reached c tree t p) (hstep : tree.step p n = some q)
      (hlisted : c.excluded n = false) : Reached c tree (t ++ [n]) q

variable {c : CleanupCall} {readdir : Path → Enumeration Str} {tree : FileTree Leaf}
  {w : Sweep} {targets : List Path} {k : ℕ} {t p q : Path} {n : Str}

section Reached

theorem Reached.walk (h : c.Reached tree t p) : tree.walk c.location t = some p := by
  induction h with
  | top hmem => exact FileTree.walk_of_mem hmem
  | next _ hstep _ ih => exact FileTree.walk_concat_eq_some.mpr ⟨_, ih, hstep⟩

theorem Reached.isDotTarget (h : c.Reached tree t p) : t ≠ [] ∧ isDotTarget t = false := by
  induction h with
  | top _ hdot => exact ⟨List.cons_ne_nil _ _, hdot⟩
  | @next t p q n _ _ _ ih =>
    obtain ⟨hne, hdot⟩ := ih
    obtain ⟨m, t, rfl⟩ := List.exists_cons_of_ne_nil hne
    exact ⟨List.cons_ne_nil _ _, hdot⟩

/-- A step leads out of the location only from the location itself. -/
theorem prefix_of_step (hp : c.location <+: p) (hstep : tree.step p n = some q) :
    c.location <+: q ∨ n = up ∧ p = c.location ∧ q = c.location.dropLast := by
  rcases FileTree.step_cases hstep with ⟨-, rfl⟩ | ⟨hn, rfl⟩ | ⟨-, rfl⟩
  · exact .inl hp
  · obtain ⟨r, rfl⟩ := hp
    rcases List.eq_nil_or_concat r with rfl | ⟨r, m, rfl⟩
    · rw [List.append_nil]
      exact .inr ⟨hn, rfl, rfl⟩
    · rw [List.concat_eq_append, ← List.append_assoc, List.dropLast_concat]
      exact .inl (List.prefix_append _ _)
  · exact .inl (hp.trans (List.prefix_append _ _))

/-- Up to three names lead out of the location only by going up twice. -/
theorem Reached.inside_or (h : c.Reached tree t p) (hlength : t.length ≤ 3) :
    c.location <+: p ∧ (t.length ≤ 1 → p ≠ c.location) ∨
      t.length = 3 ∧ c.excluded up = false ∧ p = c.location.dropLast := by
  induction h with
  | top => exact .inl ⟨List.prefix_append _ _, fun _ => by simp⟩
  | @next t p q n h hstep hlisted ih =>
    rw [List.length_append, List.length_singleton] at hlength ⊢
    have hpos : t.length ≠ 0 := by
      have := h.isDotTarget.1
      simpa using this
    rcases ih (by omega) with ⟨hp, hne⟩ | ⟨hthree, -⟩
    · rcases prefix_of_step hp hstep with hq | ⟨rfl, hp, hq⟩
      · exact .inl ⟨hq, fun h => absurd h (by omega)⟩
      · refine .inr ⟨?_, hlisted, hq⟩
        by_contra hthree
        exact hne (by omega) hp
    · omega

/-- The name that a target starts with is that of a directory if it has more names. -/
theorem Reached.directory (h : c.Reached tree t p) : t.length = 1 ∨
    ∃ m, tree.lookup (c.location ++ [m]) = some .dir ∧ startsWithDot m = false ∧
      c.excluded m = false := by
  induction h with
  | top => exact .inl rfl
  | @next t p q n h hstep _ ih =>
    refine ih.elim (fun hone => ?_) .inr
    cases h with
    | top hmem hdot hlisted => exact .inr ⟨_, FileTree.dir_of_step hstep, hdot, hlisted⟩
    | next h _ _ =>
      rw [List.length_append, List.length_singleton, Nat.add_eq_right] at hone
      exact absurd (List.length_eq_zero_iff.mp hone) h.isDotTarget.1

end Reached

section Sweeps

/-- A target of a sweep is skipped, or leads to where it led at the start. -/
def Tracked (c : CleanupCall) (tree : FileTree Leaf) (k : ℕ) (t : Path) : Prop :=
  t.length = k ∧ (isDotTarget t = true ∨ ∃ p, c.Reached tree t p)

theorem Tracked.entryOf (h : c.Tracked tree k t) {tree' : FileTree Leaf} {removed : List Path}
    (htrimmed : FileTree.Trimmed tree tree' removed) {e : Node Leaf}
    (hentry : c.entryOf tree' t = some (p, e)) : c.Reached tree t p ∧ tree.lookup p = some e := by
  obtain ⟨hdot, hwalk, he⟩ := entryOf_eq_some.mp hentry
  obtain ⟨p', hp'⟩ := h.2.resolve_left (by simp [hdot])
  have hsame := hp'.walk.symm.trans (htrimmed.walk_of_walk hwalk)
  rw [Option.some.injEq] at hsame
  exact ⟨hsame ▸ hp', htrimmed.lookup_of_lookup he⟩

/-- What is in a directory that is trimmed was there at the start. -/
theorem step_of_mem_names {tree' : FileTree Leaf} {removed : List Path}
    (htrimmed : FileTree.Trimmed tree tree' removed) (hdir : tree.lookup p = some .dir)
    (hn : n ∈ tree'.names p) : ∃ q, tree.step p n = some q := by
  rw [FileTree.step_of_dir hdir]
  rw [FileTree.names, List.mem_cons, List.mem_cons, FileTree.mem_children,
    htrimmed.mem_entries] at hn
  by_cases hhere : n = here
  · exact ⟨_, if_pos hhere⟩
  · by_cases hup : n = up
    · exact ⟨_, by rw [if_neg hhere, if_pos hup]⟩
    · have hmem := (hn.resolve_left hhere).resolve_left hup
      exact ⟨_, by rw [if_neg hhere, if_neg hup, if_pos hmem.1]⟩

theorem tracked_of_mem_pushes (h : c.Tracked tree k t) {tree' : FileTree Leaf}
    {removed : List Path} (htrimmed : FileTree.Trimmed tree tree' removed) {u : Path}
    (hu : u ∈ c.pushes readdir tree' t) : c.Tracked tree (k + 1) u := by
  obtain ⟨p, n, hentry, hn, rfl⟩ := mem_pushes.mp hu
  obtain ⟨hreached, hdir⟩ := h.entryOf htrimmed hentry
  rw [listing, List.mem_filter, Enumeration.mem_order, Bool.not_eq_true'] at hn
  obtain ⟨q, hq⟩ := step_of_mem_names htrimmed hdir hn.1
  exact ⟨by simp [h.1], .inr ⟨q, hreached.next hq hn.2⟩⟩

/-- A file of the tree at the start that is old enough to be unlinked. -/
def IsOld (c : CleanupCall) (tree : FileTree Leaf) (p : Path) : Prop :=
  ∃ mtime size, tree.lookup p = some (.leaf (.file mtime size)) ∧
    c.isPlainAge mtime = true ∧ c.expired mtime = true

theorem old_of_removes (h : c.Tracked tree k t) {tree' : FileTree Leaf}
    {removed : List Path} (htrimmed : FileTree.Trimmed tree tree' removed)
    (hremoves : c.removes tree' t = some p) : c.Reached tree t p ∧ c.IsOld tree p := by
  obtain ⟨hdot, hwalk, mtime, size, hfile, hold⟩ := removes_eq_some hremoves
  obtain ⟨hreached, he⟩ := h.entryOf htrimmed (entryOf_eq_some.mpr ⟨hdot, hwalk, hfile⟩)
  exact ⟨hreached, mtime, size, he, hold⟩

/-- The state before a sweep over a level. -/
structure AtLevel (c : CleanupCall) (tree : FileTree Leaf) (k : ℕ) (w : Sweep)
    (targets : List Path) : Prop where
  trimmed : FileTree.Trimmed tree w.tree w.unlinked
  tracked : ∀ t ∈ targets, c.Tracked tree k t
  next : ∀ t ∈ w.nextLevel, c.Tracked tree (k + 1) t

theorem AtLevel.advance (readdir : Path → Enumeration Str)
    (h : c.AtLevel tree k w (t :: targets)) :
    c.AtLevel tree k (c.advance readdir w t) targets := by
  obtain ⟨ht, htargets⟩ := List.forall_mem_cons.mp h.tracked
  refine ⟨trimmed_advance h.trimmed t, htargets, fun u hu => ?_⟩
  rcases List.mem_append.mp hu with hu | hu
  · exact h.next u hu
  · exact tracked_of_mem_pushes ht h.trimmed hu

theorem AtLevel.sweep (readdir : Path → Enumeration Str) (h : c.AtLevel tree k w targets) :
    c.AtLevel tree k (c.sweep readdir w targets) [] ∧
      ∀ p ∈ (c.sweep readdir w targets).unlinked, p ∈ w.unlinked ∨
        ∃ t, t.length = k ∧ c.Reached tree t p ∧ c.IsOld tree p := by
  induction targets generalizing w with
  | nil => exact ⟨⟨h.trimmed, nofun, h.next⟩, fun p hp => .inl hp⟩
  | cons t targets ih =>
    have ht := h.tracked t List.mem_cons_self
    obtain ⟨hlevel, hunlinked⟩ := ih (h.advance readdir)
    refine ⟨hlevel, fun p hp => ?_⟩
    rcases hunlinked p hp with hp | hp
    · rcases List.mem_append.mp hp with hp | hp
      · exact .inl hp
      · exact .inr ⟨t, ht.1, old_of_removes ht h.trimmed (Option.mem_toList.mp hp)⟩
    · exact .inr hp

theorem AtLevel.nextLevel (readdir : Path → Enumeration Str) (h : c.AtLevel tree k w targets) :
    c.AtLevel tree (k + 1) { c.sweep readdir w targets with nextLevel := [] }
      (c.sweep readdir w targets).nextLevel :=
  ⟨(h.sweep readdir).1.trimmed, (h.sweep readdir).1.next, nofun⟩

theorem AtLevel.levels (readdir : Path → Enumeration Str) {j : ℕ}
    (h : c.AtLevel tree k w targets) :
    ∀ p ∈ (c.levels readdir j w targets).unlinked, p ∈ w.unlinked ∨
      ∃ t, t.length < k + j ∧ c.Reached tree t p ∧ c.IsOld tree p := by
  induction j generalizing k w targets with
  | zero => exact fun p hp => .inl hp
  | succ j ih =>
    intro p hp
    have hswept : p ∈ (c.sweep readdir w targets).unlinked → p ∈ w.unlinked ∨
        ∃ t, t.length < k + (j + 1) ∧ c.Reached tree t p ∧ c.IsOld tree p := by
      intro hp
      refine ((h.sweep readdir).2 p hp).imp_right ?_
      rintro ⟨t, hlength, ht⟩
      exact ⟨t, by omega, ht⟩
    rw [CleanupCall.levels] at hp
    split_ifs at hp
    · rcases ih (h.nextLevel readdir) p hp with hp | ⟨t, hlength, ht⟩
      · exact hswept hp
      · exact .inr ⟨t, by omega, ht⟩
    · exact hswept hp

end Sweeps

section Escape

/-- Below the location. -/
def Beneath (c : CleanupCall) (p : Path) : Prop := ∃ r ≠ [], p = c.location ++ r

/-- What leads out of the location: up twice from one of its directories, to a file beside it. -/
structure Escapes (c : CleanupCall) (tree : FileTree Leaf) : Prop where
  accepts : c.Accepts tree
  listsUp : c.excluded up = false
  parent : c.location ≠ []
  directory : ∃ n, tree.lookup (c.location ++ [n]) = some .dir ∧ startsWithDot n = false ∧
    c.excluded n = false
  last : (c.topTargets tree).getLast?.any (c.goesOn tree) = true
  file : ∃ f, c.IsOld tree (c.location.dropLast ++ [f]) ∧ c.excluded f = false

theorem mem_topTargets : t ∈ c.topTargets tree ↔
    ∃ n ∈ tree.names c.location, c.excluded n = false ∧ t = [n] := by
  simp only [topTargets, listing, Enumeration.asListed, id_eq, List.mem_map,
    List.mem_insertionSort, List.mem_filter, Bool.not_eq_true']
  constructor
  · rintro ⟨n, ⟨hn, hlisted⟩, rfl⟩
    exact ⟨n, hn, hlisted, rfl⟩
  · rintro ⟨n, hn, hlisted, rfl⟩
    exact ⟨n, ⟨hn, hlisted⟩, rfl⟩

/-- Only names of files and directories do not start with a dot. -/
theorem child_of_mem_names (hn : n ∈ tree.names p) (hdot : startsWithDot n = false) :
    p ++ [n] ∈ tree.entries := by
  rw [FileTree.names, List.mem_cons, List.mem_cons, FileTree.mem_children] at hn
  rcases hn with rfl | rfl | hn
  · cases hdot
  · cases hdot
  · exact hn

theorem atLevel_topTargets : c.AtLevel tree 1 (start tree) (c.topTargets tree) where
  trimmed := .refl tree
  tracked t ht := by
    obtain ⟨n, hn, hlisted, rfl⟩ := mem_topTargets.mp ht
    refine ⟨rfl, ?_⟩
    cases hdot : startsWithDot n with
    | true => exact .inl hdot
    | false => exact .inr ⟨_, .top (child_of_mem_names hn hdot) hdot hlisted⟩
  next := nofun

theorem level_topTargets : c.Level (start tree) 1 (c.topTargets tree) where
  nodup := nodup_topTargets c tree
  length t ht := (atLevel_topTargets.tracked t ht).1
  untouched t ht := by
    obtain ⟨n, hn, -, rfl⟩ := mem_topTargets.mp ht
    cases hdot : startsWithDot n with
    | true => exact .inl hdot
    | false =>
      have hnamed := tree.named _ n (child_of_mem_names hn hdot)
      exact .inr ⟨fun m hm => List.mem_singleton.mp hm ▸ hnamed, nofun, nofun⟩

theorem lastGoesOn_topTargets : c.lastGoesOn readdir (start tree) (c.topTargets tree) =
    (c.topTargets tree).getLast?.any (c.goesOn tree) :=
  level_topTargets.lastGoesOn readdir (.refl tree)

theorem Reached.beneath (h : c.Reached tree t p) (hlength : t.length = 1) : c.Beneath p := by
  cases h with
  | top => exact ⟨_, List.cons_ne_nil _ _, rfl⟩
  | next h _ _ =>
    rw [List.length_append, List.length_singleton, Nat.add_eq_right] at hlength
    exact absurd (List.length_eq_zero_iff.mp hlength) h.isDotTarget.1

/-- An old file that is reached within four names is below the location, or beside it. -/
theorem Reached.beneath_or (h : c.Reached tree t p) (hold : c.IsOld tree p)
    (hlength : t.length ≤ 4) : c.Beneath p ∨
      c.excluded up = false ∧ c.location ≠ [] ∧
        (∃ n, tree.lookup (c.location ++ [n]) = some .dir ∧ startsWithDot n = false ∧
          c.excluded n = false) ∧
        ∃ f, c.IsOld tree (c.location.dropLast ++ [f]) ∧ c.excluded f = false := by
  cases h with
  | top => exact .inl ⟨_, List.cons_ne_nil _ _, rfl⟩
  | @next t q _ n h hstep hlisted =>
    obtain ⟨mtime, size, hfile, -⟩ := id hold
    have hdir := FileTree.dir_of_step hstep
    rw [List.length_append, List.length_singleton] at hlength
    rcases FileTree.step_cases hstep with ⟨-, rfl⟩ | ⟨-, rfl⟩ | ⟨-, rfl⟩
    · rw [hdir] at hfile
      cases hfile
    · rw [FileTree.dir_dropLast hdir] at hfile
      cases hfile
    · rcases h.inside_or (by omega) with ⟨⟨r, rfl⟩, -⟩ | ⟨hthree, hup, rfl⟩
      · exact .inl ⟨r ++ [n], by simp, List.append_assoc _ _ _⟩
      · by_cases hroot : c.location = []
        · rw [hroot]
          exact .inl ⟨[n], List.cons_ne_nil _ _, by rw [hroot]; rfl⟩
        · exact .inr ⟨hup, hroot, h.directory.resolve_left (by omega), n, hold, hlisted⟩

theorem escapes_of_not_beneath (haccepts : c.Accepts tree)
    (hp : p ∈ (c.levels readdir 4 (start tree) (c.topTargets tree)).unlinked)
    (hbeneath : ¬ c.Beneath p) : c.Escapes tree := by
  by_cases hlast : c.lastGoesOn readdir (start tree) (c.topTargets tree) = true
  · rcases atLevel_topTargets.levels readdir p hp with hp | ⟨t, hlength, hreached, hold⟩
    · cases hp
    · obtain ⟨hup, hroot, hdirectory, hfile⟩ :=
        (hreached.beneath_or hold (by omega)).resolve_left hbeneath
      exact ⟨haccepts, hup, hroot, hdirectory, lastGoesOn_topTargets ▸ hlast, hfile⟩
  · rw [Bool.not_eq_true] at hlast
    rw [levels, hlast] at hp
    rcases (atLevel_topTargets.sweep readdir).2 p hp with hp | ⟨t, hlength, hreached, -⟩
    · cases hp
    · exact absurd (hreached.beneath hlength) hbeneath

end Escape

section Escaping

theorem subset_sweep (readdir : Path → Enumeration Str) (w : Sweep) (targets : List Path) :
    w.nextLevel ⊆ (c.sweep readdir w targets).nextLevel ∧
      w.unlinked ⊆ (c.sweep readdir w targets).unlinked := by
  induction targets generalizing w with
  | nil => exact ⟨List.Subset.refl _, List.Subset.refl _⟩
  | cons t targets ih =>
    obtain ⟨hnext, hunlinked⟩ := ih (c.advance readdir w t)
    exact ⟨List.Subset.trans (List.subset_append_left _ _) hnext,
      List.Subset.trans (List.subset_append_left _ _) hunlinked⟩

theorem subset_levels (j : ℕ) (w : Sweep) (targets : List Path) :
    w.unlinked ⊆ (c.levels readdir j w targets).unlinked := by
  induction j generalizing w targets with
  | zero => exact List.Subset.refl _
  | succ j ih =>
    rw [levels]
    split_ifs
    · exact List.Subset.trans (subset_sweep readdir w targets).2
        (ih { c.sweep readdir w targets with nextLevel := [] } _)
    · exact (subset_sweep readdir w targets).2

/-- The state in which a sweep comes to one of its targets. -/
theorem exists_visit (readdir : Path → Enumeration Str)
    (h : FileTree.Trimmed tree w.tree w.unlinked) (ht : t ∈ targets) :
    ∃ w' : Sweep, FileTree.Trimmed tree w'.tree w'.unlinked ∧
      w'.unlinked ⊆ (c.sweep readdir w targets).unlinked ∧
      c.pushes readdir w'.tree t ⊆ (c.sweep readdir w targets).nextLevel ∧
      (c.removes w'.tree t).toList ⊆ (c.sweep readdir w targets).unlinked := by
  induction targets generalizing w with
  | nil => cases ht
  | cons u targets ih =>
    rcases List.mem_cons.mp ht with rfl | ht
    · obtain ⟨hnext, hunlinked⟩ := subset_sweep readdir (c.advance readdir w t) targets
      exact ⟨w, h, List.Subset.trans (List.subset_append_left _ _) hunlinked,
        List.Subset.trans (List.subset_append_right _ _) hnext,
        List.Subset.trans (List.subset_append_right _ _) hunlinked⟩
    · exact ih (trimmed_advance h u) ht

/-- A target that leads to a directory passes on what is in it, unless that has been unlinked. -/
theorem mem_nextLevel (readdir : Path → Enumeration Str)
    (h : FileTree.Trimmed tree w.tree w.unlinked) (ht : t ∈ targets)
    (hreached : c.Reached tree t p) (hdir : tree.lookup p = some .dir)
    (hn : n = up ∨ p ++ [n] ∈ tree.entries) (hlisted : c.excluded n = false) :
    t ++ [n] ∈ (c.sweep readdir w targets).nextLevel ∨
      n ≠ up ∧ p ++ [n] ∈ (c.sweep readdir w targets).unlinked := by
  obtain ⟨w', htrimmed, hunlinked, hpushes, -⟩ := exists_visit (c := c) readdir h ht
  have hentry : c.entryOf w'.tree t = some (p, .dir) := entryOf_eq_some.mpr
    ⟨hreached.isDotTarget.2, htrimmed.walk_eq hreached.walk (htrimmed.dir_notMem hdir),
      htrimmed.dir hdir⟩
  have hpush : n ∈ w'.tree.names p → t ++ [n] ∈ (c.sweep readdir w targets).nextLevel := by
    intro hmem
    refine hpushes (mem_pushes.mpr ⟨p, n, hentry, ?_, rfl⟩)
    rw [listing, List.mem_filter, Enumeration.mem_order, hlisted]
    exact ⟨hmem, rfl⟩
  by_cases hup : n = up
  · exact .inl (hpush (by simp [FileTree.names, hup]))
  · have hmem := hn.resolve_left hup
    by_cases hgone : p ++ [n] ∈ w'.unlinked
    · exact .inr ⟨hup, hunlinked hgone⟩
    · refine .inl (hpush ?_)
      rw [FileTree.names, List.mem_cons, List.mem_cons, FileTree.mem_children,
        htrimmed.mem_entries]
      exact .inr (.inr ⟨hmem, hgone⟩)

/-- A target that leads to an old file has it unlinked. -/
theorem mem_unlinked_of_old (h : FileTree.Trimmed tree w.tree w.unlinked) (ht : t ∈ targets)
    (hreached : c.Reached tree t p) (hold : c.IsOld tree p) :
    p ∈ (c.sweep readdir w targets).unlinked := by
  obtain ⟨w', htrimmed, hunlinked, -, hremoves⟩ := exists_visit (c := c) readdir h ht
  by_cases hgone : p ∈ w'.unlinked
  · exact hunlinked hgone
  · obtain ⟨mtime, size, hfile, hplain, hexpired⟩ := hold
    have hentry : c.entryOf w'.tree t = some (p, .leaf (.file mtime size)) := entryOf_eq_some.mpr
      ⟨hreached.isDotTarget.2, htrimmed.walk_eq hreached.walk hgone,
        (htrimmed.lookup_eq hgone).trans hfile⟩
    refine hremoves (Option.mem_toList.mpr ?_)
    rw [removes, hentry]
    simp [hplain, hexpired]

/-- Every directory lists `..` last. -/
def upLast : Path → Enumeration Str := fun _ => .last up

/-- The last target goes up from a directory. -/
def EndsInUp (c : CleanupCall) (tree : FileTree Leaf) (targets : List Path) : Prop :=
  ∀ u, targets.getLast? = some u → ∃ t p, u = t ++ [up] ∧ c.Reached tree t p ∧
    tree.lookup p = some .dir

theorem getLast_pushes (hup : c.excluded up = false) (tree : FileTree Leaf) (t : Path) :
    c.pushes upLast tree t = [] ∨ ∃ p, c.entryOf tree t = some (p, .dir) ∧
      (c.pushes upLast tree t).getLast? = some (t ++ [up]) := by
  unfold pushes
  split
  next p heq =>
    have hmem : up ∈ tree.names p := by simp [FileTree.names]
    obtain ⟨l, hl⟩ : ∃ l, (Enumeration.last up).order (tree.names p) = l ++ [up] :=
      ⟨_, Enumeration.last_order hmem⟩
    have hlisting : c.listing (upLast t) tree p = l.filter (fun f => !c.excluded f) ++ [up] := by
      rw [listing, upLast, hl, List.filter_append]
      simp [hup]
    rw [hlisting, List.map_append]
    exact .inr ⟨p, heq, List.getLast?_concat⟩
  next => exact .inl rfl

theorem endsInUp_sweep (hup : c.excluded up = false) (h : c.AtLevel tree k w targets)
    (hnext : c.EndsInUp tree w.nextLevel) :
    c.EndsInUp tree (c.sweep upLast w targets).nextLevel := by
  induction targets generalizing w with
  | nil => exact hnext
  | cons t targets ih =>
    refine ih (h.advance upLast) ?_
    rw [advance]
    rcases getLast_pushes hup w.tree t with hnil | ⟨p, hentry, hlast⟩
    · rw [hnil, List.append_nil]
      exact hnext
    · intro u hu
      rw [List.getLast?_append, hlast, Option.some_or, Option.some.injEq] at hu
      obtain ⟨hreached, hdir⟩ := (h.tracked t List.mem_cons_self).entryOf h.trimmed hentry
      exact ⟨t, p, hu.symm, hreached, hdir⟩

theorem lastGoesOn_of_endsInUp (hup : c.excluded up = false) (h : c.AtLevel tree k w targets)
    (hne : targets ≠ []) (hends : c.EndsInUp tree targets) :
    c.lastGoesOn readdir w targets = true := by
  obtain ⟨u, hu⟩ : ∃ u, targets.getLast? = some u := ⟨_, List.getLast?_eq_some_getLast hne⟩
  obtain ⟨t, p, rfl, hreached, hdir⟩ := hends u hu
  have hstep : tree.step p up = some p.dropLast := by
    rw [FileTree.step_of_dir hdir, if_neg (by decide), if_pos rfl]
  have hreached' := hreached.next hstep hup
  have hdir' := FileTree.dir_dropLast hdir
  have htrimmed := trimmed_sweep c readdir h.trimmed targets.dropLast
  rw [lastGoesOn, hu, Option.any_some, goesOn, entryOf_eq_some.mpr
    ⟨hreached'.isDotTarget.2, htrimmed.walk_eq hreached'.walk (htrimmed.dir_notMem hdir'),
      htrimmed.dir hdir'⟩]

/-- A target on the way out of the location, at a level after which there is a next one. -/
structure Descent (c : CleanupCall) (tree : FileTree Leaf) (k : ℕ) (w : Sweep)
    (targets : List Path) (t : Path) : Prop where
  atLevel : c.AtLevel tree k w targets
  fresh : w.nextLevel = []
  last : c.lastGoesOn upLast w targets = true
  mem : t ∈ targets

/-- From a directory on the way, each of its entries is on the way, or has been unlinked. -/
theorem Descent.next (h : c.Descent tree k w targets t) (hup : c.excluded up = false)
    (hreached : c.Reached tree t p) (hdir : tree.lookup p = some .dir)
    (hn : n = up ∨ p ++ [n] ∈ tree.entries) (hlisted : c.excluded n = false) (j : ℕ) :
    (∃ w' targets', c.Descent tree (k + 1) w' targets' (t ++ [n]) ∧
      c.levels upLast (j + 1) w targets = c.levels upLast j w' targets') ∨
      n ≠ up ∧ p ++ [n] ∈ (c.levels upLast (j + 1) w targets).unlinked := by
  have hnextLevel := h.atLevel.nextLevel upLast
  have hends : c.EndsInUp tree (c.sweep upLast w targets).nextLevel := by
    refine endsInUp_sweep hup h.atLevel fun u hu => ?_
    rw [h.fresh] at hu
    cases hu
  rw [levels, h.last, Bool.true_and]
  rcases mem_nextLevel upLast h.atLevel.trimmed h.mem hreached hdir hn hlisted with
    hmem | ⟨hne, hmem⟩
  · have hnil : (c.sweep upLast w targets).nextLevel ≠ [] := List.ne_nil_of_mem hmem
    rw [if_pos (decide_eq_true hnil)]
    exact .inl ⟨_, _, ⟨hnextLevel, rfl, lastGoesOn_of_endsInUp hup hnextLevel hnil hends, hmem⟩,
      rfl⟩
  · refine .inr ⟨hne, ?_⟩
    split_ifs
    · exact subset_levels j _ _ hmem
    · exact hmem

theorem sweep_subset_levels (j : ℕ) (w : Sweep) (targets : List Path) :
    (c.sweep readdir w targets).unlinked ⊆ (c.levels readdir (j + 1) w targets).unlinked := by
  rw [levels]
  split_ifs
  · exact subset_levels j { c.sweep readdir w targets with nextLevel := [] } _
  · exact List.Subset.refl _

/-- The way out is taken: `n/../../f` is a target of the fourth level. -/
theorem Escapes.mem_levels (h : c.Escapes tree) : ∃ f, c.location.dropLast ++ [f] ∈
    (c.levels upLast 4 (start tree) (c.topTargets tree)).unlinked := by
  obtain ⟨n, hdirectory, hdot, hlisted⟩ := h.directory
  obtain ⟨f, hold, hfile⟩ := h.file
  obtain ⟨mtime, size, hlookup, -⟩ := id hold
  have hparent := FileTree.dir_dropLast h.accepts.directory
  have hmem := FileTree.mem_entries_iff.mpr ⟨_, hdirectory⟩
  have hfmem := FileTree.mem_entries_iff.mpr ⟨_, hlookup⟩
  have hgoUp : ∀ {p}, tree.lookup p = some .dir → tree.step p up = some p.dropLast := by
    intro p hp
    rw [FileTree.step_of_dir hp, if_neg (by decide), if_pos rfl]
  have hone : c.Reached tree [n] (c.location ++ [n]) := .top hmem hdot hlisted
  have htwo := hone.next (hgoUp hdirectory) h.listsUp
  rw [List.dropLast_concat] at htwo
  have hthree := htwo.next (hgoUp h.accepts.directory) h.listsUp
  have hfour := hthree.next (FileTree.step_child hfmem) hfile
  have htop : [n] ∈ c.topTargets tree := mem_topTargets.mpr
    ⟨n, by simp [FileTree.names, FileTree.mem_children, hmem], hlisted, rfl⟩
  have hstart : c.Descent tree 1 (start tree) (c.topTargets tree) [n] :=
    ⟨atLevel_topTargets, rfl, lastGoesOn_topTargets.trans h.last, htop⟩
  refine ⟨f, ?_⟩
  rcases hstart.next h.listsUp hone hdirectory (.inl rfl) h.listsUp 3 with
    ⟨w₂, T₂, h₂, heq⟩ | ⟨hne, -⟩
  · rw [heq]
    rcases h₂.next h.listsUp htwo h.accepts.directory (.inl rfl) h.listsUp 2 with
      ⟨w₃, T₃, h₃, heq⟩ | ⟨hne, -⟩
    · rw [heq]
      rcases h₃.next h.listsUp hthree hparent (.inr hfmem) hfile 1 with
        ⟨w₄, T₄, h₄, heq⟩ | ⟨-, hmem⟩
      · rw [heq]
        exact sweep_subset_levels 0 w₄ T₄ (mem_unlinked_of_old h₄.atLevel.trimmed h₄.mem hfour hold)
      · exact hmem
    · exact absurd rfl hne
  · exact absurd rfl hne

theorem Escapes.exists_unlinked (h : c.Escapes tree) :
    ∃ readdir rounds, ∃ p ∈ c.unlinks readdir rounds tree, ¬ c.Beneath p := by
  obtain ⟨f, hmem⟩ := h.mem_levels
  obtain ⟨n, hn⟩ := unlinks_eq_levels upLast h.accepts
  refine ⟨upLast, n, _, (hn n le_rfl).symm ▸ hmem, ?_⟩
  rintro ⟨r, hr, heq⟩
  have hlength := congrArg List.length heq
  have hpos := List.length_pos_iff.mpr h.parent
  have hr := List.length_pos_iff.mpr hr
  simp only [List.length_append, List.length_dropLast, List.length_singleton] at hlength
  omega

/-- Every call unlinks only files below its location, unless it lists `..`, the location is not the
root and has a directory, its last target does not jump past the change of levels, and there is an
old file beside it. -/
theorem cleanupLocation_beneath_iff (c : CleanupCall) (tree : FileTree Leaf) :
    (∀ readdir rounds, ∀ p ∈ c.unlinks readdir rounds tree, c.Beneath p) ↔ ¬ c.Escapes tree := by
  constructor
  · intro hbeneath h
    obtain ⟨readdir, rounds, p, hp, hnot⟩ := h.exists_unlinked
    exact hnot (hbeneath readdir rounds p hp)
  · intro h readdir rounds p hp
    by_cases haccepts : c.Accepts tree
    · by_contra hbeneath
      exact h (escapes_of_not_beneath haccepts (unlinks_subset_levels haccepts rounds hp)
        hbeneath)
    · rw [unlinks_of_not_accepts haccepts] at hp
      cases hp

end Escaping

section Top

/-- A location with a directory, and an old file beside it. -/
def topTree : FileTree Leaf :=
  .ofEntries (List.toAList [⟨[], .dir⟩, ⟨["top".toList], .dir⟩,
    ⟨["top".toList, "data".toList], .dir⟩,
    ⟨["top".toList, "data".toList, "sub".toList], .dir⟩,
    ⟨["top".toList, "secret".toList], .leaf (.file 0 100)⟩]) (by decide) (by decide)

/-- Names with `keep` in them are to be left alone. -/
def keepCall : CleanupCall where
  location := ["top".toList, "data".toList]
  targetAge := "7".toList
  patterns := [fun name => "keep".toList <:+: name]
  curTime := 1000000
  readable := true
  writable := true
  opened := true

theorem cleanupLocation_not_beneath : ∃ (c : CleanupCall) (tree : FileTree Leaf)
    (readdir : Path → Enumeration Str) (rounds : ℕ),
    ∃ p ∈ c.unlinks readdir rounds tree, ¬ c.Beneath p := by
  have hescapes : keepCall.Escapes topTree := by
    refine ⟨⟨rfl, rfl, rfl, rfl, rfl⟩, by decide +kernel, by decide, ⟨"sub".toList, rfl, rfl,
      by decide +kernel⟩, by decide +kernel, "secret".toList, ⟨0, 100, rfl, by decide +kernel,
        expired_of_days 7 rfl (by decide)⟩, by decide +kernel⟩
  obtain ⟨readdir, rounds, hunlinked⟩ := hescapes.exists_unlinked
  exact ⟨keepCall, topTree, readdir, rounds, hunlinked⟩

end Top

end CleanupCall

end Tigge
