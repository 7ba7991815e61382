import Tigge.CleanupLevels

/-! Which old files a call with the default pattern unlinks. -/

namespace Tigge
open Lib

namespace CleanupCall
variable (c : CleanupCall) (readdir : Path → Enumeration Str) (tree : FileTree Leaf)

/-- The targets of each level, as the tree has them at the start. -/
def levelTargets : ℕ → List Path
  | 0 => c.topTargets tree
  | k + 1 => (levelTargets k).flatMap (c.pushes readdir tree)

/-- The last target of a level does not jump past the change to the next one. -/
def EndsWell (k : ℕ) : Prop :=
  (c.levelTargets readdir tree k).getLast?.any (c.goesOn tree) = true

variable {c readdir tree}

section Targets

theorem excluded_default (hdefault : c.patterns = []) (name : Str) :
    c.excluded name = startsWithDot name := by
  rw [excluded, hdefault]

theorem mem_listing (hdefault : c.patterns = []) {e : Enumeration Str} {p : Path} {n : Str} :
    n ∈ c.listing e tree p ↔ p ++ [n] ∈ tree.entries ∧ startsWithDot n = false := by
  simp only [listing, List.mem_filter, Enumeration.mem_order, FileTree.names, List.mem_cons,
    FileTree.mem_children, excluded_default hdefault, Bool.not_eq_true']
  constructor
  · rintro ⟨rfl | rfl | h, hdot⟩
    · cases hdot
    · cases hdot
    · exact ⟨h, hdot⟩
  · rintro ⟨h, hdot⟩
    exact ⟨.inr (.inr h), hdot⟩

theorem nodup_pushes (t : Path) : (c.pushes readdir tree t).Nodup := by
  unfold pushes
  split
  · exact (nodup_listing c _ tree _).map fun n m h =>
      (List.cons.inj (List.append_cancel_left h)).1
  · exact List.nodup_nil

theorem nodup_levelTargets (k : ℕ) : (c.levelTargets readdir tree k).Nodup := by
  induction k with
  | zero => exact nodup_topTargets c tree
  | succ k ih =>
    refine List.nodup_flatMap.mpr ⟨fun t _ => nodup_pushes t, ih.imp fun {t t'} hne u hu hu' => ?_⟩
    obtain ⟨p, n, -, -, rfl⟩ := mem_pushes.mp hu
    obtain ⟨p', n', -, -, heq⟩ := mem_pushes.mp hu'
    exact hne (List.append_inj_left' heq rfl)

/-- Without names that start with a dot. -/
def Dotless (t : Path) : Prop := ∀ n ∈ t, startsWithDot n = false

theorem Dotless.named {t : Path} (h : Dotless t) : ∀ n ∈ t, n ≠ here ∧ n ≠ up := by
  intro n hn
  have hdot := h n hn
  constructor
  · rintro rfl
    cases hdot
  · rintro rfl
    cases hdot

theorem Dotless.isDotTarget {t : Path} (h : Dotless t) : isDotTarget t = false := by
  cases t with
  | nil => rfl
  | cons n t => exact h n List.mem_cons_self

/-- Below the location, the entry of a path without dots is that of its target. -/
theorem entryOf_dotless {t p : Path} {e : Node Leaf} (h : Dotless t) :
    c.entryOf tree t = some (p, e) ↔ p = c.location ++ t ∧ tree.lookup p = some e := by
  rw [entryOf_eq_some]
  constructor
  · rintro ⟨-, hwalk, he⟩
    exact ⟨FileTree.walk_eq_append h.named hwalk, he⟩
  · rintro ⟨rfl, he⟩
    exact ⟨h.isDotTarget, FileTree.walk_of_mem (FileTree.mem_entries_iff.mpr ⟨e, he⟩), he⟩

theorem dotless_concat {t : Path} {n : Str} :
    Dotless (t ++ [n]) ↔ Dotless t ∧ startsWithDot n = false := by
  simp [Dotless, or_imp, forall_and]

/-- The targets of a level are the entries of its depth. -/
theorem mem_levelTargets (hdefault : c.patterns = []) {k : ℕ} {t : Path} :
    t ∈ c.levelTargets readdir tree k ↔
      t.length = k + 1 ∧ Dotless t ∧ c.location ++ t ∈ tree.entries := by
  induction k generalizing t with
  | zero =>
    simp only [levelTargets, topTargets, List.mem_map, List.mem_insertionSort,
      mem_listing hdefault, Nat.zero_add, List.length_eq_one_iff]
    constructor
    · rintro ⟨n, ⟨hn, hdot⟩, rfl⟩
      exact ⟨⟨n, rfl⟩, by simpa [Dotless] using hdot, hn⟩
    · rintro ⟨⟨n, rfl⟩, hdot, hn⟩
      exact ⟨n, ⟨hn, hdot n List.mem_cons_self⟩, rfl⟩
  | succ k ih =>
    simp only [levelTargets, List.mem_flatMap, mem_pushes, mem_listing hdefault]
    constructor
    · rintro ⟨u, hu, p, n, hentry, ⟨hn, hdot⟩, rfl⟩
      obtain ⟨hlength, hdotless, -⟩ := ih.mp hu
      obtain ⟨rfl, -⟩ := (entryOf_dotless hdotless).mp hentry
      rw [List.append_assoc] at hn
      exact ⟨by simp [hlength], dotless_concat.mpr ⟨hdotless, hdot⟩, hn⟩
    · rintro ⟨hlength, hdotless, hmem⟩
      rcases List.eq_nil_or_concat t with rfl | ⟨u, n, rfl⟩
      · simp at hlength
      · rw [List.concat_eq_append] at hlength hdotless hmem ⊢
        obtain ⟨hu, hdot⟩ := dotless_concat.mp hdotless
        rw [← List.append_assoc] at hmem
        have hdir := tree.parent _ _ hmem
        refine ⟨u, ih.mpr ⟨by simpa using hlength, hu, FileTree.mem_entries_iff.mpr ⟨_, hdir⟩⟩, _,
          n, (entryOf_dotless hu).mpr ⟨rfl, hdir⟩, ⟨hmem, hdot⟩, rfl⟩

theorem level_levelTargets (readdir : Path → Enumeration Str) (tree : FileTree Leaf)
    (hdefault : c.patterns = []) {k : ℕ} {w : Sweep}
    (h : ∀ p ∈ w.unlinked, p.length ≤ c.location.length + k) :
    c.Level w (k + 1) (c.levelTargets readdir tree k) where
  nodup := nodup_levelTargets k
  length t ht := ((mem_levelTargets hdefault).mp ht).1
  untouched t ht := by
    obtain ⟨hlength, hdotless, -⟩ := (mem_levelTargets hdefault).mp ht
    refine .inr ⟨hdotless.named, fun hp => ?_, fun n hp => ?_⟩
    · have hle := h _ hp
      rw [List.length_append] at hle
      omega
    · have hle := h _ hp
      rw [List.length_append, List.length_append] at hle
      omega

theorem levelTargets_ne_nil {k m : ℕ} (h : k ≤ m) (hm : c.levelTargets readdir tree m ≠ []) :
    c.levelTargets readdir tree k ≠ [] := by
  induction m, h using Nat.le_induction with
  | base => exact hm
  | succ m _ ih =>
    refine ih fun hnil => hm ?_
    rw [levelTargets, hnil]
    rfl

end Targets

section Levels

/-- What is reached from a level on is there, or is reached from the next one if that is gone to. -/
theorem exists_level_succ {E Q : ℕ → Prop} {j k : ℕ} :
    (∃ m, k ≤ m ∧ m < k + (j + 1) ∧ (∀ i, k ≤ i → i < m → E i) ∧ Q m) ↔
      Q k ∨ E k ∧ ∃ m, k + 1 ≤ m ∧ m < k + 1 + j ∧ (∀ i, k + 1 ≤ i → i < m → E i) ∧ Q m := by
  constructor
  · rintro ⟨m, hk, hm, hends, hq⟩
    rcases hk.eq_or_lt with rfl | hlt
    · exact .inl hq
    · exact .inr ⟨hends k le_rfl hlt, m, hlt, by omega, fun i hi => hends i (by omega), hq⟩
  · rintro (hq | ⟨hk, m, hlt, hm, hends, hq⟩)
    · exact ⟨k, le_rfl, by omega, fun i h h' => absurd h (by omega), hq⟩
    · refine ⟨m, by omega, by omega, fun i hi hi' => ?_, hq⟩
      rcases hi.eq_or_lt with rfl | hlt
      · exact hk
      · exact hends i hlt hi'

/-- The levels from one on unlink the old files of every level that is reached. -/
theorem mem_levels (hdefault : c.patterns = []) {j k : ℕ} {w : Sweep}
    (htrimmed : FileTree.Trimmed tree w.tree w.unlinked) (hnext : w.nextLevel = [])
    (hdepth : ∀ p ∈ w.unlinked, p.length ≤ c.location.length + k) {p : Path} :
    p ∈ (c.levels readdir j w (c.levelTargets readdir tree k)).unlinked ↔
      p ∈ w.unlinked ∨ ∃ m, k ≤ m ∧ m < k + j ∧ (∀ i, k ≤ i → i < m → c.EndsWell readdir tree i) ∧
        ∃ t ∈ c.levelTargets readdir tree m, c.removes tree t = some p := by
  induction j generalizing k w with
  | zero =>
    simp only [levels, Nat.add_zero]
    refine ⟨.inl, ?_⟩
    rintro (h | ⟨m, hk, hm, -⟩)
    · exact h
    · omega
  | succ j ih =>
    have hlevel := level_levelTargets readdir tree hdefault hdepth
    obtain ⟨hnext', hunlinked⟩ := hlevel.sweep readdir htrimmed
    have hlast := hlevel.lastGoesOn readdir htrimmed
    have htrimmed' := trimmed_sweep c readdir htrimmed (c.levelTargets readdir tree k)
    rw [hnext, List.nil_append] at hnext'
    have hswept : p ∈ (c.sweep readdir w (c.levelTargets readdir tree k)).unlinked ↔
        p ∈ w.unlinked ∨ ∃ t ∈ c.levelTargets readdir tree k, c.removes tree t = some p := by
      rw [hunlinked, List.mem_append, List.mem_filterMap]
    have hdepth' : ∀ q ∈ (c.sweep readdir w (c.levelTargets readdir tree k)).unlinked,
        q.length ≤ c.location.length + (k + 1) := by
      intro q hq
      rw [hunlinked, List.mem_append, List.mem_filterMap] at hq
      rcases hq with hq | ⟨t, ht, hq⟩
      · exact (hdepth q hq).trans (Nat.le_succ _)
      · rw [removes_eq_append hq (hlevel.untouched t ht), List.length_append, hlevel.length t ht]
    have hcondition : (c.lastGoesOn readdir w (c.levelTargets readdir tree k) &&
        (c.sweep readdir w (c.levelTargets readdir tree k)).nextLevel ≠ []) = true ↔
        c.EndsWell readdir tree k ∧ c.levelTargets readdir tree (k + 1) ≠ [] := by
      rw [hlast, hnext', Bool.and_eq_true, decide_eq_true_eq]
      rfl
    rw [levels, exists_level_succ]
    generalize c.sweep readdir w (c.levelTargets readdir tree k) = w' at *
    by_cases hgoes : c.EndsWell readdir tree k ∧ c.levelTargets readdir tree (k + 1) ≠ []
    · rw [if_pos (hcondition.mpr hgoes), hnext', and_iff_right hgoes.1, ← or_assoc, ← hswept]
      exact ih (w := { w' with nextLevel := [] }) htrimmed' rfl hdepth'
    · rw [if_neg fun h => hgoes (hcondition.mp h), hswept, or_iff_left (b := _ ∧ _)]
      rintro ⟨hends, m, hlt, -, -, t, ht, -⟩
      exact hgoes ⟨hends, levelTargets_ne_nil hlt (List.ne_nil_of_mem ht)⟩

end Levels

/-- A regular file at most four levels deep, old enough and without a name that starts with a
dot on the way. -/
structure OldFile (c : CleanupCall) (tree : FileTree Leaf) (r : Path) (mtime : ℤ) : Prop where
  depth : r.length ≤ 4
  dotless : Dotless r
  file : ∃ size, tree.lookup (c.location ++ r) = some (.leaf (.file mtime size))
  expired : c.expired mtime = true

/-- What it takes for an old file to be unlinked. -/
structure Found (c : CleanupCall) (readdir : Path → Enumeration Str) (tree : FileTree Leaf)
    (r : Path) (mtime : ℤ) : Prop where
  plain : c.isPlainAge mtime = true
  reached : ∀ k, k + 1 < r.length → c.EndsWell readdir tree k

theorem OldFile.mem_levels_iff (hdefault : c.patterns = []) (haccepts : c.Accepts tree)
    {r : Path} {mtime : ℤ} (h : c.OldFile tree r mtime) :
    c.location ++ r ∈ (c.levels readdir 4 (start tree) (c.topTargets tree)).unlinked ↔
      c.Found readdir tree r mtime := by
  obtain ⟨size, hfile⟩ := h.file
  refine (mem_levels (j := 4) (k := 0) (w := start tree) hdefault (FileTree.Trimmed.refl tree) rfl
    nofun).trans ⟨?_, fun hfound => .inr ?_⟩
  · rintro (hnone | ⟨m, -, hm, hends, t, ht, hremoves⟩)
    · cases hnone
    · obtain ⟨hlength, hdotless, -⟩ := (mem_levelTargets hdefault).mp ht
      obtain ⟨-, hwalk, mtime', size', hfile', hplain, -⟩ := removes_eq_some hremoves
      have hr := List.append_cancel_left (FileTree.walk_eq_append hdotless.named hwalk)
      rw [hfile, Option.some.injEq, Node.leaf.injEq, Leaf.file.injEq] at hfile'
      refine ⟨hfile'.1 ▸ hplain, fun k hk => hends k k.zero_le ?_⟩
      rw [hr] at hk
      omega
  · have hpos : r.length ≠ 0 := by
      intro hzero
      rw [List.length_eq_zero_iff.mp hzero, List.append_nil, haccepts.directory] at hfile
      cases hfile
    refine ⟨r.length - 1, Nat.zero_le _, by have := h.depth; omega, fun i _ hi =>
      hfound.reached i (by omega), r, (mem_levelTargets hdefault).mpr ⟨by omega, h.dotless,
        FileTree.mem_entries_iff.mpr ⟨_, hfile⟩⟩, ?_⟩
    rw [removes, (entryOf_dotless h.dotless).mpr ⟨rfl, hfile⟩]
    simp [hfound.plain, h.expired]

/-- With time enough, a call unlinks all old files exactly when the text of the age of each is
plain, and no level above it ends with a target that jumps past the change of levels. -/
theorem cleanupLocation_complete_iff (c : CleanupCall) (readdir : Path → Enumeration Str)
    (tree : FileTree Leaf) (hdefault : c.patterns = []) (haccepts : c.Accepts tree) :
    ∃ n, ∀ rounds ≥ n, (∀ r mtime, c.OldFile tree r mtime →
      c.location ++ r ∈ c.unlinks readdir rounds tree) ↔
        ∀ r mtime, c.OldFile tree r mtime → c.Found readdir tree r mtime := by
  obtain ⟨n, hn⟩ := unlinks_eq_levels readdir haccepts
  refine ⟨n, fun rounds hrounds => ?_⟩
  rw [hn rounds hrounds]
  exact forall_congr' fun r => forall_congr' fun mtime => forall_congr' fun h =>
    h.mem_levels_iff hdefault haccepts

section Data

/-- A directory with a file in a subdirectory, and a file that comes after it. -/
def dataTree : FileTree Leaf :=
  .ofEntries (List.toAList [⟨[], .dir⟩, ⟨["data".toList], .dir⟩,
    ⟨["data".toList, "a".toList], .dir⟩,
    ⟨["data".toList, "a".toList, "old".toList], .leaf (.file 0 100)⟩,
    ⟨["data".toList, "z".toList], .leaf (.file 1000001 100)⟩]) (by decide) (by decide)

def dataCall (curTime : ℤ) : CleanupCall where
  location := ["data".toList]
  targetAge := "7".toList
  patterns := []
  curTime := curTime
  readable := true
  writable := true
  opened := true

theorem accepts_dataCall (curTime : ℤ) : (dataCall curTime).Accepts dataTree :=
  ⟨rfl, rfl, rfl, rfl, rfl⟩

theorem oldFile_dataCall {curTime : ℤ} (h : 7 * 86400 ≤ curTime) :
    (dataCall curTime).OldFile dataTree ["a".toList, "old".toList] 0 where
  depth := by decide
  dotless := by unfold Dotless; decide
  file := ⟨100, rfl⟩
  expired := expired_of_days 7 rfl (by simpa [dataCall] using h)

theorem found_dataCall {r : Path} {mtime : ℤ}
    (h : (dataCall 2000000).OldFile dataTree r mtime) :
    (dataCall 2000000).Found (fun _ => .asListed) dataTree r mtime := by
  obtain ⟨size, hfile⟩ := h.file
  have hkey : "data".toList :: r ∈ dataTree.entries.keys :=
    AList.mem_keys.mp (FileTree.mem_entries_iff.mpr ⟨_, hfile⟩)
  have hkeys : dataTree.entries.keys = [[], ["data".toList], ["data".toList, "a".toList],
      ["data".toList, "a".toList, "old".toList], ["data".toList, "z".toList]] := rfl
  rw [hkeys] at hkey
  simp only [List.mem_cons, List.not_mem_nil, or_false, reduceCtorEq, false_or, List.cons.injEq,
    true_and] at hkey
  rcases hkey with rfl | rfl | rfl | rfl
  · cases hfile
  · cases hfile
  · cases hfile
    refine ⟨by decide +kernel, fun k hk => ?_⟩
    have hzero : k = 0 := by
      simp only [List.length_cons, List.length_nil] at hk
      omega
    rw [hzero, EndsWell]
    decide +kernel
  · cases hfile
    refine ⟨by decide +kernel, fun k hk => ?_⟩
    simp at hk

/-- Once all files are older than the call, the subdirectory is reached. -/
theorem unlinks_dataTree : ∃ n, ∀ rounds ≥ n, ["data".toList, "a".toList, "old".toList] ∈
    (dataCall 2000000).unlinks (fun _ => .asListed) rounds dataTree := by
  obtain ⟨n, hn⟩ := cleanupLocation_complete_iff (dataCall 2000000) (fun _ => .asListed) dataTree
    rfl (accepts_dataCall _)
  exact ⟨n, fun rounds hrounds => (hn rounds hrounds).mpr (fun _ _ => found_dataCall) _ 0
    (oldFile_dataCall (by decide))⟩

/-- A file that was modified during the call hides the subdirectory. -/
theorem cleanupLocation_incomplete : ∃ (c : CleanupCall) (readdir : Path → Enumeration Str)
    (tree : FileTree Leaf) (r : Path) (mtime : ℤ), c.patterns = [] ∧
    c.Accepts tree ∧ c.OldFile tree r mtime ∧
      ∀ rounds, c.location ++ r ∉ c.unlinks readdir rounds tree := by
  have hold : (dataCall 1000000).OldFile dataTree ["a".toList, "old".toList] 0 :=
    oldFile_dataCall (by decide)
  refine ⟨dataCall 1000000, fun _ => .asListed, dataTree, _, 0, rfl, accepts_dataCall _, hold,
    fun rounds hmem => ?_⟩
  have hfound := (hold.mem_levels_iff rfl (accepts_dataCall _)).mp
    (unlinks_subset_levels (accepts_dataCall _) rounds hmem)
  have hends := hfound.reached 0 (by decide)
  revert hends
  unfold EndsWell
  decide +kernel

end Data

end CleanupCall

end Tigge
