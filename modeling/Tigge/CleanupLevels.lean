import Tigge.Cleanup

/-! The loop of `cleanupLocation` as four sweeps, each over the targets that the one before it has
listed, and what a sweep does to a tree in which nothing it looks at has been unlinked. -/

namespace Tigge
open Lib

namespace CleanupCall
variable (c : CleanupCall) (readdir : Path → Enumeration Str)

section Targets
variable (tree : FileTree Leaf) (target : Path)

/-- The entry that a target leads to, unless it starts with a dot. -/
def entryOf : Option (Path × Node Leaf) :=
  if isDotTarget target then none
  else (tree.walk c.location target).bind fun p => (tree.lookup p).map fun e => (p, e)

/-- The bottom of the loop is reached. -/
def goesOn : Bool :=
  match c.entryOf tree target with
  | some (_, .dir) => true
  | some (_, .leaf (.file mtime _)) => c.isPlainAge mtime
  | _ => false

/-- What is pushed to `@nextLevel`. -/
def pushes : List Path :=
  match c.entryOf tree target with
  | some (p, .dir) => (c.listing (readdir target) tree p).map fun f => target ++ [f]
  | _ => []

/-- The file that is unlinked. -/
def removes : Option Path :=
  match c.entryOf tree target with
  | some (p, .leaf (.file mtime _)) =>
    if c.isPlainAge mtime && c.expired mtime then some p else none
  | _ => none

end Targets

/-- One target after which the loop goes on in any case. -/
def advance (w : Sweep) (target : Path) : Sweep where
  tree := (c.removes w.tree target).elim w.tree w.tree.unlink
  nextLevel := w.nextLevel ++ c.pushes readdir w.tree target
  unlinked := w.unlinked ++ (c.removes w.tree target).toList

def sweep (w : Sweep) (targets : List Path) : Sweep := targets.foldl (c.advance readdir) w

def lastGoesOn (w : Sweep) (targets : List Path) : Bool :=
  targets.getLast?.any fun target => c.goesOn (c.sweep readdir w targets.dropLast).tree target

/-- As many levels as there are. -/
def levels : ℕ → Sweep → List Path → Sweep
  | 0, w, _ => w
  | k + 1, w, targets =>
    let w' := c.sweep readdir w targets
    if c.lastGoesOn readdir w targets && w'.nextLevel ≠ [] then
      levels k { w' with nextLevel := [] } w'.nextLevel
    else w'

variable {c readdir} {w : Sweep} {target : Path} {targets : List Path} {i : ℕ}

theorem entryOf_eq_some {tree : FileTree Leaf} {p : Path} {e : Node Leaf} :
    c.entryOf tree target = some (p, e) ↔ isDotTarget target = false ∧
      tree.walk c.location target = some p ∧ tree.lookup p = some e := by
  unfold entryOf
  by_cases hdot : isDotTarget target = true
  · simp [hdot]
  · rw [if_neg hdot, Option.bind_eq_some_iff]
    simp only [Option.map_eq_some_iff, Prod.mk.injEq]
    constructor
    · rintro ⟨q, hq, e', he, rfl, rfl⟩
      exact ⟨Bool.not_eq_true _ ▸ hdot, hq, he⟩
    · rintro ⟨-, hp, he⟩
      exact ⟨p, hp, e, he, rfl, rfl⟩

theorem mem_pushes {tree : FileTree Leaf} {t u : Path} : u ∈ c.pushes readdir tree t ↔ ∃ p n,
    c.entryOf tree t = some (p, .dir) ∧ n ∈ c.listing (readdir t) tree p ∧ u = t ++ [n] := by
  unfold pushes
  split
  next p heq =>
    rw [List.mem_map]
    constructor
    · rintro ⟨n, hn, rfl⟩
      exact ⟨p, n, heq, hn, rfl⟩
    · rintro ⟨q, n, hq, hn, rfl⟩
      rw [heq, Option.some.injEq, Prod.mk.injEq] at hq
      exact ⟨n, hq.1 ▸ hn, rfl⟩
  next hdir =>
    refine iff_of_false List.not_mem_nil ?_
    rintro ⟨p, n, hp, -⟩
    exact hdir p hp

theorem nodup_listing (c : CleanupCall) (e : Enumeration Str) (tree : FileTree Leaf) (p : Path) :
    (c.listing e tree p).Nodup :=
  ((e.perm _).nodup_iff.mpr (tree.nodup_names p)).filter _

theorem nodup_topTargets (c : CleanupCall) (tree : FileTree Leaf) :
    (c.topTargets tree).Nodup := by
  refine List.Nodup.map (fun n m h => (List.cons.inj h).1) ?_
  exact (List.perm_insertionSort _ _).nodup_iff.mpr (nodup_listing c .asListed tree c.location)

section Loop

theorem visit_eq : c.visit readdir w target =
    if c.goesOn w.tree target then some (c.advance readdir w target) else none := by
  unfold visit goesOn advance pushes removes entryOf
  by_cases hdot : isDotTarget target = true
  · simp [hdot]
  rw [if_neg hdot, if_neg hdot]
  cases hwalk : w.tree.walk c.location target with
  | none => simp
  | some p =>
    cases hlookup : w.tree.lookup p with
    | none => simp [hlookup]
    | some e =>
      cases e with
      | dir => simp [hlookup]
      | leaf a =>
        cases a with
        | deadLink => simp [hlookup]
        | file mtime size =>
          simp only [Option.bind_some, hlookup, Option.map_some]
          cases c.isPlainAge mtime <;> cases c.expired mtime <;> simp

theorem nothing_of_not_goesOn (readdir : Path → Enumeration Str) {tree : FileTree Leaf}
    (h : c.goesOn tree target = false) :
    c.pushes readdir tree target = [] ∧ c.removes tree target = none := by
  unfold goesOn at h
  unfold pushes removes
  split at h
  · cases h
  next heq => simp [heq, h]
  next hdir hfile =>
    split
    next heq => exact absurd heq (hdir _)
    next =>
      split
      next heq => exact absurd heq (hfile _ _ _)
      next => exact ⟨rfl, rfl⟩

theorem advance_of_not_goesOn (h : c.goesOn w.tree target = false) :
    c.advance readdir w target = w := by
  obtain ⟨hpushes, hremoves⟩ := nothing_of_not_goesOn readdir h
  simp [advance, hpushes, hremoves]

theorem cleanRound_cons : c.cleanRound readdir ⟨w, target :: targets, i⟩ =
    if c.goesOn w.tree target then toNextLevel ⟨c.advance readdir w target, targets, i⟩
    else ⟨c.advance readdir w target, targets, i⟩ := by
  simp only [cleanRound, visit_eq]
  by_cases h : c.goesOn w.tree target = true
  · rw [if_pos h, if_pos h]
  · rw [if_neg h, if_neg h, advance_of_not_goesOn (Bool.not_eq_true _ ▸ h)]

theorem toNextLevel_cons : toNextLevel ⟨w, target :: targets, i⟩ = ⟨w, target :: targets, i⟩ :=
  if_neg fun h => List.cons_ne_nil _ _ h.1

theorem lastGoesOn_cons {u : Path} : c.lastGoesOn readdir w (target :: u :: targets) =
    c.lastGoesOn readdir (c.advance readdir w target) (u :: targets) := by
  rw [lastGoesOn, lastGoesOn, List.getLast?_cons_cons, List.dropLast_cons_cons]
  rfl

/-- The rounds of one level. -/
theorem cleanLoop_level (hi : i < 5) (h : targets ≠ []) (rounds : ℕ) :
    c.cleanLoop readdir (targets.length + rounds) ⟨w, targets, i⟩ =
      c.cleanLoop readdir rounds
        (if c.lastGoesOn readdir w targets then toNextLevel ⟨c.sweep readdir w targets, [], i⟩
        else ⟨c.sweep readdir w targets, [], i⟩) := by
  induction targets generalizing w with
  | nil => exact absurd rfl h
  | cons t ts ih =>
    have hround : c.cleanLoop readdir (ts.length + rounds + 1) ⟨w, t :: ts, i⟩ =
        c.cleanLoop readdir (ts.length + rounds) (c.cleanRound readdir ⟨w, t :: ts, i⟩) :=
      if_pos ⟨List.cons_ne_nil t ts, hi⟩
    rw [List.length_cons, Nat.add_right_comm, hround, cleanRound_cons]
    cases ts with
    | nil =>
      rw [List.length_nil, Nat.zero_add]
      rfl
    | cons u us =>
      rw [toNextLevel_cons, ite_self, ih (List.cons_ne_nil u us), lastGoesOn_cons]
      rfl

/-- With enough rounds the loop gets through all levels. -/
theorem cleanLoop_levels (c : CleanupCall) (readdir : Path → Enumeration Str) {k : ℕ}
    (hk : i + k = 5) (w : Sweep) (targets : List Path) : ∃ n, ∀ rounds ≥ n,
      (c.cleanLoop readdir rounds ⟨w, targets, i⟩).toSweep = c.levels readdir k w targets := by
  have hstop : ∀ (rounds : ℕ) (s : Cleanup), s.targets = [] ∨ s.iterationBreaker = 5 →
      c.cleanLoop readdir rounds s = s := by
    intro rounds s hs
    cases rounds with
    | zero => rfl
    | succ rounds =>
      refine if_neg fun h => ?_
      rcases hs with hs | hs
      · exact h.1 hs
      · omega
  induction k generalizing i w targets with
  | zero => exact ⟨0, fun rounds _ => by rw [hstop rounds _ (.inr (by simpa using hk))]; rfl⟩
  | succ k ih =>
    by_cases htargets : targets = []
    · subst htargets
      exact ⟨0, fun rounds _ => by rw [hstop rounds _ (.inl rfl)]; rfl⟩
    · obtain ⟨n, hn⟩ := ih (i := i + 1) (by omega)
        { c.sweep readdir w targets with nextLevel := [] } (c.sweep readdir w targets).nextLevel
      refine ⟨targets.length + n, fun rounds hrounds => ?_⟩
      obtain ⟨r, rfl⟩ := Nat.exists_eq_add_of_le ((Nat.le_add_right _ _).trans hrounds)
      rw [cleanLoop_level (by omega) htargets]
      unfold levels
      dsimp only
      by_cases hlast : c.lastGoesOn readdir w targets = true
      · rw [if_pos hlast, hlast, Bool.true_and]
        by_cases hnext : (c.sweep readdir w targets).nextLevel = []
        · rw [toNextLevel, if_neg fun h => h.2 hnext, hstop r _ (.inl rfl),
            if_neg (by simp [hnext])]
        · rw [toNextLevel, if_pos ⟨rfl, hnext⟩, if_pos (by simp [hnext])]
          exact hn r (by omega)
      · rw [if_neg hlast, hstop r _ (.inl rfl), if_neg (by simp [hlast])]

theorem cleanLoop_add (m n : ℕ) (s : Cleanup) : c.cleanLoop readdir (m + n) s =
    c.cleanLoop readdir n (c.cleanLoop readdir m s) := by
  induction m generalizing s with
  | zero => rw [Nat.zero_add]; rfl
  | succ m ih =>
    rw [Nat.succ_add, cleanLoop, cleanLoop]
    split_ifs with h
    · exact ih _
    · cases n with
      | zero => rfl
      | succ n => rw [cleanLoop, if_neg h]

theorem subset_cleanRound (s : Cleanup) : s.unlinked ⊆ (c.cleanRound readdir s).unlinked := by
  obtain ⟨w, targets, i⟩ := s
  cases targets with
  | nil => exact List.Subset.refl _
  | cons target targets =>
    have hadvance : w.unlinked ⊆ (c.advance readdir w target).unlinked :=
      List.subset_append_left _ _
    rw [cleanRound_cons]
    split_ifs
    · rw [toNextLevel]
      split_ifs <;> exact hadvance
    · exact hadvance

theorem subset_cleanLoop (rounds : ℕ) (s : Cleanup) :
    s.unlinked ⊆ (c.cleanLoop readdir rounds s).unlinked := by
  induction rounds generalizing s with
  | zero => exact List.Subset.refl _
  | succ rounds ih =>
    rw [cleanLoop]
    split_ifs
    · exact List.Subset.trans (subset_cleanRound s) (ih _)
    · exact List.Subset.refl _

end Loop

section Calls
variable {tree : FileTree Leaf}

/-- The tests that a call makes on its arguments. -/
structure Accepts (c : CleanupCall) (tree : FileTree Leaf) : Prop where
  numeric : isPlain c.targetAge = true
  directory : tree.lookup c.location = some .dir
  readable : c.readable = true
  writable : c.writable = true
  opened : c.opened = true

def start (tree : FileTree Leaf) : Sweep := ⟨tree, [], []⟩

theorem unlinks_of_not_accepts (h : ¬ c.Accepts tree) (rounds : ℕ) :
    c.unlinks readdir rounds tree = [] := by
  unfold unlinks cleanupLocation
  split_ifs with h1 h2 h3 h4 h5 h6
  · rfl
  · rfl
  · rfl
  · rfl
  · rfl
  · rfl
  · simp only [Bool.not_eq_true', Bool.not_eq_false, not_not] at h1 h2 h3 h4 h5
    exact absurd ⟨h1, h2, h3, h4, h5⟩ h

theorem unlinks_of_accepts (h : c.Accepts tree) (rounds : ℕ) : c.unlinks readdir rounds tree =
    (c.cleanLoop readdir rounds ⟨start tree, c.topTargets tree, 1⟩).unlinked := by
  obtain ⟨h1, h2, h3, h4, h5⟩ := h
  simp only [unlinks, cleanupLocation, h1, h2, h3, h4, h5, Bool.not_true, Bool.false_eq_true,
    if_false, ne_eq, not_true_eq_false]
  by_cases htop : c.topTargets tree = []
  · rw [if_pos htop, htop]
    cases rounds <;> rfl
  · rw [if_neg htop]
    rfl

/-- What a call has unlinked after any number of rounds, four sweeps unlink as well. -/
theorem unlinks_subset_levels (h : c.Accepts tree) (rounds : ℕ) :
    c.unlinks readdir rounds tree ⊆
      (c.levels readdir 4 (start tree) (c.topTargets tree)).unlinked := by
  obtain ⟨n, hn⟩ := cleanLoop_levels c readdir (show 1 + 4 = 5 from rfl) (start tree)
    (c.topTargets tree)
  rw [unlinks_of_accepts h, ← hn (rounds + n) (Nat.le_add_left n rounds), cleanLoop_add]
  exact subset_cleanLoop n _

theorem unlinks_eq_levels (readdir : Path → Enumeration Str) (h : c.Accepts tree) :
    ∃ n, ∀ rounds ≥ n, c.unlinks readdir rounds tree =
      (c.levels readdir 4 (start tree) (c.topTargets tree)).unlinked := by
  obtain ⟨n, hn⟩ := cleanLoop_levels c readdir (show 1 + 4 = 5 from rfl) (start tree)
    (c.topTargets tree)
  exact ⟨n, fun rounds hrounds => by rw [unlinks_of_accepts h, hn rounds hrounds]⟩

end Calls

section Trimming
variable {tree : FileTree Leaf}

theorem removes_eq_some {p : Path} (h : c.removes tree target = some p) :
    isDotTarget target = false ∧ tree.walk c.location target = some p ∧
      ∃ mtime size, tree.lookup p = some (.leaf (.file mtime size)) ∧
        c.isPlainAge mtime = true ∧ c.expired mtime = true := by
  unfold removes at h
  split at h
  next q mtime size hentry =>
    obtain ⟨hage, hq⟩ := Option.ite_none_right_eq_some.mp h
    obtain ⟨hdot, hwalk, hfile⟩ := entryOf_eq_some.mp hentry
    rw [Option.some.inj hq] at hwalk hfile
    obtain ⟨hplain, hexpired⟩ := Bool.and_eq_true_iff.mp hage
    exact ⟨hdot, hwalk, mtime, size, hfile, hplain, hexpired⟩
  next => cases h

/-- Sweeping keeps the tree a trimmed one. -/
theorem trimmed_advance (h : FileTree.Trimmed tree w.tree w.unlinked) (target : Path) :
    FileTree.Trimmed tree (c.advance readdir w target).tree
      (c.advance readdir w target).unlinked := by
  unfold advance
  cases hremoves : c.removes w.tree target with
  | none => simpa using h
  | some p =>
    obtain ⟨-, -, mtime, size, hfile, -⟩ := removes_eq_some hremoves
    exact h.unlink hfile

theorem trimmed_sweep (c : CleanupCall) (readdir : Path → Enumeration Str)
    (h : FileTree.Trimmed tree w.tree w.unlinked) (targets : List Path) :
    FileTree.Trimmed tree (c.sweep readdir w targets).tree
      (c.sweep readdir w targets).unlinked := by
  induction targets generalizing w with
  | nil => exact h
  | cons target targets ih => exact ih (trimmed_advance h target)

end Trimming

section Untouched
variable {tree : FileTree Leaf}

/-- A target without `.` and `..`, such that neither it nor anything it lists has been unlinked. -/
structure Untouched (c : CleanupCall) (w : Sweep) (target : Path) : Prop where
  named : ∀ n ∈ target, n ≠ here ∧ n ≠ up
  kept : c.location ++ target ∉ w.unlinked
  listed : ∀ n, c.location ++ target ++ [n] ∉ w.unlinked

theorem Untouched.entryOf_eq (hu : c.Untouched w target)
    (h : FileTree.Trimmed tree w.tree w.unlinked) :
    c.entryOf w.tree target = c.entryOf tree target := by
  refine Option.ext fun ⟨p, e⟩ => ?_
  rw [entryOf_eq_some, entryOf_eq_some]
  constructor
  · rintro ⟨hdot, hwalk, he⟩
    exact ⟨hdot, h.walk_of_walk hwalk, h.lookup_of_lookup he⟩
  · rintro ⟨hdot, hwalk, he⟩
    have hp := FileTree.walk_eq_append hu.named hwalk
    have hkept : p ∉ w.unlinked := hp ▸ hu.kept
    exact ⟨hdot, h.walk_eq hwalk hkept, (h.lookup_eq hkept).trans he⟩

/-- What a target does, it does as in the tree at the start. -/
structure AsAtStart (c : CleanupCall) (readdir : Path → Enumeration Str) (tree : FileTree Leaf)
    (w : Sweep) (target : Path) : Prop where
  goesOn : c.goesOn w.tree target = c.goesOn tree target
  pushes : c.pushes readdir w.tree target = c.pushes readdir tree target
  removes : c.removes w.tree target = c.removes tree target

theorem Untouched.asAtStart (hu : c.Untouched w target)
    (h : FileTree.Trimmed tree w.tree w.unlinked) : c.AsAtStart readdir tree w target := by
  have hentry := hu.entryOf_eq h
  refine ⟨by rw [CleanupCall.goesOn, hentry]; rfl, ?_, by rw [CleanupCall.removes, hentry]; rfl⟩
  unfold CleanupCall.pushes
  rw [hentry]
  split
  next p heq =>
    have hp := FileTree.walk_eq_append hu.named (entryOf_eq_some.mp heq).2.1
    have hchildren : w.tree.children p = tree.children p := by
      rw [hp]
      exact h.children_eq hu.listed
    rw [listing, listing, FileTree.names, FileTree.names, hchildren]
  next => rfl

theorem asAtStart_of_dot (h : isDotTarget target = true) :
    c.AsAtStart readdir tree w target := by
  have hnone : ∀ t : FileTree Leaf, c.entryOf t target = none := fun t => if_pos h
  constructor
  · rw [goesOn, goesOn, hnone, hnone]
  · rw [pushes, pushes, hnone, hnone]
  · rw [removes, removes, hnone, hnone]

/-- Targets of one length of which nothing has been unlinked, but for those that are skipped. -/
structure Level (c : CleanupCall) (w : Sweep) (k : ℕ) (targets : List Path) : Prop where
  nodup : targets.Nodup
  length : ∀ target ∈ targets, target.length = k
  untouched : ∀ target ∈ targets, isDotTarget target = true ∨ c.Untouched w target

theorem Level.asAtStart (readdir : Path → Enumeration Str) {k : ℕ} (hl : c.Level w k targets)
    (h : FileTree.Trimmed tree w.tree w.unlinked) (ht : target ∈ targets) :
    c.AsAtStart readdir tree w target :=
  (hl.untouched target ht).elim asAtStart_of_dot fun hu => hu.asAtStart h

theorem removes_eq_append {p : Path} (hremoves : c.removes tree target = some p)
    (hu : isDotTarget target = true ∨ c.Untouched w target) : p = c.location ++ target := by
  obtain ⟨hdot, hwalk, -⟩ := removes_eq_some hremoves
  exact FileTree.walk_eq_append (hu.resolve_left (by simp [hdot])).named hwalk

/-- Unlinking one target leaves the others of its level untouched. -/
theorem Level.advance (readdir : Path → Enumeration Str) {k : ℕ}
    (hl : c.Level w k (target :: targets)) :
    c.Level (c.advance readdir w target) k targets := by
  obtain ⟨hnot, hnodup⟩ := List.nodup_cons.mp hl.nodup
  refine ⟨hnodup, fun u hu => hl.length u (List.mem_cons_of_mem _ hu), fun u hu => ?_⟩
  refine (hl.untouched u (List.mem_cons_of_mem _ hu)).imp_right fun huu => ?_
  have hlength := (hl.length u (List.mem_cons_of_mem _ hu)).trans
    (hl.length target List.mem_cons_self).symm
  have hremoved : ∀ p ∈ (c.removes w.tree target).toList, p = c.location ++ target := by
    intro p hp
    exact removes_eq_append (Option.mem_toList.mp hp) (hl.untouched target List.mem_cons_self)
  refine ⟨huu.named, fun hp => ?_, fun n hp => ?_⟩
  · rcases List.mem_append.mp hp with hp | hp
    · exact huu.kept hp
    · rw [List.append_cancel_left (hremoved _ hp)] at hu
      exact hnot hu
  · rcases List.mem_append.mp hp with hp | hp
    · exact huu.listed n hp
    · have hsame := congrArg List.length (hremoved _ hp)
      simp only [List.length_append, List.length_singleton] at hsame
      omega

/-- A sweep over a level does what its targets do in the tree at the start. -/
theorem Level.sweep (readdir : Path → Enumeration Str) {k : ℕ} (hl : c.Level w k targets)
    (h : FileTree.Trimmed tree w.tree w.unlinked) :
    (c.sweep readdir w targets).nextLevel =
        w.nextLevel ++ targets.flatMap (c.pushes readdir tree) ∧
      (c.sweep readdir w targets).unlinked =
        w.unlinked ++ targets.filterMap (c.removes tree) := by
  induction targets generalizing w with
  | nil => simp [CleanupCall.sweep]
  | cons target targets ih =>
    have hstart := hl.asAtStart readdir h List.mem_cons_self
    obtain ⟨hnext, hunlinked⟩ := ih (hl.advance readdir) (trimmed_advance h target)
    have hcons : (target :: targets).filterMap (c.removes tree) =
        (c.removes tree target).toList ++ targets.filterMap (c.removes tree) := by
      cases hr : c.removes tree target <;> simp [hr]
    rw [CleanupCall.sweep, List.foldl_cons]
    refine ⟨hnext.trans ?_, hunlinked.trans ?_⟩
    · rw [CleanupCall.advance, hstart.pushes, List.flatMap_cons, List.append_assoc]
    · rw [CleanupCall.advance, hstart.removes, hcons, List.append_assoc]

theorem Level.lastGoesOn (readdir : Path → Enumeration Str) {k : ℕ}
    (hl : c.Level w k targets) (h : FileTree.Trimmed tree w.tree w.unlinked) :
    c.lastGoesOn readdir w targets = targets.getLast?.any (c.goesOn tree) := by
  induction targets generalizing w with
  | nil => rfl
  | cons target targets ih =>
    cases targets with
    | nil => exact (hl.asAtStart readdir h List.mem_cons_self).goesOn
    | cons u targets =>
      rw [lastGoesOn_cons, ih (hl.advance readdir) (trimmed_advance h target),
        List.getLast?_cons_cons]

end Untouched

end CleanupCall

end Tigge
