import Tigge.Lib.Plan
import Tigge.Conservation

/-! What `mergeRecords` leaves in a directory, whichever of its operations fail and whatever the
files are called. -/

namespace Tigge
open Lib Lib.Directory
variable {α : Type*} [Sized α] {cyc : Str}

/-- The passes that `mergeRecords` makes over a directory, for `ks`. -/
def passesOver (cyc : Str) (d : Directory α) (ks : List (ℕ × Level)) : List Pass :=
  mergePasses cyc (d.sortedNames gribPattern.found) ks

/-- The merge deletes the file. -/
def MergedAway (io : MergeIo) (cyc : Str) (d : Directory α) (f : Str) : Prop :=
  io.dirReadable = true ∧ Deleted io.pass d (passesOver cyc d (mergeKeys cyc)) f

/-- The merge reads the file for the conglomerate of `k`. -/
def Appends (io : MergeIo) (cyc : Str) (d : Directory α) (k : ℕ × Level) (f : Str) : Prop :=
  io.dirReadable = true ∧ (mergePattern k.2 k.1).found f = true ∧
    (io.pass (conglomerateName cyc k.1 k.2)).openOut = true ∧
    ∃ ks ls, mergeKeys cyc = ks ++ k :: ls ∧ RunsThrough io.pass d (passesOver cyc d ks) ∧
      ¬ Removes io.pass (passesOver cyc d ks) f

section Digits
variable (hl : cyc.length = 10) (hs : ∀ c ∈ cyc, c.isDigit)
include hl hs

omit [Sized α] in
theorem clear_passesOver (d : Directory α) (ks : List (ℕ × Level)) :
    Clear (passesOver cyc d ks) := by
  rintro p hp q hq hmem
  obtain ⟨j, -, rfl⟩ := List.mem_map.mp hp
  obtain ⟨k, -, rfl⟩ := List.mem_map.mp hq
  have hfound := (mem_mergePass_sources.mp hmem).2
  rw [mergePass, mergePattern_found_conglomerate hl hs] at hfound
  exact Bool.false_ne_true hfound

theorem mergeRecords_eq (io : MergeIo) (d : Directory α) :
    (mergeRecords io cyc d).2 =
      if io.dirReadable = true ∧ d.sortedNames gribPattern.found ≠ [] then
        (runPlan io.pass (passesOver cyc d (mergeKeys cyc)) d).2
      else d := by
  rw [mergeRecords, cyclePattern_found hl hs]
  simp only [Bool.not_true, Bool.false_eq_true, if_false]
  cases hdir : io.dirReadable with
  | false => simp
  | true =>
    by_cases hnone : d.sortedNames gribPattern.found = []
    · simp [hnone]
    · simp only [hnone, Bool.not_true, Bool.false_eq_true, if_false, ne_eq, not_false_eq_true,
        and_self, if_true]
      rfl

omit [Sized α] hl hs in
theorem notMem_sources_of_nil {d : Directory α} (h : d.sortedNames gribPattern.found = [])
    {ks : List (ℕ × Level)} {p : Pass} (hp : p ∈ passesOver cyc d ks) (f : Str) :
    f ∉ p.sources := by
  obtain ⟨k, -, rfl⟩ := List.mem_map.mp hp
  rw [mem_mergePass_sources, h]
  exact fun hmem => List.not_mem_nil hmem.1

open Classical in
theorem lookup_mergeRecords (io : MergeIo) (d : Directory α) {f : Str}
    (hf : ∀ k ∈ mergeKeys cyc, f ≠ conglomerateName cyc k.1 k.2) :
    (mergeRecords io cyc d).2.lookup f = if MergedAway io cyc d f then none else d.lookup f := by
  have hplan : (runPlan io.pass (passesOver cyc d (mergeKeys cyc)) d).2.lookup f =
      if Deleted io.pass d (passesOver cyc d (mergeKeys cyc)) f then none else d.lookup f := by
    refine (runPlan_clear io.pass d (clear_passesOver hl hs d _)).2 f fun p hp => ?_
    obtain ⟨k, hk, rfl⟩ := List.mem_map.mp hp
    exact hf k hk
  rw [mergeRecords_eq hl hs]
  by_cases hrun : io.dirReadable = true ∧ d.sortedNames gribPattern.found ≠ []
  · rw [if_pos hrun, hplan]
    exact if_congr (and_iff_right hrun.1).symm rfl rfl
  · rw [if_neg hrun, if_neg]
    rintro ⟨hdir, pre, p, post, hsplit, -, hmem, -⟩
    have hnone : d.sortedNames gribPattern.found = [] := by
      by_contra h
      exact hrun ⟨hdir, h⟩
    have hp : p ∈ passesOver cyc d (mergeKeys cyc) :=
      hsplit ▸ List.mem_append_right pre List.mem_cons_self
    exact notMem_sources_of_nil hnone hp f hmem

omit [Sized α] hl hs in
theorem passesOver_split (d : Directory α) (ks ls : List (ℕ × Level)) (k : ℕ × Level) :
    passesOver cyc d (ks ++ k :: ls) = passesOver cyc d ks ++
      mergePass cyc (d.sortedNames gribPattern.found) k.1 k.2 :: passesOver cyc d ls :=
  List.map_append

omit hl hs in
theorem appends_iff {io : MergeIo} {d : Directory α} {k : ℕ × Level} {ks ls : List (ℕ × Level)}
    (hsplit : mergeKeys cyc = ks ++ k :: ls) (hks : k ∉ ks) (hls : k ∉ ls) {f : Str}
    (hfound : (mergePattern k.2 k.1).found f = true) :
    Appends io cyc d k f ↔ io.dirReadable = true ∧
      (RunsThrough io.pass d (passesOver cyc d ks) ∧
        (io.pass (conglomerateName cyc k.1 k.2)).openOut = true) ∧
      ¬ Removes io.pass (passesOver cyc d ks) f := by
  constructor
  · rintro ⟨hdir, -, hopen, ks', ls', hsplit', hthrough, hgone⟩
    obtain ⟨rfl, -, -⟩ := (List.append_cons_inj_of_notMem hks hls).mp (hsplit.symm.trans hsplit')
    exact ⟨hdir, ⟨hthrough, hopen⟩, hgone⟩
  · rintro ⟨hdir, ⟨hthrough, hopen⟩, hgone⟩
    exact ⟨hdir, hfound, hopen, ks, ls, hsplit, hthrough, hgone⟩

open Classical in
theorem content_mergeRecords (io : MergeIo) (d : Directory α) {k : ℕ × Level}
    (hk : k ∈ mergeKeys cyc) :
    (mergeRecords io cyc d).2.content (conglomerateName cyc k.1 k.2) =
      d.content (conglomerateName cyc k.1 k.2) ++
        (d.sortedNames (mergePattern k.2 k.1).found).flatMap fun f =>
          if Appends io cyc d k f then (io.pass (conglomerateName cyc k.1 k.2)).copied d f
          else [] := by
  obtain ⟨ks, ls, hsplit, hks, hls⟩ := mergeKeys_split hk
  have happends : ∀ f ∈ d.sortedNames (mergePattern k.2 k.1).found,
      Appends io cyc d k f ↔ io.dirReadable = true ∧
        (RunsThrough io.pass d (passesOver cyc d ks) ∧
          (io.pass (conglomerateName cyc k.1 k.2)).openOut = true) ∧
        ¬ Removes io.pass (passesOver cyc d ks) f :=
    fun f hf => appends_iff hsplit hks hls (mem_sortedNames.mp hf).2
  rw [mergeRecords_eq hl hs]
  by_cases hrun : io.dirReadable = true ∧ d.sortedNames gribPattern.found ≠ []
  · -- no other pass writes this conglomerate
    have hother : ∀ js, k ∉ js → ∀ q ∈ passesOver cyc d js,
        conglomerateName cyc k.1 k.2 ≠ q.target := by
      intro js hjs q hq h
      obtain ⟨j, hj, rfl⟩ := List.mem_map.mp hq
      obtain ⟨hmb, hlv⟩ := conglomerateName_injective hs h
      exact hjs ((Prod.ext hmb hlv : k = j) ▸ hj)
    have hplan : passesOver cyc d (mergeKeys cyc) = _ := hsplit ▸ passesOver_split d ks ls k
    have htarget := content_runPlan_target io.pass d
      (hplan ▸ clear_passesOver hl hs d (mergeKeys cyc)) (hother ks hks) (hother ls hls)
    rw [if_pos hrun, hplan]
    refine htarget.trans (congrArg _ ?_)
    show (if RunsThrough io.pass d (passesOver cyc d ks) ∧
      (io.pass (conglomerateName cyc k.1 k.2)).openOut = true then _ else _) = _
    by_cases hgo : RunsThrough io.pass d (passesOver cyc d ks) ∧
        (io.pass (conglomerateName cyc k.1 k.2)).openOut = true
    · have hsources : (mergePass cyc (d.sortedNames gribPattern.found) k.1 k.2).sources =
          d.sortedNames (mergePattern k.2 k.1).found := sources_mergePass d k.1 k.2
      rw [if_pos hgo, hsources]
      refine List.flatMap_congr fun f hf => ?_
      by_cases hgone : Removes io.pass (passesOver cyc d ks) f
      · rw [if_pos hgone, if_neg fun h => ((happends f hf).mp h).2.2 hgone]
      · rw [if_neg hgone, if_pos ((happends f hf).mpr ⟨hrun.1, hgo, hgone⟩)]
        rfl
    · rw [if_neg hgo]
      refine (List.flatMap_eq_nil_iff.mpr fun f hf => ?_).symm
      exact if_neg fun h => hgo ((happends f hf).mp h).2.1
  · rw [if_neg hrun]
    have hnone : ∀ f ∈ d.sortedNames (mergePattern k.2 k.1).found, ¬ Appends io cyc d k f := by
      intro f hf h
      obtain ⟨hfd, hfound⟩ := mem_sortedNames.mp hf
      exact hrun ⟨h.1, List.ne_nil_of_mem
        (mem_sortedNames.mpr ⟨hfd, gribPattern_of_mergePattern hfound⟩)⟩
    rw [List.flatMap_eq_nil_iff.mpr fun f hf => if_neg (hnone f hf), List.append_nil]

/-- After the merge, `g` holds the record `a`, which was in `f`. -/
def HoldsRecord (io : MergeIo) (cyc : Str) (d : Directory α) (f : Str) (a : α) (g : Str) : Prop :=
  (g = f ∧ .whole a ∈ d.content f ∧ ¬ MergedAway io cyc d f) ∨
    ∃ k ∈ mergeKeys cyc, g = conglomerateName cyc k.1 k.2 ∧ Appends io cyc d k f ∧
      .whole a ∈ (io.pass g).copied d f

omit hl in
theorem holdsRecord_conglomerate_iff {io : MergeIo} {d : Directory α} {f : Str} {a : α}
    {k : ℕ × Level} (hk : k ∈ mergeKeys cyc) (hf : f ≠ conglomerateName cyc k.1 k.2) :
    HoldsRecord io cyc d f a (conglomerateName cyc k.1 k.2) ↔
      Appends io cyc d k f ∧ .whole a ∈ (io.pass (conglomerateName cyc k.1 k.2)).copied d f := by
  constructor
  · rintro (⟨hfk, -⟩ | ⟨j, -, hjk, h⟩)
    · exact absurd hfk.symm hf
    · obtain ⟨hmb, hlv⟩ := conglomerateName_injective hs hjk
      obtain rfl : k = j := Prod.ext hmb hlv
      exact h
  · exact fun h => .inr ⟨k, hk, rfl, h⟩

omit hl hs in
theorem holdsRecord_other_iff {io : MergeIo} {d : Directory α} {f g : Str} {a : α}
    (hg : ∀ k ∈ mergeKeys cyc, g ≠ conglomerateName cyc k.1 k.2) :
    HoldsRecord io cyc d f a g ↔ g = f ∧ .whole a ∈ d.content f ∧ ¬ MergedAway io cyc d f := by
  refine or_iff_left ?_
  rintro ⟨k, hk, hgk, -⟩
  exact hg k hk hgk

section Count
variable [DecidableEq α] (io : MergeIo) (d : Directory α) {f : Str} {a : α}
  (hone : (d.content f).count (Chunk.whole a) ≤ 1) (halone : ∀ g ≠ f, .whole a ∉ d.content g)
include hone halone

theorem count_conglomerate {k : ℕ × Level} (hk : k ∈ mergeKeys cyc)
    (hf : f ≠ conglomerateName cyc k.1 k.2) :
    ((mergeRecords io cyc d).2.content (conglomerateName cyc k.1 k.2)).count (Chunk.whole a) ≤ 1 ∧
      (.whole a ∈ (mergeRecords io cyc d).2.content (conglomerateName cyc k.1 k.2) ↔
        HoldsRecord io cyc d f a (conglomerateName cyc k.1 k.2)) := by
  classical
  generalize hpass : io.pass (conglomerateName cyc k.1 k.2) = pass
  have hothers : ∀ s ∈ d.sortedNames (mergePattern k.2 k.1).found, s ≠ f →
      Chunk.whole a ∉ if Appends io cyc d k s then pass.copied d s else [] := by
    intro s _ hsf hmem
    split_ifs at hmem
    · exact halone s hsf (mem_content_of_mem_copied hmem)
    · exact List.not_mem_nil hmem
  -- only what the pass reads of `f` can be the record
  rw [holdsRecord_conglomerate_iff hs hk hf, hpass, ← List.count_pos_iff,
    content_mergeRecords hl hs io d hk, hpass, List.count_append,
    List.count_eq_zero.mpr (halone _ hf.symm), Nat.zero_add,
    count_flatMap_of_single (d.nodup_sortedNames _) hothers]
  by_cases happ : Appends io cyc d k f
  · rw [if_pos happ, and_iff_right happ]
    by_cases hmem : f ∈ d.sortedNames (mergePattern k.2 k.1).found
    · rw [if_pos hmem, List.count_pos_iff]
      exact ⟨(count_copied_le pass d f a).trans hone, Iff.rfl⟩
    · rw [if_neg hmem]
      refine ⟨Nat.zero_le _, iff_of_false (Nat.lt_irrefl 0) fun hcopied => hmem ?_⟩
      have hfd := mem_of_mem_content (mem_content_of_mem_copied hcopied)
      exact mem_sortedNames.mpr ⟨hfd, happ.2.1⟩
  · rw [if_neg happ, List.count_nil, ite_self]
    exact ⟨Nat.zero_le _, iff_of_false (Nat.lt_irrefl 0) fun h => happ h.1⟩

theorem count_kept {g : Str} (hg : ∀ k ∈ mergeKeys cyc, g ≠ conglomerateName cyc k.1 k.2) :
    ((mergeRecords io cyc d).2.content g).count (Chunk.whole a) ≤ 1 ∧
      (.whole a ∈ (mergeRecords io cyc d).2.content g ↔ HoldsRecord io cyc d f a g) := by
  classical
  have hlookup := lookup_mergeRecords hl hs io d hg
  rw [holdsRecord_other_iff hg]
  by_cases haway : MergedAway io cyc d g
  · rw [if_pos haway] at hlookup
    rw [content_eq_nil hlookup]
    refine ⟨Nat.zero_le _, iff_of_false List.not_mem_nil ?_⟩
    rintro ⟨rfl, -, hkept⟩
    exact hkept haway
  · rw [if_neg haway] at hlookup
    rw [content_congr hlookup]
    by_cases hgf : g = f
    · subst hgf
      exact ⟨hone, fun h => ⟨rfl, h, haway⟩, fun h => h.2.1⟩
    · rw [List.count_eq_zero.mpr (halone g hgf)]
      exact ⟨Nat.zero_le _, iff_of_false (halone g hgf) fun h => hgf h.1⟩

/-- Where a record that is in one file is after the merge; no file holds it twice. -/
theorem count_mergeRecords (hf : ∀ k ∈ mergeKeys cyc, f ≠ conglomerateName cyc k.1 k.2) (g : Str) :
    ((mergeRecords io cyc d).2.content g).count (Chunk.whole a) ≤ 1 ∧
      (.whole a ∈ (mergeRecords io cyc d).2.content g ↔ HoldsRecord io cyc d f a g) := by
  by_cases hg : ∃ k ∈ mergeKeys cyc, g = conglomerateName cyc k.1 k.2
  · obtain ⟨k, hk, rfl⟩ := hg
    exact count_conglomerate hl hs io d hone halone hk (hf k hk)
  · exact count_kept hl hs io d hone halone fun k hk hgk => hg ⟨k, hk, hgk⟩

end Count

end Digits

theorem holdsRecord_congr {io : MergeIo} {d e : Directory α} {f g : Str} {a : α}
    (hf : gribPattern.found f = true)
    (h : ∀ s, gribPattern.found s = true → d.lookup s = e.lookup s) :
    HoldsRecord io cyc d f a g ↔ HoldsRecord io cyc e f a g := by
  have hnames : d.sortedNames gribPattern.found = e.sortedNames gribPattern.found :=
    sortedNames_congr fun s hs => by
      rw [← AList.lookup_isSome, ← AList.lookup_isSome, h s hs]
  have hpasses : ∀ ks, passesOver cyc d ks = passesOver cyc e ks := fun ks => by
    rw [passesOver, hnames, passesOver]
  have hsources : ∀ ks, ∀ p ∈ passesOver cyc e ks, ∀ s ∈ p.sources, d.lookup s = e.lookup s := by
    intro ks p hp s hs
    obtain ⟨k, -, rfl⟩ := List.mem_map.mp hp
    exact h s (mem_sortedNames.mp (mem_mergePass_sources.mp hs).1).2
  have haway : MergedAway io cyc d f ↔ MergedAway io cyc e f := by
    rw [MergedAway, hpasses, deleted_congr (hsources _), MergedAway]
  have happends : ∀ k, Appends io cyc d k f ↔ Appends io cyc e k f := fun k => by
    simp only [Appends, hpasses, runsThrough_congr (hsources _)]
  rw [HoldsRecord, haway, content_congr (h f hf), copied_congr (h f hf)]
  simp only [happends]
  rfl

end Tigge
