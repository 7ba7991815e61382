import Tigge.Lib.Directory

/-! Appending groups of files to one file each, checking the size of the result, and deleting
what was appended. Every operation on a file may fail. -/

namespace Tigge.Lib
open Directory
variable {α : Type*} [Sized α]

/-- Appends `sources`, in this order, to `target`. -/
structure Pass where
  target : Str
  sources : List Str
  deriving DecidableEq

/-- Which operations of one pass succeed, and how much of each source gets printed. -/
structure PassIo where
  openOut : Bool
  openIn : Str → Bool
  printed : Str → Option ℕ
  unlinkOut : Bool
  unlinkIn : Str → Bool

def PassIo.smooth : PassIo := ⟨true, fun _ => true, fun _ => none, true, fun _ => true⟩

namespace PassIo
variable (io : PassIo) (d : Directory α)

/-- What reaches the target from `source`. -/
def copied (source : Str) : List (Chunk α) :=
  if d.lookup source ≠ none ∧ io.openIn source = true then
    match io.printed source with
    | none => d.content source
    | some n => firstBytes n (d.content source)
  else []

def appended (p : Pass) : List (Chunk α) := p.sources.flatMap (io.copied d)

/-- Everything in every source reaches the target. -/
def Complete (p : Pass) : Prop := ∀ s ∈ p.sources, io.copied d s = d.content s

end PassIo

/-- The directory once the sources are appended; a target that stays empty is removed. -/
def merged (io : PassIo) (p : Pass) (d : Directory α) : Directory α :=
  let written : Directory α := d.insert p.target (d.content p.target ++ io.appended d p)
  if written.size p.target = 0 ∧ io.unlinkOut = true then written.erase p.target else written

/-- One pass; a number is the code with which it breaks off. -/
def runPass (io : PassIo) (p : Pass) (d : Directory α) : Option ℤ × Directory α :=
  if io.openOut then
    let sizetest := d.size p.target + (p.sources.map d.size).sum
    let kept := merged io p d
    if kept.size p.target = sizetest then
      (none, p.sources.foldl (fun d s => if io.unlinkIn s then d.erase s else d) kept)
    else (some 8, kept)
  else (some 4, d)

/-- The passes one after the other, up to the first that breaks off. -/
def runPlan (io : Str → PassIo) : List Pass → Directory α → Option ℤ × Directory α
  | [], d => (none, d)
  | p :: ps, d =>
    match runPass (io p.target) p d with
    | (some code, d') => (some code, d')
    | (none, d') => runPlan io ps d'

theorem runPlan_append (io : Str → PassIo) (ps qs : List Pass) (d : Directory α) :
    runPlan io (ps ++ qs) d =
      match runPlan io ps d with
      | (some code, d') => (some code, d')
      | (none, d') => runPlan io qs d' := by
  induction ps generalizing d with
  | nil => rfl
  | cons p ps ih =>
    rw [List.cons_append, runPlan, runPlan]
    rcases runPass (io p.target) p d with ⟨_ | code, d'⟩
    · exact ih d'
    · rfl

section Pass
variable {io : PassIo} {p : Pass} {d : Directory α}

theorem fileSize_copied_le (s : Str) : fileSize (io.copied d s) ≤ d.size s := by
  unfold PassIo.copied
  split_ifs
  · cases io.printed s with
    | none => exact le_rfl
    | some n => exact (fileSize_firstBytes n _).le.trans (min_le_right _ _)
  · exact Nat.zero_le _

theorem copied_eq_iff (s : Str) :
    io.copied d s = d.content s ↔ fileSize (io.copied d s) = d.size s := by
  refine ⟨fun h => congrArg fileSize h, fun h => ?_⟩
  unfold PassIo.copied at h ⊢
  split_ifs at h ⊢ with hs
  · cases hn : io.printed s with
    | none => rfl
    | some n =>
      rw [hn] at h
      have hle : fileSize (d.content s) ≤ n := by
        have hmin : min n (d.size s) = d.size s := (fileSize_firstBytes n _).symm.trans h
        have hsize : d.size s = fileSize (d.content s) := rfl
        omega
      exact firstBytes_of_le hle
  · exact (fileSize_eq_zero.mp h.symm).symm

theorem fileSize_flatMap {β : Type*} (f : β → List (Chunk α)) (l : List β) :
    fileSize (l.flatMap f) = (l.map fun x => fileSize (f x)).sum := by
  induction l with
  | nil => rfl
  | cons x l ih => rw [List.flatMap_cons, fileSize_append, ih, List.map_cons, List.sum_cons]

theorem sum_eq_iff_forall {β : Type*} {f g : β → ℕ} {l : List β} (hle : ∀ x ∈ l, f x ≤ g x) :
    (l.map f).sum = (l.map g).sum ↔ ∀ x ∈ l, f x = g x := by
  induction l with
  | nil => simp
  | cons x l ih =>
    have hx := hle x List.mem_cons_self
    have hl : (l.map f).sum ≤ (l.map g).sum :=
      List.sum_le_sum fun y hy => hle y (List.mem_cons_of_mem _ hy)
    rw [List.map_cons, List.map_cons, List.sum_cons, List.sum_cons, List.forall_mem_cons,
      ← ih fun y hy => hle y (List.mem_cons_of_mem _ hy)]
    omega

/-- The size test sees every loss. -/
theorem size_test_iff : fileSize (d.content p.target ++ io.appended d p) =
    d.size p.target + (p.sources.map d.size).sum ↔ io.Complete d p := by
  have hsum := sum_eq_iff_forall (f := fun s => fileSize (io.copied d s)) (g := d.size)
    (l := p.sources) fun s _ => fileSize_copied_le s
  have htarget : fileSize (d.content p.target) = d.size p.target := rfl
  have happended : fileSize (io.appended d p) =
      (p.sources.map fun s => fileSize (io.copied d s)).sum := fileSize_flatMap _ _
  rw [fileSize_append, htarget, happended, Nat.add_left_cancel_iff, hsum, PassIo.Complete]
  exact forall₂_congr fun s _ => (copied_eq_iff s).symm

theorem content_merged :
    (merged io p d).content p.target = d.content p.target ++ io.appended d p := by
  have hlookup := AList.lookup_insert (a := p.target)
    (b := d.content p.target ++ io.appended d p) d
  have hcontent : content (d.insert p.target _) p.target = _ := content_eq_of_lookup hlookup
  rw [merged]
  split_ifs with h
  · rw [content_eq_nil (AList.lookup_erase ..)]
    have hnil : content (d.insert p.target _) p.target = [] := fileSize_eq_zero.mp h.1
    rw [hcontent] at hnil
    exact hnil.symm
  · exact hcontent

theorem lookup_merged_of_ne {x : Str} (hx : x ≠ p.target) :
    (merged io p d).lookup x = d.lookup x := by
  rw [merged]
  split_ifs
  · rw [AList.lookup_erase_ne hx, AList.lookup_insert_ne hx]
  · rw [AList.lookup_insert_ne hx]

theorem lookup_merged_target (hu : io.unlinkOut = true) :
    (merged io p d).lookup p.target =
      if d.content p.target ++ io.appended d p = [] then none
      else some (d.content p.target ++ io.appended d p) := by
  have hlookup := AList.lookup_insert (a := p.target)
    (b := d.content p.target ++ io.appended d p) d
  have hsize : size (d.insert p.target (d.content p.target ++ io.appended d p)) p.target =
      fileSize (d.content p.target ++ io.appended d p) :=
    congrArg fileSize (content_eq_of_lookup hlookup)
  unfold merged
  simp only [hsize, fileSize_eq_zero]
  by_cases hnil : d.content p.target ++ io.appended d p = []
  · rw [if_pos ⟨hnil, hu⟩, if_pos hnil, AList.lookup_erase]
  · rw [if_neg fun h => hnil h.1, if_neg hnil, hlookup]

omit [Sized α] in
theorem lookup_foldl_erase (keep : Str → Bool) (l : List Str) (d : Directory α) (x : Str) :
    (l.foldl (fun d s => if keep s then d.erase s else d) d).lookup x =
      if x ∈ l ∧ keep x = true then none else d.lookup x := by
  induction l generalizing d with
  | nil => simp
  | cons s l ih =>
    rw [List.foldl_cons, ih]
    by_cases hx : x ∈ l ∧ keep x = true
    · rw [if_pos hx, if_pos ⟨List.mem_cons_of_mem _ hx.1, hx.2⟩]
    · rw [if_neg hx]
      by_cases hs : x = s
      · subst hs
        by_cases hk : keep x = true
        · rw [if_pos hk, if_pos ⟨List.mem_cons_self, hk⟩, AList.lookup_erase]
        · rw [if_neg hk, if_neg fun h => hk h.2]
      · have hcons : ¬ (x ∈ s :: l ∧ keep x = true) := by
          rintro ⟨hmem, hk⟩
          exact hx ⟨(List.mem_cons.mp hmem).resolve_left hs, hk⟩
        rw [if_neg hcons]
        split
        · exact AList.lookup_erase_ne hs
        · rfl

theorem runPass_cases (io : PassIo) (p : Pass) (d : Directory α) :
    (io.openOut = false ∧ runPass io p d = (some 4, d)) ∨
    (io.openOut = true ∧ ¬ io.Complete d p ∧ runPass io p d = (some 8, merged io p d)) ∨
    (io.openOut = true ∧ io.Complete d p ∧ (runPass io p d).1 = none ∧
      ∀ x, (runPass io p d).2.lookup x =
        if x ∈ p.sources ∧ io.unlinkIn x = true then none else (merged io p d).lookup x) := by
  cases ho : io.openOut with
  | false => exact .inl ⟨rfl, by simp [runPass, ho]⟩
  | true =>
    have htest : (merged io p d).size p.target = d.size p.target + (p.sources.map d.size).sum ↔
        io.Complete d p := by
      rw [show (merged io p d).size p.target = fileSize _ from rfl, content_merged]
      exact size_test_iff
    have hrun : runPass io p d =
        if (merged io p d).size p.target = d.size p.target + (p.sources.map d.size).sum then
          (none, p.sources.foldl (fun d s => if io.unlinkIn s then d.erase s else d)
            (merged io p d))
        else (some 8, merged io p d) := by
      rw [runPass, if_pos ho]
    by_cases hc : io.Complete d p
    · rw [if_pos (htest.mpr hc)] at hrun
      refine .inr (.inr ⟨rfl, hc, by rw [hrun], fun x => ?_⟩)
      rw [hrun]
      exact lookup_foldl_erase _ _ _ x
    · rw [if_neg (mt htest.mp hc)] at hrun
      exact .inr (.inl ⟨rfl, hc, hrun⟩)

theorem runPass_none_iff : (runPass io p d).1 = none ↔ io.openOut = true ∧ io.Complete d p := by
  rcases runPass_cases io p d with ⟨ho, h⟩ | ⟨ho, hc, h⟩ | ⟨ho, hc, h, _⟩
  · simp [h, ho]
  · simp [h, hc]
  · simp [h, ho, hc]

theorem runPass_frame {x : Str} (ht : x ≠ p.target) (hs : x ∉ p.sources) :
    (runPass io p d).2.lookup x = d.lookup x := by
  rcases runPass_cases io p d with ⟨_, h⟩ | ⟨_, _, h⟩ | ⟨_, _, _, h⟩
  · rw [h]
  · rw [h]
    exact lookup_merged_of_ne ht
  · rw [h, if_neg fun hx => hs hx.1]
    exact lookup_merged_of_ne ht

theorem lookup_runPass_source {x : Str} (ht : x ≠ p.target) (hs : x ∈ p.sources) :
    (runPass io p d).2.lookup x =
      if (runPass io p d).1 = none ∧ io.unlinkIn x = true then none else d.lookup x := by
  rcases runPass_cases io p d with ⟨_, h⟩ | ⟨_, _, h⟩ | ⟨_, _, hn, h⟩
  · simp [h]
  · simp [h, lookup_merged_of_ne ht]
  · rw [h, hn, lookup_merged_of_ne ht]
    exact if_congr (by simp [hs]) rfl rfl

theorem content_runPass_target (hs : p.target ∉ p.sources) :
    (runPass io p d).2.content p.target =
      if io.openOut then d.content p.target ++ io.appended d p else d.content p.target := by
  rcases runPass_cases io p d with ⟨ho, h⟩ | ⟨ho, _, h⟩ | ⟨ho, _, _, h⟩
  · simp [h, ho]
  · rw [h, if_pos ho]
    exact content_merged
  · rw [if_pos ho, content, h, if_neg fun hx => hs hx.1]
    exact content_merged

end Pass

/-- No pass of the plan reads or writes `x`. -/
def Untouched (x : Str) (ps : List Pass) : Prop := ∀ p ∈ ps, x ≠ p.target ∧ x ∉ p.sources

theorem runPlan_frame {io : Str → PassIo} {ps : List Pass} {x : Str} (h : Untouched x ps)
    (d : Directory α) : (runPlan io ps d).2.lookup x = d.lookup x := by
  induction ps generalizing d with
  | nil => rfl
  | cons p ps ih =>
    have hp := h p List.mem_cons_self
    have hframe : (runPass (io p.target) p d).2.lookup x = d.lookup x := runPass_frame hp.1 hp.2
    rw [runPlan]
    generalize runPass (io p.target) p d = r at hframe
    obtain ⟨_ | code, d'⟩ := r
    · exact (ih (fun q hq => h q (List.mem_cons_of_mem _ hq)) d').trans hframe
    · exact hframe

/-- A file that only one pass of a plan touches ends up as this pass leaves it, if the plan
gets that far. -/
theorem runPlan_split (io : Str → PassIo) (pre : List Pass) {post : List Pass} (p : Pass)
    {x : Str} (hpost : Untouched x post) (d : Directory α) :
    (runPlan io (pre ++ p :: post) d).2.lookup x =
      if (runPlan io pre d).1 = none then
        (runPass (io p.target) p (runPlan io pre d).2).2.lookup x
      else (runPlan io pre d).2.lookup x := by
  rw [runPlan_append]
  rcases runPlan io pre d with ⟨_ | code, e⟩
  · rw [if_pos rfl]
    show (runPlan io (p :: post) e).2.lookup x = _
    rw [runPlan]
    rcases runPass (io p.target) p e with ⟨_ | code, e'⟩
    · exact runPlan_frame hpost e'
    · rfl
  · rw [if_neg (Option.some_ne_none code)]

theorem runPlan_none {io : Str → PassIo} {ps : List Pass}
    (h : ∀ p ∈ ps, ∀ d : Directory α, (runPass (io p.target) p d).1 = none) (d : Directory α) :
    (runPlan io ps d).1 = none := by
  induction ps generalizing d with
  | nil => rfl
  | cons p ps ih =>
    have hp := h p List.mem_cons_self d
    rw [runPlan]
    generalize runPass (io p.target) p d = r at hp
    obtain ⟨_ | code, d'⟩ := r
    · exact ih (fun q hq => h q (List.mem_cons_of_mem _ hq)) d'
    · exact absurd hp (Option.some_ne_none code)

theorem runPass_code (io : PassIo) (p : Pass) (d : Directory α) :
    (runPass io p d).1 ≠ some 0 := by
  rcases runPass_cases io p d with ⟨_, h⟩ | ⟨_, _, h⟩ | ⟨_, _, h, _⟩ <;> rw [h] <;> simp

theorem runPlan_code (io : Str → PassIo) (ps : List Pass) (d : Directory α) :
    (runPlan io ps d).1 ≠ some 0 := by
  induction ps generalizing d with
  | nil => exact (Option.some_ne_none _).symm
  | cons p ps ih =>
    have hp := runPass_code (io p.target) p d
    rw [runPlan]
    generalize runPass (io p.target) p d = r at hp
    obtain ⟨_ | code, d'⟩ := r
    · exact ih d'
    · exact hp

theorem copied_congr {io : PassIo} {d e : Directory α} {s : Str} (h : d.lookup s = e.lookup s) :
    io.copied d s = io.copied e s := by
  rw [PassIo.copied, PassIo.copied, h, content_congr h]

theorem complete_congr {io : PassIo} {p : Pass} {d e : Directory α}
    (h : ∀ s ∈ p.sources, d.lookup s = e.lookup s) : io.Complete d p ↔ io.Complete e p :=
  forall₂_congr fun s hs => by rw [copied_congr (h s hs), content_congr (h s hs)]

/-- No pass reads or writes what a later pass reads. -/
def Separate (ps : List Pass) : Prop :=
  ps.Pairwise fun p q => ∀ s ∈ q.sources, s ≠ p.target ∧ s ∉ p.sources

/-- A plan of separate passes runs to its end when each pass would run on the files as they
are at its beginning. -/
theorem runPlan_none_iff {io : Str → PassIo} {ps : List Pass} (hps : Separate ps)
    (d : Directory α) : (runPlan io ps d).1 = none ↔
      ∀ p ∈ ps, (io p.target).openOut = true ∧ (io p.target).Complete d p := by
  induction ps generalizing d with
  | nil => simp [runPlan]
  | cons p ps ih =>
    obtain ⟨hp, hps⟩ := List.pairwise_cons.mp hps
    have hnone : (runPass (io p.target) p d).1 = none ↔
        (io p.target).openOut = true ∧ (io p.target).Complete d p := runPass_none_iff
    have hframe : ∀ q ∈ ps, ∀ s ∈ q.sources,
        (runPass (io p.target) p d).2.lookup s = d.lookup s :=
      fun q hq s hs => runPass_frame (hp q hq s hs).1 (hp q hq s hs).2
    rw [List.forall_mem_cons, ← hnone, runPlan]
    generalize runPass (io p.target) p d = r at hframe
    obtain ⟨_ | code, d'⟩ := r
    · show (runPlan io ps d').1 = none ↔ _
      rw [ih hps d', eq_self, true_and]
      exact forall₂_congr fun q hq => and_congr_right fun _ => complete_congr (hframe q hq)
    · simp

/-- The pass after `pre` is reached, appends all its inputs and can delete `x`. -/
def Deletes (io : Str → PassIo) (pre : List Pass) (p : Pass) (d : Directory α) (x : Str) : Prop :=
  (runPlan io pre d).1 = none ∧ ((io p.target).openOut = true ∧ (io p.target).Complete d p) ∧
    (io p.target).unlinkIn x = true

section Kept
variable {c : Chunk α}

theorem exists_mem_runPass (io : PassIo) {p : Pass} (hp : p.target ∉ p.sources)
    {d : Directory α} {f : Str} (h : c ∈ d.content f) :
    ∃ g, (g = f ∨ g = p.target) ∧ c ∈ (runPass io p d).2.content g := by
  have htarget : (runPass io p d).2.content p.target =
      if io.openOut then d.content p.target ++ io.appended d p else d.content p.target :=
    content_runPass_target hp
  by_cases hf : f = p.target
  · refine ⟨f, .inl rfl, ?_⟩
    rw [hf, htarget]
    split_ifs
    · exact List.mem_append_left _ (hf ▸ h)
    · exact hf ▸ h
  by_cases hs : f ∈ p.sources
  · have hsource : (runPass io p d).2.lookup f =
        if (runPass io p d).1 = none ∧ io.unlinkIn f = true then none else d.lookup f :=
      lookup_runPass_source hf hs
    by_cases hdeleted : (runPass io p d).1 = none ∧ io.unlinkIn f = true
    · obtain ⟨ho, hcomplete⟩ := runPass_none_iff.mp hdeleted.1
      refine ⟨p.target, .inr rfl, ?_⟩
      rw [htarget, if_pos ho]
      exact List.mem_append_right _ (List.mem_flatMap.mpr ⟨f, hs, (hcomplete f hs).symm ▸ h⟩)
    · rw [if_neg hdeleted] at hsource
      exact ⟨f, .inl rfl, content_congr hsource ▸ h⟩
  · have hframe : (runPass io p d).2.lookup f = d.lookup f := runPass_frame hf hs
    exact ⟨f, .inl rfl, content_congr hframe ▸ h⟩

/-- However a plan goes, nothing that a file holds is lost. -/
theorem exists_mem_runPlan (io : Str → PassIo) {ps : List Pass}
    (hps : ∀ p ∈ ps, p.target ∉ p.sources) {d : Directory α} {f : Str} (h : c ∈ d.content f) :
    ∃ g, (g = f ∨ ∃ p ∈ ps, g = p.target) ∧ c ∈ (runPlan io ps d).2.content g := by
  induction ps generalizing d f with
  | nil => exact ⟨f, .inl rfl, h⟩
  | cons p ps ih =>
    obtain ⟨g, hg, hc⟩ := exists_mem_runPass (io p.target) (hps p List.mem_cons_self) h
    have hfirst : g = f ∨ ∃ q ∈ p :: ps, g = q.target :=
      hg.imp_right fun hg => ⟨p, List.mem_cons_self, hg⟩
    rw [runPlan]
    generalize runPass (io p.target) p d = r at hc
    obtain ⟨_ | code, d'⟩ := r
    · obtain ⟨g', hg', hc'⟩ := ih (fun q hq => hps q (List.mem_cons_of_mem _ hq)) hc
      refine ⟨g', ?_, hc'⟩
      rcases hg' with rfl | ⟨q, hq, hg'⟩
      · exact hfirst
      · exact .inr ⟨q, List.mem_cons_of_mem _ hq, hg'⟩
    · exact ⟨g, hfirst, hc⟩

end Kept

section Smooth

theorem copied_smooth (d : Directory α) (s : Str) : PassIo.smooth.copied d s = d.content s := by
  rw [PassIo.copied]
  split_ifs with h
  · rfl
  · rw [content_eq_nil]
    by_contra hs
    exact h ⟨hs, rfl⟩

theorem complete_smooth (d : Directory α) (p : Pass) : PassIo.smooth.Complete d p :=
  fun s _ => copied_smooth d s

theorem runPass_smooth (p : Pass) (d : Directory α) : (runPass .smooth p d).1 = none :=
  runPass_none_iff.mpr ⟨rfl, complete_smooth d p⟩

theorem lookup_runPass_smooth {d : Directory α} {p : Pass} (hp : p.target ∉ p.sources) :
    (runPass .smooth p d).2.lookup p.target =
      if d.content p.target ++ p.sources.flatMap d.content = [] then none
      else some (d.content p.target ++ p.sources.flatMap d.content) := by
  have happended : PassIo.smooth.appended d p = p.sources.flatMap d.content :=
    List.flatMap_congr fun s _ => copied_smooth d s
  rcases runPass_cases .smooth p d with ⟨ho, _⟩ | ⟨_, hc, _⟩ | ⟨_, _, _, h⟩
  · exact absurd ho (by decide)
  · exact absurd (complete_smooth d p) hc
  · rw [h, if_neg fun hx => hp hx.1, lookup_merged_target rfl, happended]

theorem runPlan_smooth (ps : List Pass) (d : Directory α) :
    (runPlan (fun _ => .smooth) ps d).1 = none :=
  runPlan_none (fun p _ e => runPass_smooth p e) d

theorem runPlan_smooth_split (pre post : List Pass) (p : Pass) (d : Directory α) :
    ∃ e : Directory α, (∀ x, Untouched x pre → e.lookup x = d.lookup x) ∧
      ∀ x, Untouched x post → (runPlan (fun _ => .smooth) (pre ++ p :: post) d).2.lookup x =
        (runPass .smooth p e).2.lookup x := by
  refine ⟨(runPlan (fun _ => .smooth) pre d).2, fun x hx => runPlan_frame hx d, fun x hx => ?_⟩
  rw [runPlan_split _ _ _ hx, if_pos (runPlan_smooth pre d)]

end Smooth
end Tigge.Lib
