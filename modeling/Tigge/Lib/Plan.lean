import Tigge.Lib.Conglomerate

/-! Which passes of a plan are reached, and what they leave, said of the files as they are before
the plan starts. The passes may share inputs, but none reads what another writes. -/

namespace Tigge.Lib
open Directory
variable {α : Type*} [Sized α]

/-- No pass reads what a pass of the plan writes. -/
def Clear (ps : List Pass) : Prop := ∀ p ∈ ps, ∀ q ∈ ps, p.target ∉ q.sources

/-- Some pass deletes `x` when it is through. -/
def Removes (io : Str → PassIo) (ps : List Pass) (x : Str) : Prop :=
  ∃ p ∈ ps, x ∈ p.sources ∧ (io p.target).unlinkIn x = true

/-- A pass after `pre` opens its target and appends every input that is still there. -/
def GetsPast (io : Str → PassIo) (d : Directory α) (pre : List Pass) (p : Pass) : Prop :=
  (io p.target).openOut = true ∧
    ∀ s ∈ p.sources, Removes io pre s ∨ (io p.target).copied d s = d.content s

def RunsThrough (io : Str → PassIo) (d : Directory α) (ps : List Pass) : Prop :=
  ∀ pre p post, ps = pre ++ p :: post → GetsPast io d pre p

/-- A pass that the plan gets past deletes `x`. -/
def Deleted (io : Str → PassIo) (d : Directory α) (ps : List Pass) (x : Str) : Prop :=
  ∃ pre p post, ps = pre ++ p :: post ∧ RunsThrough io d (pre ++ [p]) ∧
    x ∈ p.sources ∧ (io p.target).unlinkIn x = true

theorem Clear.left {ps qs : List Pass} (h : Clear (ps ++ qs)) : Clear ps :=
  fun p hp q hq => h p (List.mem_append_left qs hp) q (List.mem_append_left qs hq)

theorem concat_eq_append_cons {β : Type*} {ps pre post : List β} {p q : β}
    (h : ps ++ [p] = pre ++ q :: post) :
    (pre = ps ∧ q = p ∧ post = []) ∨ ∃ post', post = post' ++ [p] ∧ ps = pre ++ q :: post' := by
  rcases List.eq_nil_or_concat post with rfl | ⟨post', x, rfl⟩
  · obtain ⟨rfl, hq⟩ := List.append_inj' h rfl
    exact .inl ⟨rfl, (List.cons.inj hq).1.symm, rfl⟩
  · rw [List.concat_eq_append, ← List.cons_append, ← List.append_assoc] at h
    rw [List.concat_eq_append]
    obtain ⟨rfl, hx⟩ := List.append_inj' h rfl
    exact .inr ⟨post', by rw [(List.cons.inj hx).1], rfl⟩

section Plans
variable {io : Str → PassIo} {d : Directory α} {ps : List Pass} {p : Pass}

theorem runsThrough_concat :
    RunsThrough io d (ps ++ [p]) ↔ RunsThrough io d ps ∧ GetsPast io d ps p := by
  constructor
  · intro h
    refine ⟨fun pre q post hps => h pre q (post ++ [p]) ?_, h ps p [] rfl⟩
    rw [hps, List.append_assoc, List.cons_append]
  · rintro ⟨h, hp⟩ pre q post hps
    rcases concat_eq_append_cons hps with ⟨rfl, rfl, -⟩ | ⟨post', -, hps⟩
    · exact hp
    · exact h pre q post' hps

theorem RunsThrough.left {qs : List Pass} (h : RunsThrough io d (ps ++ qs)) :
    RunsThrough io d ps := by
  intro pre p post hps
  refine h pre p (post ++ qs) ?_
  rw [hps, List.append_assoc, List.cons_append]

theorem deleted_concat {x : Str} : Deleted io d (ps ++ [p]) x ↔
    Deleted io d ps x ∨
      (RunsThrough io d (ps ++ [p]) ∧ x ∈ p.sources ∧ (io p.target).unlinkIn x = true) := by
  constructor
  · rintro ⟨pre, q, post, hps, h⟩
    rcases concat_eq_append_cons hps with ⟨rfl, rfl, -⟩ | ⟨post', -, hps⟩
    · exact .inr h
    · exact .inl ⟨pre, q, post', hps, h⟩
  · rintro (⟨pre, q, post, hps, h⟩ | h)
    · refine ⟨pre, q, post ++ [p], ?_, h⟩
      rw [hps, List.append_assoc, List.cons_append]
    · exact ⟨ps, p, [], rfl, h⟩

theorem runsThrough_congr {e : Directory α}
    (h : ∀ p ∈ ps, ∀ s ∈ p.sources, d.lookup s = e.lookup s) :
    RunsThrough io d ps ↔ RunsThrough io e ps := by
  refine forall_congr' fun pre => forall₃_congr fun p post hps => and_congr_right fun _ => ?_
  have hp : p ∈ ps := hps ▸ List.mem_append_right pre List.mem_cons_self
  exact forall₂_congr fun s hs => by rw [copied_congr (h p hp s hs), content_congr (h p hp s hs)]

theorem deleted_congr {e : Directory α} {x : Str}
    (h : ∀ p ∈ ps, ∀ s ∈ p.sources, d.lookup s = e.lookup s) :
    Deleted io d ps x ↔ Deleted io e ps x := by
  refine exists_congr fun pre => exists₂_congr fun p post => and_congr_right fun hps => ?_
  refine and_congr_left fun _ => runsThrough_congr fun q hq => h q ?_
  rw [hps, List.append_cons]
  exact List.mem_append_left post hq

theorem deleted_iff_removes (h : RunsThrough io d ps) {x : Str} :
    Deleted io d ps x ↔ Removes io ps x := by
  constructor
  · rintro ⟨pre, p, post, rfl, -, hx⟩
    exact ⟨p, List.mem_append_right pre List.mem_cons_self, hx⟩
  · rintro ⟨p, hp, hx⟩
    obtain ⟨pre, post, rfl⟩ := List.append_of_mem hp
    refine ⟨pre, p, post, rfl, ?_, hx⟩
    rw [List.append_cons] at h
    exact h.left

theorem count_copied_le [DecidableEq α] (io : PassIo) (d : Directory α) (s : Str) (a : α) :
    (io.copied d s).count (.whole a) ≤ (d.content s).count (.whole a) := by
  rw [PassIo.copied]
  split_ifs
  · cases io.printed s with
    | none => exact le_rfl
    | some n => exact count_firstBytes_le a n _
  · exact Nat.zero_le _

theorem mem_content_of_mem_copied {io : PassIo} {s : Str} {a : α}
    (h : .whole a ∈ io.copied d s) : .whole a ∈ d.content s := by
  classical
  exact List.count_pos_iff.mp ((List.count_pos_iff.mpr h).trans_le (count_copied_le io d s a))

/-- An input that an earlier pass has deleted adds nothing, the others add what they always would. -/
theorem copied_of_lookup {e : Directory α} {s : Str} {gone : Prop} [Decidable gone]
    (io : PassIo) (h : e.lookup s = if gone then none else d.lookup s) :
    io.copied e s = if gone then [] else io.copied d s := by
  split_ifs at h ⊢
  · rw [PassIo.copied, if_neg fun hs => hs.1 h]
  · exact copied_congr h

open Classical in
/-- A pass after a plan that ran through: it finds its inputs unless an earlier pass has deleted
them. -/
theorem runPass_none_iff_runsThrough {e : Directory α} (hthrough : RunsThrough io d ps)
    (hsource : ∀ s ∈ p.sources, e.lookup s = if Removes io ps s then none else d.lookup s) :
    (runPass (io p.target) p e).1 = none ↔ RunsThrough io d (ps ++ [p]) := by
  have hcomplete : (io p.target).Complete e p ↔
      ∀ s ∈ p.sources, Removes io ps s ∨ (io p.target).copied d s = d.content s := by
    refine forall₂_congr fun s hs => ?_
    rw [copied_of_lookup _ (hsource s hs), content, hsource s hs]
    split_ifs with hgone
    · exact iff_of_true rfl (.inl hgone)
    · exact (or_iff_right hgone).symm
  rw [runPass_none_iff, hcomplete, runsThrough_concat]
  exact (and_iff_right hthrough).symm

open Classical in
theorem lookup_runPass_concat {e : Directory α} {x : Str} (hne : x ≠ p.target)
    (hpass : (runPass (io p.target) p e).1 = none ↔ RunsThrough io d (ps ++ [p]))
    (hbefore : e.lookup x = if Deleted io d ps x then none else d.lookup x) :
    (runPass (io p.target) p e).2.lookup x =
      if Deleted io d (ps ++ [p]) x then none else d.lookup x := by
  by_cases hs : x ∈ p.sources
  · rw [lookup_runPass_source hne hs, hbefore]
    by_cases hdel : (runPass (io p.target) p e).1 = none ∧ (io p.target).unlinkIn x = true
    · rw [if_pos hdel, if_pos (deleted_concat.mpr (.inr ⟨hpass.mp hdel.1, hs, hdel.2⟩))]
    · rw [if_neg hdel]
      refine if_congr ?_ rfl rfl
      rw [deleted_concat]
      exact (or_iff_left fun h => hdel ⟨hpass.mpr h.1, h.2.2⟩).symm
  · rw [runPass_frame hne hs, hbefore]
    refine if_congr ?_ rfl rfl
    rw [deleted_concat]
    exact (or_iff_left fun h => hs h.2.1).symm

theorem runPlan_singleton (io : Str → PassIo) (p : Pass) (d : Directory α) :
    runPlan io [p] d = runPass (io p.target) p d := by
  rw [runPlan]
  rcases runPass (io p.target) p d with ⟨_ | code, e⟩ <;> rfl

open Classical in
/-- How far a plan gets, and what it deletes on the way. -/
theorem runPlan_clear (io : Str → PassIo) (d : Directory α) (hps : Clear ps) :
    ((runPlan io ps d).1 = none ↔ RunsThrough io d ps) ∧
      ∀ x, (∀ p ∈ ps, x ≠ p.target) →
        (runPlan io ps d).2.lookup x = if Deleted io d ps x then none else d.lookup x := by
  induction ps using List.reverseRecOn with
  | nil =>
    refine ⟨iff_of_true rfl fun pre p post h => ?_, fun x _ => ?_⟩
    · exact absurd h.symm (List.append_ne_nil_of_right_ne_nil _ (List.cons_ne_nil _ _))
    · rw [if_neg]
      · rfl
      · rintro ⟨pre, p, post, h, -⟩
        exact absurd h.symm (List.append_ne_nil_of_right_ne_nil _ (List.cons_ne_nil _ _))
  | append_singleton ps p ih =>
    obtain ⟨hcode, hlookup⟩ := ih hps.left
    have hlast : p ∈ ps ++ [p] := List.mem_append_right ps (List.mem_singleton_self p)
    rw [runPlan_append]
    generalize runPlan io ps d = r at hcode hlookup
    obtain ⟨_ | code, e⟩ := r
    · have hthrough : RunsThrough io d ps := hcode.mp rfl
      have hsource : ∀ s ∈ p.sources,
          e.lookup s = if Removes io ps s then none else d.lookup s := by
        intro s hs
        rw [hlookup s ?_]
        · exact if_congr (deleted_iff_removes hthrough) rfl rfl
        · rintro q hq rfl
          exact hps q (List.mem_append_left _ hq) p hlast hs
      have hpass := runPass_none_iff_runsThrough hthrough hsource
      show ((runPlan io [p] e).1 = none ↔ _) ∧ ∀ x, _ → (runPlan io [p] e).2.lookup x = _
      rw [runPlan_singleton]
      refine ⟨hpass, fun x hx => lookup_runPass_concat (hx p hlast) hpass ?_⟩
      exact hlookup x fun q hq => hx q (List.mem_append_left _ hq)
    · -- the plan has stopped before, and deletes nothing more
      have hstop : ¬ RunsThrough io d ps := fun h => Option.some_ne_none code (hcode.mpr h)
      have hstop' : ¬ RunsThrough io d (ps ++ [p]) := fun h => hstop h.left
      refine ⟨iff_of_false (Option.some_ne_none code) hstop', fun x hx => ?_⟩
      refine (hlookup x fun q hq => hx q (List.mem_append_left _ hq)).trans (if_congr ?_ rfl rfl)
      rw [deleted_concat]
      exact (or_iff_left fun h => hstop' h.1).symm

open Classical in
theorem content_runPlan_target (io : Str → PassIo) (d : Directory α) {pre post : List Pass}
    (hps : Clear (pre ++ p :: post)) (hpre : ∀ q ∈ pre, p.target ≠ q.target)
    (hpost : ∀ q ∈ post, p.target ≠ q.target) :
    (runPlan io (pre ++ p :: post) d).2.content p.target =
      d.content p.target ++
        if RunsThrough io d pre ∧ (io p.target).openOut = true then
          p.sources.flatMap fun s => if Removes io pre s then [] else (io p.target).copied d s
        else [] := by
  have hmem : p ∈ pre ++ p :: post := List.mem_append_right pre List.mem_cons_self
  have hunread : ∀ q ∈ pre ++ p :: post, p.target ∉ q.sources := fun q hq => hps p hmem q hq
  have hclear := runPlan_clear io d hps.left
  have huntouched : Untouched p.target post := fun q hq =>
    ⟨hpost q hq, hunread q (List.mem_append_right pre (List.mem_cons_of_mem p hq))⟩
  have hstart : (runPlan io pre d).2.lookup p.target = d.lookup p.target :=
    runPlan_frame (fun q hq => ⟨hpre q hq, hunread q (List.mem_append_left _ hq)⟩) d
  have hsplit := runPlan_split io pre p huntouched d
  by_cases hthrough : RunsThrough io d pre
  · have happended : (io p.target).appended (runPlan io pre d).2 p =
        p.sources.flatMap fun s => if Removes io pre s then [] else (io p.target).copied d s := by
      refine List.flatMap_congr fun s hs => copied_of_lookup _ ?_
      rw [hclear.2 s ?_]
      · exact if_congr (deleted_iff_removes hthrough) rfl rfl
      · rintro q hq rfl
        exact hps q (List.mem_append_left _ hq) p hmem hs
    rw [if_pos (hclear.1.mpr hthrough)] at hsplit
    rw [content_congr hsplit, content_runPass_target (hunread p hmem), content_congr hstart,
      happended]
    by_cases hopen : (io p.target).openOut = true
    · rw [if_pos hopen, if_pos ⟨hthrough, hopen⟩]
    · rw [if_neg hopen, if_neg fun h => hopen h.2, List.append_nil]
  · rw [if_neg (mt hclear.1.mp hthrough)] at hsplit
    rw [content_congr hsplit, content_congr hstart, if_neg fun h => hthrough h.1, List.append_nil]

section Separate
variable {pre post : List Pass}

omit [Sized α] in
theorem not_removes_of_separate (h : Separate (pre ++ p :: post)) {s : Str} (hs : s ∈ p.sources) :
    ¬ Removes io pre s := by
  rintro ⟨q, hq, hmem, -⟩
  exact ((List.pairwise_append.mp h).2.2 q hq p List.mem_cons_self s hs).2 hmem

theorem getsPast_iff_of_separate (h : Separate (pre ++ p :: post)) :
    GetsPast io d pre p ↔ (io p.target).openOut = true ∧ (io p.target).Complete d p :=
  and_congr_right fun _ => forall₂_congr fun _ hs => or_iff_right (not_removes_of_separate h hs)

theorem deleted_iff_of_separate (hclear : Clear ps) (hps : Separate ps) {x : Str} :
    Deleted io d ps x ↔
      ∃ pre p post, ps = pre ++ p :: post ∧ x ∈ p.sources ∧ Deletes io pre p d x := by
  refine exists_congr fun pre => exists₂_congr fun p post => and_congr_right fun hsplit => ?_
  subst hsplit
  rw [runsThrough_concat, getsPast_iff_of_separate hps, Deletes, (runPlan_clear io d hclear.left).1]
  constructor
  · rintro ⟨⟨hreached, hpass⟩, hmem, hunlink⟩
    exact ⟨hmem, hreached, hpass, hunlink⟩
  · rintro ⟨hmem, hreached, hpass, hunlink⟩
    exact ⟨⟨hreached, hpass⟩, hmem, hunlink⟩

end Separate

theorem runsThrough_smooth (d : Directory α) (ps : List Pass) :
    RunsThrough (fun _ => .smooth) d ps :=
  fun _ _ _ _ => ⟨rfl, fun s _ => .inr (copied_smooth d s)⟩

end Plans
end Tigge.Lib
