import Tigge.MergeOutcomes

/-! `mergeRecords` called again after inputs could not be opened: how often each record ends up
in its conglomerate. -/

namespace Tigge
open Lib Lib.Directory
variable {α : Type*} [Sized α] {cyc : Str}

def readingIo (opens : Str → Bool) : PassIo := { PassIo.smooth with openIn := opens }

def MergeIo.reading (opens : Str → Bool) : MergeIo := ⟨true, fun _ => readingIo opens⟩

/-- The directory after calls in which the given inputs can be opened. -/
def retried (cyc : Str) (calls : List (Str → Bool)) (d : Directory α) : Directory α :=
  calls.foldl (fun d opens => (mergeRecords (.reading opens) cyc d).2) d

/-- The inputs of the pass for `k` can all be opened. -/
def Opens (opens : Str → Bool) (d : Directory α) (k : ℕ × Level) : Prop :=
  ∀ f ∈ d, (mergePattern k.2 k.1).found f = true → opens f = true

/-- No pass before the one for `k` stops at an input. -/
def Reached (cyc : Str) (opens : Str → Bool) (d : Directory α) (k : ℕ × Level) : Prop :=
  ∃ ks ls, mergeKeys cyc = ks ++ k :: ls ∧ ∀ j ∈ ks, Opens opens d j

/-- A call opens `f` in the pass that stops at another input. -/
def Repeated (cyc : Str) (opens : Str → Bool) (d : Directory α) (f : Str) : Prop :=
  f ∈ d ∧ opens f = true ∧ ∃ k, (mergePattern k.2 k.1).found f = true ∧
    Reached cyc opens d k ∧ ¬ Opens opens d k

variable {rec : Str → α}

/-- Each record of the directory is in its own file and in no other. -/
structure OneEach (cyc : Str) (rec : Str → α) (d : Directory α) : Prop where
  names : RecordsOf cyc d
  record : ∀ f ∈ d, IsOutput cyc f → d.content f = [.whole (rec f)]
  alone : ∀ f ∈ d, IsOutput cyc f → ∀ g, g ≠ f → .whole (rec f) ∉ d.content g

/-- The conglomerate of a record. -/
def OutputName.home (o : OutputName (perlGetNMembers cyc)) : Str :=
  conglomerateName cyc o.em o.lv

/-- What stays true of the directory from call to call. -/
structure Retrying (cyc : Str) (rec : Str → α) (d e : Directory α) : Prop where
  names : RecordsOf cyc e
  record : ∀ f ∈ e, IsOutput cyc f → f ∈ d ∧ e.content f = [.whole (rec f)]
  confined : ∀ o : OutputName (perlGetNMembers cyc), o.fileName cyc ∈ d →
    ∀ g, g ≠ o.fileName cyc → g ≠ o.home → .whole (rec (o.fileName cyc)) ∉ e.content g

omit [Sized α] in
theorem retrying_start {d : Directory α} (hd : OneEach cyc rec d) : Retrying cyc rec d d where
  names := hd.names
  record := fun f hf ho => ⟨hf, hd.record f hf ho⟩
  confined := fun o ho g hg _ => hd.alone _ ho ⟨o, rfl⟩ g hg

theorem copied_reading (opens : Str → Bool) (e : Directory α) (s : Str) :
    (readingIo opens).copied e s = if opens s then e.content s else [] := by
  rw [PassIo.copied]
  by_cases ho : opens s = true
  · by_cases hs : e.lookup s = none
    · rw [if_neg fun h => h.1 hs, if_pos ho, content_eq_nil hs]
    · rw [if_pos ⟨hs, ho⟩, if_pos ho]
      rfl
  · rw [if_neg fun h => ho h.2, if_neg ho]

omit [Sized α] in
theorem reached_iff {opens : Str → Bool} {d : Directory α} {ks ls : List (ℕ × Level)}
    {k : ℕ × Level} (hsplit : mergeKeys cyc = ks ++ k :: ls) :
    Reached cyc opens d k ↔ ∀ j ∈ ks, Opens opens d j := by
  have hnodup := nodup_mergeKeys cyc
  rw [hsplit, List.nodup_middle, List.nodup_cons, List.mem_append, not_or] at hnodup
  constructor
  · rintro ⟨ks', ls', hsplit', h⟩
    rw [hsplit] at hsplit'
    obtain ⟨rfl, -, -⟩ :=
      (List.append_cons_inj_of_notMem hnodup.1.1 hnodup.1.2).mp hsplit'
    exact h
  · exact fun h => ⟨ks, ls, hsplit, h⟩

section Digits
variable (hl : cyc.length = 10) (hs : ∀ c ∈ cyc, c.isDigit)
include hl hs

theorem found_own (o : OutputName (perlGetNMembers cyc)) :
    (mergePattern o.lv o.em).found (o.fileName cyc) = true :=
  (mergePattern_found_output hl hs (perlGetNMembers_le cyc) o
    (o.em_lt.trans_le (perlGetNMembers_le cyc))).mpr ⟨rfl, rfl⟩

omit [Sized α] in
theorem separate_mergePasses {e : Directory α} (he : RecordsOf cyc e) {ks : List (ℕ × Level)}
    (hks : ks ⊆ mergeKeys cyc) (hnodup : ks.Nodup) :
    Separate (mergePasses cyc (e.sortedNames gribPattern.found) ks) := by
  refine List.pairwise_map.mpr (hnodup.imp_of_mem fun {j k} hj hk hjk => ?_)
  intro s hmem
  obtain ⟨hgrib, hfound⟩ := mem_mergePass_sources.mp hmem
  obtain ⟨o, rfl, hem, hlv⟩ := output_of_mergePattern hl hs he (mem_mergeKeys.mp (hks hk))
    (mem_sortedNames.mp hgrib).1 hfound
  have hnotMem : (o.em, o.lv) ∉ [j] := by
    rw [List.mem_singleton]
    rintro rfl
    exact hjk (Prod.ext hem hlv)
  exact untouched_output hl hs (List.cons_subset.mpr ⟨hks hj, List.nil_subset _⟩) o hnotMem _
    (List.mem_singleton.mpr rfl)

theorem complete_reading_iff {d e : Directory α} (he : Retrying cyc rec d e)
    (opens : Str → Bool) {k : ℕ × Level} (hk : k ∈ mergeKeys cyc) :
    (readingIo opens).Complete e (mergePass cyc (e.sortedNames gribPattern.found) k.1 k.2) ↔
      Opens opens e k := by
  have hmem : ∀ f, f ∈ (mergePass cyc (e.sortedNames gribPattern.found) k.1 k.2).sources ↔
      f ∈ e ∧ (mergePattern k.2 k.1).found f = true := fun f => by
    rw [sources_mergePass, mem_sortedNames]
  constructor
  · intro h f hf hfound
    have hcopied := h f ((hmem f).mpr ⟨hf, hfound⟩)
    obtain ⟨o, rfl, -, -⟩ := output_of_mergePattern hl hs he.names (mem_mergeKeys.mp hk) hf hfound
    rw [copied_reading, (he.record _ hf ⟨o, rfl⟩).2] at hcopied
    by_contra ho
    rw [if_neg ho] at hcopied
    exact absurd hcopied (by simp)
  · intro h f hf
    obtain ⟨hfe, hfound⟩ := (hmem f).mp hf
    rw [copied_reading, if_pos (h f hfe hfound)]

theorem runPlan_reading_none_iff {d e : Directory α} (he : Retrying cyc rec d e)
    (opens : Str → Bool) {ks : List (ℕ × Level)} (hks : ks ⊆ mergeKeys cyc)
    (hnodup : ks.Nodup) :
    (runPlan (fun _ => readingIo opens)
      (mergePasses cyc (e.sortedNames gribPattern.found) ks) e).1 = none ↔
      ∀ j ∈ ks, Opens opens e j := by
  rw [runPlan_none_iff (separate_mergePasses hl hs he.names hks hnodup), mergePasses,
    List.forall_mem_map]
  refine forall₂_congr fun j hj => ?_
  rw [complete_reading_iff hl hs he opens (hks hj)]
  exact and_iff_right rfl

theorem runsThrough_reading_iff {d e : Directory α} (he : Retrying cyc rec d e)
    (opens : Str → Bool) {ks : List (ℕ × Level)} (hks : ks ⊆ mergeKeys cyc) (hnodup : ks.Nodup) :
    RunsThrough (MergeIo.reading opens).pass e (passesOver cyc e ks) ↔ ∀ j ∈ ks, Opens opens e j :=
  (runPlan_clear (MergeIo.reading opens).pass e (clear_passesOver hl hs e ks)).1.symm.trans
    (runPlan_reading_none_iff hl hs he opens hks hnodup)

/-- The pass for a record stands between the passes for other keys. -/
theorem runsThrough_reading_split {d e : Directory α} (he : Retrying cyc rec d e)
    (opens : Str → Bool) {ks ls : List (ℕ × Level)} {k : ℕ × Level}
    (hsplit : mergeKeys cyc = ks ++ k :: ls) :
    RunsThrough (MergeIo.reading opens).pass e (passesOver cyc e ks) ↔ Reached cyc opens e k := by
  rw [reached_iff hsplit]
  apply runsThrough_reading_iff hl hs he opens
  · exact hsplit ▸ List.subset_append_left _ _
  · exact (List.nodup_append.mp (hsplit ▸ nodup_mergeKeys cyc)).1

theorem appends_reading_iff {d e : Directory α} (he : Retrying cyc rec d e) (opens : Str → Bool)
    {k : ℕ × Level} {f : Str} (hf : f ∈ e) (hfound : (mergePattern k.2 k.1).found f = true) :
    Appends (.reading opens) cyc e k f ↔ Reached cyc opens e k := by
  constructor
  · rintro ⟨-, -, -, ks, ls, hsplit, hthrough, -⟩
    exact (runsThrough_reading_split hl hs he opens hsplit).mp hthrough
  · intro h
    obtain ⟨ks, ls, hsplit, -⟩ := id h
    refine ⟨rfl, hfound, rfl, ks, ls, hsplit,
      (runsThrough_reading_split hl hs he opens hsplit).mpr h, ?_⟩
    have hseparate : Separate (passesOver cyc e (ks ++ k :: ls)) :=
      separate_mergePasses hl hs he.names (fun j hj => hsplit ▸ hj)
        (hsplit ▸ nodup_mergeKeys cyc)
    rw [passesOver_split] at hseparate
    apply not_removes_of_separate hseparate
    rw [sources_mergePass, mem_sortedNames]
    exact ⟨hf, hfound⟩

theorem mergedAway_reading_iff {d e : Directory α} (he : Retrying cyc rec d e)
    (opens : Str → Bool) (o : OutputName (perlGetNMembers cyc)) (hoe : o.fileName cyc ∈ e) :
    MergedAway (.reading opens) cyc e (o.fileName cyc) ↔
      Reached cyc opens e (o.em, o.lv) ∧ Opens opens e (o.em, o.lv) := by
  have hseparate := separate_mergePasses hl hs he.names (List.Subset.refl (mergeKeys cyc))
    (nodup_mergeKeys cyc)
  rw [MergedAway, deleted_iff_of_separate (clear_passesOver hl hs e _) hseparate]
  constructor
  · rintro ⟨-, pre, p, post, hplan, hmem, hreached, ⟨-, hcomplete⟩, -⟩
    obtain ⟨ks, ls', hkeys, rfl, hrest⟩ := List.map_eq_append_iff.mp hplan
    obtain ⟨k, ls, rfl, rfl, rfl⟩ := List.map_eq_cons_iff.mp hrest
    have hk : k ∈ mergeKeys cyc := hkeys ▸ List.mem_append_right ks List.mem_cons_self
    -- the pass is the record's own
    have hown : (o.em, o.lv) = k := by
      obtain ⟨hlv, hem⟩ := (mergePattern_found_output hl hs (perlGetNMembers_le cyc) o
        ((mem_mergeKeys.mp hk).trans_le (perlGetNMembers_le cyc))).mp
          (mem_mergePass_sources.mp hmem).2
      exact Prod.ext hem hlv
    rw [hown]
    have hthrough := (runPlan_clear (MergeIo.reading opens).pass e
      (clear_passesOver hl hs e ks)).1.mp hreached
    exact ⟨(runsThrough_reading_split hl hs he opens hkeys).mp hthrough,
      (complete_reading_iff hl hs he opens hk).mp hcomplete⟩
  · rintro ⟨hreached, hall⟩
    obtain ⟨ks, ls, hkeys, -⟩ := id hreached
    have hthrough := (runsThrough_reading_split hl hs he opens hkeys).mpr hreached
    refine ⟨rfl, passesOver cyc e ks, mergePass cyc (e.sortedNames gribPattern.found) o.em o.lv,
      passesOver cyc e ls, ?_, ?_, ?_, ⟨rfl, ?_⟩, rfl⟩
    · exact hkeys ▸ passesOver_split e ks ls (o.em, o.lv)
    · rw [sources_mergePass, mem_sortedNames]
      exact ⟨hoe, found_own hl hs o⟩
    · exact (runPlan_clear (MergeIo.reading opens).pass e
        (clear_passesOver hl hs e ks)).1.mpr hthrough
    · exact (complete_reading_iff hl hs he opens
        (mem_mergeKeys.mpr o.em_lt : (o.em, o.lv) ∈ mergeKeys cyc)).mpr hall

open Classical in
/-- What one call does to a conglomerate: nothing if an earlier pass stops the call; otherwise
the inputs that can be opened are appended. -/
theorem content_call {d e : Directory α} (he : Retrying cyc rec d e) (opens : Str → Bool)
    {mb : ℕ} (hmb : mb < perlGetNMembers cyc) (lv : Level) :
    (mergeRecords (.reading opens) cyc e).2.content (conglomerateName cyc mb lv) =
      e.content (conglomerateName cyc mb lv) ++
        if Reached cyc opens e (mb, lv) then
          (e.sortedNames (mergePattern lv mb).found).flatMap
            fun s => if opens s then e.content s else []
        else [] := by
  have hcontent := content_mergeRecords hl hs (.reading opens) e
    (mem_mergeKeys.mpr hmb : (mb, lv) ∈ mergeKeys cyc)
  rw [hcontent]
  apply congrArg
  have happends : ∀ s ∈ e.sortedNames (mergePattern lv mb).found,
      Appends (.reading opens) cyc e (mb, lv) s ↔ Reached cyc opens e (mb, lv) := by
    intro s hmem
    obtain ⟨hse, hfound⟩ := mem_sortedNames.mp hmem
    exact appends_reading_iff hl hs he opens hse hfound
  split_ifs with hreached
  · refine List.flatMap_congr fun s hmem => ?_
    rw [if_pos ((happends s hmem).mpr hreached)]
    exact copied_reading opens e s
  · refine List.flatMap_eq_nil_iff.mpr fun s hmem => ?_
    exact if_neg fun h => hreached ((happends s hmem).mp h)

open Classical in
/-- A record is deleted only if all inputs of its pass were appended. -/
theorem lookup_call {d e : Directory α} (he : Retrying cyc rec d e) (opens : Str → Bool)
    (o : OutputName (perlGetNMembers cyc)) :
    (mergeRecords (.reading opens) cyc e).2.lookup (o.fileName cyc) =
      if Reached cyc opens e (o.em, o.lv) ∧ Opens opens e (o.em, o.lv) then none
      else e.lookup (o.fileName cyc) := by
  rw [lookup_mergeRecords hl hs _ e fun k _ => output_ne_conglomerate hs o k.1 k.2]
  by_cases hoe : o.fileName cyc ∈ e
  · exact if_congr (mergedAway_reading_iff hl hs he opens o hoe) rfl rfl
  · rw [AList.lookup_eq_none.mpr hoe, ite_self, ite_self]

omit [Sized α] in
/-- An input of another conglomerate is another record. -/
theorem notMem_appended {d e : Directory α} (he : Retrying cyc rec d e) (opens : Str → Bool)
    (o : OutputName (perlGetNMembers cyc)) (ho : o.fileName cyc ∈ d) {mb : ℕ}
    (hmb : mb < perlGetNMembers cyc) {lv : Level} (hne : conglomerateName cyc mb lv ≠ o.home) :
    .whole (rec (o.fileName cyc)) ∉ (e.sortedNames (mergePattern lv mb).found).flatMap
      fun s => if opens s then e.content s else [] := by
  intro hmem
  obtain ⟨s, hs', hrec⟩ := List.mem_flatMap.mp hmem
  obtain ⟨-, hfound⟩ := mem_sortedNames.mp hs'
  split_ifs at hrec
  · refine he.confined o ho s ?_ ?_ hrec
    · rintro rfl
      obtain ⟨hlv, hem⟩ := (mergePattern_found_output hl hs (perlGetNMembers_le cyc) o
        (hmb.trans_le (perlGetNMembers_le cyc))).mp hfound
      apply hne
      rw [OutputName.home, hlv, hem]
    · rintro rfl
      rw [OutputName.home, mergePattern_found_conglomerate hl hs] at hfound
      exact Bool.false_ne_true hfound
  · exact List.not_mem_nil hrec

theorem Retrying.call {d e : Directory α} (he : Retrying cyc rec d e) (opens : Str → Bool) :
    Retrying cyc rec d (mergeRecords (.reading opens) cyc e).2 := by
  -- what is left besides the conglomerates is as it was
  have hother : ∀ f ∈ (mergeRecords (.reading opens) cyc e).2, ¬ IsConglomerate cyc f →
      (mergeRecords (.reading opens) cyc e).2.lookup f = e.lookup f ∧ f ∈ e := by
    classical
    intro f hf hcong
    have hlookup := lookup_mergeRecords hl hs (.reading opens) e fun k hk hfk =>
      hcong ⟨k.1, mem_mergeKeys.mp hk, k.2, hfk⟩
    split_ifs at hlookup
    · exact absurd hf (AList.lookup_eq_none.mp hlookup)
    · refine ⟨hlookup, ?_⟩
      rw [← AList.lookup_isSome, ← hlookup]
      exact AList.lookup_isSome.mpr hf
  constructor
  · intro f hf hgrib
    by_cases hcong : IsConglomerate cyc f
    · exact .inr hcong
    · exact he.names f (hother f hf hcong).2 hgrib
  · rintro f hf ⟨o, rfl⟩
    have hcong : ¬ IsConglomerate cyc (o.fileName cyc) := by
      rintro ⟨mb', -, lv', h⟩
      exact output_ne_conglomerate hs o mb' lv' h
    obtain ⟨hlookup, hfe⟩ := hother _ hf hcong
    rw [content_congr hlookup]
    exact he.record _ hfe ⟨o, rfl⟩
  · intro o ho g hgf hgh hmem
    by_cases hcong : IsConglomerate cyc g
    · obtain ⟨mb, hmb, lv, rfl⟩ := hcong
      rw [content_call hl hs he opens hmb, List.mem_append] at hmem
      have happended := hmem.resolve_left (he.confined o ho _ hgf hgh)
      split_ifs at happended
      · exact notMem_appended hl hs he opens o ho hmb hgh happended
      · exact List.not_mem_nil happended
    · obtain ⟨hlookup, -⟩ := hother g (mem_of_mem_content hmem) hcong
      rw [content_congr hlookup] at hmem
      exact he.confined o ho g hgf hgh hmem

end Digits

section Counting
variable [DecidableEq α]

/-- Each record of `d` is once in the conglomerate that its name matches, and nowhere else. -/
def MergedOnce (cyc : Str) (rec : Str → α) (d d' : Directory α) : Prop :=
  ∀ f ∈ d, ∀ mb < perlGetNMembers cyc, ∀ lv, (mergePattern lv mb).found f = true →
    (d'.content (conglomerateName cyc mb lv)).count (.whole (rec f)) = 1 ∧
      ∀ g, g ≠ conglomerateName cyc mb lv → .whole (rec f) ∉ d'.content g

def copies (rec : Str → α) (e : Directory α) (o : OutputName (perlGetNMembers cyc)) : ℕ :=
  (e.content o.home).count (.whole (rec (o.fileName cyc))) +
    (e.content (o.fileName cyc)).count (.whole (rec (o.fileName cyc)))

variable (hl : cyc.length = 10) (hs : ∀ c ∈ cyc, c.isDigit)
include hl hs

omit [Sized α] in
theorem count_appended {d e : Directory α} (he : Retrying cyc rec d e) (opens : Str → Bool)
    (o : OutputName (perlGetNMembers cyc)) (ho : o.fileName cyc ∈ d) :
    ((e.sortedNames (mergePattern o.lv o.em).found).flatMap
        fun s => if opens s then e.content s else []).count (.whole (rec (o.fileName cyc))) =
      if o.fileName cyc ∈ e ∧ opens (o.fileName cyc) = true then 1 else 0 := by
  have hothers : ∀ s ∈ e.sortedNames (mergePattern o.lv o.em).found, s ≠ o.fileName cyc →
      .whole (rec (o.fileName cyc)) ∉ (if opens s then e.content s else []) := by
    intro s hmem hne
    split_ifs
    · refine he.confined o ho s hne ?_
      rintro rfl
      have hfound := (mem_sortedNames.mp hmem).2
      rw [OutputName.home, mergePattern_found_conglomerate hl hs] at hfound
      exact absurd hfound Bool.false_ne_true
    · exact List.not_mem_nil
  have hmem : o.fileName cyc ∈ e.sortedNames (mergePattern o.lv o.em).found ↔
      o.fileName cyc ∈ e := by
    rw [mem_sortedNames]
    exact and_iff_left (found_own hl hs o)
  rw [count_flatMap_of_single (e.nodup_sortedNames _) hothers]
  simp only [hmem]
  by_cases hoe : o.fileName cyc ∈ e
  · have hrec := (he.record _ hoe ⟨o, rfl⟩).2
    by_cases hopen : opens (o.fileName cyc) = true
    · rw [if_pos hoe, if_pos hopen, if_pos ⟨hoe, hopen⟩, hrec, List.count_singleton_self]
    · rw [if_pos hoe, if_neg hopen, if_neg fun h => hopen h.2, List.count_nil]
  · rw [if_neg hoe, if_neg fun h => hoe h.1]

omit [Sized α] [DecidableEq α] in
theorem repeated_iff {e : Directory α} (opens : Str → Bool)
    (o : OutputName (perlGetNMembers cyc)) :
    Repeated cyc opens e (o.fileName cyc) ↔ o.fileName cyc ∈ e ∧ opens (o.fileName cyc) = true ∧
      Reached cyc opens e (o.em, o.lv) ∧ ¬ Opens opens e (o.em, o.lv) := by
  refine and_congr_right fun _ => and_congr_right fun _ => ⟨?_, fun h => ?_⟩
  · rintro ⟨⟨mb, lv⟩, hfound, hreached, hopens⟩
    obtain ⟨ks, ls, hsplit, -⟩ := id hreached
    have hmb : mb < perlGetNMembers cyc := mem_mergeKeys.mp
      (hsplit ▸ List.mem_append_right ks List.mem_cons_self : (mb, lv) ∈ mergeKeys cyc)
    obtain ⟨rfl, rfl⟩ := (mergePattern_found_output hl hs (perlGetNMembers_le cyc) o
      (hmb.trans_le (perlGetNMembers_le cyc))).mp hfound
    exact ⟨hreached, hopens⟩
  · exact ⟨(o.em, o.lv), found_own hl hs o, h.1, h.2⟩

/-- One call adds a copy of a record exactly when it opens it in the pass that stops. -/
theorem copies_call {d e : Directory α} (he : Retrying cyc rec d e) (opens : Str → Bool)
    (o : OutputName (perlGetNMembers cyc)) (ho : o.fileName cyc ∈ d) :
    (Repeated cyc opens e (o.fileName cyc) →
      copies rec (mergeRecords (.reading opens) cyc e).2 o = copies rec e o + 1) ∧
    (¬ Repeated cyc opens e (o.fileName cyc) →
      copies rec (mergeRecords (.reading opens) cyc e).2 o = copies rec e o) := by
  classical
  have hcontent := content_call hl hs he opens o.em_lt o.lv
  have hfile := lookup_call hl hs he opens o
  have hcount := count_appended hl hs he opens o ho
  rw [repeated_iff hl hs]
  by_cases hr : Reached cyc opens e (o.em, o.lv)
  · have hhome : ((mergeRecords (.reading opens) cyc e).2.content o.home).count
        (.whole (rec (o.fileName cyc))) = (e.content o.home).count
          (.whole (rec (o.fileName cyc))) +
          if o.fileName cyc ∈ e ∧ opens (o.fileName cyc) = true then 1 else 0 := by
      rw [OutputName.home, hcontent, if_pos hr, List.count_append, hcount]
    by_cases hall : Opens opens e (o.em, o.lv)
    · refine ⟨fun h => absurd hall h.2.2.2, fun _ => ?_⟩
      rw [copies, copies, hhome, content_eq_nil (hfile.trans (if_pos ⟨hr, hall⟩)),
        List.count_nil]
      by_cases hoe : o.fileName cyc ∈ e
      · have hopen := hall _ hoe (found_own hl hs o)
        rw [if_pos ⟨hoe, hopen⟩, (he.record _ hoe ⟨o, rfl⟩).2, List.count_singleton_self]
      · rw [if_neg fun h => hoe h.1, content_eq_nil (AList.lookup_eq_none.mpr hoe),
          List.count_nil]
    · have hsame := content_congr (hfile.trans (if_neg fun h => hall h.2))
      refine ⟨fun h => ?_, fun h => ?_⟩
      · rw [copies, copies, hhome, hsame, if_pos ⟨h.1, h.2.1⟩]
        omega
      · rw [copies, copies, hhome, hsame, if_neg fun hc => h ⟨hc.1, hc.2, hr, hall⟩]
        rfl
  · refine ⟨fun h => absurd h.2.2.1 hr, fun _ => ?_⟩
    rw [copies, copies, content_congr (hfile.trans (if_neg fun h => hr h.1)), OutputName.home,
      hcontent, if_neg hr, List.append_nil]

omit [DecidableEq α] in
theorem Retrying.calls {d e : Directory α} (he : Retrying cyc rec d e)
    (calls : List (Str → Bool)) : Retrying cyc rec d (retried cyc calls e) := by
  induction calls generalizing e with
  | nil => exact he
  | cons opens calls ih => exact ih (he.call hl hs opens)

theorem copies_le_retried {d e : Directory α} (he : Retrying cyc rec d e)
    (calls : List (Str → Bool)) (o : OutputName (perlGetNMembers cyc)) (ho : o.fileName cyc ∈ d) :
    copies rec e o ≤ copies rec (retried cyc calls e) o := by
  induction calls generalizing e with
  | nil => exact le_rfl
  | cons opens calls ih =>
    obtain ⟨hadd, hsame⟩ := copies_call hl hs he opens o ho
    refine le_trans ?_ (ih (he.call hl hs opens))
    by_cases h : Repeated cyc opens e (o.fileName cyc)
    · rw [hadd h]
      exact Nat.le_succ _
    · exact (hsame h).ge

theorem copies_retried_eq_iff {d e : Directory α} (he : Retrying cyc rec d e)
    (calls : List (Str → Bool)) (o : OutputName (perlGetNMembers cyc)) (ho : o.fileName cyc ∈ d) :
    copies rec (retried cyc calls e) o = copies rec e o ↔ ∀ pre opens post,
      calls = pre ++ opens :: post →
        ¬ Repeated cyc opens (retried cyc pre e) (o.fileName cyc) := by
  induction calls generalizing e with
  | nil => simp [retried]
  | cons opens calls ih =>
    obtain ⟨hadd, hsame⟩ := copies_call hl hs he opens o ho
    have hcall := he.call hl hs opens
    have hle := copies_le_retried hl hs hcall calls o ho
    have hiff := ih hcall
    constructor
    · intro heq pre opens' post hsplit
      have hfirst : ¬ Repeated cyc opens e (o.fileName cyc) := by
        intro h
        have hlate : copies rec (retried cyc calls (mergeRecords (.reading opens) cyc e).2) o =
          copies rec e o := heq
        have := hadd h
        omega
      cases pre with
      | nil =>
        obtain ⟨rfl, rfl⟩ := List.cons.inj hsplit
        exact hfirst
      | cons opens'' pre =>
        obtain ⟨rfl, hrest⟩ := List.cons.inj hsplit
        exact hiff.mp (heq.trans (hsame hfirst).symm) pre opens' post hrest
    · intro h
      have hrest := hiff.mpr fun pre opens' post hsplit =>
        h (opens :: pre) opens' post (by rw [hsplit, List.cons_append])
      exact hrest.trans (hsame (h [] opens calls rfl))

omit [DecidableEq α] in
/-- A call that returns 0 opened every input. -/
theorem code_reading_eq_zero_iff {d e : Directory α} (he : Retrying cyc rec d e)
    {opens : Str → Bool} : (mergeRecords (.reading opens) cyc e).1 = 0 ↔
      e.sortedNames gribPattern.found ≠ [] ∧ ∀ k ∈ mergeKeys cyc, Opens opens e k := by
  rw [mergeRecords, cyclePattern_found hl hs]
  simp only [Bool.not_true, Bool.false_eq_true, if_false, MergeIo.reading]
  split_ifs with hnone
  · exact iff_of_false (show (-16 : ℤ) ≠ 0 by decide) fun h => h.1 hnone
  · have hcode := runPlan_code (fun _ => readingIo opens)
      (mergePlan cyc (e.sortedNames gribPattern.found)) e
    have hall := runPlan_reading_none_iff hl hs he opens (List.Subset.refl (mergeKeys cyc))
      (nodup_mergeKeys cyc)
    rw [mergePlan] at hcode
    rw [mergePlan, and_iff_right hnone, ← hall]
    generalize runPlan (fun _ => readingIo opens)
      (mergePasses cyc (e.sortedNames gribPattern.found) (mergeKeys cyc)) e = r at hcode
    obtain ⟨_ | code, d'⟩ := r
    · exact iff_of_true rfl rfl
    · exact iff_of_false (fun h0 => hcode (congrArg some h0)) (Option.some_ne_none code)

omit [Sized α] hl hs in
theorem copies_start {d : Directory α} (hd : OneEach cyc rec d)
    (hs : ∀ c ∈ cyc, c.isDigit) (o : OutputName (perlGetNMembers cyc))
    (ho : o.fileName cyc ∈ d) : copies rec d o = 1 := by
  have hhome := hd.alone _ ho ⟨o, rfl⟩ o.home (output_ne_conglomerate hs o _ _).symm
  rw [copies, List.count_eq_zero.mpr hhome, hd.record _ ho ⟨o, rfl⟩, List.count_singleton_self]

/-- After a call that opens every input the inputs are gone, and all copies of their records are
in the conglomerates. -/
theorem content_of_opens {d e : Directory α} (he : Retrying cyc rec d e) {opens : Str → Bool}
    (hopens : ∀ k ∈ mergeKeys cyc, Opens opens e k) (o : OutputName (perlGetNMembers cyc))
    (ho : o.fileName cyc ∈ d) :
    (mergeRecords (.reading opens) cyc e).2.content (o.fileName cyc) = [] ∧
      ((mergeRecords (.reading opens) cyc e).2.content o.home).count
        (.whole (rec (o.fileName cyc))) = copies rec e o := by
  classical
  have hkey : (o.em, o.lv) ∈ mergeKeys cyc := mem_mergeKeys.mpr o.em_lt
  have hgone : (mergeRecords (.reading opens) cyc e).2.content (o.fileName cyc) = [] := by
    refine content_eq_nil ((lookup_call hl hs he opens o).trans (if_pos ⟨?_, hopens _ hkey⟩))
    obtain ⟨ks, ls, hsplit, -, -⟩ := mergeKeys_split hkey
    exact ⟨ks, ls, hsplit, fun j hj => hopens j (hsplit ▸ List.mem_append_left _ hj)⟩
  have hlast : copies rec (mergeRecords (.reading opens) cyc e).2 o = copies rec e o :=
    (copies_call hl hs he opens o ho).2 fun h =>
      ((repeated_iff hl hs opens o).mp h).2.2.2 (hopens _ hkey)
  rw [copies, hgone, List.count_nil, Nat.add_zero] at hlast
  exact ⟨hgone, hlast⟩

/-- Calls that end with one returning 0 leave each record once in its conglomerate exactly
when no call opened a record in the pass that stopped it. -/
theorem mergeRecords_once_iff {d : Directory α} (hd : OneEach cyc rec d)
    (calls : List (Str → Bool)) (last : Str → Bool)
    (h0 : (mergeRecords (.reading last) cyc (retried cyc calls d)).1 = 0) :
    MergedOnce cyc rec d (mergeRecords (.reading last) cyc (retried cyc calls d)).2 ↔
      ∀ pre opens post, calls = pre ++ opens :: post →
        ∀ f ∈ d, ¬ Repeated cyc opens (retried cyc pre d) f := by
  have hstart := retrying_start hd
  have hlate := hstart.calls hl hs calls
  have hend := hlate.call hl hs last
  have hlast := fun o ho =>
    content_of_opens hl hs hlate ((code_reading_eq_zero_iff hl hs hlate).mp h0).2 o ho
  have hcount : ∀ o : OutputName (perlGetNMembers cyc), o.fileName cyc ∈ d →
      (((mergeRecords (.reading last) cyc (retried cyc calls d)).2.content o.home).count
          (.whole (rec (o.fileName cyc))) = 1 ↔
        ∀ pre opens post, calls = pre ++ opens :: post →
          ¬ Repeated cyc opens (retried cyc pre d) (o.fileName cyc)) := by
    intro o ho
    rw [(hlast o ho).2, ← copies_retried_eq_iff hl hs hstart calls o ho, copies_start hd hs o ho]
  constructor
  · rintro h pre opens post hsplit f hf hrep
    obtain ⟨-, -, ⟨mb, lv⟩, hfound, ⟨ks, ls, hkeys, -⟩, -⟩ := id hrep
    have hmb : mb < perlGetNMembers cyc := mem_mergeKeys.mp
      (hkeys ▸ List.mem_append_right ks List.mem_cons_self : (mb, lv) ∈ mergeKeys cyc)
    obtain ⟨o, rfl, rfl, rfl⟩ := output_of_mergePattern hl hs hd.names hmb hf hfound
    exact (hcount o hf).mp (h _ hf _ hmb _ hfound).1 pre opens post hsplit hrep
  · intro h f hf mb hmb lv hfound
    obtain ⟨o, rfl, rfl, rfl⟩ := output_of_mergePattern hl hs hd.names hmb hf hfound
    refine ⟨(hcount o hf).mpr fun pre opens post hsplit => h pre opens post hsplit _ hf,
      fun g hg => ?_⟩
    by_cases hgf : g = o.fileName cyc
    · rw [hgf, (hlast o hf).1]
      exact List.not_mem_nil
    · exact hend.confined o hf g hgf hg

end Counting

def soilRecordLater : OutputName (perlGetNMembers "2021010100".toList) :=
  { soilRecord with
    fff := 12
    fff_lt := by decide
    em_lt := soilRecord_em_lt
    llll_lt := soilRecord_llll_lt }

def earlierName : Str := soilRecord.fileName "2021010100".toList

def laterName : Str := soilRecordLater.fileName "2021010100".toList

def soilPair : Directory UInt8 :=
  (AList.singleton earlierName [.whole 71]).insert laterName [.whole 82]

theorem oneEach_soilPair :
    OneEach "2021010100".toList (fun f => if f = earlierName then 71 else 82) soilPair := by
  have hne : laterName ≠ earlierName := by decide +kernel
  have hlater : soilPair.lookup laterName = some [.whole 82] := AList.lookup_insert _
  have hearlier : soilPair.lookup earlierName = some [.whole 71] :=
    (AList.lookup_insert_ne hne.symm).trans rfl
  have hother : ∀ g, g ≠ laterName → g ≠ earlierName → soilPair.content g = [] := by
    intro g hgl hge
    refine content_eq_nil ((AList.lookup_insert_ne hgl).trans (AList.lookup_eq_none.mpr ?_))
    exact fun h => hge (List.mem_singleton.mp (AList.mem_keys.mp h))
  have hmem : ∀ f ∈ soilPair, f = laterName ∨ f = earlierName := by
    intro f hf
    refine ((AList.mem_insert _).mp hf).imp id fun h => ?_
    exact List.mem_singleton.mp (AList.mem_keys.mp h)
  constructor
  · intro f hf _
    rcases hmem f hf with rfl | rfl
    · exact .inl ⟨soilRecordLater, rfl⟩
    · exact .inl ⟨soilRecord, rfl⟩
  · intro f hf _
    rcases hmem f hf with rfl | rfl
    · rw [content_eq_of_lookup hlater, if_neg hne]
    · rw [content_eq_of_lookup hearlier, if_pos rfl]
  · intro f hf _ g hgf
    by_cases hgl : g = laterName
    · subst hgl
      obtain rfl := (hmem f hf).resolve_left (Ne.symm hgf)
      rw [content_eq_of_lookup hlater, if_pos rfl]
      decide
    · by_cases hge : g = earlierName
      · subst hge
        obtain rfl := (hmem f hf).resolve_right (Ne.symm hgf)
        rw [content_eq_of_lookup hearlier, if_neg hne]
        decide
      · rw [hother g hgl hge]
        exact List.not_mem_nil

theorem retrying_soilPair : Retrying "2021010100".toList (fun f => if f = earlierName then 71 else 82)
    soilPair soilPair := retrying_start oneEach_soilPair

theorem mem_soilPair : earlierName ∈ soilPair ∧ laterName ∈ soilPair :=
  ⟨(AList.mem_insert _).mpr (.inr (List.mem_singleton_self _)), (AList.mem_insert _).mpr (.inl rfl)⟩

/-- After a call that cannot open the later record, one that can open everything returns 0. -/
theorem code_after_call {opens : Str → Bool} (h : opens laterName = false) :
    (mergeRecords (.reading fun _ => true) "2021010100".toList
      (retried "2021010100".toList [opens] soilPair)).1 = 0 := by
  classical
  have hs : ∀ c ∈ "2021010100".toList, c.isDigit = true := by simp
  have hcall := lookup_call rfl hs retrying_soilPair opens soilRecord
  have hkept : earlierName ∈ retried "2021010100".toList [opens] soilPair := by
    rw [if_neg] at hcall
    · rw [← AList.lookup_isSome]
      exact (congrArg Option.isSome hcall).trans (AList.lookup_isSome.mpr mem_soilPair.1)
    · rintro ⟨-, hall⟩
      have hfound := found_own rfl hs soilRecordLater
      exact Bool.false_ne_true (h.symm.trans (hall laterName mem_soilPair.2 hfound))
  have hretrying := retrying_soilPair.calls rfl hs [opens]
  refine (code_reading_eq_zero_iff rfl hs hretrying).mpr ⟨?_, fun _ _ _ _ _ => rfl⟩
  have hgrib := gribPattern_found_output rfl hs (perlGetNMembers_le _) soilRecord
  exact List.ne_nil_of_mem (mem_sortedNames.mpr ⟨hkept, hgrib⟩)

/-- A call that opens nothing and one that opens everything. -/
theorem mergeRecords_once_soil :
    MergedOnce "2021010100".toList (fun f => if f = earlierName then 71 else 82) soilPair
      (mergeRecords (.reading fun _ => true) "2021010100".toList
        (retried "2021010100".toList [fun _ => false] soilPair)).2 := by
  refine (mergeRecords_once_iff rfl (by simp) oneEach_soilPair [fun _ => false] (fun _ => true)
    (code_after_call rfl)).mpr fun pre opens post hsplit f _ hrep => ?_
  have hopens : opens = fun _ => false :=
    List.mem_singleton.mp (hsplit ▸ List.mem_append_right pre List.mem_cons_self)
  exact Bool.false_ne_true ((congrFun hopens f).symm.trans hrep.2.1)

theorem repeated_earlier :
    Repeated "2021010100".toList (fun f => f = earlierName) soilPair earlierName := by
  have hs : ∀ c ∈ "2021010100".toList, c.isDigit = true := by simp
  have hne : laterName ≠ earlierName := by decide +kernel
  refine (repeated_iff rfl hs _ soilRecord).mpr ⟨mem_soilPair.1, decide_eq_true rfl, ?_, fun h => ?_⟩
  · obtain ⟨ks, ls, hsplit, hks, -⟩ := mergeKeys_split
      (mem_mergeKeys.mpr soilRecord.em_lt :
        (soilRecord.em, soilRecord.lv) ∈ mergeKeys "2021010100".toList)
    refine ⟨ks, ls, hsplit, fun j hj f hf hfound => ?_⟩
    have hj31 : j.1 < 31 :=
      (mem_mergeKeys.mp (hsplit ▸ List.mem_append_left _ hj :
        j ∈ mergeKeys "2021010100".toList)).trans_le (perlGetNMembers_le _)
    -- both records are inputs of the pass that stops, so no earlier pass has an input
    have hown : ∀ o : OutputName (perlGetNMembers "2021010100".toList),
        (o.em, o.lv) = (soilRecord.em, soilRecord.lv) →
          (mergePattern j.2 j.1).found (o.fileName "2021010100".toList) = true → False := by
      intro o ho hfound
      obtain ⟨hlv, hem⟩ := (mergePattern_found_output rfl hs (perlGetNMembers_le _) o hj31).mp hfound
      exact hks (ho ▸ (Prod.ext hem hlv : (o.em, o.lv) = j) ▸ hj)
    rcases (AList.mem_insert _).mp hf with rfl | hf
    · exact (hown soilRecordLater rfl hfound).elim
    · obtain rfl : f = earlierName := List.mem_singleton.mp (AList.mem_keys.mp hf)
      exact (hown soilRecord rfl hfound).elim
  · have hopen := h laterName mem_soilPair.2 (found_own rfl hs soilRecordLater)
    exact hne (of_decide_eq_true hopen)

/-- A call that opens the earlier record only leaves it twice in the conglomerate. -/
theorem mergeRecords_not_once :
    (mergeRecords (.reading fun _ => true) "2021010100".toList
      (retried "2021010100".toList [fun f => f = earlierName] soilPair)).1 = 0 ∧
    ((mergeRecords (.reading fun _ => true) "2021010100".toList
      (retried "2021010100".toList [fun f => f = earlierName] soilPair)).2.content
        (conglomerateName "2021010100".toList 1 .sl)).count (.whole 71) = 2 := by
  have hs : ∀ c ∈ "2021010100".toList, c.isDigit = true := by simp
  refine ⟨code_after_call (by decide +kernel), ?_⟩
  have hretrying := retrying_soilPair.calls rfl hs [fun f => f = earlierName]
  have hlast := (content_of_opens rfl hs hretrying
    (fun _ _ _ _ _ => rfl : ∀ k ∈ mergeKeys _, Opens (fun _ => true) _ k) soilRecord mem_soilPair.1).2
  have hfirst := (copies_call rfl hs retrying_soilPair _ soilRecord mem_soilPair.1).1 repeated_earlier
  rw [copies_start oneEach_soilPair hs soilRecord mem_soilPair.1] at hfirst
  have hrec : (if earlierName = earlierName then (71 : UInt8) else 82) = 71 := if_pos rfl
  exact hrec ▸ hlast.trans hfirst

end Tigge
