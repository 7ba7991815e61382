import Tigge.Merge

/-! What `mergeRecords` does to the files when every operation succeeds. -/

namespace Tigge
open Lib Lib.Directory
variable {α : Type*} [Sized α] {cyc : Str}

/-- What a conglomerate holds after its inputs are appended in name order. -/
def conglomerated (cyc : Str) (d : Directory α) (mb : ℕ) (lv : Level) : List (Chunk α) :=
  d.content (conglomerateName cyc mb lv) ++
    (d.sortedNames (mergePattern lv mb).found).flatMap d.content

/-- `d'` holds the files of `d` with the inputs moved into the conglomerates. -/
structure Conserved (cyc : Str) (d d' : Directory α) : Prop where
  conglomerate : ∀ mb < perlGetNMembers cyc, ∀ lv,
    d'.lookup (conglomerateName cyc mb lv) =
      if conglomerated cyc d mb lv = [] then none else some (conglomerated cyc d mb lv)
  deleted : ∀ f, ∀ mb < perlGetNMembers cyc, ∀ lv, (mergePattern lv mb).found f = true →
    d'.lookup f = none
  unique : ∀ f, IsOutput cyc f →
    ∃! k : ℕ × Level, k.1 < perlGetNMembers cyc ∧ (mergePattern k.2 k.1).found f = true
  notInput : ∀ mb lv mb' lv', (mergePattern lv mb).found (conglomerateName cyc mb' lv') = false
  unchanged : ∀ f, ¬ (f ∈ d ∧ IsOutput cyc f) → ¬ IsConglomerate cyc f → d'.lookup f = d.lookup f

/-- The `.grib` files of the directory are records and conglomerates of the cycle. -/
def RecordsOf (cyc : Str) (d : Directory α) : Prop :=
  ∀ f ∈ d, gribPattern.found f = true → IsOutput cyc f ∨ IsConglomerate cyc f

omit [Sized α] in
theorem sources_mergePass (d : Directory α) (mb : ℕ) (lv : Level) :
    (mergePass cyc (d.sortedNames gribPattern.found) mb lv).sources =
      d.sortedNames (mergePattern lv mb).found := by
  rw [mergePass, sortedNames_filter]
  refine congrArg d.sortedNames (funext fun f => ?_)
  rw [Bool.and_eq_right_iff_imp]
  exact gribPattern_of_mergePattern

section Digits
variable (hl : cyc.length = 10) (hs : ∀ c ∈ cyc, c.isDigit)
include hl hs

theorem unique_output {f : Str} (hf : IsOutput cyc f) :
    ∃! k : ℕ × Level, k.1 < perlGetNMembers cyc ∧ (mergePattern k.2 k.1).found f = true := by
  obtain ⟨o, rfl⟩ := hf
  have hiff : ∀ k : ℕ × Level, k.1 < perlGetNMembers cyc →
      ((mergePattern k.2 k.1).found (o.fileName cyc) = true ↔ o.lv = k.2 ∧ o.em = k.1) :=
    fun k hk => mergePattern_found_output hl hs (perlGetNMembers_le cyc) o
      (hk.trans_le (perlGetNMembers_le cyc))
  refine ⟨(o.em, o.lv), ⟨o.em_lt, (hiff _ o.em_lt).mpr ⟨rfl, rfl⟩⟩, fun k hk => ?_⟩
  obtain ⟨hlv, hem⟩ := (hiff k hk.1).mp hk.2
  exact Prod.ext hem.symm hlv.symm

omit [Sized α] in
theorem output_of_mergePattern {e : Directory α} (he : RecordsOf cyc e) {mb : ℕ} {lv : Level}
    (hmb : mb < perlGetNMembers cyc) {f : Str} (hf : f ∈ e)
    (hfound : (mergePattern lv mb).found f = true) :
    ∃ o : OutputName (perlGetNMembers cyc), f = o.fileName cyc ∧ o.em = mb ∧ o.lv = lv := by
  rcases he f hf (gribPattern_of_mergePattern hfound) with ⟨o, rfl⟩ | ⟨mb', _, lv', rfl⟩
  · obtain ⟨hlv, hem⟩ := (mergePattern_found_output hl hs (perlGetNMembers_le cyc) o
      (hmb.trans_le (perlGetNMembers_le cyc))).mp hfound
    exact ⟨o, rfl, hem, hlv⟩
  · rw [mergePattern_found_conglomerate hl hs] at hfound
    exact absurd hfound Bool.false_ne_true

omit [Sized α] in
theorem conserved_of_no_grib {d : Directory α} (h : d.sortedNames gribPattern.found = []) :
    Conserved cyc d d := by
  have hnone : ∀ f, gribPattern.found f = true → d.lookup f = none := by
    intro f hf
    rw [AList.lookup_eq_none]
    intro hmem
    have := mem_sortedNames.mpr ⟨hmem, hf⟩
    rw [h] at this
    exact absurd this List.not_mem_nil
  have hnames : ∀ mb lv, d.sortedNames (mergePattern lv mb).found = [] := by
    intro mb lv
    have hsources : (mergePass cyc (d.sortedNames gribPattern.found) mb lv).sources =
      d.sortedNames (mergePattern lv mb).found := sources_mergePass d mb lv
    rw [← hsources, mergePass, h]
    rfl
  refine ⟨fun mb _ lv => ?_, fun f mb _ lv hf => hnone f (gribPattern_of_mergePattern hf),
    fun f => unique_output hl hs, fun mb lv mb' lv' => mergePattern_found_conglomerate hl hs ..,
    fun f _ _ => rfl⟩
  have hgrib : gribPattern.found (conglomerateName cyc mb lv) = true := by
    refine found_iff_of_tail_none.mpr ⟨['_'].intercalate ["z".toList, "tigge".toList, "c".toList,
      "kwbc".toList, cyc ++ "0000".toList, "glob".toList, "prod".toList, forecastKind mb, lv.code,
      padded 3 mb], ".grib".toList, [], ?_, accepted_literal.mpr rfl, fun _ => .inl rfl⟩
    simp [conglomerateName, conglomerateTokens, List.intercalate]
  rw [conglomerated, content_eq_nil (hnone _ hgrib), hnames]
  exact hnone _ hgrib

omit [Sized α] hl hs in
theorem untouched_mergePlan {d : Directory α} (hd : RecordsOf cyc d) {f : Str}
    (hout : ¬ (f ∈ d ∧ IsOutput cyc f)) (hcong : ¬ IsConglomerate cyc f) :
    Untouched f (mergePlan cyc (d.sortedNames gribPattern.found)) := by
  intro p hp
  obtain ⟨j, hj, rfl⟩ := List.mem_map.mp hp
  refine ⟨fun h => hcong ⟨j.1, mem_mergeKeys.mp hj, j.2, h⟩, fun h => ?_⟩
  obtain ⟨hfd, hgrib⟩ := mem_sortedNames.mp (mem_mergePass_sources.mp h).1
  exact (hd f hfd hgrib).elim (fun ho => hout ⟨hfd, ho⟩) hcong

omit [Sized α] in
theorem notMem_own_sources (d : Directory α) (mb : ℕ) (lv : Level) :
    conglomerateName cyc mb lv ∉ d.sortedNames (mergePattern lv mb).found := by
  rw [mem_sortedNames, mergePattern_found_conglomerate hl hs]
  simp

/-- The pass of a conglomerate finds it and its inputs as they were before the call. -/
theorem lookup_conglomerate_runPlan {d : Directory α} (hd : RecordsOf cyc d) {mb : ℕ}
    (hmb : mb < perlGetNMembers cyc) (lv : Level) :
    (runPlan (fun _ => .smooth) (mergePlan cyc (d.sortedNames gribPattern.found)) d).2.lookup
      (conglomerateName cyc mb lv) =
      if conglomerated cyc d mb lv = [] then none else some (conglomerated cyc d mb lv) := by
  obtain ⟨ks, ls, -, hplan, hrest⟩ :=
    mergePlan_split hl hs (d.sortedNames gribPattern.found) hmb lv
  obtain ⟨hpre, houtput⟩ := hrest ks (.inl rfl)
  have hpost := (hrest ls (.inr rfl)).1
  generalize hp : mergePass cyc (d.sortedNames gribPattern.found) mb lv = p at hplan
  have htarget : p.target = conglomerateName cyc mb lv := hp ▸ rfl
  have hsources : p.sources = d.sortedNames (mergePattern lv mb).found :=
    hp ▸ sources_mergePass d mb lv
  obtain ⟨e, he, hrun⟩ := runPlan_smooth_split (mergePasses cyc _ ks) (mergePasses cyc _ ls) p d
  have hnotMem : p.target ∉ p.sources := by
    rw [htarget, hsources]
    exact notMem_own_sources hl hs d mb lv
  -- the inputs of this pass are still as they were when it starts
  have hcontent : p.sources.flatMap e.content = p.sources.flatMap d.content := by
    rw [hsources]
    refine List.flatMap_congr fun f hf => content_congr (he f ?_)
    obtain ⟨hfd, hfound⟩ := mem_sortedNames.mp hf
    obtain ⟨o, rfl, hem, hlv⟩ := output_of_mergePattern hl hs hd hmb hfd hfound
    exact houtput o hem hlv
  have hlookup := lookup_runPass_smooth (d := e) hnotMem
  rw [hcontent, htarget, content_congr (he _ hpre), hsources] at hlookup
  rw [hplan, hrun _ hpost, hlookup]
  rfl

theorem lookup_input_runPlan {d : Directory α} (hd : RecordsOf cyc d) {f : Str} {mb : ℕ}
    (hmb : mb < perlGetNMembers cyc) {lv : Level} (hfound : (mergePattern lv mb).found f = true) :
    (runPlan (fun _ => .smooth) (mergePlan cyc (d.sortedNames gribPattern.found)) d).2.lookup f =
      none := by
  have hne : ∀ mb' lv', f ≠ conglomerateName cyc mb' lv' := by
    rintro mb' lv' rfl
    rw [mergePattern_found_conglomerate hl hs] at hfound
    exact absurd hfound Bool.false_ne_true
  by_cases hfd : f ∈ d
  · obtain ⟨o, rfl, hem, hlv⟩ := output_of_mergePattern hl hs hd hmb hfd hfound
    obtain ⟨ks, ls, -, hplan, hrest⟩ :=
      mergePlan_split hl hs (d.sortedNames gribPattern.found) hmb lv
    obtain ⟨e, -, hrun⟩ := runPlan_smooth_split (mergePasses cyc _ ks) (mergePasses cyc _ ls)
      (mergePass cyc (d.sortedNames gribPattern.found) mb lv) d
    rw [hplan, hrun _ ((hrest ls (.inr rfl)).2 o hem hlv), lookup_runPass_source (hne mb lv),
      if_pos ⟨runPass_smooth _ _, rfl⟩]
    rw [sources_mergePass, mem_sortedNames]
    exact ⟨hfd, hfound⟩
  · rw [mergePlan, runPlan_frame ?_ d, AList.lookup_eq_none.mpr hfd]
    intro p hp
    obtain ⟨j, _, rfl⟩ := List.mem_map.mp hp
    exact ⟨hne _ _, fun h => hfd (mem_sortedNames.mp (mem_mergePass_sources.mp h).1).1⟩

theorem conserved_runPlan {d : Directory α} (hd : RecordsOf cyc d) :
    Conserved cyc d
      (runPlan (fun _ => .smooth) (mergePlan cyc (d.sortedNames gribPattern.found)) d).2 where
  unique _ := unique_output hl hs
  notInput _ _ _ _ := mergePattern_found_conglomerate hl hs ..
  conglomerate _ hmb lv := lookup_conglomerate_runPlan hl hs hd hmb lv
  deleted _ _ hmb _ hfound := lookup_input_runPlan hl hs hd hmb hfound
  unchanged _ hout hcong := runPlan_frame (untouched_mergePlan hd hout hcong) d

omit [Sized α] in
/-- What is left after a call is conglomerates, which another call leaves as they are. -/
theorem Conserved.again {d d' d'' : Directory α} (h : Conserved cyc d d')
    (h' : Conserved cyc d' d'') (f : Str) : d''.lookup f = d'.lookup f := by
  have hgone : ∀ f, IsOutput cyc f → f ∉ d' := by
    intro f ho
    obtain ⟨k, ⟨hk, hfound⟩, -⟩ := unique_output hl hs ho
    exact AList.lookup_eq_none.mp (h.deleted f k.1 hk k.2 hfound)
  by_cases hcong : IsConglomerate cyc f
  · obtain ⟨mb, hmb, lv, rfl⟩ := hcong
    have hnone : d'.sortedNames (mergePattern lv mb).found = [] := by
      refine List.eq_nil_iff_forall_not_mem.mpr fun g hg => ?_
      obtain ⟨hgd, hfound⟩ := mem_sortedNames.mp hg
      have hdel := h.deleted g mb hmb lv hfound
      exact AList.lookup_eq_none.mp hdel hgd
    rw [h'.conglomerate mb hmb lv, conglomerated, hnone, List.flatMap_nil, List.append_nil]
    have hlookup := h.conglomerate mb hmb lv
    split_ifs at hlookup with hnil
    · rw [content_eq_nil hlookup, if_pos rfl, hlookup]
    · rw [content_eq_of_lookup hlookup, if_neg hnil, hlookup]
  · exact h'.unchanged f (fun hf => hgone f hf.2 hf.1) hcong

omit [Sized α] hl hs in
theorem Conserved.recordsOf {d d' : Directory α} (hd : RecordsOf cyc d) (h : Conserved cyc d d') :
    RecordsOf cyc d' := by
  intro f hf hgrib
  by_cases hcong : IsConglomerate cyc f
  · exact .inr hcong
  by_cases hout : f ∈ d ∧ IsOutput cyc f
  · exact .inl hout.2
  · have hfd : f ∈ d := by
      rw [← AList.lookup_isSome, ← h.unchanged f hout hcong]
      exact AList.lookup_isSome.mpr hf
    exact hd f hfd hgrib

/-- A call in which nothing fails conserves the records, also when there are none. -/
theorem conserved_mergeRecords {d : Directory α} (hd : RecordsOf cyc d) :
    Conserved cyc d (mergeRecords .smooth cyc d).2 := by
  rw [mergeRecords, cyclePattern_found hl hs]
  by_cases hnone : d.sortedNames gribPattern.found = []
  · simp only [Bool.not_true, Bool.false_eq_true, if_false, MergeIo.smooth, if_pos hnone]
    exact conserved_of_no_grib hl hs hnone
  · simp only [Bool.not_true, Bool.false_eq_true, if_false, MergeIo.smooth, if_neg hnone]
    exact conserved_runPlan hl hs hd

end Digits

/-- When every operation succeeds, `mergeRecords` returns 0 on a directory with records, moves
each of them into its one conglomerate, and a second call changes nothing. -/
theorem mergeRecords_conserves (hl : cyc.length = 10) (hs : ∀ c ∈ cyc, c.isDigit)
    (d : Directory α) (hd : RecordsOf cyc d) :
    ((∃ f ∈ d, gribPattern.found f = true) → (mergeRecords .smooth cyc d).1 = 0) ∧
      Conserved cyc d (mergeRecords .smooth cyc d).2 ∧
      ∀ f, (mergeRecords .smooth cyc (mergeRecords .smooth cyc d).2).2.lookup f =
        (mergeRecords .smooth cyc d).2.lookup f := by
  have hconserved := conserved_mergeRecords hl hs hd
  refine ⟨?_, hconserved, fun f => ?_⟩
  · rintro ⟨f, hf, hgrib⟩
    have hsome : d.sortedNames gribPattern.found ≠ [] :=
      List.ne_nil_of_mem (mem_sortedNames.mpr ⟨hf, hgrib⟩)
    have hcode : (runPlan MergeIo.smooth.pass (mergePlan cyc (d.sortedNames gribPattern.found))
        d).1 = none := runPlan_smooth _ d
    rw [mergeRecords, cyclePattern_found hl hs]
    simp only [Bool.not_true, Bool.false_eq_true, if_false, MergeIo.smooth, if_neg hsome]
    simp only [MergeIo.smooth] at hcode
    rw [hcode]
    rfl
  · exact hconserved.again hl hs
      (conserved_mergeRecords hl hs (hconserved.recordsOf hd)) f

/-- Soil temperature of the first perturbed member, six hours into a cycle. -/
def soilRecord : OutputName (perlGetNMembers "2021010100".toList) where
  lv := .sl
  fff := 6
  em := 1
  llll := 0
  param := "st".toList
  fff_lt := by decide
  em_lt := by decide +kernel
  llll_lt := by decide
  param_isAlphanum := by simp

-- Two further records are made from this one by changing its hour or its parameter.
theorem soilRecord_em_lt : soilRecord.em < perlGetNMembers "2021010100".toList := soilRecord.em_lt

theorem soilRecord_llll_lt : soilRecord.llll < 10 ^ 4 := soilRecord.llll_lt

/-- Records of three members and three levels, two of them for the conglomerate of the first
perturbed member at the surface. -/
def mixedRecords : List (OutputName (perlGetNMembers "2021010100".toList)) :=
  [soilRecord,
    ⟨.sl, 18, 1, 0, "st".toList, by decide, soilRecord_em_lt, soilRecord_llll_lt, by simp⟩,
    ⟨.sl, 18, 0, 0, "st".toList, by decide, by decide +kernel, soilRecord_llll_lt, by simp⟩,
    ⟨.pt, 18, 1, 320, "pv".toList, by decide, soilRecord_em_lt, by decide, by simp⟩,
    ⟨.pv, 18, 30, 0, "pt".toList, by decide, by decide +kernel, soilRecord_llll_lt, by simp⟩]

/-- They stand beside the conglomerate that an earlier merge has left. -/
def mixedDirectory : Directory UInt8 :=
  (mixedRecords.map (OutputName.fileName · "2021010100".toList)).foldl
    (fun d f => d.insert f [.whole 71, .whole 82])
    (AList.singleton (conglomerateName "2021010100".toList 1 .sl) [.whole 66])

theorem mem_insert_all {content : List (Chunk UInt8)} {names : List Str} {d : Directory UInt8}
    {f : Str} : f ∈ names.foldl (fun d f => d.insert f content) d ↔ f ∈ names ∨ f ∈ d := by
  induction names generalizing d with
  | nil => simp
  | cons g names ih =>
    rw [List.foldl_cons, ih, AList.mem_insert, List.mem_cons, or_left_comm, or_assoc]

theorem mergeRecords_conserves_mixed :
    (mergeRecords .smooth "2021010100".toList mixedDirectory).1 = 0 ∧
      Conserved "2021010100".toList mixedDirectory
        (mergeRecords .smooth "2021010100".toList mixedDirectory).2 ∧
      ∀ f, (mergeRecords .smooth "2021010100".toList
          (mergeRecords .smooth "2021010100".toList mixedDirectory).2).2.lookup f =
        (mergeRecords .smooth "2021010100".toList mixedDirectory).2.lookup f := by
  have hs : ∀ c ∈ "2021010100".toList, c.isDigit := by simp
  have hrecords : RecordsOf "2021010100".toList mixedDirectory := by
    intro f hf _
    rcases mem_insert_all.mp hf with hf | hf
    · obtain ⟨o, -, rfl⟩ := List.mem_map.mp hf
      exact .inl ⟨o, rfl⟩
    · exact .inr ⟨1, by decide +kernel, .sl, List.mem_singleton.mp (AList.mem_keys.mp hf)⟩
  have h := mergeRecords_conserves rfl hs mixedDirectory hrecords
  have hmem : soilRecord.fileName "2021010100".toList ∈ mixedDirectory :=
    mem_insert_all.mpr (.inl (List.mem_map_of_mem (List.mem_cons_self ..)))
  refine ⟨h.1 ⟨_, hmem, ?_⟩, h.2⟩
  exact gribPattern_found_output rfl hs (perlGetNMembers_le _) soilRecord

end Tigge
