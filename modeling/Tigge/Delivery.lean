import Tigge.Packaging

/-! The end of `runCycle` when nothing fails: every accepted record is in the master archive
exactly once. -/

namespace Tigge
open Lib Lib.Directory
variable {α : Type*} [Sized α] {cycle : Str}

section Names

theorem unarchivedPatterns_any {c l : Char} {s : Str} (hc : c ∉ ['.', 'a', 'A'])
    (hlast : (c :: s).getLast? = some l) (hl : l ∉ ['z', 'Z', '\n']) :
    (unarchivedPatterns.any fun p => p.found (c :: s)) = false := by
  simp only [List.mem_cons, List.not_mem_nil, or_false, not_or] at hc hl
  refine List.any_eq_false.mpr fun p hp => ?_
  simp only [unarchivedPatterns, List.mem_cons, List.not_mem_nil, or_false] at hp
  rcases hp with rfl | rfl | rfl
  · simp [Pattern.found, Pattern.matchesAt, endsAt, literal, reads, Atom.accepts, hc]
  · simp [Pattern.found, Pattern.matchesAt, endsAt, caseless, reads, Atom.accepts, hc]
  · rw [found_iff_of_tail_none]
    rintro ⟨pre, u, rest, hname, hu, hrest⟩
    have hcut : caseless ".tar.gz".toList = caseless ".tar.g".toList ++ [.of ['z', 'Z']] := by
      decide +kernel
    rw [hcut, accepted_append] at hu
    obtain ⟨v, w, rfl, -, hw⟩ := hu
    obtain ⟨x, hx, rfl⟩ : ∃ x, x ∈ ['z', 'Z'] ∧ w = [x] := by
      cases hw with
      | cons hx hnil =>
        cases hnil
        exact ⟨_, of_decide_eq_true hx, rfl⟩
    rw [hname, ← List.append_assoc] at hlast
    rcases hrest rfl with rfl | rfl
    · rw [List.append_nil, List.getLast?_concat] at hlast
      obtain rfl := Option.some.inj hlast
      simp only [List.mem_cons, List.not_mem_nil, or_false] at hx
      exact hx.elim hl.1 hl.2.1
    · rw [List.getLast?_concat] at hlast
      exact hl.2.2 (Option.some.inj hlast).symm

theorem statusFile_mem_archivedFiles (hl : cycle.length = 10) (hs : ∀ c ∈ cycle, c.isDigit)
    {names : List Str} (h : statusFile cycle ∈ names) :
    statusFile cycle ∈ archivedFiles cycle names := by
  have hne : cycle ≠ [] := by
    rintro rfl
    cases hl
  obtain ⟨l, hlast⟩ := Option.ne_none_iff_exists'.mp (mt List.getLast?_eq_none_iff.mp hne)
  have hdigit := hs l (List.mem_of_getLast? hlast)
  have hkept : (unarchivedPatterns.any fun p => p.found (statusFile cycle)) = false := by
    refine unarchivedPatterns_any (c := 'O') (l := l) (s := "UTPUT.QC.PASS.".toList ++ cycle)
      (by decide) ((List.getLast?_append_of_ne_nil "OUTPUT.QC.PASS.".toList hne).trans hlast) ?_
    intro hmem
    simp only [List.mem_cons, List.not_mem_nil, or_false] at hmem
    rcases hmem with rfl | rfl | rfl <;> exact absurd hdigit (by decide)
  have hfound : ((archivedPatterns cycle).any fun p => p.found (statusFile cycle)) = true := by
    refine List.any_eq_true.mpr ⟨_, List.mem_cons_of_mem _ List.mem_cons_self, ?_⟩
    refine endsAt_iff.mpr ⟨statusFile cycle, [], (List.append_nil _).symm, ?_, fun _ => .inl rfl⟩
    have hdot : ∀ {w : Str}, Accepted (.any :: literal w) ('.' :: w) := fun {w} =>
      .cons (by decide) (accepted_literal.mpr rfl)
    refine accepted_append.mpr ⟨"OUTPUT.QC.PASS".toList, '.' :: cycle, rfl, ?_, hdot⟩
    refine accepted_append.mpr ⟨"OUTPUT.QC".toList, ".PASS".toList, rfl, ?_, hdot⟩
    exact accepted_append.mpr ⟨"OUTPUT".toList, ".QC".toList, rfl, accepted_literal.mpr rfl, hdot⟩
  refine List.mem_filter.mpr ⟨h, ?_⟩
  rw [hkept, hfound]
  rfl

section Generated
variable (hs : ∀ c ∈ cycle, c.isDigit) {d : CycleDate} (hd : dateString d = cycle)
  {v : TiggeVariable} {fff em : ℕ}
include hd

theorem generateFileName_cut : generateFileName v d fff em =
    "z".toList ++ '_' :: ("tigge".toList ++ '_' :: ("c".toList ++ '_' :: ("kwbc".toList ++ '_' ::
      (cycle ++ "0000".toList ++ '_' :: ['_'].intercalate ((nameTokens v d fff em).drop 5))))) := by
  rw [generateFileName_eq, ← hd]
  simp [nameTokens, List.intercalate]

include hs

theorem parts_generateFileName : (generateFileName v d fff em).splitOnP
    (fun c => decide (c = '_') || decide (c = '.')) =
    "z".toList :: "tigge".toList :: "c".toList :: "kwbc".toList :: (cycle ++ "0000".toList) ::
      (['_'].intercalate ((nameTokens v d fff em).drop 5)).splitOnP
        (fun c => decide (c = '_') || decide (c = '.')) := by
  have hdate : ∀ c ∈ cycle ++ "0000".toList, (decide (c = '_') || decide (c = '.')) = false := by
    intro c hc
    rcases List.mem_append.mp hc with hc | hc
    · exact isPart_of_digits hs c hc
    · have hzero : ∀ c ∈ "0000".toList, (decide (c = '_') || decide (c = '.')) = false := by simp
      exact hzero c hc
  rw [generateFileName_cut hd, List.splitOnP_append_cons_of_forall_mem (by simp) '_' rfl,
    List.splitOnP_append_cons_of_forall_mem (by simp) '_' rfl,
    List.splitOnP_append_cons_of_forall_mem (by simp) '_' rfl,
    List.splitOnP_append_cons_of_forall_mem (by simp) '_' rfl,
    List.splitOnP_append_cons_of_forall_mem hdate '_' rfl]

theorem isStatusFile_generateFileName : isStatusFile (generateFileName v d fff em) = false := by
  simp only [isStatusFile, part, parts_generateFileName hs hd]
  rfl

theorem destDir_generateFileName (hl : cycle.length = 10) :
    destDir (generateFileName v d fff em) = cycle := by
  rw [destDir, isStatusFile_generateFileName hs hd, if_neg Bool.false_ne_true, part,
    parts_generateFileName hs hd]
  show (cycle ++ "0000".toList).take 10 = cycle
  rw [← hl]
  exact List.take_left

omit hs in
theorem mem_archivedFiles {names : List Str} (h : generateFileName v d fff em ∈ names) :
    generateFileName v d fff em ∈ archivedFiles cycle names := by
  have hcut : generateFileName v d fff em = _ := generateFileName_cut hd
  have hlast : (generateFileName v d fff em).getLast? = some 'b' := by
    rw [generateFileName_split, ← List.cons_append, ← List.append_assoc]
    exact getLast?_append_grib _
  have hkept : (unarchivedPatterns.any fun p => p.found (generateFileName v d fff em)) = false := by
    rw [hcut] at hlast ⊢
    exact unarchivedPatterns_any (by decide) hlast (by decide)
  have hfound : ((archivedPatterns cycle).any fun p =>
      p.found (generateFileName v d fff em)) = true := by
    refine List.any_eq_true.mpr ⟨_, List.mem_cons_self, ?_⟩
    refine found_iff_of_tail_none.mpr ⟨"z_tigge_c_kwbc".toList, '_' :: cycle ++ "0000_".toList,
      ['_'].intercalate ((nameTokens v d fff em).drop 5), ?_, accepted_literal.mpr rfl,
      fun h => absurd h Bool.false_ne_true⟩
    rw [hcut]
    simp
  refine List.mem_filter.mpr ⟨h, ?_⟩
  rw [hkept, hfound]
  rfl

end Generated

theorem packGlob_conglomerateName (cycle : Str) (mb : ℕ) (lv : Level) :
    packGlob cycle (conglomerateName cycle mb lv) = true := by
  have hprefix : "z_tigge_c_kwbc_".toList ++ cycle ++ "0000_".toList <+:
      conglomerateName cycle mb lv := by
    refine ⟨['_'].intercalate ((conglomerateTokens cycle mb lv).drop 5), ?_⟩
    simp [conglomerateName, conglomerateTokens, List.intercalate]
  rw [packGlob, Bool.and_eq_true]
  exact ⟨List.isPrefixOf_iff_prefix.mpr hprefix,
    List.isSuffixOf_iff_suffix.mpr (grib_suffix_conglomerateName cycle mb lv)⟩

end Names

section Smooth
variable {s : OutputTree α} {d : CycleDate}

omit [Sized α] in
theorem passes_smooth (s : OutputTree α) (file : Str) :
    ArchiveIo.smooth.passes s file = true := by
  rw [ArchiveIo.passes, isSome_destination.mpr (.inr rfl)]
  exact Bool.or_true _

omit [Sized α] in
theorem handled_smooth (cycle : Str) (s : OutputTree α) :
    handled .smooth cycle s = archivedFiles cycle s.outputDir.keys :=
  List.takeWhile_eq_self_iff.mpr fun file _ => passes_smooth s file

theorem delivered_smooth (file : Str) (source : List (Chunk α)) (dest : Option (List (Chunk α))) :
    ArchiveIo.smooth.delivered file source dest = some source := by
  have hcopy : ArchiveIo.smooth.copy file source dest = some source := rfl
  have hsize : ArchiveIo.smooth.sameSize file source dest = true :=
    decide_eq_true (by rw [hcopy]; rfl)
  rw [ArchiveIo.delivered, hsize, hcopy]
  simp [ArchiveIo.smooth]

theorem archivedAs_smooth {file : Str} (hfile : file ∈ archivedFiles cycle s.outputDir.keys)
    (hdest : destDir file = cycle) :
    archivedAs .smooth cycle s file = some (s.outputDir.content file) := by
  have hmem : file ∈ handled .smooth cycle s := (handled_smooth cycle s).symm ▸ hfile
  rw [archivedAs, if_pos ⟨hmem, hdest⟩, delivered_smooth]

def ConcludeIo.smooth : ConcludeIo := ⟨⟨true, true, true⟩, .smooth, .smooth⟩

theorem comesToTar_smooth (hl : cycle.length = 10) (hs : ∀ c ∈ cycle, c.isDigit)
    (hstatus : statusFile cycle ∈ s.outputDir) : ComesToTar .smooth cycle s := by
  have hmem := statusFile_mem_archivedFiles hl hs (AList.mem_keys.mp hstatus)
  have hdest := (part_statusFile hs).2
  refine ⟨.inr ⟨rfl, ?_⟩, rfl, rfl, .inr rfl, rfl, rfl, rfl⟩
  obtain ⟨pre, post, hsplit⟩ := List.append_of_mem hmem
  exact ⟨pre, statusFile cycle, post, hsplit, fun g _ => passes_smooth s g, hdest⟩

theorem holdsRecord_smooth_iff (hl : cycle.length = 10) (hs : ∀ c ∈ cycle, c.isDigit)
    {dir : Directory α} (o : OutputName (perlGetNMembers cycle)) {a : α}
    (ha : .whole a ∈ dir.content (o.fileName cycle)) (g : Str) :
    HoldsRecord .smooth cycle dir (o.fileName cycle) a g ↔
      g = conglomerateName cycle o.em o.lv := by
  have hfound : ∀ k ∈ mergeKeys cycle, (mergePattern k.2 k.1).found (o.fileName cycle) = true ↔
      (o.em, o.lv) = k := by
    intro k hk
    have hlt : k.1 < 31 := (mem_mergeKeys.mp hk).trans_le (perlGetNMembers_le cycle)
    rw [mergePattern_found_output hl hs (perlGetNMembers_le cycle) o hlt, Prod.ext_iff]
    exact And.comm
  have hkey : (o.em, o.lv) ∈ mergeKeys cycle := mem_mergeKeys.mpr o.em_lt
  have hown := (hfound _ hkey).mpr rfl
  have hmem := mem_of_mem_content ha
  obtain ⟨ks, ls, hsplit, hks, -⟩ := mergeKeys_split hkey
  have hsource : o.fileName cycle ∈
      (mergePass cycle (dir.sortedNames gribPattern.found) o.em o.lv).sources :=
    mem_mergePass_sources.mpr
      ⟨mem_sortedNames.mpr ⟨hmem, gribPattern_of_mergePattern hown⟩, hown⟩
  constructor
  · rintro (⟨-, -, hkept⟩ | ⟨k, hk, rfl, happends, -⟩)
    · refine absurd ⟨rfl, passesOver cycle dir ks, _, passesOver cycle dir ls, ?_,
        runsThrough_smooth dir _, hsource, rfl⟩ hkept
      rw [hsplit]
      exact passesOver_split dir ks ls _
    · rw [← (hfound k hk).mp happends.2.1]
  · rintro rfl
    refine .inr ⟨_, hkey, rfl, ⟨rfl, hown, rfl, ks, ls, hsplit, runsThrough_smooth dir _, ?_⟩, ?_⟩
    · rintro ⟨p, hp, hread, -⟩
      obtain ⟨k, hk, rfl⟩ := List.mem_map.mp hp
      have hkk : k ∈ mergeKeys cycle := hsplit ▸ List.mem_append_left _ hk
      obtain rfl := (hfound k hkk).mp (mem_mergePass_sources.mp hread).2
      exact hks hk
    · exact (copied_smooth dir _).symm ▸ ha

variable [DecidableEq α]

theorem packedOnce_smooth (hl : cycle.length = 10) (hs : ∀ c ∈ cycle, c.isDigit)
    (hd : parseDate cycle = some d) (hgen : ∀ file ∈ s.outputDir.keys, IsGeneratedFile file)
    (r : AcceptedRecord cycle s) :
    PackedOnce .smooth cycle (s.tagged cycle) r.file r.record := by
  have hcomes : ComesToTar .smooth cycle (s.tagged cycle) :=
    comesToTar_smooth hl hs (statusFile_tagged cycle s)
  obtain ⟨target, htarget⟩ := (comesToTar_iff hs (statusFile_tagged cycle s)).mp hcomes
  have hlist := (List.mem_filter.mp r.accepted).1
  have hmem : r.file ∈ (s.tagged cycle).outputDir.keys := by
    have hthere : r.file ∈ s.outputDir := AList.mem_keys.mpr (mem_of_mem_cycleFileList hlist)
    rw [OutputTree.tagged]
    split_ifs
    · exact AList.mem_keys.mp hthere
    · exact AList.mem_keys.mp ((AList.mem_insert _).mpr (.inr hthere))
  have hdate := (dateString_parseDate hl hs hd).1
  obtain ⟨v, hv⟩ := isProgramFile_of_mem hl hs hd hgen hlist
  obtain ⟨fff, hfff, em, hem, hname⟩ := mem_variableFiles.mp hv
  obtain ⟨o, ho⟩ := isOutput_generateFileName hdate
    ((lt_of_mem_forecastHours hfff).trans (by decide)) hem v
  have harchived := mem_archivedFiles hdate (hname ▸ hmem)
  have hdest : destDir (generateFileName v d fff em) = cycle := destDir_generateFileName hs hdate hl
  rw [← hname] at ho harchived hdest
  have hlookup : target.lookup r.file = some (s.outputDir.content r.file) := by
    rw [htarget.lookup_grib hl hs (gribPattern_of_accepted r.accepted), ← content_tagged cycle]
    exact archivedAs_smooth harchived hdest
  have hrecord : .whole r.record ∈ target.content r.file := by
    rw [content_eq_of_lookup hlookup]
    exact List.count_pos_iff.mp (r.held.symm ▸ Nat.one_pos)
  refine ⟨target, fun g hg => htarget.lookup_grib hl hs hg, conglomerateName cycle o.em o.lv, ?_⟩
  rw [ho] at hrecord ⊢
  refine ⟨⟨(holdsRecord_smooth_iff hl hs o hrecord _).mpr rfl, packGlob_conglomerateName .., rfl⟩, ?_⟩
  exact fun g hg => (holdsRecord_smooth_iff hl hs o hrecord g).mp hg.1

/-- When nothing fails and the output directory holds what the program writes, a return of 0
means packaged. -/
theorem packages_smooth (hd : parseDate cycle = some d)
    (hgen : ∀ file ∈ s.outputDir.keys, IsGeneratedFile file) : s.Packages .smooth cycle := by
  rw [OutputTree.Packages, concludeCycle]
  split_ifs with hqc
  · intro _
    rw [qcOutput, Bool.and_eq_true] at hqc
    obtain ⟨hl, hs⟩ := isDtg_digits hqc.1
    have hcomes : ComesToTar .smooth cycle (s.tagged cycle) :=
      comesToTar_smooth hl hs (statusFile_tagged cycle s)
    refine (masterArchive_holds_iff hl hs).mpr ⟨.inl ⟨hcomes, rfl⟩, fun r => ?_⟩
    exact ⟨⟨hcomes, rfl⟩, rfl, packedOnce_smooth hl hs hd hgen r⟩
  · exact False.elim

end Smooth
end Tigge
