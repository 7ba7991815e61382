import Tigge.Archiving
import Tigge.RunCycle

/-! What the end of `runCycle` leaves in the master archive, whichever operations fail, and when
every record that output QC accepted is there exactly once. -/

namespace Tigge
open Lib Lib.Directory Relation
variable {α : Type*} [Sized α]

/-- The files that `qcOutput` counts for some variable. -/
def acceptedFiles (cycle : Str) (names : List Str) : List Str :=
  (cycleFileList cycle names).filter fun file => tiggeVarCodes.any fun tVar =>
    (varPattern tVar).found file

/-- A record that output QC accepts with its file. Records are told apart by where they stand,
also when they are alike, so that each is in one place before it is archived. -/
structure AcceptedRecord [DecidableEq α] (cycle : Str) (s : OutputTree α) where
  file : Str
  record : α
  accepted : file ∈ acceptedFiles cycle s.outputDir.keys
  held : (s.outputDir.content file).count (.whole record) = 1
  alone : ∀ g ≠ file, .whole record ∉ s.outputDir.content g
  notArchived : ∀ g cs, s.archived cycle g = some cs → .whole record ∉ cs
  notPacked : ∀ tar, s.masterArchive = some tar → ∀ entry ∈ tar, .whole record ∉ entry.2
  notWorking : ∀ g, .whole record ∉ s.workDir.content g

/-- If `runCycle` returns 0, the master archive is there and holds every accepted record once. -/
def OutputTree.Packages [DecidableEq α] (io : ConcludeIo) (cycle : Str) (s : OutputTree α) :
    Prop :=
  (concludeCycle io cycle s).1 = 0 →
    ∃ tar, (concludeCycle io cycle s).2.masterArchive = some tar ∧
      ∀ r : AcceptedRecord cycle s, (tar.flatMap Prod.snd).count (.whole r.record) = 1

/-- The files that the loop of `archiveOutput` deals with. -/
def handled (io : ArchiveIo) (cycle : Str) (s : OutputTree α) : List Str :=
  (archivedFiles cycle (io.readdir.order s.outputDir.keys)).takeWhile (io.passes s)

/-- What the loop leaves under a name in the directory of the cycle. -/
def archivedAs (io : ArchiveIo) (cycle : Str) (s : OutputTree α) (file : Str) :
    Option (List (Chunk α)) :=
  if file ∈ handled io cycle s ∧ destDir file = cycle then
    io.delivered file (s.outputDir.content file) (s.archived cycle file)
  else s.archived cycle file

/-- The directory of the cycle is there when the loop ends: it was, or the loop comes to a file
for which it is made. -/
def DirectoryMade (io : ArchiveIo) (cycle : Str) (s : OutputTree α) : Prop :=
  (s.archiveDir.lookup cycle).isSome = true ∨ io.mkdir cycle = true ∧
    ∃ pre file post, archivedFiles cycle (io.readdir.order s.outputDir.keys) = pre ++ file :: post ∧
      (∀ g ∈ pre, io.passes s g = true) ∧ destDir file = cycle

/-- `packCycle` gets to its `tar` command. -/
structure ComesToTar (io : ConcludeIo) (cycle : Str) (s : OutputTree α) : Prop where
  directoryMade : DirectoryMade io.archive cycle s
  targetReadable : io.pack.targetReadable = true
  targetWritable : io.pack.targetWritable = true
  statusThere : archivedAs io.archive cycle s (statusFile cycle) ≠ none ∨ io.pack.renamed = true
  statusReadable : io.pack.statusReadable = true
  statusWritable : io.pack.statusWritable = true
  notPackaged : io.pack.packaged = false

/-- Exactly one file that gets packed holds the record after the merge, of those that the loop
has left in the directory of the cycle. -/
def PackedOnce (io : ConcludeIo) (cycle : Str) (s : OutputTree α) (file : Str) (record : α) : Prop :=
  ∃ d : Directory α, (∀ g, gribPattern.found g = true →
      d.lookup g = archivedAs io.archive cycle s g) ∧
    ∃! g, HoldsRecord io.pack.merge cycle d file record g ∧ packGlob cycle g = true ∧
      io.pack.tarAdds g = true

/-- The condition on what is there when output QC has passed, and on what succeeds after it. -/
structure Packable [DecidableEq α] (io : ConcludeIo) (cycle : Str) (s : OutputTree α) : Prop where
  master : (ComesToTar io cycle (s.tagged cycle) ∧ io.pack.tarRuns = true) ∨
    (s.masterArchive.isSome = true ∧
      ¬ (ComesToTar io cycle (s.tagged cycle) ∧ io.pack.unlinkMaster = true))
  records : ∀ r : AcceptedRecord cycle s,
    (ComesToTar io cycle (s.tagged cycle) ∧ io.pack.tarRuns = true) ∧ io.pack.chdir = true ∧
      PackedOnce io cycle (s.tagged cycle) r.file r.record

section Names
variable {cycle : Str}

theorem isPart_of_digits (hs : ∀ c ∈ cycle, c.isDigit) :
    ∀ c ∈ cycle, (decide (c = '_') || decide (c = '.')) = false := by
  intro c hc
  have hdigit := hs c hc
  rw [Bool.or_eq_false_iff, decide_eq_false_iff_not, decide_eq_false_iff_not]
  constructor <;> rintro rfl <;> exact absurd hdigit (by decide)

theorem part_statusFile (hs : ∀ c ∈ cycle, c.isDigit) :
    isStatusFile (statusFile cycle) = true ∧ destDir (statusFile cycle) = cycle := by
  have hsplit : (statusFile cycle).splitOnP (fun c => decide (c = '_') || decide (c = '.')) =
      ["OUTPUT".toList, "QC".toList, "PASS".toList, cycle] := by
    have hcut : statusFile cycle = "OUTPUT".toList ++ '.' :: ("QC".toList ++ '.' ::
      ("PASS".toList ++ '.' :: cycle)) := rfl
    rw [hcut, List.splitOnP_append_cons_of_forall_mem (by simp) '.' rfl,
      List.splitOnP_append_cons_of_forall_mem (by simp) '.' rfl,
      List.splitOnP_append_cons_of_forall_mem (by simp) '.' rfl,
      List.splitOnP_eq_singleton (isPart_of_digits hs)]
  have hstatus : isStatusFile (statusFile cycle) = true := by
    simp only [isStatusFile, part, hsplit]
    rfl
  refine ⟨hstatus, ?_⟩
  rw [destDir, if_pos hstatus, part, hsplit]
  rfl

theorem getLast?_append_grib (s : Str) : (s ++ ".grib".toList).getLast? = some 'b' := by
  rw [List.getLast?_append_of_ne_nil _ (by simp)]
  rfl

theorem ne_conglomerate_of_accepted {names : List Str} {file : Str}
    (h : file ∈ acceptedFiles cycle names) (mb : ℕ) (lv : Level) :
    file ≠ conglomerateName cycle mb lv := by
  rintro rfl
  obtain ⟨tVar, htVar, hfound⟩ := List.any_eq_true.mp (List.mem_filter.mp h).2
  obtain ⟨v, rfl⟩ := exists_shortName_of_mem htVar
  have hunderscore : '_' ∉ v.shortName := by cases v <;> decide
  have hletter : (v.shortName.any fun c => !c.isDigit) = true := by cases v <;> decide
  obtain ⟨c, hc, hdigit⟩ := List.any_eq_true.mp hletter
  rw [Bool.not_eq_true'] at hdigit
  obtain ⟨pre, x, rest, hname, -, hrest⟩ := varPattern_found_split.mp hfound
  rw [conglomerateName_cut] at hname
  rcases hrest with rfl | rfl
  · -- the variable would be the number of the member
    have hsplit : ['_'].intercalate (conglomerateTokens cycle mb lv).dropLast ++
        '_' :: padded 3 mb ++ ".grib".toList = pre ++ '_' :: v.shortName ++ (x :: "grib".toList) := by
      rw [hname]
      simp
    have hstem := List.append_inj_left' hsplit rfl
    have hname' := (append_cons_inj_right (notMem_padded (by decide)) hunderscore hstem).2
    rw [← hname'] at hc
    exact absurd (isDigit_of_mem_padded hc) (by simp [hdigit])
  · have hlast := congrArg List.getLast? hname
    rw [getLast?_append_grib, List.getLast?_concat] at hlast
    exact absurd (Option.some.inj hlast) (by decide)

theorem gribPattern_of_accepted {names : List Str} {file : Str}
    (h : file ∈ acceptedFiles cycle names) : gribPattern.found file = true :=
  (List.mem_filter.mp ((List.mem_insertionSort _).mp
    (List.mem_filter.mp (List.mem_filter.mp h).1).1)).2

theorem gribPattern_statusFile (hl : cycle.length = 10) (hs : ∀ c ∈ cycle, c.isDigit) :
    gribPattern.found (statusFile cycle) = false := by
  refine Bool.eq_false_iff.mpr fun h => ?_
  rw [gribPattern, found_iff_of_tail_none] at h
  obtain ⟨pre, u, rest, hname, hu, hrest⟩ := h
  rw [accepted_literal] at hu
  subst hu
  have hne : cycle ≠ [] := by
    rintro rfl
    cases hl
  obtain ⟨c, hc⟩ := Option.ne_none_iff_exists'.mp (mt List.getLast?_eq_none_iff.mp hne)
  have hdigit := hs c (List.mem_of_getLast? hc)
  have hcycle : (statusFile cycle).getLast? = some c :=
    (List.getLast?_append_of_ne_nil _ hne).trans hc
  have hlast := hcycle.symm.trans (congrArg List.getLast? hname)
  rcases hrest rfl with rfl | rfl
  · rw [List.append_nil, getLast?_append_grib] at hlast
    rw [Option.some.inj hlast] at hdigit
    exact absurd hdigit (by decide)
  · rw [List.getLast?_concat] at hlast
    rw [Option.some.inj hlast] at hdigit
    exact absurd hdigit (by decide)

end Names

section Archive
variable {io : ArchiveIo} {cycle : Str} {s : OutputTree α}

theorem handles_archiveOutput (io : ArchiveIo) (cycle : Str) (s : OutputTree α) :
    Handles io (archivedFiles cycle (io.readdir.order s.outputDir.keys)) s
      (archiveOutput io cycle s) :=
  handles_archiveFiles (((io.readdir.perm _).nodup_iff.mpr s.outputDir.keys_nodup).filter _) s

theorem archived_archiveOutput (io : ArchiveIo) (cycle : Str) (s : OutputTree α) (file : Str) :
    (archiveOutput io cycle s).archived cycle file = archivedAs io cycle s file := by
  have h := handles_archiveOutput io cycle s
  by_cases hfile : file ∈ handled io cycle s ∧ destDir file = cycle
  · rw [archivedAs, if_pos hfile]
    have hdelivered := h.delivered file hfile.1
    rwa [hfile.2] at hdelivered
  · rw [archivedAs, if_neg hfile]
    exact h.kept cycle file hfile

theorem statusFile_left (hs : ∀ c ∈ cycle, c.isDigit)
    (hnone : archivedAs io cycle s (statusFile cycle) = none) :
    (archiveOutput io cycle s).outputDir.lookup (statusFile cycle) =
      s.outputDir.lookup (statusFile cycle) := by
  obtain ⟨hbranch, hdest⟩ := part_statusFile hs
  refine (handles_archiveOutput io cycle s).left (statusFile cycle) ?_
  rintro ⟨hmem, hcleared⟩
  rw [ArchiveIo.cleared, if_pos hbranch] at hcleared
  rw [archivedAs, if_pos ⟨hmem, hdest⟩, ArchiveIo.delivered, if_pos hbranch,
    if_pos hcleared] at hnone
  cases hnone

theorem count_delivered_le [DecidableEq α] (io : ArchiveIo) (file : Str) (source : List (Chunk α))
    {dest : Option (List (Chunk α))} {a : α} (hdest : ∀ cs, dest = some cs → .whole a ∉ cs)
    {cs : List (Chunk α)} (h : io.delivered file source dest = some cs) :
    cs.count (.whole a) ≤ source.count (.whole a) := by
  have hold : dest = some cs → cs.count (.whole a) ≤ source.count (.whole a) := fun hcs => by
    rw [List.count_eq_zero.mpr (hdest cs hcs)]
    exact Nat.zero_le _
  have hcopy : io.copy file source dest = some cs →
      cs.count (.whole a) ≤ source.count (.whole a) := by
    rw [ArchiveIo.copy]
    split_ifs
    · cases io.printed file with
      | none =>
        intro hcs
        obtain rfl : source = cs := Option.some.inj hcs
        exact le_rfl
      | some n =>
        intro hcs
        obtain rfl : firstBytes n source = cs := Option.some.inj hcs
        exact count_firstBytes_le a n source
    · exact hold
  rw [ArchiveIo.delivered] at h
  split_ifs at h
  · rw [Option.some.inj h]
  · exact hold h
  · exact hcopy h

theorem count_archivedAs_le [DecidableEq α] {a : α}
    (hold : ∀ g cs, s.archived cycle g = some cs → .whole a ∉ cs) (file : Str) :
    ((archivedAs io cycle s file).getD []).count (.whole a) ≤
      (s.outputDir.content file).count (.whole a) := by
  cases has : archivedAs io cycle s file with
  | none => exact Nat.zero_le _
  | some cs =>
    rw [archivedAs] at has
    split_ifs at has
    · exact count_delivered_le io file _ (hold file) has
    · rw [Option.getD_some, List.count_eq_zero.mpr (hold file cs has)]
      exact Nat.zero_le _

end Archive

/-- `packCycle` comes to `tar` with the files of `target` to merge. -/
structure Tars (io : PackIo) (cycle : Str) (s : OutputTree α) (target : Directory α) : Prop where
  found : ∃ d, s.archiveDir.lookup cycle = some d ∧ (recoverStatus io cycle s d).2 = target
  targetReadable : io.targetReadable = true
  targetWritable : io.targetWritable = true
  statusThere : statusFile cycle ∈ target
  statusReadable : io.statusReadable = true
  statusWritable : io.statusWritable = true
  notPackaged : io.packaged = false

section Pack
variable {io : PackIo} {cycle : Str} {s : OutputTree α}

theorem masterArchive_packCycle {target : Directory α} (h : Tars io cycle s target) :
    (packCycle io cycle s).masterArchive =
      if io.tarRuns then
        some (tarFiles io cycle (if io.chdir then (mergeRecords io.merge cycle target).2
          else s.workDir))
      else if io.unlinkMaster then none
      else s.masterArchive := by
  obtain ⟨d, hd, rfl⟩ := h.found
  have hgo : ¬ (statusFile cycle ∉ (recoverStatus io cycle s d).2 ∨ io.statusReadable = false ∨
      io.statusWritable = false ∨ io.packaged = true) := by
    rintro (hno | hno | hno | hno)
    · exact hno h.statusThere
    · exact absurd (hno.symm.trans h.statusReadable) Bool.false_ne_true
    · exact absurd (hno.symm.trans h.statusWritable) Bool.false_ne_true
    · exact absurd (h.notPackaged.symm.trans hno) Bool.false_ne_true
  simp only [packCycle, hd, h.targetReadable, h.targetWritable, Bool.not_true, Bool.or_self,
    Bool.false_eq_true, if_false, if_neg hgo]

theorem masterArchive_packCycle_of_not (h : ∀ target, ¬ Tars io cycle s target) :
    (packCycle io cycle s).masterArchive = s.masterArchive := by
  rw [packCycle]
  cases hd : s.archiveDir.lookup cycle with
  | none => rfl
  | some d =>
    by_cases hdir : (!io.targetReadable || !io.targetWritable) = true
    · simp only [hdir, if_true]
    · by_cases hstop : statusFile cycle ∉ (recoverStatus io cycle s d).2 ∨
          io.statusReadable = false ∨ io.statusWritable = false ∨ io.packaged = true
      · simp only [hdir, Bool.false_eq_true, if_false, if_pos hstop]
      · simp only [Bool.or_eq_true, Bool.not_eq_true', not_or, Bool.not_eq_false] at hdir
        simp only [not_or, not_not, Bool.not_eq_false, Bool.not_eq_true] at hstop
        exact absurd ⟨⟨d, hd, rfl⟩, hdir.1, hdir.2, hstop.1, hstop.2.1, hstop.2.2.1, hstop.2.2.2⟩
          (h _)

omit [Sized α] in
theorem lookup_recoverStatus (d : Directory α) {file : Str} (h : file ≠ statusFile cycle) :
    (recoverStatus io cycle s d).2.lookup file = d.lookup file := by
  rw [recoverStatus]
  split_ifs
  · exact AList.lookup_insert_ne h
  · rfl

omit [Sized α] in
theorem statusFile_recoverStatus (d : Directory α) :
    statusFile cycle ∈ (recoverStatus io cycle s d).2 ↔
      statusFile cycle ∈ d ∨ statusFile cycle ∈ s.outputDir ∧ io.renamed = true := by
  rw [recoverStatus]
  split_ifs with h
  · refine iff_of_true ?_ (.inr ⟨h.1, h.2.2⟩)
    exact (AList.mem_insert _).mpr (.inl rfl)
  · refine (or_iff_left_of_imp fun hrename => ?_).symm
    by_contra hd
    exact h ⟨hrename.1, hd, hrename.2⟩

end Pack

section Conclude
variable {io : ConcludeIo} {cycle : Str} {s : OutputTree α}

theorem lookup_eq_archivedAs {d : Directory α}
    (hd : (archiveOutput io.archive cycle s).archiveDir.lookup cycle = some d) (file : Str) :
    d.lookup file = archivedAs io.archive cycle s file := by
  rw [← archived_archiveOutput, OutputTree.archived, hd]
  rfl

theorem comesToTar_iff (hs : ∀ c ∈ cycle, c.isDigit) (hstatus : statusFile cycle ∈ s.outputDir) :
    ComesToTar io cycle s ↔
      ∃ target, Tars io.pack cycle (archiveOutput io.archive cycle s) target := by
  have hmade := (handles_archiveOutput io.archive cycle s).made cycle
  constructor
  · intro h
    obtain ⟨d, hd⟩ := Option.isSome_iff_exists.mp (hmade.mpr h.directoryMade)
    refine ⟨_, ⟨d, hd, rfl⟩, h.targetReadable, h.targetWritable, ?_, h.statusReadable,
      h.statusWritable, h.notPackaged⟩
    rw [statusFile_recoverStatus, ← AList.lookup_isSome, lookup_eq_archivedAs hd]
    by_cases hthere : archivedAs io.archive cycle s (statusFile cycle) = none
    · refine .inr ⟨?_, h.statusThere.resolve_left fun hc => hc hthere⟩
      rw [← AList.lookup_isSome, statusFile_left hs hthere]
      exact AList.lookup_isSome.mpr hstatus
    · exact .inl (Option.isSome_iff_ne_none.mpr hthere)
  · rintro ⟨target, h⟩
    obtain ⟨d, hd, rfl⟩ := h.found
    have hthere := (statusFile_recoverStatus d).mp h.statusThere
    rw [← AList.lookup_isSome, lookup_eq_archivedAs hd, Option.isSome_iff_ne_none] at hthere
    exact ⟨hmade.mp (by rw [hd]; rfl), h.targetReadable, h.targetWritable,
      hthere.imp_right And.right, h.statusReadable, h.statusWritable, h.notPackaged⟩

theorem Tars.lookup {target : Directory α}
    (h : Tars io.pack cycle (archiveOutput io.archive cycle s) target) {file : Str}
    (hfile : file ≠ statusFile cycle) :
    target.lookup file = archivedAs io.archive cycle s file := by
  obtain ⟨d, hd, rfl⟩ := h.found
  rw [lookup_recoverStatus d hfile, lookup_eq_archivedAs hd]

theorem Tars.lookup_grib (hl : cycle.length = 10) (hs : ∀ c ∈ cycle, c.isDigit)
    {target : Directory α} (h : Tars io.pack cycle (archiveOutput io.archive cycle s) target)
    {file : Str} (hfile : gribPattern.found file = true) :
    target.lookup file = archivedAs io.archive cycle s file := by
  refine h.lookup ?_
  rintro rfl
  rw [gribPattern_statusFile hl hs] at hfile
  exact Bool.false_ne_true hfile

/-- A record that is in one file of the output directory alone is in no other file that is
merged. -/
theorem Tars.count_le [DecidableEq α] (hs : ∀ c ∈ cycle, c.isDigit) {target : Directory α}
    (h : Tars io.pack cycle (archiveOutput io.archive cycle s) target) {a : α}
    (hold : ∀ g cs, s.archived cycle g = some cs → .whole a ∉ cs) (file : Str) :
    (target.content file).count (.whole a) ≤ (s.outputDir.content file).count (.whole a) := by
  by_cases hfile : file = statusFile cycle
  · subst hfile
    obtain ⟨d, hd, rfl⟩ := h.found
    rw [recoverStatus]
    split_ifs with hrename
    · have hnone : archivedAs io.archive cycle s (statusFile cycle) = none := by
        rw [← lookup_eq_archivedAs hd]
        exact AList.lookup_eq_none.mpr hrename.2.1
      rw [content_eq_of_lookup (AList.lookup_insert _), content_congr (statusFile_left hs hnone)]
    · rw [content, lookup_eq_archivedAs hd]
      exact count_archivedAs_le hold _
  · rw [content, h.lookup hfile]
    exact count_archivedAs_le hold file

omit [Sized α] in
theorem content_tagged (cycle : Str) (s : OutputTree α) (file : Str) :
    (s.tagged cycle).outputDir.content file = s.outputDir.content file := by
  rw [OutputTree.tagged]
  split_ifs with h
  · rfl
  · by_cases hfile : file = statusFile cycle
    · subst hfile
      rw [content_eq_nil (AList.lookup_eq_none.mpr h)]
      exact content_eq_of_lookup (AList.lookup_insert _)
    · exact content_congr (AList.lookup_insert_ne hfile)

omit [Sized α] in
theorem statusFile_tagged (cycle : Str) (s : OutputTree α) :
    statusFile cycle ∈ (s.tagged cycle).outputDir := by
  rw [OutputTree.tagged]
  split_ifs with h
  · exact h
  · exact (AList.mem_insert _).mpr (.inl rfl)

omit [Sized α] in
theorem tagged_rest (cycle : Str) (s : OutputTree α) :
    (s.tagged cycle).archiveDir = s.archiveDir ∧
      (s.tagged cycle).masterArchive = s.masterArchive ∧ (s.tagged cycle).workDir = s.workDir := by
  rw [OutputTree.tagged]
  split_ifs <;> exact ⟨rfl, rfl, rfl⟩

variable [DecidableEq α]

omit [Sized α] [DecidableEq α] in
theorem mem_tarred_iff {io : PackIo} {d : Directory α} {c : Chunk α} {g : Str} :
    (g ∈ d.keys.filter (fun file => packGlob cycle file && io.tarAdds file) ∧ c ∈ d.content g) ↔
      c ∈ d.content g ∧ packGlob cycle g = true ∧ io.tarAdds g = true := by
  rw [List.mem_filter, Bool.and_eq_true]
  constructor
  · rintro ⟨⟨-, hglob⟩, hmem⟩
    exact ⟨hmem, hglob⟩
  · rintro ⟨hmem, hglob⟩
    exact ⟨⟨AList.mem_keys.mp (mem_of_mem_content hmem), hglob⟩, hmem⟩

theorem count_tarFiles_eq_one_iff (hl : cycle.length = 10) (hs : ∀ c ∈ cycle, c.isDigit)
    (r : AcceptedRecord cycle s) {target : Directory α}
    (h : Tars io.pack cycle (archiveOutput io.archive cycle (s.tagged cycle)) target) :
    ((tarFiles io.pack cycle (mergeRecords io.pack.merge cycle target).2).flatMap Prod.snd).count
        (.whole r.record) = 1 ↔ PackedOnce io cycle (s.tagged cycle) r.file r.record := by
  have hold : ∀ g cs, (s.tagged cycle).archived cycle g = some cs → .whole r.record ∉ cs := by
    intro g cs hcs
    rw [OutputTree.archived, (tagged_rest cycle s).1] at hcs
    exact r.notArchived g cs hcs
  -- what is merged holds the record in its own file at most
  have hle : ∀ g, (target.content g).count (.whole r.record) ≤
      (s.outputDir.content g).count (.whole r.record) := fun g =>
    content_tagged cycle s g ▸ h.count_le hs hold g
  have halone : ∀ g ≠ r.file, .whole r.record ∉ target.content g := fun g hg =>
    List.count_eq_zero.mp (Nat.le_zero.mp ((hle g).trans_eq (List.count_eq_zero.mpr (r.alone g hg))))
  have hcount := count_mergeRecords hl hs io.pack.merge target ((hle r.file).trans_eq r.held) halone
    fun k _ => ne_conglomerate_of_accepted r.accepted k.1 k.2
  have hgrib := gribPattern_of_accepted r.accepted
  have hlookup : ∀ g, gribPattern.found g = true →
      target.lookup g = archivedAs io.archive cycle (s.tagged cycle) g :=
    fun g hg => h.lookup_grib hl hs hg
  have hnodup := (mergeRecords io.pack.merge cycle target).2.keys_nodup.filter
    (fun file => packGlob cycle file && io.pack.tarAdds file)
  rw [tarFiles, List.flatMap_map]
  refine (count_flatMap_eq_one_iff hnodup fun g _ => (hcount g).1).trans ?_
  rw [existsUnique_congr fun g => mem_tarred_iff.trans (and_congr_left fun _ => (hcount g).2)]
  constructor
  · exact fun hone => ⟨target, hlookup, hone⟩
  · rintro ⟨d, hd, hone⟩
    refine (existsUnique_congr fun g => ?_).mpr hone
    exact and_congr_left fun _ => holdsRecord_congr hgrib fun g hg =>
      (hlookup g hg).trans (hd g hg).symm

/-- In the directory where the commands run before `chdir` there is none of the records. -/
theorem count_packed_eq_one_iff (hl : cycle.length = 10) (hs : ∀ c ∈ cycle, c.isDigit)
    (r : AcceptedRecord cycle s) {target : Directory α}
    (h : Tars io.pack cycle (archiveOutput io.archive cycle (s.tagged cycle)) target) :
    ((tarFiles io.pack cycle (if io.pack.chdir then (mergeRecords io.pack.merge cycle target).2
        else s.workDir)).flatMap Prod.snd).count (.whole r.record) = 1 ↔
      io.pack.chdir = true ∧ PackedOnce io cycle (s.tagged cycle) r.file r.record := by
  by_cases hchdir : io.pack.chdir = true
  · rw [if_pos hchdir, and_iff_right hchdir]
    exact count_tarFiles_eq_one_iff hl hs r h
  · rw [if_neg hchdir, tarFiles, List.flatMap_map, List.count_eq_zero.mpr]
    · exact iff_of_false (by decide) fun h => hchdir h.1
    · intro hmem
      obtain ⟨g, -, hg⟩ := List.mem_flatMap.mp hmem
      exact r.notWorking g hg

omit [Sized α] in
theorem packages_old_iff :
    (∃ tar, s.masterArchive = some tar ∧ ∀ r : AcceptedRecord cycle s,
      (tar.flatMap Prod.snd).count (.whole r.record) = 1) ↔
      s.masterArchive.isSome = true ∧ ∀ _ : AcceptedRecord cycle s, False := by
  constructor
  · rintro ⟨tar, htar, hall⟩
    refine ⟨by rw [htar]; rfl, fun r => ?_⟩
    obtain ⟨entry, hentry, hmem⟩ := List.mem_flatMap.mp
      (List.count_pos_iff.mp ((hall r).symm ▸ Nat.one_pos))
    exact r.notPacked tar htar entry hentry hmem
  · rintro ⟨hsome, hnone⟩
    obtain ⟨tar, htar⟩ := Option.isSome_iff_exists.mp hsome
    exact ⟨tar, htar, fun r => (hnone r).elim⟩

theorem packable_old_iff (htar : ¬ (ComesToTar io cycle (s.tagged cycle) ∧ io.pack.tarRuns = true))
    (hunlink : ¬ (ComesToTar io cycle (s.tagged cycle) ∧ io.pack.unlinkMaster = true)) :
    Packable io cycle s ↔
      s.masterArchive.isSome = true ∧ ∀ _ : AcceptedRecord cycle s, False := by
  constructor
  · exact fun h => ⟨(h.master.resolve_left htar).1, fun r => htar (h.records r).1⟩
  · exact fun h => ⟨.inr ⟨h.1, hunlink⟩, fun r => (h.2 r).elim⟩

/-- What has to hold for the master archive to be there with every record. -/
theorem masterArchive_holds_iff (hl : cycle.length = 10) (hs : ∀ c ∈ cycle, c.isDigit) :
    (∃ tar, (packCycle io.pack cycle
        (archiveOutput io.archive cycle (s.tagged cycle))).masterArchive = some tar ∧
      ∀ r : AcceptedRecord cycle s, (tar.flatMap Prod.snd).count (.whole r.record) = 1) ↔
      Packable io cycle s := by
  have hmaster : (archiveOutput io.archive cycle (s.tagged cycle)).masterArchive =
      s.masterArchive := (handles_archiveOutput _ _ _).masterArchive.trans (tagged_rest cycle s).2.1
  have hwork : (archiveOutput io.archive cycle (s.tagged cycle)).workDir = s.workDir :=
    (handles_archiveOutput _ _ _).workDir.trans (tagged_rest cycle s).2.2
  have hcomes : ComesToTar io cycle (s.tagged cycle) ↔
      ∃ target, Tars io.pack cycle (archiveOutput io.archive cycle (s.tagged cycle)) target :=
    comesToTar_iff hs (statusFile_tagged cycle s)
  by_cases hC : ComesToTar io cycle (s.tagged cycle)
  · obtain ⟨target, htarget⟩ := hcomes.mp hC
    rw [masterArchive_packCycle htarget, hmaster, hwork]
    by_cases htar : io.pack.tarRuns = true
    · rw [if_pos htar]
      constructor
      · rintro ⟨tar, h, hall⟩
        obtain rfl := Option.some.inj h
        exact ⟨.inl ⟨hC, htar⟩, fun r =>
          ⟨⟨hC, htar⟩, (count_packed_eq_one_iff hl hs r htarget).mp (hall r)⟩⟩
      · intro h
        refine ⟨_, rfl, fun r => ?_⟩
        exact (count_packed_eq_one_iff hl hs r htarget).mpr (h.records r).2
    · rw [if_neg htar]
      by_cases hunlink : io.pack.unlinkMaster = true
      · rw [if_pos hunlink]
        refine iff_of_false ?_ fun h => ?_
        · rintro ⟨tar, hnone, -⟩
          cases hnone
        · exact h.master.elim (fun h => htar h.2) fun h => h.2 ⟨hC, hunlink⟩
      · rw [if_neg hunlink, packages_old_iff,
          packable_old_iff (fun h => htar h.2) fun h => hunlink h.2]
  · rw [masterArchive_packCycle_of_not fun target h => hC (hcomes.mpr ⟨target, h⟩), hmaster,
      packages_old_iff, packable_old_iff (fun h => hC h.1) fun h => hC h.1]

/-- Where `runCycle` returns 0, the master archive is there and holds every accepted record once
exactly when `packCycle` comes to a `tar` that makes it and each record is in one packed file. -/
theorem concludeCycle_packages_iff (io : ConcludeIo) (cycle : Str) (s : OutputTree α) :
    s.Packages io cycle ↔
      (qcOutput io.qc cycle (statusFile cycle ∈ s.outputDir) s.outputDir.keys = true →
        Packable io cycle s) := by
  rw [OutputTree.Packages, concludeCycle]
  by_cases hqc : qcOutput io.qc cycle (statusFile cycle ∈ s.outputDir) s.outputDir.keys = true
  · obtain ⟨hl, hs⟩ : cycle.length = 10 ∧ ∀ c ∈ cycle, c.isDigit := by
      rw [qcOutput, Bool.and_eq_true] at hqc
      exact isDtg_digits hqc.1
    rw [if_pos hqc]
    simp only [hqc, forall_const]
    exact masterArchive_holds_iff hl hs
  · rw [if_neg hqc]
    exact iff_of_true (fun h => absurd (show 12 = 0 from h) (by decide)) fun h => absurd h hqc

end Conclude

/-- The code is the one that the stages of `runCycle` end with. -/
theorem runCycle_concludes (o : Outcome) (io : ConcludeIo) (cycle : Str)
    (s : OutputTree α) (lock : Bool) :
    ∃ lock', ReflTransGen (fun x y : Bool × Stage => runCycle
        { o with
          outputQc := qcOutput io.qc cycle (statusFile cycle ∈ s.outputDir) s.outputDir.keys }
        x.1 x.2 = some y)
      (lock, .outputQc) (lock', .returned (concludeCycle io cycle s).1) := by
  rw [concludeCycle]
  cases hqc : qcOutput io.qc cycle (statusFile cycle ∈ s.outputDir) s.outputDir.keys with
  | false => exact ⟨lock, .single rfl⟩
  | true =>
    refine ⟨false, .head (b := (lock, .archiving)) rfl (.head (b := (lock, .packing)) rfl ?_)⟩
    exact .head (b := (lock, .completing)) rfl (.head (b := (lock, .unlocking)) rfl (.single rfl))

def ArchiveIo.smooth : ArchiveIo where
  readdir := ⟨id, fun _ => .refl _⟩
  mkdir _ := true
  mv _ := true
  openIn _ := true
  openOut _ := true
  printed _ := none
  unlinkSource _ := true
  unlinkDest _ := true

def PackIo.smooth : PackIo where
  targetReadable := true
  targetWritable := true
  renamed := true
  statusReadable := true
  statusWritable := true
  packaged := false
  chdir := true
  merge := .smooth
  unlinkMaster := true
  tarRuns := true
  tarAdds _ := true

/-- A record in every file that output QC requires, and nothing archived. -/
def completeTree (cycle : Str) (d : CycleDate) : OutputTree UInt8 where
  outputDir := ((requiredFiles cycle d).map fun f =>
    (⟨f, [.whole 71]⟩ : Sigma fun _ : Str => List (Chunk UInt8))).toAList
  archiveDir := ∅
  masterArchive := none
  workDir := ∅

theorem mem_completeTree {cycle : Str} {d : CycleDate} {f : Str} :
    f ∈ (completeTree cycle d).outputDir.keys ↔ f ∈ requiredFiles cycle d := by
  rw [← AList.mem_keys, ← AList.lookup_isSome, completeTree, AList.lookup_to_alist,
    List.dlookup_isSome, List.keys, List.map_map]
  exact (List.map_id _).symm ▸ Iff.rfl

def noDirectories : ConcludeIo :=
  ⟨⟨true, true, true⟩, { ArchiveIo.smooth with mkdir := fun _ => false }, .smooth⟩

/-- Where no directory can be made below `archive`, `runCycle` returns 0 and nothing is packed. -/
theorem concludeCycle_not_packages :
    ¬ (completeTree "2021010100".toList ⟨2021, 1, 1, 0⟩).Packages noDirectories
      "2021010100".toList := by
  have hcycle : isDtg "2021010100".toList = true := by decide
  have hd : parseDate "2021010100".toList = some ⟨2021, 1, 1, 0⟩ := by decide
  obtain ⟨hl, hs⟩ := isDtg_digits hcycle
  generalize "2021010100".toList = cycle at *
  generalize htree : completeTree cycle ⟨2021, 1, 1, 0⟩ = tree
  have hcount : countsPass cycle tree.outputDir.keys = true := by
    subst htree
    exact countsPass_of_required hl hs (dateString_parseDate hl hs hd).1 (AList.keys_nodup _)
      (fun f hf => isProgramFile_of_required (mem_completeTree.mp (mem_of_mem_cycleFileList hf)))
      fun f hf => mem_completeTree.mpr hf
  have hqc : qcOutput noDirectories.qc cycle (statusFile cycle ∈ tree.outputDir)
      tree.outputDir.keys = true := by simp [qcOutput, noDirectories, hcycle, hcount]
  intro h
  rw [OutputTree.Packages, concludeCycle, if_pos hqc] at h
  obtain ⟨tar, htar, -⟩ := h rfl
  rw [masterArchive_packCycle_of_not, (handles_archiveOutput _ _ _).masterArchive,
    (tagged_rest cycle tree).2.1] at htar
  · subst htree
    cases htar
  · intro target htarget
    have hcomes : ComesToTar noDirectories cycle (tree.tagged cycle) :=
      (comesToTar_iff hs (statusFile_tagged cycle tree)).mpr ⟨target, htarget⟩
    rcases hcomes.directoryMade with hthere | ⟨hmkdir, -⟩
    · rw [(tagged_rest cycle tree).1, ← htree] at hthere
      cases hthere
    · cases hmkdir

end Tigge
