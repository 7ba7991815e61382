import Tigge.MergeOutcomes
import Tigge.QcOutput

/-! `archiveOutput` and `packCycle`: the output files of a cycle are moved to its directory,
merged there and packed into the master archive. Every operation may fail. -/

namespace Tigge
open Lib Lib.Directory
variable {α : Type*} [Sized α]

/-- `/(^\.|^archive|\.tar\.gz$)/i`. -/
def unarchivedPatterns : List Pattern :=
  [⟨true, literal ".".toList, none, false⟩, ⟨true, caseless "archive".toList, none, false⟩,
    ⟨false, caseless ".tar.gz".toList, none, true⟩]

/-- `/(_${latestRun}0000_|^OUTPUT.QC.PASS.${latestRun}$)/`. -/
def archivedPatterns (cycle : Str) : List Pattern :=
  [⟨false, literal ('_' :: cycle ++ "0000_".toList), none, false⟩,
    ⟨true, literal "OUTPUT".toList ++ .any :: literal "QC".toList ++ .any :: literal "PASS".toList ++
      .any :: literal cycle, none, true⟩]

/-- `@allFiles`. -/
def archivedFiles (cycle : Str) (names : List Str) : List Str :=
  names.filter fun file => !unarchivedPatterns.any (·.found file) &&
    (archivedPatterns cycle).any (·.found file)

/-- `split(/[\_\.]/,$file)`; a part that is not there reads as empty. -/
def part (file : Str) (i : ℕ) : Str := (file.splitOnP fun c => c = '_' || c = '.').getD i []

/-- The branch for the tag file of output QC. -/
def isStatusFile (file : Str) : Bool := part file 0 = "OUTPUT".toList && part file 1 = "QC".toList

/-- `$yyyymmddhh`, the directory below `archive` that the file goes to. -/
def destDir (file : Str) : Str :=
  if isStatusFile file then part file 3 else (part file 4).take 10

/-- `OUTPUT.QC.PASS.${cycle}`. -/
def statusFile (cycle : Str) : Str := "OUTPUT.QC.PASS.".toList ++ cycle

/-- `TIGGE_OUTPUT`, as far as a cycle is archived and packed there. -/
structure OutputTree (α : Type*) where
  outputDir : Directory α
  /-- the directories below `archive` -/
  archiveDir : AList fun _ : Str => Directory α
  /-- `archive/tigge-kwbc-${cycle}.tar` -/
  masterArchive : Option (List (Str × List (Chunk α)))
  /-- where the commands run before `chdir` -/
  workDir : Directory α

/-- The order in which `readdir` lists the names. -/
structure Listing where
  order : List Str → List Str
  perm : ∀ names, (order names).Perm names

/-- What of `archiveOutput` succeeds; directories and files are known by their names. -/
structure ArchiveIo where
  readdir : Listing
  mkdir : Str → Bool
  mv : Str → Bool
  openIn : Str → Bool
  openOut : Str → Bool
  printed : Str → Option ℕ
  unlinkSource : Str → Bool
  unlinkDest : Str → Bool

namespace ArchiveIo
variable (io : ArchiveIo) (file : Str) (source : List (Chunk α)) (dest : Option (List (Chunk α)))

/-- What stands at the destination once the copy is closed. -/
def copy : Option (List (Chunk α)) :=
  if io.openOut file then
    some (match io.printed file with
      | none => source
      | some n => firstBytes n source)
  else dest

/-- `$copySize == $srcSize`. -/
def sameSize : Bool := fileSize ((io.copy file source dest).getD []) = fileSize source

/-- What stands at the destination once the file is dealt with. -/
def delivered : Option (List (Chunk α)) :=
  if isStatusFile file then if io.mv file then some source else dest
  else if io.sameSize file source dest || !io.unlinkDest file then io.copy file source dest
  else none

/-- The source is gone. -/
def cleared : Bool :=
  if isStatusFile file then io.mv file
  else io.sameSize file source dest && io.unlinkSource file

end ArchiveIo

/-- A directory in which `file` stands as given. -/
def put (d : Directory α) (file : Str) : Option (List (Chunk α)) → Directory α
  | none => d.erase file
  | some cs => d.insert file cs

/-- The directory below `archive`, made if it is missing. -/
def OutputTree.destination (io : ArchiveIo) (s : OutputTree α) (dir : Str) :
    Option (Directory α) :=
  (s.archiveDir.lookup dir).or (if io.mkdir dir then some ∅ else none)

/-- One round of the loop; with `false` the subroutine returns. -/
def archiveFile (io : ArchiveIo) (file : Str) (s : OutputTree α) : Bool × OutputTree α :=
  match s.destination io (destDir file) with
  | none => (false, s)
  | some d =>
    if isStatusFile file || io.openIn file then
      let source := s.outputDir.content file
      (true, { s with
        outputDir :=
          if io.cleared file source (d.lookup file) then s.outputDir.erase file else s.outputDir
        archiveDir :=
          s.archiveDir.insert (destDir file) (put d file (io.delivered file source (d.lookup file))) })
    else (false, { s with archiveDir := s.archiveDir.insert (destDir file) d })

def archiveFiles (io : ArchiveIo) : List Str → OutputTree α → OutputTree α
  | [], s => s
  | file :: files, s =>
    match archiveFile io file s with
    | (true, s') => archiveFiles io files s'
    | (false, s') => s'

/-- `archiveOutput("_${latestRun}0000_","\^OUTPUT.QC.PASS.${latestRun}\$")`. -/
def archiveOutput (io : ArchiveIo) (cycle : Str) (s : OutputTree α) : OutputTree α :=
  archiveFiles io (archivedFiles cycle (io.readdir.order s.outputDir.keys)) s

/-- What stands under a name in a directory below `archive`. -/
def OutputTree.archived (s : OutputTree α) (dir file : Str) : Option (List (Chunk α)) :=
  (s.archiveDir.lookup dir).bind (·.lookup file)

/-- The loop of `archiveOutput` gets past the file. -/
def ArchiveIo.passes (io : ArchiveIo) (s : OutputTree α) (file : Str) : Bool :=
  (s.destination io (destDir file)).isSome && (isStatusFile file || io.openIn file)

omit [Sized α] in
theorem isSome_destination {io : ArchiveIo} {s : OutputTree α} {dir : Str} :
    (s.destination io dir).isSome = true ↔
      (s.archiveDir.lookup dir).isSome = true ∨ io.mkdir dir = true := by
  rw [OutputTree.destination, Option.isSome_or, Bool.or_eq_true]
  refine or_congr_right ?_
  split_ifs with h <;> simp [h]

omit [Sized α] in
theorem lookup_put (d : Directory α) (file : Str) (cs : Option (List (Chunk α))) (g : Str) :
    (put d file cs).lookup g = if g = file then cs else d.lookup g := by
  cases cs with
  | none =>
    by_cases h : g = file
    · subst h
      rw [if_pos rfl]
      exact AList.lookup_erase ..
    · rw [if_neg h]
      exact AList.lookup_erase_ne h
  | some cs =>
    by_cases h : g = file
    · subst h
      rw [if_pos rfl]
      exact AList.lookup_insert ..
    · rw [if_neg h]
      exact AList.lookup_insert_ne h

omit [Sized α] in
theorem lookup_of_destination {io : ArchiveIo} {s : OutputTree α} {dir : Str} {d : Directory α}
    (h : s.destination io dir = some d) (file : Str) : d.lookup file = s.archived dir file := by
  rw [OutputTree.destination] at h
  rw [OutputTree.archived]
  cases hdir : s.archiveDir.lookup dir with
  | some d' =>
    rw [hdir] at h
    obtain rfl := Option.some.inj h
    rfl
  | none =>
    rw [hdir, Option.none_or] at h
    split_ifs at h
    obtain rfl := Option.some.inj h
    rfl

/-- What a loop over `files` makes of `s`, said of `s` alone. -/
structure Handles (io : ArchiveIo) (files : List Str) (s s' : OutputTree α) : Prop where
  delivered : ∀ file ∈ files.takeWhile (io.passes s), s'.archived (destDir file) file =
    io.delivered file (s.outputDir.content file) (s.archived (destDir file) file)
  kept : ∀ dir file, ¬ (file ∈ files.takeWhile (io.passes s) ∧ destDir file = dir) →
    s'.archived dir file = s.archived dir file
  left : ∀ file, ¬ (file ∈ files.takeWhile (io.passes s) ∧
    io.cleared file (s.outputDir.content file) (s.archived (destDir file) file) = true) →
      s'.outputDir.lookup file = s.outputDir.lookup file
  made : ∀ dir, (s'.archiveDir.lookup dir).isSome = true ↔
    (s.archiveDir.lookup dir).isSome = true ∨ io.mkdir dir = true ∧
      ∃ pre file post, files = pre ++ file :: post ∧ (∀ g ∈ pre, io.passes s g = true) ∧
        destDir file = dir
  masterArchive : s'.masterArchive = s.masterArchive
  workDir : s'.workDir = s.workDir

section ComesTo
variable {β : Type*} {p : β → Bool} {Q : β → Prop}

theorem not_comesTo_nil : ¬ ∃ pre g post, ([] : List β) = pre ++ g :: post ∧
    (∀ x ∈ pre, p x = true) ∧ Q g := by
  rintro ⟨pre, g, post, hnil, -⟩
  exact absurd hnil.symm (List.append_ne_nil_of_right_ne_nil _ (List.cons_ne_nil _ _))

theorem comesTo_cons {b : β} {l : List β} :
    (∃ pre g post, b :: l = pre ++ g :: post ∧ (∀ x ∈ pre, p x = true) ∧ Q g) ↔
      Q b ∨ p b = true ∧
        ∃ pre g post, l = pre ++ g :: post ∧ (∀ x ∈ pre, p x = true) ∧ Q g := by
  constructor
  · rintro ⟨_ | ⟨x, pre⟩, g, post, hsplit, hall, hg⟩
    · obtain ⟨rfl, -⟩ := List.cons.inj hsplit
      exact .inl hg
    · obtain ⟨rfl, rfl⟩ := List.cons.inj hsplit
      obtain ⟨hb, hall⟩ := List.forall_mem_cons.mp hall
      exact .inr ⟨hb, pre, g, post, rfl, hall, hg⟩
  · rintro (hb | ⟨hb, pre, g, post, rfl, hall, hg⟩)
    · exact ⟨[], b, l, rfl, fun x hx => absurd hx List.not_mem_nil, hb⟩
    · exact ⟨b :: pre, g, post, rfl, List.forall_mem_cons.mpr ⟨hb, hall⟩, hg⟩

theorem comesTo_singleton {b : β} :
    (∃ pre g post, [b] = pre ++ g :: post ∧ (∀ x ∈ pre, p x = true) ∧ Q g) ↔ Q b := by
  rw [comesTo_cons]
  exact or_iff_left fun h => not_comesTo_nil h.2

end ComesTo

section Loop
variable {io : ArchiveIo} {s : OutputTree α} {file : Str}

omit [Sized α] in
theorem mem_takeWhile_singleton {p : Str → Bool} {g : Str} :
    g ∈ [file].takeWhile p ↔ g = file ∧ p file = true := by
  cases h : p file <;> simp [List.takeWhile, h]

omit [Sized α] in
theorem isSome_lookup_insert {d : Directory α} (h : (s.destination io (destDir file)).isSome = true)
    (dir : Str) : ((s.archiveDir.insert (destDir file) d).lookup dir).isSome = true ↔
      (s.archiveDir.lookup dir).isSome = true ∨ io.mkdir dir = true ∧
        ∃ pre g post, [file] = pre ++ g :: post ∧ (∀ g ∈ pre, io.passes s g = true) ∧
          destDir g = dir := by
  rw [comesTo_singleton]
  by_cases hdir : dir = destDir file
  · subst hdir
    rw [AList.lookup_insert]
    exact iff_of_true rfl ((isSome_destination.mp h).imp_right fun hmkdir => ⟨hmkdir, rfl⟩)
  · rw [AList.lookup_insert_ne hdir]
    exact (or_iff_left fun hmade => hdir hmade.2.symm).symm

theorem handles_of_none (hd : s.destination io (destDir file) = none) : Handles io [file] s s := by
  have hpass : io.passes s file = false := by
    rw [ArchiveIo.passes, hd, Option.isSome_none, Bool.false_and]
  have hnone : ∀ g, g ∉ [file].takeWhile (io.passes s) := fun g hg =>
    Bool.false_ne_true (hpass ▸ (mem_takeWhile_singleton.mp hg).2)
  refine ⟨fun g hg => absurd hg (hnone g), fun _ _ _ => rfl, fun _ _ => rfl, fun dir => ?_,
    rfl, rfl⟩
  rw [comesTo_singleton]
  refine (or_iff_left ?_).symm
  rintro ⟨hmkdir, rfl⟩
  have hsome : (s.destination io (destDir file)).isSome = true := isSome_destination.mpr (.inr hmkdir)
  rw [hd] at hsome
  cases hsome

omit [Sized α] in
theorem passes_of_some {d : Directory α} (hd : s.destination io (destDir file) = some d) :
    io.passes s file = (isStatusFile file || io.openIn file) := by
  rw [ArchiveIo.passes, hd, Option.isSome_some, Bool.true_and]

/-- A file that is read: only its own entries in the two directories change. -/
theorem handles_of_open {d : Directory α} (hd : s.destination io (destDir file) = some d)
    (hopen : (isStatusFile file || io.openIn file) = true) :
    Handles io [file] s { s with
      outputDir := if io.cleared file (s.outputDir.content file) (d.lookup file) then
        s.outputDir.erase file else s.outputDir
      archiveDir := s.archiveDir.insert (destDir file)
        (put d file (io.delivered file (s.outputDir.content file) (d.lookup file))) } := by
  have hpass := (passes_of_some hd).trans hopen
  have hold := lookup_of_destination hd
  refine ⟨fun g hg => ?_, fun dir g hg => ?_, fun g hg => ?_, isSome_lookup_insert (by rw [hd]; rfl),
    rfl, rfl⟩
  · obtain rfl := (mem_takeWhile_singleton.mp hg).1
    rw [OutputTree.archived, AList.lookup_insert, Option.bind_some, lookup_put, if_pos rfl, hold]
  · rw [mem_takeWhile_singleton] at hg
    by_cases hdir : dir = destDir file
    · subst hdir
      have hne : g ≠ file := by
        rintro rfl
        exact hg ⟨⟨rfl, hpass⟩, rfl⟩
      rw [OutputTree.archived, AList.lookup_insert, Option.bind_some, lookup_put, if_neg hne, hold]
    · rw [OutputTree.archived, AList.lookup_insert_ne hdir]
      rfl
  · rw [mem_takeWhile_singleton] at hg
    show (if _ then s.outputDir.erase file else s.outputDir).lookup g = _
    split_ifs with hclear
    · apply AList.lookup_erase_ne
      rintro rfl
      exact hg ⟨⟨rfl, hpass⟩, by rwa [← hold]⟩
    · rfl

/-- A file that is not read: its directory may be new, but nothing stands there that did not. -/
theorem handles_of_closed {d : Directory α} (hd : s.destination io (destDir file) = some d)
    (hopen : (isStatusFile file || io.openIn file) = false) :
    Handles io [file] s { s with archiveDir := s.archiveDir.insert (destDir file) d } := by
  have hpass := (passes_of_some hd).trans hopen
  refine ⟨fun g hg => ?_, fun dir g _ => ?_, fun _ _ => rfl,
    isSome_lookup_insert (by rw [hd]; rfl), rfl, rfl⟩
  · exact absurd (mem_takeWhile_singleton.mp hg).2 (by rw [hpass]; exact Bool.false_ne_true)
  · by_cases hdir : dir = destDir file
    · subst hdir
      rw [OutputTree.archived, AList.lookup_insert]
      exact lookup_of_destination hd g
    · rw [OutputTree.archived, AList.lookup_insert_ne hdir]
      rfl

theorem handles_archiveFile : (archiveFile io file s).1 = io.passes s file ∧
    Handles io [file] s (archiveFile io file s).2 := by
  unfold archiveFile
  cases hd : s.destination io (destDir file) with
  | none =>
    have hpass : io.passes s file = false := by
      rw [ArchiveIo.passes, hd, Option.isSome_none, Bool.false_and]
    exact ⟨hpass.symm, handles_of_none hd⟩
  | some d =>
    rw [passes_of_some hd]
    cases hopen : isStatusFile file || io.openIn file with
    | true =>
      simp only [if_true]
      exact ⟨trivial, handles_of_open hd hopen⟩
    | false =>
      simp only [Bool.false_eq_true, if_false]
      exact ⟨trivial, handles_of_closed hd hopen⟩

/-- What the loop gets past does not change while it runs. -/
theorem Handles.passes {s' : OutputTree α} (h : Handles io [file] s s') (g : Str) :
    io.passes s' g = io.passes s g := by
  have hdest : (s'.destination io (destDir g)).isSome = (s.destination io (destDir g)).isSome := by
    rw [Bool.eq_iff_iff, isSome_destination, isSome_destination, h.made]
    constructor
    · rintro ((hold | hmade) | hmkdir)
      · exact .inl hold
      · exact .inr hmade.1
      · exact .inr hmkdir
    · rintro (hold | hmkdir)
      · exact .inl (.inl hold)
      · exact .inr hmkdir
  rw [ArchiveIo.passes, hdest, ArchiveIo.passes]

theorem Handles.stop {s' : OutputTree α} {files : List Str} (h : Handles io [file] s s')
    (hpass : io.passes s file = false) : Handles io (file :: files) s s' := by
  have hnone : (file :: files).takeWhile (io.passes s) = [file].takeWhile (io.passes s) := by
    rw [List.takeWhile_cons_of_neg (by simp [hpass]), List.takeWhile_cons_of_neg (by simp [hpass])]
  refine ⟨hnone ▸ h.delivered, hnone ▸ h.kept, hnone ▸ h.left, fun dir => ?_, h.masterArchive,
    h.workDir⟩
  rw [h.made, comesTo_singleton, comesTo_cons, hpass]
  refine or_congr_right (and_congr_right fun _ => (or_iff_left ?_).symm)
  exact fun hlater => Bool.false_ne_true hlater.1

theorem Handles.cons {s' s'' : OutputTree α} {files : List Str} (h : Handles io [file] s s')
    (hpass : io.passes s file = true) (hfile : file ∉ files) (h' : Handles io files s' s'') :
    Handles io (file :: files) s s'' := by
  have hpasses : io.passes s' = io.passes s := funext h.passes
  have hcons : (file :: files).takeWhile (io.passes s) =
      file :: files.takeWhile (io.passes s') := by
    rw [List.takeWhile_cons_of_pos hpass, hpasses]
  have hself : file ∉ files.takeWhile (io.passes s') := fun hmem =>
    hfile ((List.takeWhile_prefix _).subset hmem)
  -- the other files are still as they were when the rest of the loop starts
  have hother : ∀ g, g ≠ file → s'.outputDir.content g = s.outputDir.content g ∧
      ∀ dir, s'.archived dir g = s.archived dir g := by
    intro g hg
    refine ⟨content_congr (h.left g fun hc => hg (mem_takeWhile_singleton.mp hc.1).1), ?_⟩
    exact fun dir => h.kept dir g fun hc => hg (mem_takeWhile_singleton.mp hc.1).1
  refine ⟨fun g hg => ?_, fun dir g hg => ?_, fun g hg => ?_, fun dir => ?_,
    h'.masterArchive.trans h.masterArchive, h'.workDir.trans h.workDir⟩
  · rw [hcons] at hg
    rcases List.mem_cons.mp hg with rfl | hg
    · rw [h'.kept _ _ fun hc => hself hc.1]
      exact h.delivered g (mem_takeWhile_singleton.mpr ⟨rfl, hpass⟩)
    · have hne : g ≠ file := fun hgf => hself (hgf ▸ hg)
      rw [h'.delivered g hg, (hother g hne).1, (hother g hne).2]
  · rw [hcons] at hg
    rw [h'.kept dir g fun hc => hg ⟨List.mem_cons_of_mem _ hc.1, hc.2⟩]
    refine h.kept dir g fun hc => hg ⟨?_, hc.2⟩
    rw [(mem_takeWhile_singleton.mp hc.1).1]
    exact List.mem_cons_self
  · rw [hcons] at hg
    by_cases hgf : g = file
    · subst hgf
      rw [h'.left g fun hc => hself hc.1]
      exact h.left g fun hc => hg ⟨List.mem_cons_self, hc.2⟩
    · rw [h'.left g fun hc => hg ⟨List.mem_cons_of_mem _ hc.1, ?_⟩]
      · exact h.left g fun hc => hgf (mem_takeWhile_singleton.mp hc.1).1
      · rw [← (hother g hgf).1, ← (hother g hgf).2]
        exact hc.2
  · rw [h'.made, h.made, comesTo_singleton, comesTo_cons, hpasses, or_assoc, ← and_or_left,
      and_iff_right hpass]

theorem handles_archiveFiles {files : List Str} (hfiles : files.Nodup) (s : OutputTree α) :
    Handles io files s (archiveFiles io files s) := by
  induction files generalizing s with
  | nil =>
    refine ⟨fun g hg => absurd hg List.not_mem_nil, fun _ _ _ => rfl, fun _ _ => rfl, fun dir => ?_,
      rfl, rfl⟩
    exact (or_iff_left fun hmade => not_comesTo_nil hmade.2).symm
  | cons file files ih =>
    obtain ⟨hnotMem, hfiles⟩ := List.nodup_cons.mp hfiles
    have hround : (archiveFile io file s).1 = io.passes s file ∧
      Handles io [file] s (archiveFile io file s).2 := handles_archiveFile
    rw [archiveFiles]
    generalize archiveFile io file s = r at hround
    obtain ⟨_ | _, s'⟩ := r
    · exact hround.2.stop hround.1.symm
    · exact hround.2.cons hround.1.symm hnotMem (ih hfiles s')

end Loop

/-- What of `packCycle` succeeds, and what it finds. -/
structure PackIo where
  targetReadable : Bool
  targetWritable : Bool
  renamed : Bool
  statusReadable : Bool
  statusWritable : Bool
  /-- a line of the status file starts with `DATA_PACKAGED_SUCCESSFULLY` -/
  packaged : Bool
  chdir : Bool
  merge : MergeIo
  unlinkMaster : Bool
  /-- `tar` makes the master archive, -/
  tarRuns : Bool
  /-- and adds a file to it -/
  tarAdds : Str → Bool

/-- What `z_tigge_c_kwbc_${cycle}0000_*.grib` expands to. -/
def packGlob (cycle file : Str) : Bool :=
  ("z_tigge_c_kwbc_".toList ++ cycle ++ "0000_".toList).isPrefixOf file &&
    ".grib".toList.isSuffixOf file

/-- `tar -cf $masterArchive z_tigge_c_kwbc_${cycle}0000_*.grib`. -/
def tarFiles (io : PackIo) (cycle : Str) (d : Directory α) : List (Str × List (Chunk α)) :=
  (d.keys.filter fun file => packGlob cycle file && io.tarAdds file).map fun file =>
    (file, d.content file)

/-- The status file may have been left in the output directory. -/
def recoverStatus (io : PackIo) (cycle : Str) (s : OutputTree α) (target : Directory α) :
    Directory α × Directory α :=
  if statusFile cycle ∈ s.outputDir ∧ statusFile cycle ∉ target ∧ io.renamed = true then
    (s.outputDir.erase (statusFile cycle),
      target.insert (statusFile cycle) (s.outputDir.content (statusFile cycle)))
  else (s.outputDir, target)

/-- `packCycle($latestRun)`. -/
def packCycle (io : PackIo) (cycle : Str) (s : OutputTree α) : OutputTree α :=
  match s.archiveDir.lookup cycle with
  | none => s
  | some target =>
    if !io.targetReadable || !io.targetWritable then s
    else
      let (outputDir, target) := recoverStatus io cycle s target
      if statusFile cycle ∉ target ∨ io.statusReadable = false ∨ io.statusWritable = false ∨
          io.packaged = true then
        { s with outputDir := outputDir, archiveDir := s.archiveDir.insert cycle target }
      else
        -- what `mergeRecords` returns is not looked at
        let merged := (mergeRecords io.merge cycle target).2
        { s with
          outputDir := outputDir
          archiveDir := s.archiveDir.insert cycle merged
          masterArchive :=
            if io.tarRuns then some (tarFiles io cycle (if io.chdir then merged else s.workDir))
            else if io.unlinkMaster then none
            else s.masterArchive }

/-- What of the end of `runCycle` succeeds. -/
structure ConcludeIo where
  qc : QcOutputIo
  archive : ArchiveIo
  pack : PackIo

/-- The tag file, which `qcOutput` writes unless it is there. -/
def OutputTree.tagged (cycle : Str) (s : OutputTree α) : OutputTree α :=
  if statusFile cycle ∈ s.outputDir then s
  else { s with outputDir := s.outputDir.insert (statusFile cycle) [] }

/-- `runCycle` from its output QC on: the code it returns, and what it leaves. The texts that
`archiveOutput` and `packCycle` return are printed. -/
def concludeCycle (io : ConcludeIo) (cycle : Str) (s : OutputTree α) : ℕ × OutputTree α :=
  if qcOutput io.qc cycle (statusFile cycle ∈ s.outputDir) s.outputDir.keys then
    (0, packCycle io.pack cycle (archiveOutput io.archive cycle (s.tagged cycle)))
  else (12, s)

end Tigge
