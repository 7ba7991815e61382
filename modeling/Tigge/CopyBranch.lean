import Tigge.Delivery

/-! What the copy branch of `archiveOutput` removes from the output directory, and when the
archive has it then. -/

namespace Tigge
open Lib Lib.Directory
variable {α : Type*} [Sized α]

/-- `@allFiles`, of the names that `$ptrn` matches; without arguments it matches every name. -/
def selectedFiles (ptrn : Str → Bool) (names : List Str) : List Str :=
  names.filter fun file => !unarchivedPatterns.any (·.found file) && ptrn file

/-- `archiveOutput(..)` for any selection of output files. -/
def archiveOutputMatching (io : ArchiveIo) (ptrn : Str → Bool) (s : OutputTree α) : OutputTree α :=
  archiveFiles io (selectedFiles ptrn (io.readdir.order s.outputDir.keys)) s

theorem archiveOutput_eq (io : ArchiveIo) (cycle : Str) (s : OutputTree α) :
    archiveOutput io cycle s =
      archiveOutputMatching io (fun file => (archivedPatterns cycle).any (·.found file)) s := rfl

/-- The files that the loop gets past. -/
def reachedFiles (io : ArchiveIo) (ptrn : Str → Bool) (s : OutputTree α) : List Str :=
  (selectedFiles ptrn (io.readdir.order s.outputDir.keys)).takeWhile (io.passes s)

/-- Each output file that the copy branch removes is in the archive with the content it had. -/
def OutputTree.LosesNothing (io : ArchiveIo) (ptrn : Str → Bool) (s : OutputTree α) : Prop :=
  ∀ file ∈ s.outputDir, isStatusFile file = false →
    file ∉ (archiveOutputMatching io ptrn s).outputDir →
      (archiveOutputMatching io ptrn s).archived (destDir file) file =
        some (s.outputDir.content file)

/-- Where the destination does not open and the source can be removed, what already stands at the
destination has another size than the source, unless it is the same. A missing file has size 0. -/
def OutputTree.NoLookalike (io : ArchiveIo) (ptrn : Str → Bool) (s : OutputTree α) : Prop :=
  ∀ file ∈ reachedFiles io ptrn s, isStatusFile file = false → io.openOut file = false →
    io.unlinkSource file = true →
      fileSize ((s.archived (destDir file) file).getD []) = fileSize (s.outputDir.content file) →
        s.archived (destDir file) file = some (s.outputDir.content file)

section Copy
variable {io : ArchiveIo} {file : Str} {source : List (Chunk α)} {dest : Option (List (Chunk α))}

theorem firstBytes_eq_self {n : ℕ} (h : fileSize (firstBytes n source) = fileSize source) :
    firstBytes n source = source := by
  apply firstBytes_of_le
  rw [fileSize_firstBytes] at h
  exact min_eq_right_iff.mp h

theorem cleared_iff (hcopied : isStatusFile file = false) : io.cleared file source dest = true ↔
    io.sameSize file source dest = true ∧ io.unlinkSource file = true := by
  unfold ArchiveIo.cleared
  rw [if_neg (Bool.eq_false_iff.mp hcopied), Bool.and_eq_true]

theorem copy_of_openOut (hopen : io.openOut file = true)
    (hsize : io.sameSize file source dest = true) : io.copy file source dest = some source := by
  have hsizes := of_decide_eq_true hsize
  unfold ArchiveIo.copy at hsizes ⊢
  rw [if_pos hopen] at hsizes ⊢
  cases hprinted : io.printed file with
  | none => rfl
  | some n =>
    rw [hprinted] at hsizes
    exact congrArg some (firstBytes_eq_self hsizes)

theorem copy_of_not_openOut (hopen : io.openOut file = false) :
    io.copy file source dest = dest := by
  unfold ArchiveIo.copy
  exact if_neg (Bool.eq_false_iff.mp hopen)

theorem delivered_of_sameSize (hcopied : isStatusFile file = false)
    (hsize : io.sameSize file source dest = true) :
    io.delivered file source dest = io.copy file source dest := by
  unfold ArchiveIo.delivered
  rw [if_neg (Bool.eq_false_iff.mp hcopied), hsize, Bool.true_or, if_pos rfl]

/-- One file: if it is removed it is delivered, exactly when no destination of its size stands in
the way of one that does not open. -/
theorem delivered_of_cleared_iff (hcopied : isStatusFile file = false) :
    (io.cleared file source dest = true → io.delivered file source dest = some source) ↔
      (io.openOut file = false → io.unlinkSource file = true →
        fileSize (dest.getD []) = fileSize source → dest = some source) := by
  rw [cleared_iff hcopied]
  cases hopen : io.openOut file with
  | true =>
    refine iff_of_true ?_ fun hclosed => absurd hclosed.symm Bool.false_ne_true
    rintro ⟨hsize, -⟩
    rw [delivered_of_sameSize hcopied hsize, copy_of_openOut hopen hsize]
  | false =>
    have hcopy : io.copy file source dest = dest := copy_of_not_openOut hopen
    have hsame : io.sameSize file source dest = true ↔
        fileSize (dest.getD []) = fileSize source := by
      unfold ArchiveIo.sameSize
      rw [hcopy, decide_eq_true_iff]
    constructor
    · intro h _ hunlink hsize
      have hgone := h ⟨hsame.mpr hsize, hunlink⟩
      rwa [delivered_of_sameSize hcopied (hsame.mpr hsize), hcopy] at hgone
    · rintro h ⟨hsize, hunlink⟩
      rw [delivered_of_sameSize hcopied hsize, hcopy]
      exact h rfl hunlink (hsame.mp hsize)

end Copy

section Loop
variable {io : ArchiveIo} {s : OutputTree α} {file : Str}

theorem lookup_archiveFile_of_cleared (hpass : io.passes s file = true)
    (hcleared : io.cleared file (s.outputDir.content file) (s.archived (destDir file) file) = true) :
    (archiveFile io file s).2.outputDir.lookup file = none := by
  obtain ⟨hdest, hopen⟩ := Bool.and_eq_true_iff.mp hpass
  obtain ⟨d, hd⟩ := Option.isSome_iff_exists.mp hdest
  rw [← lookup_of_destination hd] at hcleared
  unfold archiveFile
  simp only [hd, hopen, hcleared, if_true]
  exact AList.lookup_erase ..

theorem lookup_archiveFiles_of_cleared {files : List Str} (hfiles : files.Nodup)
    (hfile : file ∈ files.takeWhile (io.passes s))
    (hcleared : io.cleared file (s.outputDir.content file) (s.archived (destDir file) file) = true) :
    (archiveFiles io files s).outputDir.lookup file = none := by
  induction files generalizing s with
  | nil => exact absurd hfile List.not_mem_nil
  | cons g files ih =>
    obtain ⟨hnotMem, hnodup⟩ := List.nodup_cons.mp hfiles
    have hpass : io.passes s g = true := by
      by_contra hstop
      rw [List.takeWhile_cons_of_neg hstop] at hfile
      exact List.not_mem_nil hfile
    rw [List.takeWhile_cons_of_pos hpass] at hfile
    obtain ⟨hround, hhandles⟩ : (archiveFile io g s).1 = io.passes s g ∧
      Handles io [g] s (archiveFile io g s).2 := handles_archiveFile
    rw [hpass] at hround
    have hself := lookup_archiveFile_of_cleared hpass
    unfold archiveFiles
    generalize archiveFile io g s = r at hround hhandles hself
    obtain ⟨go, s'⟩ := r
    obtain rfl : go = true := hround
    cases List.mem_cons.mp hfile with
    | inl heq =>
      subst heq
      -- the later rounds are about other names
      have hrest : Handles io files s' (archiveFiles io files s') := handles_archiveFiles hnodup s'
      rw [hrest.left file fun hc => hnotMem ((List.takeWhile_prefix _).subset hc.1)]
      exact hself hcleared
    | inr hlater =>
      have hne : file ≠ g := by
        intro heq
        apply hnotMem
        rw [← heq]
        exact (List.takeWhile_prefix _).subset hlater
      have hone : ¬ file ∈ [g].takeWhile (io.passes s) := fun hc =>
        hne (mem_takeWhile_singleton.mp hc).1
      apply ih hnodup
      · rwa [funext hhandles.passes]
      · rw [content_congr (hhandles.left file fun hc => hone hc.1),
          hhandles.kept _ file fun hc => hone hc.1]
        exact hcleared

end Loop

section Whole
variable {io : ArchiveIo} {ptrn : Str → Bool} {s : OutputTree α} {file : Str}

omit [Sized α] in
theorem nodup_selectedFiles (io : ArchiveIo) (ptrn : Str → Bool) (s : OutputTree α) :
    (selectedFiles ptrn (io.readdir.order s.outputDir.keys)).Nodup :=
  ((io.readdir.perm _).nodup_iff.mpr s.outputDir.keys_nodup).filter _

omit [Sized α] in
theorem mem_of_mem_reachedFiles (hfile : file ∈ reachedFiles io ptrn s) : file ∈ s.outputDir := by
  have hselected := (List.takeWhile_prefix _).subset hfile
  exact AList.mem_keys.mpr ((io.readdir.perm _).subset (List.mem_filter.mp hselected).1)

/-- A file is removed exactly when the loop reaches it and clears it. -/
theorem removed_iff (hthere : file ∈ s.outputDir) :
    file ∉ (archiveOutputMatching io ptrn s).outputDir ↔ file ∈ reachedFiles io ptrn s ∧
      io.cleared file (s.outputDir.content file) (s.archived (destDir file) file) = true := by
  rw [← AList.lookup_eq_none]
  constructor
  · intro hgone
    by_contra hkept
    have hlookup := (handles_archiveFiles (nodup_selectedFiles io ptrn s) s).left file hkept
    rw [← AList.lookup_isSome, ← hlookup] at hthere
    unfold archiveOutputMatching at hgone
    rw [hgone] at hthere
    cases hthere
  · rintro ⟨hreached, hcleared⟩
    exact lookup_archiveFiles_of_cleared (nodup_selectedFiles io ptrn s) hreached hcleared

theorem archived_of_reached (hreached : file ∈ reachedFiles io ptrn s) :
    (archiveOutputMatching io ptrn s).archived (destDir file) file =
      io.delivered file (s.outputDir.content file) (s.archived (destDir file) file) :=
  (handles_archiveFiles (nodup_selectedFiles io ptrn s) s).delivered file hreached

/-- The sizes decide for the archive exactly where no destination of the source's size and of
another content is left unopened. -/
theorem archiveOutput_losesNothing_iff (io : ArchiveIo) (ptrn : Str → Bool) (s : OutputTree α) :
    s.LosesNothing io ptrn ↔ s.NoLookalike io ptrn := by
  constructor
  · intro h file hreached hcopied
    apply (delivered_of_cleared_iff hcopied).mp
    intro hcleared
    have hthere := mem_of_mem_reachedFiles hreached
    rw [← archived_of_reached hreached]
    exact h file hthere hcopied ((removed_iff hthere).mpr ⟨hreached, hcleared⟩)
  · intro h file hthere hcopied hgone
    obtain ⟨hreached, hcleared⟩ := (removed_iff hthere).mp hgone
    rw [archived_of_reached hreached]
    exact (delivered_of_cleared_iff hcopied).mpr (h file hreached hcopied) hcleared

end Whole

/-- No destination can be opened; all else succeeds. -/
def ArchiveIo.closedOut : ArchiveIo := { ArchiveIo.smooth with openOut := fun _ => false }

/-- An output file of one byte, and one of another byte that an earlier run has left in the
archive under its name. -/
def staleTree : OutputTree UInt8 :=
  let file := "z_tigge_c_kwbc_20210101000000_glob_prod_cf_sl_0000_000_0000_2t.grib".toList
  { outputDir := (∅ : Directory UInt8).insert file [.whole 1]
    archiveDir := (∅ : AList fun _ => Directory UInt8).insert "2021010100".toList
      ((∅ : Directory UInt8).insert file [.whole 2])
    masterArchive := none
    workDir := ∅ }

/-- The stale file is taken for the copy, and the only file with the new content is removed. -/
theorem staleTree_loses : ¬ staleTree.LosesNothing .closedOut fun _ => true := by
  intro h
  have hgone := h "z_tigge_c_kwbc_20210101000000_glob_prod_cf_sl_0000_000_0000_2t.grib".toList
    (by decide +kernel) (by decide +kernel) (by decide +kernel)
  revert hgone
  decide +kernel

end Tigge
