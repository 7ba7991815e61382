import Tigge.LinkInput

/-! What a run of `link_input.py` leaves in the directory of links, whichever links earlier runs
have left there, and when the next task finds all it needs. -/

namespace Tigge
open Lib

/-- `os.path.dirname`, with the slash. -/
def dirname (path : Str) : Str := (path.reverse.dropWhile (· ≠ '/')).reverse

/-- The links of a directory by their names, with their targets. -/
abbrev Links := AList fun _ : Str => Str

/-- The disk as `main` of `link_input.py` finds it. Only links stand in `destination_dir`. -/
structure LinkDisk where
  /-- `destination_dir`, if it is there -/
  destination : Option Links
  /-- the path, which is not in `destination_dir`, leads to a file -/
  leadsToFile : Str → Bool

/-- The argument of `link_input.py` and what it takes from its environment. -/
structure LinkCall where
  time : Datetime
  /-- `TIGGE_INPUT` -/
  inputDir : Str
  /-- `GEFS_COM` -/
  sourceDir : Str

/-- The loop over `os.symlink`. A name that is there raises `FileExistsError`, which nothing
catches: the exit status is 1. -/
def symlinks : List Str → Links → ℕ × Links
  | [], links => (0, links)
  | f :: files, links =>
    if basename f ∈ links then (1, links) else symlinks files (links.insert (basename f) f)

namespace LinkCall
variable (c : LinkCall) (disk : LinkDisk)

def destinationDir : Str := c.time.strftime (c.inputDir ++ "/%Y%m%d%H".toList)

def sourceFilelist : List Str := getSourceFilenames c.sourceDir c.time (getMembers c.time)

def linkFilelist : List Str := getLinkFilenames c.destinationDir c.time (getMembers c.time)

/-- Where a link in `destination_dir` leads; a relative target is taken from there. -/
def resolve (target : Str) : Str :=
  if target.head? = some '/' then target else c.destinationDir ++ '/' :: target

def readlink (path : Str) : Option Str :=
  if dirname path = c.destinationDir ++ "/".toList then
    disk.destination.bind (·.lookup (basename path))
  else none

/-- `os.path.islink`. -/
def islink (path : Str) : Bool := (c.readlink disk path).isSome

/-- `os.path.isfile`, which follows links. -/
def isfile (path : Str) : Bool :=
  if dirname path = c.destinationDir ++ "/".toList then
    (c.readlink disk path).any fun target => disk.leadsToFile (c.resolve target)
  else disk.leadsToFile path

/-- `main` of `link_input.py`: the exit status, and what it leaves. -/
def main : ℕ × LinkDisk :=
  if c.linkFilelist.all (c.islink disk) then
    if c.linkFilelist.all (c.isfile disk) then (0, disk)
    else (0, { disk with destination := none })
  else if c.sourceFilelist.any fun f => !c.isfile disk f then (100, disk)
  else
    -- `os.makedirs(destination_dir, exist_ok=True)`
    let (status, links) := symlinks c.sourceFilelist (disk.destination.getD ∅)
    (status, { disk with destination := some links })

/-- What a run leaves that is stopped after at most `k` links. -/
def stopped (k : ℕ) : LinkDisk :=
  if c.linkFilelist.all (c.islink disk) then disk
  else if c.sourceFilelist.any fun f => !c.isfile disk f then disk
  else
    { disk with
      destination := some (symlinks (c.sourceFilelist.take k) (disk.destination.getD ∅)).2 }

/-- What earlier runs for the cycle can have left, with any change of the source files between
them. -/
inductive LeftByRuns : LinkDisk → Prop
  | absent (leadsToFile : Str → Bool) : LeftByRuns ⟨none, leadsToFile⟩
  | finished {disk : LinkDisk} : LeftByRuns disk → LeftByRuns (c.main disk).2
  | stopped {disk : LinkDisk} (k : ℕ) : LeftByRuns disk → LeftByRuns (c.stopped disk k)
  | sources {disk : LinkDisk} (leadsToFile : Str → Bool) :
      LeftByRuns disk → LeftByRuns { disk with leadsToFile := leadsToFile }

/-- Every expected link exists and resolves to a file. -/
def Complete : Prop := ∀ p ∈ c.linkFilelist, c.islink disk p = true ∧ c.isfile disk p = true

/-- An exit status of 0 means that the links are there, and it comes when the files are. -/
def Restartable : Prop :=
  ((c.main disk).1 = 0 → c.Complete (c.main disk).2) ∧
    ((∀ f ∈ c.sourceFilelist, c.isfile disk f = true) → (c.main disk).1 = 0)

/-- Every link is there and resolves; or one is not, and neither is one of the source files; or
none is there, and the source files are found from `destination_dir`. -/
def Ready : Prop :=
  c.Complete disk ∨
    (∃ p ∈ c.linkFilelist, c.islink disk p = false) ∧
        (∃ f ∈ c.sourceFilelist, c.isfile disk f = false) ∨
      (∀ p ∈ c.linkFilelist, c.islink disk p = false) ∧
        ∀ f ∈ c.sourceFilelist, disk.leadsToFile (c.resolve f) = true

end LinkCall

section Names
variable (t : Datetime)

theorem dirname_append (u : Str) {v : Str} (hv : '/' ∉ v) :
    dirname (u ++ '/' :: v) = u ++ "/".toList := by
  have hdrop : (v.reverse ++ '/' :: u.reverse).dropWhile (· ≠ '/') = '/' :: u.reverse := by
    rw [List.dropWhile_append_of_pos fun c hc => ?_]
    · simp
    · simpa using fun h : c = '/' => hv (h ▸ List.mem_reverse.mp hc)
  unfold dirname
  rw [List.reverse_append, List.reverse_cons, List.append_assoc, List.singleton_append, hdrop,
    List.reverse_cons, List.reverse_reverse]
  rfl

theorem strftime_ne_cons {x : Char} (hx : x.isDigit = false) {s : Str} (h : ∀ r, s ≠ x :: r)
    (r : Str) : t.strftime s ≠ x :: r := by
  have hnumber : ∀ {w n : ℕ} {v : Str}, 0 < w → padded w n ++ v ≠ x :: r := by
    intro w n v hw heq
    have hne : padded w n ≠ [] := by
      intro hnil
      have hlength := congrArg List.length hnil
      rw [padded, List.length_leftpad, List.length_nil] at hlength
      omega
    obtain ⟨d, ds, hd⟩ := List.exists_cons_of_ne_nil hne
    have hdigit : d.isDigit = true :=
      isDigit_of_mem_padded (w := w) (n := n) (hd ▸ List.mem_cons_self)
    rw [hd, List.cons_append] at heq
    rw [(List.cons.inj heq).1, hx] at hdigit
    cases hdigit
  intro heq
  cases s using Datetime.strftime.fun_cases with
  | case1 s => exact hnumber (by decide) heq
  | case2 s => exact hnumber (by decide) heq
  | case3 s => exact hnumber (by decide) heq
  | case4 s => exact hnumber (by decide) heq
  | case5 c s hY hm hd hH =>
    rw [Datetime.strftime.eq_5 t c s hY hm hd hH] at heq
    apply h s
    rw [(List.cons.inj heq).1]
  | case6 => cases heq

/-- What `strftime` has written has no directive left. -/
theorem strftime_strftime (s : Str) : t.strftime (t.strftime s) = t.strftime s := by
  have hnumber : ∀ {w n : ℕ}, '%' ∉ padded w n := notMem_padded (by decide)
  fun_induction Datetime.strftime t s with
  | case1 s ih => rw [t.strftime_append hnumber, ih]
  | case2 s ih => rw [t.strftime_append hnumber, ih]
  | case3 s ih => rw [t.strftime_append hnumber, ih]
  | case4 s ih => rw [t.strftime_append hnumber, ih]
  | case5 c s hY hm hd hH ih =>
    -- the character after a kept `%` is no letter of a directive
    have hkept : ∀ {x : Char}, x.isDigit = false → (∀ r, c = '%' → s = x :: r → False) →
        ∀ r, c = '%' → t.strftime s = x :: r → False := fun hx h r hc heq =>
      strftime_ne_cons t hx (fun r hs => h r hc hs) r heq
    rw [Datetime.strftime.eq_5 t c _ (hkept (by decide) hY) (hkept (by decide) hm)
      (hkept (by decide) hd) (hkept (by decide) hH), ih]
  | case6 => rfl

/-- The names of the input files of the cycle, in the order of the script. -/
def inputNames : List Str :=
  [FileNumber.aFile, .bFile].flatMap fun gribType =>
    (List.range (getNMembers t.toCycleDate)).flatMap fun em =>
      pythonForecastHours.map fun forecastHour => inputName gribType t.toCycleDate forecastHour em

theorem lt_of_mem_pythonForecastHours {fff : ℕ} (h : fff ∈ pythonForecastHours) : fff < 1000 :=
  lt_of_mem_forecastHours (mem_pythonForecastHours.mp h)

theorem inputName_inj {type type' : FileNumber} {em em' fff fff' : ℕ}
    (hem : em < getNMembers t.toCycleDate) (hem' : em' < getNMembers t.toCycleDate)
    (hfff : fff ∈ pythonForecastHours) (hfff' : fff' ∈ pythonForecastHours)
    (h : inputName type t.toCycleDate fff em = inputName type' t.toCycleDate fff' em') :
    type = type' ∧ em = em' ∧ fff = fff' := by
  have hread := gefsMatch_inputName t (hem.trans (getNMembers_lt t))
    (lt_of_mem_pythonForecastHours hfff) type
  rw [h, gefsMatch_inputName t (hem'.trans (getNMembers_lt t))
    (lt_of_mem_pythonForecastHours hfff') type', Option.some_inj] at hread
  have hem := padded_injective 2 (congrArg GefsMatch.mem hread)
  have htype : type'.fileLetter = type.fileLetter := congrArg GefsMatch.type hread
  have hletter : type = type' := by
    cases type <;> cases type' <;> first | rfl | exact absurd htype (by decide)
  subst hem hletter
  exact ⟨rfl, rfl, inputName_injective h⟩

theorem nodup_inputNames : (inputNames t).Nodup := by
  have hhours : pythonForecastHours.Nodup := List.nodup_range.filter _
  unfold inputNames
  rw [List.nodup_flatMap]
  constructor
  · intro type _
    rw [List.nodup_flatMap]
    constructor
    · intro em _
      exact hhours.map fun fff fff' h => inputName_injective h
    · apply List.nodup_range.pairwise_of_forall_ne
      intro em hem em' hem' hne name hname hname'
      obtain ⟨fff, hfff, rfl⟩ := List.mem_map.mp hname
      obtain ⟨fff', hfff', h⟩ := List.mem_map.mp hname'
      exact hne (inputName_inj t (List.mem_range.mp hem) (List.mem_range.mp hem') hfff hfff'
        h.symm).2.1
  · refine List.pairwise_pair.mpr fun name hname hname' => ?_
    simp only [List.mem_flatMap, List.mem_map, List.mem_range] at hname hname'
    obtain ⟨em, hem, fff, hfff, rfl⟩ := hname
    obtain ⟨em', hem', fff', hfff', h⟩ := hname'
    cases (inputName_inj t hem hem' hfff hfff' h.symm).1

theorem filelist_eq (directory : FileNumber → Str) :
    ([FileNumber.aFile, .bFile].flatMap fun gribType => (getMembers t).flatMap fun member =>
      pythonForecastHours.map fun forecastHour =>
        getFilename (directory gribType) t member forecastHour gribType) =
    [FileNumber.aFile, .bFile].flatMap fun gribType =>
      (List.range (getNMembers t.toCycleDate)).flatMap fun em =>
        pythonForecastHours.map fun forecastHour => t.strftime (directory gribType) ++
          '/' :: inputName gribType t.toCycleDate forecastHour em := by
  rw [getMembers_eq]
  simp only [List.flatMap_map, getFilename_eq]

end Names

section Filelists
variable (c : LinkCall)

theorem destinationDir_eq :
    c.destinationDir = c.time.strftime c.inputDir ++ '/' :: c.time.cycle := by
  unfold LinkCall.destinationDir
  have hsplit : c.inputDir ++ "/%Y%m%d%H".toList = c.inputDir ++ '/' :: "%Y%m%d%H".toList := rfl
  rw [hsplit, c.time.strftime_append_slash, Datetime.cycle_eq]
  simp [Datetime.strftime]

theorem linkFilelist_eq :
    c.linkFilelist = (inputNames c.time).map fun name => c.destinationDir ++ '/' :: name := by
  unfold LinkCall.linkFilelist getLinkFilenames
  have hdir : c.time.strftime c.destinationDir = c.destinationDir := strftime_strftime c.time _
  rw [filelist_eq c.time fun _ => c.destinationDir, hdir, inputNames]
  simp only [List.map_flatMap, List.map_map, Function.comp_def]

theorem sourceFilelist_eq : c.sourceFilelist =
    [FileNumber.aFile, .bFile].flatMap fun gribType =>
      (List.range (getNMembers c.time.toCycleDate)).flatMap fun em =>
        pythonForecastHours.map fun forecastHour =>
          c.time.strftime (getSourcePath c.sourceDir c.time gribType) ++
            '/' :: inputName gribType c.time.toCycleDate forecastHour em :=
  filelist_eq c.time (getSourcePath c.sourceDir c.time)

theorem basename_sourceFilelist : c.sourceFilelist.map basename = inputNames c.time := by
  have hname : ∀ (u : Str) (type : FileNumber) (fff em : ℕ),
      basename (u ++ '/' :: inputName type c.time.toCycleDate fff em) =
        inputName type c.time.toCycleDate fff em := fun u type fff em =>
    basename_append u (slash_notMem_inputName c.time type fff em)
  rw [sourceFilelist_eq, inputNames]
  simp only [List.map_flatMap, List.map_map, Function.comp_def, hname]

theorem exists_getSourcePath (type : FileNumber) :
    ∃ u w, c.time.strftime (getSourcePath c.sourceDir c.time type) = u ++ '/' :: 'p' :: w ∧
      '/' ∉ 'p' :: w := by
  have hlast : ∀ (x : Str) {w : Str}, '%' ∉ 'p' :: w →
      c.time.strftime (c.time.strftime (x ++ '/' :: 'p' :: w)) =
        c.time.strftime x ++ '/' :: 'p' :: w := by
    intro x w hw
    rw [strftime_strftime, c.time.strftime_append_slash, c.time.strftime_of_notMem hw]
  have hletter : '/' ∉ type.fileLetter ∧ '%' ∉ type.fileLetter :=
    ⟨fileLetter_notMem (by decide) type, fileLetter_notMem (by decide) type⟩
  unfold getSourcePath
  split_ifs
  · refine ⟨c.time.strftime (c.sourceDir ++ "/gefs.%Y%m%d/%H".toList),
      "grb2".toList ++ type.fileLetter, ?_, ?_⟩
    · have hcut : c.sourceDir ++ "/gefs.%Y%m%d/%H/pgrb2".toList ++ type.fileLetter =
          (c.sourceDir ++ "/gefs.%Y%m%d/%H".toList) ++ '/' :: 'p' ::
            ("grb2".toList ++ type.fileLetter) := by simp
      rw [hcut, hlast]
      simp [hletter.2]
    · simp [hletter.1]
  · refine ⟨c.time.strftime (c.sourceDir ++ "/gefs.%Y%m%d/%H/atmos".toList),
      "grb2".toList ++ type.fileLetter ++ "p5".toList, ?_, ?_⟩
    · have hcut : c.sourceDir ++ "/gefs.%Y%m%d/%H/atmos/pgrb2".toList ++ type.fileLetter ++
          "p5".toList = (c.sourceDir ++ "/gefs.%Y%m%d/%H/atmos".toList) ++ '/' :: 'p' ::
            ("grb2".toList ++ type.fileLetter ++ "p5".toList) := by simp
      rw [hcut, hlast]
      simp [hletter.2]
    · simp [hletter.1]

/-- No source file is in the directory of the links. -/
theorem dirname_source {f : Str} (hf : f ∈ c.sourceFilelist) :
    dirname f ≠ c.destinationDir ++ "/".toList := by
  simp only [sourceFilelist_eq, List.mem_flatMap, List.mem_map] at hf
  obtain ⟨type, -, em, -, fff, -, rfl⟩ := hf
  rw [dirname_append _ (slash_notMem_inputName c.time type fff em)]
  intro heq
  obtain ⟨u, w, hpath, hw⟩ := exists_getSourcePath c type
  rw [hpath, destinationDir_eq] at heq
  have hdigits : ∀ x ∈ c.time.cycle, x.isDigit = true := fun x => c.time.isDigit_of_mem_cycle
  have hcycle := (append_cons_inj_right hw (fun h => absurd (hdigits _ h) (by decide))
    (List.append_cancel_right heq)).2
  exact absurd (hdigits 'p' (hcycle ▸ List.mem_cons_self)) (by decide)

end Filelists

section Disk
variable {c : LinkCall} {disk : LinkDisk}

/-- The links that are there. -/
def LinkDisk.links (disk : LinkDisk) : Links := disk.destination.getD ∅

theorem isfile_source {f : Str} (hf : f ∈ c.sourceFilelist) :
    c.isfile disk f = disk.leadsToFile f := by
  unfold LinkCall.isfile
  exact if_neg (dirname_source c hf)

theorem slash_notMem_of_mem {t : Datetime} {name : Str} (h : name ∈ inputNames t) :
    '/' ∉ name := by
  simp only [inputNames, List.mem_flatMap, List.mem_map] at h
  obtain ⟨type, -, em, -, fff, -, rfl⟩ := h
  exact slash_notMem_inputName t type fff em

theorem readlink_link {name : Str} (hname : name ∈ inputNames c.time) :
    c.readlink disk (c.destinationDir ++ '/' :: name) = disk.links.lookup name := by
  have hslash := slash_notMem_of_mem hname
  unfold LinkCall.readlink LinkDisk.links
  rw [dirname_append _ hslash, basename_append _ hslash, if_pos rfl]
  cases disk.destination <;> rfl

theorem islink_link {name : Str} (hname : name ∈ inputNames c.time) :
    c.islink disk (c.destinationDir ++ '/' :: name) = true ↔ name ∈ disk.links := by
  unfold LinkCall.islink
  rw [readlink_link hname, AList.lookup_isSome]

theorem isfile_link {name : Str} (hname : name ∈ inputNames c.time) :
    c.isfile disk (c.destinationDir ++ '/' :: name) =
      (disk.links.lookup name).any fun target => disk.leadsToFile (c.resolve target) := by
  unfold LinkCall.isfile
  rw [readlink_link hname, dirname_append _ (slash_notMem_of_mem hname), if_pos rfl]

theorem all_islink_iff : c.linkFilelist.all (c.islink disk) = true ↔
    ∀ name ∈ inputNames c.time, name ∈ disk.links := by
  rw [linkFilelist_eq, List.all_map, List.all_eq_true]
  exact forall₂_congr fun name hname => islink_link hname

theorem all_isfile_iff : c.linkFilelist.all (c.isfile disk) = true ↔
    ∀ name ∈ inputNames c.time, ∃ target, disk.links.lookup name = some target ∧
      disk.leadsToFile (c.resolve target) = true := by
  rw [linkFilelist_eq, List.all_map, List.all_eq_true]
  refine forall₂_congr fun name hname => ?_
  rw [Function.comp_apply, isfile_link hname, Option.any_eq_true]

theorem exists_mem_inputNames (t : Datetime) : ∃ name, name ∈ inputNames t := by
  have hmembers : 0 < getNMembers t.toCycleDate := by
    unfold getNMembers
    split_ifs <;> decide
  refine ⟨inputName .aFile t.toCycleDate 0 0, ?_⟩
  simp only [inputNames, List.mem_flatMap, List.mem_map]
  exact ⟨.aFile, List.mem_cons_self, 0, List.mem_range.mpr hmembers, 0, by decide, rfl⟩

theorem complete_iff : c.Complete disk ↔ ∀ name ∈ inputNames c.time,
    ∃ target, disk.links.lookup name = some target ∧
      disk.leadsToFile (c.resolve target) = true := by
  rw [← all_isfile_iff, List.all_eq_true]
  refine forall₂_congr fun p hp => and_iff_right_of_imp fun hfile => ?_
  rw [linkFilelist_eq] at hp
  obtain ⟨name, hname, rfl⟩ := List.mem_map.mp hp
  rw [isfile_link hname, Option.any_eq_true] at hfile
  obtain ⟨target, htarget, -⟩ := hfile
  rw [islink_link hname, ← AList.lookup_isSome, htarget]
  rfl

theorem exists_not_islink_iff : (∃ p ∈ c.linkFilelist, c.islink disk p = false) ↔
    ¬ c.linkFilelist.all (c.islink disk) = true := by
  rw [List.all_eq_true]
  simp only [not_forall, Bool.not_eq_true, exists_prop]

theorem no_islink_iff : (∀ p ∈ c.linkFilelist, c.islink disk p = false) ↔
    ∀ f ∈ c.sourceFilelist, basename f ∉ disk.links := by
  have hnames : (∀ f ∈ c.sourceFilelist, basename f ∉ disk.links) ↔
      ∀ name ∈ inputNames c.time, name ∉ disk.links := by
    rw [← basename_sourceFilelist]
    simp only [List.forall_mem_map]
  rw [hnames, linkFilelist_eq, List.forall_mem_map]
  refine forall₂_congr fun name hname => ?_
  rw [← islink_link hname, Bool.not_eq_true]

end Disk

section Symlinks
variable {links : Links}

theorem lookup_symlinks_of_notMem {files : List Str} {name : Str}
    (h : name ∉ files.map basename) : (symlinks files links).2.lookup name = links.lookup name := by
  induction files generalizing links with
  | nil => rfl
  | cons f files ih =>
    rw [List.map_cons, List.mem_cons, not_or] at h
    unfold symlinks
    split_ifs
    · rfl
    · rw [ih h.2]
      exact AList.lookup_insert_ne h.1

theorem lookup_symlinks {files : List Str} {name target : Str}
    (h : (symlinks files links).2.lookup name = some target) :
    links.lookup name = some target ∨ target ∈ files ∧ basename target = name := by
  induction files generalizing links with
  | nil => exact .inl h
  | cons f files ih =>
    unfold symlinks at h
    split_ifs at h
    · exact .inl h
    · rcases ih h with hthere | ⟨hmem, hname⟩
      · by_cases hf : name = basename f
        · subst hf
          rw [AList.lookup_insert] at hthere
          obtain rfl := Option.some.inj hthere
          exact .inr ⟨List.mem_cons_self, rfl⟩
        · rw [AList.lookup_insert_ne hf] at hthere
          exact .inl hthere
      · exact .inr ⟨List.mem_cons_of_mem _ hmem, hname⟩

theorem symlinks_done {files : List Str} (hnodup : (files.map basename).Nodup)
    (hnone : ∀ f ∈ files, basename f ∉ links) : (symlinks files links).1 = 0 ∧
      ∀ f ∈ files, (symlinks files links).2.lookup (basename f) = some f := by
  induction files generalizing links with
  | nil => exact ⟨rfl, fun f hf => absurd hf List.not_mem_nil⟩
  | cons f files ih =>
    obtain ⟨hf, hnodup⟩ := List.nodup_cons.mp hnodup
    have hrest : ∀ g ∈ files, basename g ∉ links.insert (basename f) f := by
      intro g hg hmem
      rcases (AList.mem_insert _).mp hmem with heq | hmem
      · exact hf (heq ▸ List.mem_map_of_mem hg)
      · exact hnone g (List.mem_cons_of_mem _ hg) hmem
    obtain ⟨hstatus, hlinks⟩ := ih hnodup hrest
    unfold symlinks
    rw [if_neg (hnone f List.mem_cons_self)]
    refine ⟨hstatus, List.forall_mem_cons.mpr ⟨?_, hlinks⟩⟩
    rw [lookup_symlinks_of_notMem hf]
    exact AList.lookup_insert ..

theorem symlinks_stops {files : List Str} {f : Str} (hf : f ∈ files) (hthere : basename f ∈ links) :
    (symlinks files links).1 = 1 := by
  induction files generalizing links with
  | nil => exact absurd hf List.not_mem_nil
  | cons g files ih =>
    unfold symlinks
    split_ifs with hg
    · rfl
    · rcases List.mem_cons.mp hf with rfl | hf
      · exact absurd hthere hg
      · exact ih hf ((AList.mem_insert _).mpr (.inr hthere))

end Symlinks

section Main
variable {c : LinkCall} {disk : LinkDisk}

theorem all_isfile_iff_complete :
    c.linkFilelist.all (c.isfile disk) = true ↔ c.Complete disk :=
  all_isfile_iff.trans complete_iff.symm

theorem restartable_of_linked (hlinked : c.linkFilelist.all (c.islink disk) = true) :
    c.Restartable disk ↔ c.Complete disk := by
  unfold LinkCall.Restartable LinkCall.main
  rw [if_pos hlinked]
  by_cases hfiles : c.linkFilelist.all (c.isfile disk) = true
  · have hcomplete := all_isfile_iff_complete.mp hfiles
    rw [if_pos hfiles]
    exact iff_of_true ⟨fun _ => hcomplete, fun _ => rfl⟩ hcomplete
  · rw [if_neg hfiles]
    refine iff_of_false (fun h => ?_) (mt all_isfile_iff_complete.mpr hfiles)
    obtain ⟨name, hname⟩ := exists_mem_inputNames c.time
    obtain ⟨target, htarget, -⟩ := complete_iff.mp (h.1 rfl) name hname
    exact Option.some_ne_none target htarget.symm

theorem restartable_of_missing (hlinked : ¬ c.linkFilelist.all (c.islink disk) = true)
    (hmissing : (c.sourceFilelist.any fun f => !c.isfile disk f) = true) :
    c.Restartable disk := by
  unfold LinkCall.Restartable LinkCall.main
  rw [if_neg hlinked, if_pos hmissing]
  refine ⟨fun h => absurd h (Nat.succ_ne_zero 99), fun hall => ?_⟩
  obtain ⟨f, hf, hno⟩ := List.any_eq_true.mp hmissing
  rw [hall f hf] at hno
  cases hno

theorem restartable_of_present (hlinked : ¬ c.linkFilelist.all (c.islink disk) = true)
    (hpresent : ¬ (c.sourceFilelist.any fun f => !c.isfile disk f) = true) :
    c.Restartable disk ↔ (∀ p ∈ c.linkFilelist, c.islink disk p = false) ∧
      ∀ f ∈ c.sourceFilelist, disk.leadsToFile (c.resolve f) = true := by
  have hall : ∀ f ∈ c.sourceFilelist, c.isfile disk f = true := by
    simpa only [List.any_eq_true, Bool.not_eq_true', not_exists, not_and, Bool.not_eq_false]
      using hpresent
  unfold LinkCall.Restartable LinkCall.main
  rw [if_neg hlinked, if_neg hpresent, no_islink_iff]
  by_cases hnone : ∀ f ∈ c.sourceFilelist, basename f ∉ disk.links
  · have hnodup := nodup_inputNames c.time
    rw [← basename_sourceFilelist] at hnodup
    obtain ⟨hstatus, hlinks⟩ := symlinks_done hnodup hnone
    have hcomplete : ∀ disk' : LinkDisk, disk'.leadsToFile = disk.leadsToFile →
        disk'.links = (symlinks c.sourceFilelist disk.links).2 →
        (c.Complete disk' ↔ ∀ f ∈ c.sourceFilelist, disk.leadsToFile (c.resolve f) = true) := by
      intro disk' hleads hlinks'
      rw [complete_iff, hleads, hlinks', ← basename_sourceFilelist, List.forall_mem_map]
      refine forall₂_congr fun f hf => ?_
      rw [hlinks f hf]
      simp only [Option.some_inj, exists_eq_left']
    have hdone := hcomplete ⟨some (symlinks c.sourceFilelist disk.links).2, disk.leadsToFile⟩ rfl rfl
    constructor
    · rintro ⟨hexit, -⟩
      exact ⟨hnone, hdone.mp (hexit hstatus)⟩
    · rintro ⟨-, hfound⟩
      exact ⟨fun _ => hdone.mpr hfound, fun _ => hstatus⟩
  · refine iff_of_false (fun h => ?_) fun h => hnone h.1
    simp only [not_forall, not_not] at hnone
    obtain ⟨f, hf, hthere⟩ := hnone
    have hstatus := h.2 hall
    have hstops : (symlinks c.sourceFilelist (disk.destination.getD ∅)).1 = 1 :=
      symlinks_stops hf hthere
    rw [hstops] at hstatus
    cases hstatus

theorem any_missing_iff : (c.sourceFilelist.any fun f => !c.isfile disk f) = true ↔
    ∃ f ∈ c.sourceFilelist, c.isfile disk f = false := by
  rw [List.any_eq_true]
  simp only [Bool.not_eq_true']

theorem linked_not_none (hlinked : c.linkFilelist.all (c.islink disk) = true) :
    ¬ ∀ p ∈ c.linkFilelist, c.islink disk p = false := by
  intro hnone
  obtain ⟨name, hname⟩ := exists_mem_inputNames c.time
  have hthere := all_islink_iff.mp hlinked name hname
  rw [← islink_link hname, hnone] at hthere
  · cases hthere
  · rw [linkFilelist_eq]
    exact List.mem_map_of_mem hname

end Main

section Runs
variable {c : LinkCall} {disk : LinkDisk}

/-- Each link leads to the source file of its name. -/
def LinkCall.LeadsHome (c : LinkCall) (disk : LinkDisk) : Prop :=
  ∀ name target, disk.links.lookup name = some target →
    target ∈ c.sourceFilelist ∧ basename target = name

theorem leadsHome_symlinks {files : List Str} (hfiles : files ⊆ c.sourceFilelist)
    (h : c.LeadsHome disk) : c.LeadsHome
      { disk with destination := some (symlinks files (disk.destination.getD ∅)).2 } := by
  intro name target htarget
  rcases lookup_symlinks htarget with hthere | ⟨hmem, hname⟩
  · exact h name target hthere
  · exact ⟨hfiles hmem, hname⟩

theorem leadsHome_main (h : c.LeadsHome disk) : c.LeadsHome (c.main disk).2 := by
  unfold LinkCall.main
  split_ifs
  · exact h
  · exact fun name target htarget => absurd htarget.symm (Option.some_ne_none target)
  · exact h
  · exact leadsHome_symlinks (fun f hf => hf) h

theorem leadsHome_stopped (k : ℕ) (h : c.LeadsHome disk) : c.LeadsHome (c.stopped disk k) := by
  unfold LinkCall.stopped
  split_ifs
  · exact h
  · exact h
  · exact leadsHome_symlinks (List.take_subset k _) h

theorem leadsHome_of_left (h : c.LeftByRuns disk) : c.LeadsHome disk := by
  induction h with
  | absent => exact fun name target htarget => absurd htarget.symm (Option.some_ne_none target)
  | finished _ ih => exact leadsHome_main ih
  | stopped k _ ih => exact leadsHome_stopped k ih
  | sources _ _ ih => exact ih

theorem resolve_source (habsolute : c.sourceDir.head? = some '/') {f : Str}
    (hf : f ∈ c.sourceFilelist) : c.resolve f = f := by
  have hhead : ∀ s : Str, s.head? = some '/' → (c.time.strftime s).head? = some '/' := by
    intro s hs
    obtain ⟨r, rfl⟩ := List.head?_eq_some_iff.mp hs
    have hslash := c.time.strftime_append_slash [] r
    rw [List.nil_append] at hslash
    rw [hslash]
    rfl
  have happend : ∀ s r : Str, s.head? = some '/' → (s ++ r).head? = some '/' := by
    intro s r hs
    rw [List.head?_append, hs]
    rfl
  have hpath : ∀ type, (getSourcePath c.sourceDir c.time type).head? = some '/' := by
    intro type
    unfold getSourcePath
    split_ifs
    · exact hhead _ (happend _ _ (happend _ _ habsolute))
    · exact hhead _ (happend _ _ (happend _ _ (happend _ _ habsolute)))
  simp only [sourceFilelist_eq, List.mem_flatMap, List.mem_map] at hf
  obtain ⟨type, -, em, -, fff, -, rfl⟩ := hf
  unfold LinkCall.resolve
  exact if_pos (happend _ _ (hhead _ (hpath type)))

theorem nodup_sources (c : LinkCall) : (c.sourceFilelist.map basename).Nodup := by
  rw [basename_sourceFilelist]
  exact nodup_inputNames c.time

/-- After runs of the script, links resolve exactly where the source files are. -/
theorem complete_iff_of_left (hleft : c.LeftByRuns disk)
    (habsolute : c.sourceDir.head? = some '/') :
    c.Complete disk ↔ c.linkFilelist.all (c.islink disk) = true ∧
      ∀ f ∈ c.sourceFilelist, c.isfile disk f = true := by
  have hhome := leadsHome_of_left hleft
  rw [complete_iff, all_islink_iff]
  constructor
  · intro h
    refine ⟨fun name hname => ?_, fun f hf => ?_⟩
    · obtain ⟨target, htarget, -⟩ := h name hname
      rw [← AList.lookup_isSome, htarget]
      rfl
    · have hname : basename f ∈ inputNames c.time := by
        rw [← basename_sourceFilelist]
        exact List.mem_map_of_mem hf
      obtain ⟨target, htarget, hfile⟩ := h (basename f) hname
      obtain ⟨hmem, hbase⟩ := hhome _ _ htarget
      obtain rfl := List.inj_on_of_nodup_map (nodup_sources c) hmem hf hbase
      rw [isfile_source hf]
      rwa [resolve_source habsolute hf] at hfile
  · rintro ⟨hlinked, hfiles⟩ name hname
    obtain ⟨target, htarget⟩ := Option.isSome_iff_exists.mp
      (AList.lookup_isSome.mpr (hlinked name hname))
    have hmem := (hhome _ _ htarget).1
    refine ⟨target, htarget, ?_⟩
    rw [resolve_source habsolute hmem, ← isfile_source hmem]
    exact hfiles target hmem

/-- For what runs of the script leave: no link is there, or all links are exactly when all source
files are. -/
theorem ready_iff_of_left (hleft : c.LeftByRuns disk) (habsolute : c.sourceDir.head? = some '/') :
    c.Ready disk ↔ (∀ p ∈ c.linkFilelist, c.islink disk p = false) ∨
      (c.linkFilelist.all (c.islink disk) = true ↔
        ∀ f ∈ c.sourceFilelist, c.isfile disk f = true) := by
  have hmissing : (∃ f ∈ c.sourceFilelist, c.isfile disk f = false) ↔
      ¬ ∀ f ∈ c.sourceFilelist, c.isfile disk f = true := by
    simp only [not_forall, Bool.not_eq_true, exists_prop]
  have hfound : (∀ f ∈ c.sourceFilelist, disk.leadsToFile (c.resolve f) = true) ↔
      ∀ f ∈ c.sourceFilelist, c.isfile disk f = true := by
    refine forall₂_congr fun f hf => ?_
    rw [resolve_source habsolute hf, isfile_source hf]
  have hcases : ∀ {A N S : Prop}, (A → ¬ N) →
      ((A ∧ S ∨ ¬ A ∧ ¬ S ∨ N ∧ S) ↔ N ∨ (A ↔ S)) := by
    intro A N S hA
    by_cases hS : S
    · simp only [hS, not_true, and_true, and_false, false_or, iff_true]
      exact or_comm
    · simp only [hS, not_false_iff, and_true, and_false, or_false, false_or, iff_false]
      exact ⟨.inr, fun h => h.elim (fun hN hA' => hA hA' hN) id⟩
  unfold LinkCall.Ready
  rw [complete_iff_of_left hleft habsolute, exists_not_islink_iff, hmissing, hfound]
  exact hcases linked_not_none

theorem not_any_missing_of_files (hfiles : ∀ f, disk.leadsToFile f = true)
    (links : Option Links) :
    ¬ (c.sourceFilelist.any fun f => !c.isfile ⟨links, disk.leadsToFile⟩ f) = true := by
  intro hmissing
  obtain ⟨f, hf, hno⟩ := any_missing_iff.mp hmissing
  rw [isfile_source hf, hfiles] at hno
  cases hno

theorem stopped_of_absent (k : ℕ) (habsent : disk.destination = none)
    (hfiles : ∀ f, disk.leadsToFile f = true) : c.stopped disk k =
      ⟨some (symlinks (c.sourceFilelist.take k) ∅).2, disk.leadsToFile⟩ := by
  have hlinked : ¬ c.linkFilelist.all (c.islink disk) = true := by
    intro hall
    obtain ⟨name, hname⟩ := exists_mem_inputNames c.time
    have hmem := all_islink_iff.mp hall name hname
    rw [LinkDisk.links, habsent] at hmem
    exact AList.notMem_empty name hmem
  unfold LinkCall.stopped
  rw [if_neg hlinked, if_neg (not_any_missing_of_files hfiles disk.destination), habsent]
  rfl

theorem lookup_first_links (k : ℕ) {f : Str} (hf : f ∈ c.sourceFilelist.take k) :
    (symlinks (c.sourceFilelist.take k) ∅).2.lookup (basename f) = some f := by
  have hnodup := (nodup_sources c).sublist ((List.take_sublist k _).map basename)
  exact (symlinks_done hnodup fun _ _ => AList.notMem_empty _).2 f hf

theorem lookup_next_link {k : ℕ} (hlast : k < c.sourceFilelist.length) :
    (symlinks (c.sourceFilelist.take k) ∅).2.lookup (basename c.sourceFilelist[k]) = none := by
  have hdisjoint := List.disjoint_take_drop (nodup_sources c) (le_refl k)
  rw [← List.map_take, ← List.map_drop] at hdisjoint
  have hnext : c.sourceFilelist[k] ∈ c.sourceFilelist.drop k := by
    rw [List.drop_eq_getElem_cons hlast]
    exact List.mem_cons_self
  rw [lookup_symlinks_of_notMem fun hmem => hdisjoint hmem (List.mem_map_of_mem hnext)]
  rfl

/-- A run that stopped between its first link and its last leaves a directory that no later run
completes. -/
theorem stopped_not_restartable {k : ℕ} (hk : 0 < k) (hlast : k < c.sourceFilelist.length)
    (habsent : disk.destination = none) (hfiles : ∀ f, disk.leadsToFile f = true) :
    ¬ c.Restartable (c.stopped disk k) := by
  rw [stopped_of_absent k habsent hfiles,
    restartable_of_present _ (not_any_missing_of_files hfiles _), no_islink_iff]
  · rintro ⟨hnone, -⟩
    obtain ⟨f, files, hsources⟩ := List.exists_cons_of_length_pos (hk.trans hlast)
    obtain ⟨m, rfl⟩ := Nat.exists_eq_succ_of_ne_zero hk.ne'
    have hfirst : f ∈ c.sourceFilelist.take (m + 1) := by
      rw [hsources]
      exact List.mem_cons_self
    apply hnone f ((List.take_subset _ _) hfirst)
    rw [LinkDisk.links, ← AList.lookup_isSome, Option.getD_some, lookup_first_links _ hfirst]
    rfl
  · intro hall
    have hname : basename c.sourceFilelist[k] ∈ inputNames c.time := by
      rw [← basename_sourceFilelist]
      exact List.mem_map_of_mem (List.getElem_mem hlast)
    have hthere := all_islink_iff.mp hall _ hname
    rw [LinkDisk.links, ← AList.lookup_isSome, Option.getD_some, lookup_next_link hlast] at hthere
    cases hthere

end Runs

section Outcome
variable {c : LinkCall} {disk : LinkDisk}

/-- The three tests and the loop, put together. -/
theorem restartable_iff (c : LinkCall) (disk : LinkDisk) : c.Restartable disk ↔ c.Ready disk := by
  unfold LinkCall.Ready
  by_cases hlinked : c.linkFilelist.all (c.islink disk) = true
  · rw [restartable_of_linked hlinked]
    refine (or_iff_left ?_).symm
    rintro (⟨hnot, -⟩ | ⟨hnone, -⟩)
    · exact exists_not_islink_iff.mp hnot hlinked
    · exact linked_not_none hlinked hnone
  · have hincomplete : ¬ c.Complete disk := fun h =>
      hlinked (List.all_eq_true.mpr fun p hp => (h p hp).1)
    rw [or_iff_right hincomplete, exists_not_islink_iff, and_iff_right hlinked, ← any_missing_iff]
    by_cases hgone : (c.sourceFilelist.any fun f => !c.isfile disk f) = true
    · exact iff_of_true (restartable_of_missing hlinked hgone) (.inl hgone)
    · rw [restartable_of_present hlinked hgone, or_iff_right hgone]

/-- The script for one cycle, with the directories of the workflow. -/
def newYearCall : LinkCall where
  time := newYearTime
  inputDir := "/ptmp/tigge/input".toList
  sourceDir := "/com/gens/prod".toList

/-- A run has stopped after its first link, and every source file is there: the next run fails on
that link. -/
theorem newYearCall_interrupted :
    newYearCall.LeftByRuns (newYearCall.stopped ⟨none, fun _ => true⟩ 1) ∧
      ¬ newYearCall.Restartable (newYearCall.stopped ⟨none, fun _ => true⟩ 1) :=
  ⟨.stopped 1 (.absent _), stopped_not_restartable Nat.one_pos (by decide +kernel) rfl fun _ => rfl⟩

end Outcome
end Tigge
