import Tigge.Lib.Pattern
import Tigge.Names

/-! `qcGensCycle`: the input files of a cycle, counted for each member and file type before the
program opens them by name. -/

namespace Tigge
open Lib

/-- What the file tests see of an input file. -/
structure FileStat where
  size : ℕ
  readable : Bool
  deriving DecidableEq

/-- The input directory of a cycle, without a tag file of an earlier check. -/
abbrev InputDirectory := AList fun _ : Str => FileStat

/-- `-z` is false and `-r` is true. -/
def FileStat.usable (s : FileStat) : Bool := s.size ≠ 0 && s.readable

/-- `^ge[cp](\d\d)\.t(\d\d)z\.pgrb2([ab])`. -/
def gefsHead : List Atom :=
  literal "ge".toList ++ .of "cp".toList :: (List.replicate 2 .digit ++ literal ".t".toList ++
    List.replicate 2 .digit ++ literal "z.pgrb2".toList ++ [.of "ab".toList])

/-- `(\.0p50\.)?f(\d{2,3})`, one alternative after the other. -/
def gefsTails : List (List Atom) :=
  [literal "f".toList ++ List.replicate 2 .digit, literal "f".toList ++ List.replicate 3 .digit,
    literal ".0p50.f".toList ++ List.replicate 2 .digit,
    literal ".0p50.f".toList ++ List.replicate 3 .digit]

/-- `m/$gefs_filepattern/i`. A compiled pattern keeps its own flags, so that the `/i` around it
has no effect; `ignoreCase` stands for a Perl in which it had. -/
def gefsFilepattern (ignoreCase : Bool) (name : Str) : Bool :=
  match reads gefsHead (if ignoreCase then name.map Char.toLower else name) with
  | some v => gefsTails.any fun t => endsAt true t v
  | none => false

/-- `$inFileParseMem` and `$inFileParseType`. -/
def parseMem (name : Str) : Str := (name.drop 3).take 2

def parseType (name : Str) : Str := (name.drop 16).take 1

/-- `"$inFileParseMem-$inFileParseType"`. -/
def memberCode (name : Str) : Str := parseMem name ++ '-' :: parseType name

/-- `sprintf("%02d-%1s",$m,$type)`. -/
def memberKey (m : ℕ) (type : FileNumber) : Str := padded 2 m ++ '-' :: type.fileLetter

def MEM_FILES : ℕ := FCT_HOURS / FCT_INC + 1

variable (ignoreCase : Bool)

/-- `@dirGrb`, in the order of the directory. -/
def dirGrb (d : InputDirectory) : List Str := d.keys.filter (gefsFilepattern ignoreCase)

def usable (d : InputDirectory) (name : Str) : Bool := (d.lookup name).any FileStat.usable

/-- `$filesPerMember{$key}`, 0 where it is not defined. -/
def filesPerMember (d : InputDirectory) (key : Str) : ℕ :=
  ((dirGrb ignoreCase d).filter fun f => usable d f && memberCode f = key).length

inductive InputQc
  | passed
  | noFilesFound (m : ℕ) (type : FileNumber)
  | doesNotContain (m : ℕ) (type : FileNumber) (found : ℕ)
  | problems (count : ℕ)
  deriving DecidableEq

/-- The tests made on one member. -/
def memberCheck (d : InputDirectory) (m : ℕ) : Option InputQc :=
  let aCount := filesPerMember ignoreCase d (memberKey m .aFile)
  let bCount := filesPerMember ignoreCase d (memberKey m .bFile)
  if aCount = 0 then some (.noFilesFound m .aFile)
  else if bCount = 0 then some (.noFilesFound m .bFile)
  else if aCount ≠ MEM_FILES then some (.doesNotContain m .aFile aCount)
  else if bCount ≠ MEM_FILES then some (.doesNotContain m .bFile bCount)
  else none

/-- `qcGensCycle`, where `grib_ls` has nothing to report: the scan of each file then finds only
files that are empty or cannot be read. -/
def qcGensCycle (cycle : Str) (d : InputDirectory) : InputQc :=
  match (List.range (perlGetNMembers cycle)).findSome? (memberCheck ignoreCase d) with
  | some failed => failed
  | none =>
    let count := ((dirGrb ignoreCase d).filter fun f => !usable d f).length
    if count = 0 then .passed else .problems count

/-- The last component of the path that `generateInputFilename` builds. -/
def inputName (type : FileNumber) (d : CycleDate) (fff em : ℕ) : Str :=
  let modelEnsembleMember := if em = 0 then 'c' :: padded 2 em else 'p' :: padded 2 em
  let stem := "ge".toList ++ modelEnsembleMember ++ ".t".toList ++ sprintf0 2 d.hh ++
    "z.pgrb2".toList ++ type.fileLetter
  if beforeUpgrade d then stem ++ "f".toList ++ padded 2 fff
  else stem ++ ".0p50.f".toList ++ padded 3 fff

theorem generateInputFilename_eq (path : Str) (type : FileNumber) (d : CycleDate) (fff em : ℕ) :
    generateInputFilename ⟨path, .unused⟩ type d fff em =
      some (path ++ "/".toList ++ dateString d ++ "/".toList ++ inputName type d fff em) := by
  have hge : "/ge".toList = "/".toList ++ "ge".toList := rfl
  simp only [generateInputFilename, inputPath, inputName, beforeUpgrade, decide_eq_true_eq, hge]
  split_ifs <;> simp only [List.append_assoc]

/-- What the program opens for one member and type. -/
def requiredNames (d : CycleDate) (m : ℕ) (type : FileNumber) : List Str :=
  forecastHours.map fun fff => inputName type d fff m

theorem memberCheck_eq_none {d : InputDirectory} {m : ℕ} : memberCheck ignoreCase d m = none ↔
    ∀ type, filesPerMember ignoreCase d (memberKey m type) = MEM_FILES := by
  have hpos : MEM_FILES ≠ 0 := by decide
  rw [memberCheck]
  constructor
  · intro h type
    split_ifs at h with ha hb ha' hb'
    cases type with
    | aFile => exact not_not.mp ha'
    | bFile => exact not_not.mp hb'
  · intro h
    simp only [h, hpos, if_false, ne_eq, not_true_eq_false]

theorem qcGensCycle_passed_iff {cycle : Str} {d : InputDirectory} :
    qcGensCycle ignoreCase cycle d = .passed ↔
      (∀ m < perlGetNMembers cycle, ∀ type,
        filesPerMember ignoreCase d (memberKey m type) = MEM_FILES) ∧
      ∀ f ∈ dirGrb ignoreCase d, usable d f = true := by
  have hmembers : (List.range (perlGetNMembers cycle)).findSome? (memberCheck ignoreCase d) =
      none ↔ ∀ m < perlGetNMembers cycle, ∀ type,
        filesPerMember ignoreCase d (memberKey m type) = MEM_FILES := by
    rw [List.findSome?_eq_none_iff]
    exact forall_congr' fun m => by rw [List.mem_range, memberCheck_eq_none]
  have hscan : ((dirGrb ignoreCase d).filter fun f => !usable d f).length = 0 ↔
      ∀ f ∈ dirGrb ignoreCase d, usable d f = true := by
    rw [List.length_eq_zero_iff, List.filter_eq_nil_iff]
    exact forall₂_congr fun f _ => by rw [Bool.not_eq_true', Bool.not_eq_false]
  rw [← hmembers, ← hscan, qcGensCycle]
  cases hfind : (List.range (perlGetNMembers cycle)).findSome? (memberCheck ignoreCase d) with
  | none =>
    simp only [true_and]
    split_ifs with hc
    · simp [hc]
    · simp [hc]
  | some failed =>
    simp only [reduceCtorEq, false_and, iff_false]
    rintro rfl
    obtain ⟨m, -, hm⟩ := List.exists_of_findSome?_eq_some hfind
    rw [memberCheck] at hm
    split_ifs at hm <;> cases hm

section Names

theorem padded_two_length {n : ℕ} (h : n < 1000) :
    (padded 2 n).length = 2 ∨ (padded 2 n).length = 3 := by
  have hdigits : (Nat.toDigits 10 n).length ≤ 3 :=
    (Nat.length_toDigits_le_iff (by decide) (by decide)).mpr h
  rw [padded, List.length_leftpad]
  omega

/-- What follows the file type in a name that the program opens. -/
def inputTail (d : CycleDate) (fff : ℕ) : Str :=
  if beforeUpgrade d then "f".toList ++ padded 2 fff else ".0p50.f".toList ++ padded 3 fff

theorem endsAt_inputTail (d : CycleDate) {fff : ℕ} (h : fff < 1000) :
    gefsTails.any (fun t => endsAt true t (inputTail d fff)) = true := by
  have hends : ∀ w u n, u.length = n → (∀ c ∈ u, c.isDigit) →
      endsAt true (literal w ++ List.replicate n .digit) (w ++ u) = true := fun w u n hn hu =>
    endsAt_iff.mpr ⟨w ++ u, [], (List.append_nil _).symm, accepted_append.mpr ⟨w, u, rfl,
      accepted_literal.mpr rfl, accepted_digits.mpr ⟨hn, hu⟩⟩, fun _ => .inl rfl⟩
  have hdigit : ∀ w, ∀ c ∈ padded w fff, c.isDigit := fun w c hc => isDigit_of_mem_padded hc
  rw [List.any_eq_true, inputTail]
  split_ifs
  · rcases padded_two_length h with h2 | h3
    · exact ⟨_, by simp [gefsTails], hends _ _ 2 h2 (hdigit 2)⟩
    · exact ⟨_, by simp [gefsTails], hends _ _ 3 h3 (hdigit 2)⟩
  · exact ⟨_, by simp [gefsTails], hends _ _ 3 (padded_length (by decide) h) (hdigit 3)⟩

theorem inputName_eq (type : FileNumber) (d : CycleDate) (fff em : ℕ) :
    inputName type d fff em = ("ge".toList ++ (if em = 0 then 'c' else 'p') ::
      (padded 2 em ++ ".t".toList ++ sprintf0 2 d.hh ++ "z.pgrb2".toList ++ type.fileLetter)) ++
        inputTail d fff := by
  rw [inputName, inputTail]
  split_ifs <;> simp

/-- The hour of the cycle has two digits. -/
def TwoDigitHour (d : CycleDate) : Prop :=
  (sprintf0 2 d.hh).length = 2 ∧ ∀ c ∈ sprintf0 2 d.hh, c.isDigit

theorem twoDigitHour_parseDate {cycle : Str} (hl : cycle.length = 10)
    (hs : ∀ c ∈ cycle, c.isDigit) {d : CycleDate} (h : parseDate cycle = some d) :
    TwoDigitHour d := by
  rw [TwoDigitHour, (dateString_parseDate hl hs h).2]
  refine ⟨by rw [List.length_take, List.length_drop]; omega, fun c hc => ?_⟩
  exact hs c (List.mem_of_mem_drop (List.mem_of_mem_take hc))

theorem toLower_inputName {d : CycleDate} (hd : TwoDigitHour d) (type : FileNumber)
    (fff em : ℕ) : (inputName type d fff em).map Char.toLower = inputName type d fff em := by
  have hdigits : ∀ u : Str, (∀ c ∈ u, c.isDigit) → u.map Char.toLower = u := fun u hu =>
    (List.map_congr_left fun c hc => toLower_of_isDigit (hu c hc)).trans (List.map_id u)
  have hpad : ∀ w n, (padded w n).map Char.toLower = padded w n := fun w n =>
    hdigits _ fun c hc => isDigit_of_mem_padded hc
  have hhour : (sprintf0 2 d.hh).map Char.toLower = sprintf0 2 d.hh := hdigits _ hd.2
  have hletter : type.fileLetter.map Char.toLower = type.fileLetter := by cases type <;> decide
  have hkind : Char.toLower (if em = 0 then 'c' else 'p') = if em = 0 then 'c' else 'p' := by
    split_ifs <;> decide
  have htail : (inputTail d fff).map Char.toLower = inputTail d fff := by
    rw [inputTail]
    split_ifs <;> rw [List.map_append, hpad] <;> rfl
  rw [inputName_eq]
  simp only [List.map_append, List.map_cons, hpad, hhour, hletter, hkind, htail]
  rfl

theorem reads_gefsHead_inputName {d : CycleDate} (hd : TwoDigitHour d) (type : FileNumber)
    (fff : ℕ) {em : ℕ} (he : em < 100) :
    reads gefsHead (inputName type d fff em) = some (inputTail d fff) := by
  have hmember : (padded 2 em).length = 2 := padded_length (by decide) he
  refine reads_eq_some.mpr ⟨_, inputName_eq type d fff em, ?_⟩
  refine accepted_append.mpr ⟨_, _, rfl, accepted_literal.mpr rfl, .cons ?_ ?_⟩
  · split_ifs <;> decide
  · refine accepted_append.mpr ⟨_, _, rfl, accepted_append.mpr ⟨_, _, rfl,
      accepted_append.mpr ⟨_, _, rfl, accepted_append.mpr ⟨_, _, rfl, ?_,
        accepted_literal.mpr rfl⟩, accepted_digits.mpr hd⟩, accepted_literal.mpr rfl⟩, ?_⟩
    · exact accepted_digits.mpr ⟨hmember, fun c hc => isDigit_of_mem_padded hc⟩
    · cases type <;> exact .cons (by decide) .nil

theorem gefsFilepattern_inputName {d : CycleDate} (hd : TwoDigitHour d) (type : FileNumber)
    {fff em : ℕ} (hf : fff < 1000) (he : em < 100) :
    gefsFilepattern ignoreCase (inputName type d fff em) = true := by
  have hsame : (if ignoreCase then (inputName type d fff em).map Char.toLower
      else inputName type d fff em) = inputName type d fff em := by
    rw [toLower_inputName hd, ite_self]
  rw [gefsFilepattern, hsame, reads_gefsHead_inputName hd type fff he]
  exact endsAt_inputTail d hf

theorem memberCode_inputName {d : CycleDate} (hd : TwoDigitHour d) (type : FileNumber)
    {fff em : ℕ} (he : em < 100) :
    memberCode (inputName type d fff em) = memberKey em type := by
  obtain ⟨m, n, hmn⟩ := List.length_eq_two.mp (padded_length (by decide) he : _ = 2)
  obtain ⟨h, k, hhk⟩ := List.length_eq_two.mp hd.1
  rw [memberCode, memberKey, parseMem, parseType, inputName_eq, hmn, hhk]
  cases type <;> rfl

end Names
section Counting
variable {ignoreCase}

/-- The required names of one member and type that the directory does not have. -/
def missing (dir : InputDirectory) (d : CycleDate) (m : ℕ) (type : FileNumber) : ℕ :=
  ((requiredNames d m type).filter fun f => f ∉ dir.keys).length

/-- The matched files of one member and type that the program does not open. -/
def stray (ignoreCase : Bool) (dir : InputDirectory) (d : CycleDate) (m : ℕ)
    (type : FileNumber) : ℕ :=
  ((dirGrb ignoreCase dir).filter fun f =>
    memberCode f = memberKey m type ∧ f ∉ requiredNames d m type).length

theorem inputName_injective {type : FileNumber} {d : CycleDate} {f g em : ℕ}
    (h : inputName type d f em = inputName type d g em) : f = g := by
  rw [inputName_eq, inputName_eq] at h
  have htail := List.append_cancel_left h
  rw [inputTail, inputTail] at htail
  split_ifs at htail
  · exact padded_injective 2 (List.append_cancel_left htail)
  · exact padded_injective 3 (List.append_cancel_left htail)

theorem nodup_requiredNames (d : CycleDate) (m : ℕ) (type : FileNumber) :
    (requiredNames d m type).Nodup := by
  exact nodup_forecastHours.map fun f g h => inputName_injective h

theorem matched_of_mem_requiredNames {d : CycleDate} (hd : TwoDigitHour d) {m : ℕ} (hm : m < 100)
    {type : FileNumber} {f : Str} (hf : f ∈ requiredNames d m type) :
    gefsFilepattern ignoreCase f = true := by
  obtain ⟨fff, hfff, rfl⟩ := List.mem_map.mp hf
  exact gefsFilepattern_inputName ignoreCase hd type (lt_of_mem_forecastHours hfff) hm

theorem memberCode_of_mem_requiredNames {d : CycleDate} (hd : TwoDigitHour d) {m : ℕ}
    (hm : m < 100) {type : FileNumber} {f : Str} (hf : f ∈ requiredNames d m type) :
    memberCode f = memberKey m type := by
  obtain ⟨fff, -, rfl⟩ := List.mem_map.mp hf
  exact memberCode_inputName hd type hm

theorem length_matched (dir : InputDirectory) {d : CycleDate} (hd : TwoDigitHour d) {m : ℕ}
    (hm : m < 100) (type : FileNumber) :
    ((dirGrb ignoreCase dir).filter fun f => memberCode f = memberKey m type).length =
      ((dirGrb ignoreCase dir).filter fun f => f ∈ requiredNames d m type).length +
        stray ignoreCase dir d m type := by
  rw [stray, List.length_eq_length_filter_add (fun f => decide (f ∈ requiredNames d m type)),
    List.filter_filter, List.filter_filter]
  refine congrArg₂ _ (congrArg List.length (List.filter_congr fun f _ => ?_))
    (congrArg List.length (List.filter_congr fun f _ => ?_))
  · by_cases hf : f ∈ requiredNames d m type
    · simp [hf, memberCode_of_mem_requiredNames hd hm hf]
    · simp [hf]
  · by_cases hf : f ∈ requiredNames d m type <;> simp [hf]

theorem length_present (dir : InputDirectory) {d : CycleDate} (hd : TwoDigitHour d) {m : ℕ}
    (hm : m < 100) (type : FileNumber) :
    ((dirGrb ignoreCase dir).filter fun f => f ∈ requiredNames d m type).length =
      ((requiredNames d m type).filter fun f => f ∈ dir.keys).length := by
  have hgrb : (dirGrb ignoreCase dir).Nodup := dir.keys_nodup.filter _
  apply List.Perm.length_eq
  rw [List.perm_ext_iff_of_nodup (hgrb.filter _) ((nodup_requiredNames d m type).filter _)]
  intro f
  simp only [dirGrb, List.mem_filter, decide_eq_true_eq]
  constructor
  · exact fun ⟨⟨hk, _⟩, hf⟩ => ⟨hf, hk⟩
  · exact fun ⟨hf, hk⟩ => ⟨⟨hk, matched_of_mem_requiredNames hd hm hf⟩, hf⟩

theorem length_present_add_missing (dir : InputDirectory) (d : CycleDate) (m : ℕ)
    (type : FileNumber) : ((requiredNames d m type).filter fun f => f ∈ dir.keys).length +
      missing dir d m type = MEM_FILES := by
  have htotal : (requiredNames d m type).length = MEM_FILES := by
    simp [requiredNames, forecastHours, MEM_FILES]
  have hnot : ((requiredNames d m type).filter fun f => !decide (f ∈ dir.keys)).length =
      missing dir d m type := by
    refine congrArg List.length (List.filter_congr fun f _ => ?_)
    simp
  rw [← hnot, ← htotal]
  exact (List.length_eq_length_filter_add fun f => decide (f ∈ dir.keys)).symm

/-- When every matched file is usable, a count is right when as many files are stray as are
missing. -/
theorem filesPerMember_add_missing {dir : InputDirectory} {d : CycleDate} (hd : TwoDigitHour d)
    {m : ℕ} (hm : m < 100) (type : FileNumber)
    (husable : ∀ f ∈ dirGrb ignoreCase dir, usable dir f = true) :
    filesPerMember ignoreCase dir (memberKey m type) + missing dir d m type =
      MEM_FILES + stray ignoreCase dir d m type := by
  have hcount : filesPerMember ignoreCase dir (memberKey m type) =
      ((dirGrb ignoreCase dir).filter fun f => memberCode f = memberKey m type).length := by
    refine congrArg List.length (List.filter_congr fun f hf => ?_)
    rw [husable f hf, Bool.true_and]
  rw [hcount, length_matched dir hd hm, length_present dir hd hm, Nat.add_right_comm,
    length_present_add_missing]

/-- Every file that the program opens for the cycle is there and not empty. -/
def InputsPresent (cycle : Str) (dir : InputDirectory) (d : CycleDate) : Prop :=
  ∀ m < perlGetNMembers cycle, ∀ type, ∀ fff ∈ forecastHours,
    ∃ s, dir.lookup (inputName type d fff m) = some s ∧ s.size ≠ 0

theorem missing_eq_zero_iff {dir : InputDirectory} {d : CycleDate} {m : ℕ} {type : FileNumber} :
    missing dir d m type = 0 ↔ ∀ fff ∈ forecastHours, inputName type d fff m ∈ dir := by
  rw [missing, List.length_eq_zero_iff, List.filter_eq_nil_iff, requiredNames,
    List.forall_mem_map]
  exact forall₂_congr fun fff _ => by simp [AList.mem_keys]

/-- Of usable files, those that the program opens are present when none is missing. -/
theorem inputsPresent_iff {dir : InputDirectory} {d : CycleDate} (hd : TwoDigitHour d)
    (husable : ∀ f ∈ dirGrb ignoreCase dir, usable dir f = true) (cycle : Str) :
    InputsPresent cycle dir d ↔
      ∀ m < perlGetNMembers cycle, ∀ type, missing dir d m type = 0 := by
  refine forall₂_congr fun m hm => forall_congr' fun type => ?_
  have hmember : m < 100 := (hm.trans_le (perlGetNMembers_le cycle)).trans (by decide)
  rw [missing_eq_zero_iff]
  refine forall₂_congr fun fff hfff => ⟨fun ⟨s, hs, _⟩ => ?_, fun hmem => ?_⟩
  · exact AList.lookup_isSome.mp (hs ▸ rfl)
  · obtain ⟨s, hs⟩ := Option.isSome_iff_exists.mp (AList.lookup_isSome.mpr hmem)
    have hgrb : inputName type d fff m ∈ dirGrb ignoreCase dir := List.mem_filter.mpr
      ⟨AList.mem_keys.mp hmem,
        gefsFilepattern_inputName ignoreCase hd type (lt_of_mem_forecastHours hfff) hmember⟩
    have hu := husable _ hgrb
    rw [usable, hs] at hu
    simp only [Option.any_some, FileStat.usable, Bool.and_eq_true, decide_eq_true_eq] at hu
    exact ⟨s, hs, hu.1⟩

/-- Input QC lets a cycle pass without its input files exactly when the files are usable, and
stray ones make up for the missing ones of each member and type. -/
theorem qcGensCycle_sufficient_iff (ignoreCase : Bool) {cycle : Str} (hl : cycle.length = 10)
    (hs : ∀ c ∈ cycle, c.isDigit) {d : CycleDate} (hd : parseDate cycle = some d)
    (dir : InputDirectory) :
    (qcGensCycle ignoreCase cycle dir = .passed → InputsPresent cycle dir d) ↔
      (∃ f ∈ dirGrb ignoreCase dir, usable dir f = false) ∨
      (∃ m < perlGetNMembers cycle, ∃ type,
        stray ignoreCase dir d m type ≠ missing dir d m type) ∨
      ∀ m < perlGetNMembers cycle, ∀ type, stray ignoreCase dir d m type = 0 := by
  have hhour := twoDigitHour_parseDate hl hs hd
  rw [qcGensCycle_passed_iff]
  by_cases husable : ∀ f ∈ dirGrb ignoreCase dir, usable dir f = true
  · have hcount : ∀ m < perlGetNMembers cycle, ∀ type,
        filesPerMember ignoreCase dir (memberKey m type) + missing dir d m type =
          MEM_FILES + stray ignoreCase dir d m type := fun m hm type =>
      filesPerMember_add_missing hhour ((hm.trans_le (perlGetNMembers_le cycle)).trans (by decide))
        type husable
    rw [inputsPresent_iff hhour husable]
    constructor
    · intro h
      by_contra hno
      simp only [not_or, not_exists, not_and, not_not] at hno
      obtain ⟨-, hbalance, hstray⟩ := hno
      apply hstray
      intro m hm type
      rw [hbalance m hm type]
      refine h ⟨fun m hm type => ?_, husable⟩ m hm type
      have hbal := hbalance m hm type
      have hsum := hcount m hm type
      omega
    · rintro (⟨f, hf, hbad⟩ | ⟨m', hm', type', hne⟩ | hstray) ⟨hcounts, -⟩ m hm type
      · exact absurd (husable f hf) (by simp [hbad])
      · have hsum := hcount m' hm' type'
        have hright := hcounts m' hm' type'
        omega
      · have hsum := hcount m hm type
        have hright := hcounts m hm type
        have hzero := hstray m hm type
        omega
  · simp only [not_forall, Bool.not_eq_true, exists_prop] at husable
    refine iff_of_true (fun h => ?_) (.inl husable)
    obtain ⟨f, hf, hbad⟩ := husable
    exact absurd (h.2 f hf) (by simp [hbad])

end Counting
def usableFiles (names : List Str) : InputDirectory :=
  (names.map fun f => (⟨f, ⟨1, true⟩⟩ : Sigma fun _ : Str => FileStat)).toAList

theorem lookup_usableFiles (names : List Str) (f : Str) :
    (usableFiles names).lookup f = if f ∈ names then some ⟨1, true⟩ else none := by
  rw [usableFiles, AList.lookup_to_alist]
  induction names with
  | nil => rfl
  | cons g names ih =>
    by_cases hfg : f = g
    · subst hfg
      rw [List.map_cons, List.dlookup_cons_eq, if_pos List.mem_cons_self]
    · rw [List.map_cons, List.dlookup_cons_ne _ _ hfg, ih]
      simp only [List.mem_cons, hfg, false_or]

theorem mem_usableFiles {names : List Str} {f : Str} : f ∈ usableFiles names ↔ f ∈ names := by
  rw [← AList.lookup_isSome, lookup_usableFiles]
  split_ifs with h <;> simp [h]

theorem memberKey_injective {m n : ℕ} {type type' : FileNumber} (hm : m < 100) (hn : n < 100)
    (h : memberKey m type = memberKey n type') : m = n ∧ type = type' := by
  have hlen : (padded 2 m).length = (padded 2 n).length :=
    (padded_length (by decide) hm).trans (padded_length (by decide) hn).symm
  obtain ⟨hpad, hletter⟩ := List.append_inj h hlen
  refine ⟨padded_injective 2 hpad, ?_⟩
  cases type <;> cases type' <;> first | rfl | exact absurd hletter (by decide)

def newYear : CycleDate := ⟨2021, 1, 1, 0⟩

theorem parseDate_newYear : parseDate "2021010100".toList = some newYear := by decide +kernel

theorem twoDigitHour_newYear : TwoDigitHour newYear :=
  twoDigitHour_parseDate rfl (by simp) parseDate_newYear

/-- Names for every member of the ensemble and both types. -/
def ensembleNames (names : ℕ → FileNumber → List Str) : List Str :=
  (List.range 31).flatMap fun m => names m .aFile ++ names m .bFile

section Ensemble
variable {names : ℕ → FileNumber → List Str}

theorem mem_ensembleNames {f : Str} :
    f ∈ ensembleNames names ↔ ∃ m < 31, ∃ type, f ∈ names m type := by
  rw [ensembleNames, List.mem_flatMap]
  constructor
  · rintro ⟨m, hm, hf⟩
    rcases List.mem_append.mp hf with hf | hf
    · exact ⟨m, List.mem_range.mp hm, .aFile, hf⟩
    · exact ⟨m, List.mem_range.mp hm, .bFile, hf⟩
  · rintro ⟨m, hm, type, hf⟩
    refine ⟨m, List.mem_range.mpr hm, List.mem_append.mpr ?_⟩
    cases type with
    | aFile => exact .inl hf
    | bFile => exact .inr hf

variable (hmatched : ∀ m < 31, ∀ type, ∀ f ∈ names m type,
  gefsFilepattern false f = true ∧ memberCode f = memberKey m type)
include hmatched

theorem filesPerMember_ensembleNames {m : ℕ} (hm : m < 31) (type : FileNumber)
    (hnodup : (names m type).Nodup) :
    filesPerMember false (usableFiles (ensembleNames names)) (memberKey m type) =
      (names m type).length := by
  have hgrb : (dirGrb false (usableFiles (ensembleNames names))).Nodup :=
    (AList.keys_nodup _).filter _
  rw [filesPerMember]
  refine List.Perm.length_eq ?_
  rw [List.perm_ext_iff_of_nodup (hgrb.filter _) hnodup]
  intro f
  rw [List.mem_filter, dirGrb, List.mem_filter, ← AList.mem_keys, mem_usableFiles,
    mem_ensembleNames]
  simp only [Bool.and_eq_true, decide_eq_true_eq]
  constructor
  · rintro ⟨⟨⟨n, hn, type', hf⟩, -⟩, -, hcode⟩
    obtain ⟨rfl, rfl⟩ := memberKey_injective (by omega) (by omega)
      ((hmatched n hn type' f hf).2.symm.trans hcode)
    exact hf
  · intro hf
    obtain ⟨hmatch, hcode⟩ := hmatched m hm type f hf
    refine ⟨⟨⟨m, hm, type, hf⟩, hmatch⟩, ?_, hcode⟩
    rw [usable, lookup_usableFiles, if_pos (mem_ensembleNames.mpr ⟨m, hm, type, hf⟩)]
    rfl

/-- As many usable files as input QC counts. -/
theorem passed_ensembleNames
    (hnodup : ∀ m type, (names m type).Nodup ∧ (names m type).length = MEM_FILES) :
    qcGensCycle false "2021010100".toList (usableFiles (ensembleNames names)) = .passed := by
  refine (qcGensCycle_passed_iff false).mpr ⟨fun m hm type => ?_, fun f hf => ?_⟩
  · obtain ⟨hnames, hlength⟩ := hnodup m type
    rw [filesPerMember_ensembleNames hmatched (hm.trans_le (perlGetNMembers_le _)) type hnames,
      hlength]
  · have hmem := mem_usableFiles.mp (AList.mem_keys.mpr (List.mem_filter.mp hf).1)
    rw [usable, lookup_usableFiles, if_pos hmem]
    rfl

end Ensemble

/-- The files that the program opens for the first cycle of 2021, and no others. -/
theorem qcGensCycle_sufficient_required :
    qcGensCycle false "2021010100".toList (usableFiles (ensembleNames (requiredNames newYear))) =
        .passed ∧
      InputsPresent "2021010100".toList (usableFiles (ensembleNames (requiredNames newYear)))
        newYear := by
  have hmatched : ∀ m < 31, ∀ type, ∀ f ∈ requiredNames newYear m type,
      gefsFilepattern false f = true ∧ memberCode f = memberKey m type := fun m hm type f hf =>
    ⟨matched_of_mem_requiredNames twoDigitHour_newYear (by omega) hf,
      memberCode_of_mem_requiredNames twoDigitHour_newYear (by omega) hf⟩
  have hpassed := passed_ensembleNames hmatched fun m type =>
    ⟨nodup_requiredNames newYear m type, by simp [requiredNames, forecastHours, MEM_FILES]⟩
  refine ⟨hpassed, (qcGensCycle_sufficient_iff false rfl (by simp) parseDate_newYear _).mpr
    (.inr (.inr fun m hm type => ?_)) hpassed⟩
  rw [stray, List.length_eq_zero_iff, List.filter_eq_nil_iff]
  intro f hf
  obtain ⟨n, hn, type', hrequired⟩ := mem_ensembleNames.mp
    (mem_usableFiles.mp (AList.mem_keys.mpr (List.mem_filter.mp hf).1))
  simp only [decide_eq_true_eq, not_and, not_not]
  intro hcode
  have hm31 : m < 31 := hm.trans_le (perlGetNMembers_le _)
  obtain ⟨rfl, rfl⟩ := memberKey_injective (by omega) (by omega)
    ((hmatched n hn type' f hrequired).2.symm.trans hcode)
  exact hrequired

/-- Files every three hours, as many as a member and type should have. -/
def threeHourly (m : ℕ) (type : FileNumber) : List Str :=
  (List.range MEM_FILES).map fun k => inputName type newYear (3 * k) m

theorem matched_threeHourly {m : ℕ} (hm : m < 31) {type : FileNumber} {f : Str}
    (hf : f ∈ threeHourly m type) :
    gefsFilepattern false f = true ∧ memberCode f = memberKey m type := by
  obtain ⟨k, hk, rfl⟩ := List.mem_map.mp hf
  have hk' : k < 65 := List.mem_range.mp hk
  exact ⟨gefsFilepattern_inputName false twoDigitHour_newYear type (by omega) (by omega),
    memberCode_inputName twoDigitHour_newYear type (by omega)⟩

theorem nodup_threeHourly (m : ℕ) (type : FileNumber) : (threeHourly m type).Nodup :=
  List.nodup_range.map fun k l h => by
    have := inputName_injective h
    omega

theorem length_threeHourly (m : ℕ) (type : FileNumber) :
    (threeHourly m type).length = MEM_FILES := by
  simp [threeHourly]

theorem filesPerMember_threeHourly {m : ℕ} (hm : m < 31) (type : FileNumber) :
    filesPerMember false (usableFiles (ensembleNames threeHourly)) (memberKey m type) =
      MEM_FILES :=
  (filesPerMember_ensembleNames (fun _ hm _ _ hf => matched_threeHourly hm hf) hm type
    (nodup_threeHourly m type)).trans (length_threeHourly m type)

/-- Three-hourly files up to hour 192 pass for six-hourly ones up to hour 384. -/
theorem qcGensCycle_not_sufficient :
    qcGensCycle false "2021010100".toList (usableFiles (ensembleNames threeHourly)) = .passed ∧
      ¬ InputsPresent "2021010100".toList (usableFiles (ensembleNames threeHourly)) newYear := by
  constructor
  · exact passed_ensembleNames (fun m hm type f hf => matched_threeHourly hm hf) fun m type =>
      ⟨nodup_threeHourly m type, length_threeHourly m type⟩
  · intro h
    have hlast : 384 ∈ forecastHours := by decide
    obtain ⟨s, hs, -⟩ := h 0 (by decide +kernel) .aFile 384 hlast
    have hmem := mem_usableFiles.mp (AList.lookup_isSome.mp (Option.isSome_iff_exists.mpr ⟨s, hs⟩))
    obtain ⟨m, hm, type, hf⟩ := mem_ensembleNames.mp hmem
    have hcode := (matched_threeHourly hm hf).2
    rw [memberCode_inputName twoDigitHour_newYear .aFile (by decide)] at hcode
    obtain ⟨rfl, rfl⟩ := memberKey_injective (by decide) (by omega) hcode
    obtain ⟨k, hk, hname⟩ := List.mem_map.mp hf
    have hk' : k < 65 := List.mem_range.mp hk
    have := inputName_injective hname
    omega

end Tigge
