import Tigge.InputQc
import Tigge.Lib.Calendar

/-! `link_input.py`, which links the input files under the names that the C program opens and the
Perl scripts match. -/

namespace Tigge
open Lib

/-- `datetime.datetime`, to the hour. -/
structure Datetime where
  year : ℕ
  month : ℕ
  day : ℕ
  hour : ℕ
  year_pos : 1 ≤ year
  year_le : year ≤ 9999
  isDate : IsDate year month day
  hour_lt : hour < 24

namespace Datetime

def before (t u : Datetime) : Bool :=
  t.year < u.year || t.year = u.year && (t.month < u.month || t.month = u.month &&
    (t.day < u.day || t.day = u.day && t.hour < u.hour))

/-- `datetime.datetime(2020, 9, 23, 12)`. -/
def upgrade : Datetime where
  year := 2020
  month := 9
  day := 23
  hour := 12
  year_pos := by decide
  year_le := by decide
  isDate := ⟨by decide, by decide, by decide, by decide⟩
  hour_lt := by decide

/-- The same time on the command line of the program. -/
def toCycleDate (t : Datetime) : CycleDate := ⟨t.year, t.month, t.day, t.hour⟩

/-- The ten digits that name the cycle. -/
def cycle (t : Datetime) : Str := dateString t.toCycleDate

/-- `strftime`, for the directives that the script uses. -/
def strftime (t : Datetime) : Str → Str
  | '%' :: 'Y' :: s => padded 4 t.year ++ t.strftime s
  | '%' :: 'm' :: s => padded 2 t.month ++ t.strftime s
  | '%' :: 'd' :: s => padded 2 t.day ++ t.strftime s
  | '%' :: 'H' :: s => padded 2 t.hour ++ t.strftime s
  | c :: s => c :: t.strftime s
  | [] => []

end Datetime

open Datetime

def getSourcePath (sourceDir : Str) (time : Datetime) (gribType : FileNumber) : Str :=
  if time.before upgrade then
    time.strftime (sourceDir ++ "/gefs.%Y%m%d/%H/pgrb2".toList ++ gribType.fileLetter)
  else
    time.strftime (sourceDir ++ "/gefs.%Y%m%d/%H/atmos/pgrb2".toList ++ gribType.fileLetter ++
      "p5".toList)

def getFilename (directory : Str) (time : Datetime) (member : Str) (forecastHour : ℕ)
    (gribType : FileNumber) : Str :=
  if time.before upgrade then
    time.strftime (directory ++ "/ge".toList ++ member ++ ".t%Hz.pgrb2".toList ++
      gribType.fileLetter ++ "f".toList ++ padded 2 forecastHour)
  else
    time.strftime (directory ++ "/ge".toList ++ member ++ ".t%Hz.pgrb2".toList ++
      gribType.fileLetter ++ ".0p50.f".toList ++ padded 3 forecastHour)

def getMembers (time : Datetime) : List Str :=
  let nMembers := if time.before upgrade then 21 else 31
  (List.range nMembers).map fun m => if m = 0 then 'c' :: padded 2 m else 'p' :: padded 2 m

/-- `range(0, 385, 6)`. -/
def pythonForecastHours : List ℕ := (List.range 385).filter (· % 6 = 0)

def getLinkFilenames (directory : Str) (time : Datetime) (members : List Str) : List Str :=
  [FileNumber.aFile, .bFile].flatMap fun gribType => members.flatMap fun member =>
    pythonForecastHours.map fun forecastHour =>
      getFilename directory time member forecastHour gribType

def getSourceFilenames (sourceDir : Str) (time : Datetime) (members : List Str) : List Str :=
  [FileNumber.aFile, .bFile].flatMap fun gribType => members.flatMap fun member =>
    pythonForecastHours.map fun forecastHour =>
      getFilename (getSourcePath sourceDir time gribType) time member forecastHour gribType

/-- `os.path.basename`. -/
def basename (path : Str) : Str := (path.reverse.takeWhile (· ≠ '/')).reverse

/-- The Perl `getQcNumPoints`. -/
def getQcNumPoints (cycle : Str) : ℕ :=
  if Nat.ofDigitChars 10 cycle 0 ≥ 2020092312 then 259920 else 65160

/-- `(\.0p50\.)?f(\d{2,3})`: what stands before the digits, and how many they are. -/
def gefsTailForms : List (Str × ℕ) :=
  [(".0p50.f".toList, 3), (".0p50.f".toList, 2), ("f".toList, 3), ("f".toList, 2)]

/-- What `$gefs_filepattern` captures. -/
structure GefsMatch where
  mem : Str
  cycle : Str
  type : Str
  fct : Str
  deriving DecidableEq

def gefsMatch (name : Str) : Option GefsMatch :=
  match reads gefsHead name with
  | none => none
  | some v =>
    (gefsTailForms.find? fun t => endsAt true (literal t.1 ++ List.replicate t.2 .digit) v).map
      fun t =>
        { mem := parseMem name
          cycle := (name.drop 7).take 2
          type := parseType name
          fct := (v.drop t.1.length).take t.2 }

theorem isSome_gefsMatch (name : Str) : (gefsMatch name).isSome = gefsFilepattern false name := by
  rw [gefsMatch, gefsFilepattern, if_neg Bool.false_ne_true]
  cases reads gefsHead name with
  | none => rfl
  | some v =>
    rw [Option.isSome_map, Bool.eq_iff_iff, List.find?_isSome, ← List.any_eq_true]
    simp only [gefsTailForms, gefsTails, List.any_cons, List.any_nil, Bool.or_false,
      Bool.or_eq_true]
    tauto

section CutOver
variable (t : Datetime)

namespace Datetime

theorem month_lt : t.month < 100 := by have := t.isDate.month_le; omega

theorem day_lt : t.day < 100 := by
  have h := t.isDate.day_le
  have h31 := (monthLength_pos t.year t.month).2
  omega

theorem cycle_eq : t.cycle =
    padded 4 t.year ++ padded 2 t.month ++ padded 2 t.day ++ padded 2 t.hour := rfl

theorem isDigit_of_mem_cycle {c : Char} (h : c ∈ t.cycle) : c.isDigit = true := by
  simp only [cycle_eq, List.mem_append] at h
  rcases h with ((h | h) | h) | h <;> exact isDigit_of_mem_padded h

theorem length_cycle : t.cycle.length = 10 := by
  have hy : (padded 4 t.year).length = 4 :=
    padded_length (by decide) (by have := t.year_le; omega)
  have hm : (padded 2 t.month).length = 2 := padded_length (by decide) t.month_lt
  have hd : (padded 2 t.day).length = 2 := padded_length (by decide) t.day_lt
  have hh : (padded 2 t.hour).length = 2 :=
    padded_length (by decide) (by have := t.hour_lt; omega)
  simp only [cycle_eq, List.length_append, hy, hm, hd, hh]

theorem ofDigitChars_cycle : Nat.ofDigitChars 10 t.cycle 0 =
    ((t.year * 100 + t.month) * 100 + t.day) * 100 + t.hour := by
  have happend : ∀ n u, n < 100 → Nat.ofDigitChars 10 (u ++ padded 2 n) 0 =
      Nat.ofDigitChars 10 u 0 * 100 + n := by
    intro n u hn
    rw [Nat.ofDigitChars_append, Nat.ofDigitChars_eq_ofDigitChars_zero, ofDigitChars_padded,
      padded_length (by decide) hn]
    omega
  rw [cycle_eq, happend _ _ (by have := t.hour_lt; omega), happend _ _ t.day_lt,
    happend _ _ t.month_lt, ofDigitChars_padded]

theorem before_upgrade_iff : t.before upgrade = true ↔ Nat.ofDigitChars 10 t.cycle 0 < 2020092312 := by
  have hm := t.month_lt
  have hd := t.day_lt
  have hh := t.hour_lt
  rw [ofDigitChars_cycle]
  simp only [before, Bool.or_eq_true, Bool.and_eq_true, decide_eq_true_eq]
  simp only [upgrade]
  omega

theorem beforeUpgrade_iff :
    beforeUpgrade t.toCycleDate = true ↔ Nat.ofDigitChars 10 t.cycle 0 < 2020092312 := by
  have hu : Nat.ofDigitChars 10 "2020092312".toList 0 = 2020092312 := by decide +kernel
  have hd : ∀ c ∈ "2020092312".toList, c.isDigit := by simp
  rw [beforeUpgrade, decide_eq_true_eq, ← hu]
  exact lt_iff_ofDigitChars_lt t.cycle _ (fun c hc => t.isDigit_of_mem_cycle hc) hd
    (by rw [t.length_cycle]; rfl)

theorem before_upgrade_eq : t.before upgrade = beforeUpgrade t.toCycleDate :=
  Bool.eq_iff_iff.mpr (t.before_upgrade_iff.trans t.beforeUpgrade_iff.symm)

end Datetime

/-- The same cut-over in the three languages. -/
theorem counts_agree : getNMembers t.toCycleDate = perlGetNMembers t.cycle ∧
    (getMembers t).length = perlGetNMembers t.cycle ∧
    getNPoints t.toCycleDate = getQcNumPoints t.cycle := by
  have hperl := t.beforeUpgrade_iff
  rw [getMembers, List.length_map, List.length_range, t.before_upgrade_eq]
  simp only [getNMembers, getNPoints, getNLat, getNLon, perlGetNMembers, getQcNumPoints]
  by_cases h : beforeUpgrade t.toCycleDate = true
  · have hlt := hperl.mp h
    simp only [h, if_true, ge_iff_le, not_le.mpr hlt, if_false, and_self]
  · have hge := not_lt.mp (mt hperl.mpr h)
    simp only [h, if_false, ge_iff_le, hge, if_true, and_self, Bool.false_eq_true]

theorem getNMembers_lt : getNMembers t.toCycleDate < 100 := by
  have hle := perlGetNMembers_le t.cycle
  rw [← (counts_agree t).1] at hle
  omega

end CutOver
section Names
variable (t : Datetime)

theorem basename_append (u : Str) {v : Str} (hv : '/' ∉ v) : basename (u ++ '/' :: v) = v := by
  have htake : (v.reverse ++ '/' :: u.reverse).takeWhile (· ≠ '/') = v.reverse := by
    rw [List.takeWhile_append_of_pos fun c hc => ?_]
    · simp
    · simpa using fun h : c = '/' => hv (h ▸ List.mem_reverse.mp hc)
  rw [basename, List.reverse_append, List.reverse_cons, List.append_assoc, List.singleton_append,
    htake, List.reverse_reverse]

namespace Datetime

/-- No directive reaches across a slash. -/
theorem strftime_append_slash (u v : Str) :
    t.strftime (u ++ '/' :: v) = t.strftime u ++ '/' :: t.strftime v := by
  fun_induction Datetime.strftime t u with
  | case1 s ih => simp only [List.cons_append, strftime, ih, List.append_assoc]
  | case2 s ih => simp only [List.cons_append, strftime, ih, List.append_assoc]
  | case3 s ih => simp only [List.cons_append, strftime, ih, List.append_assoc]
  | case4 s ih => simp only [List.cons_append, strftime, ih, List.append_assoc]
  | case5 c s hY hm hd hH ih =>
    have hkeep : t.strftime (c :: (s ++ '/' :: v)) = c :: t.strftime (s ++ '/' :: v) := by
      refine strftime.eq_5 t c _ ?_ ?_ ?_ ?_ <;> intro r hc hs
      all_goals
        cases s with
        | nil => cases hs
        | cons e s =>
          obtain ⟨rfl, -⟩ := List.cons.inj hs
          first | exact hY s hc rfl | exact hm s hc rfl | exact hd s hc rfl | exact hH s hc rfl
    rw [List.cons_append, hkeep, ih, List.cons_append]
  | case6 => simp [strftime]

theorem strftime_append {u : Str} (hu : '%' ∉ u) (v : Str) :
    t.strftime (u ++ v) = u ++ t.strftime v := by
  induction u with
  | nil => rfl
  | cons c u ih =>
    rw [List.mem_cons, not_or] at hu
    have hkeep : t.strftime (c :: (u ++ v)) = c :: t.strftime (u ++ v) := by
      refine strftime.eq_5 t c _ ?_ ?_ ?_ ?_ <;> exact fun r hc _ => hu.1 hc.symm
    rw [List.cons_append, hkeep, ih hu.2, List.cons_append]

theorem strftime_of_notMem {u : Str} (hu : '%' ∉ u) : t.strftime u = u := by
  have h := t.strftime_append hu []
  rwa [List.append_nil, strftime, List.append_nil] at h

end Datetime

theorem fileLetter_notMem {c : Char} (hc : c.isAlpha = false) (type : FileNumber) :
    c ∉ type.fileLetter := by
  intro h
  have halpha : ∀ x ∈ type.fileLetter, x.isAlpha = true := by
    cases type <;> simp [FileNumber.fileLetter]
  rw [halpha c h] at hc
  cases hc

theorem strftime_filename (directory : Str) {member rest : Str} (type : FileNumber)
    (hmember : '%' ∉ member) (hrest : '%' ∉ rest) :
    t.strftime (directory ++ "/ge".toList ++ member ++ ".t%Hz.pgrb2".toList ++
      type.fileLetter ++ rest) = t.strftime directory ++ '/' :: ("ge".toList ++ member ++
        ".t".toList ++ padded 2 t.hour ++ "z.pgrb2".toList ++ type.fileLetter ++ rest) := by
  have hsplit : directory ++ "/ge".toList ++ member ++ ".t%Hz.pgrb2".toList ++ type.fileLetter ++
      rest = directory ++ '/' :: (("ge".toList ++ member ++ ".t".toList) ++
        '%' :: 'H' :: ("z.pgrb2".toList ++ type.fileLetter ++ rest)) := by
    have hge : "/ge".toList = '/' :: "ge".toList := rfl
    have ht : ".t%Hz.pgrb2".toList = ".t".toList ++ '%' :: 'H' :: "z.pgrb2".toList := by
      decide
    rw [hge, ht]
    simp only [List.append_assoc, List.cons_append]
  have hhead : '%' ∉ "ge".toList ++ member ++ ".t".toList := by
    simp only [List.mem_append, not_or]
    exact ⟨⟨by decide, hmember⟩, by decide⟩
  have htail : '%' ∉ "z.pgrb2".toList ++ type.fileLetter ++ rest := by
    simp only [List.mem_append, not_or]
    exact ⟨⟨by decide, fileLetter_notMem (by decide) type⟩, hrest⟩
  rw [hsplit, t.strftime_append_slash, t.strftime_append hhead, Datetime.strftime,
    t.strftime_of_notMem htail]
  simp only [List.append_assoc]

/-- A name of one of the members. -/
def memberName (em : ℕ) : Str := if em = 0 then 'c' :: padded 2 em else 'p' :: padded 2 em

theorem memberName_notMem {c : Char} (hc : c.isAlphanum = false) (em : ℕ) : c ∉ memberName em := by
  have hdigit : c.isDigit = false := by
    simp only [Char.isAlphanum, Bool.or_eq_false_iff] at hc
    exact hc.2
  have hne : ∀ k : Char, k.isAlphanum = true → c ≠ k := by
    rintro k hk rfl
    rw [hk] at hc
    cases hc
  unfold memberName
  split_ifs <;> rw [List.mem_cons, not_or]
  · exact ⟨hne 'c' (by decide), notMem_padded hdigit⟩
  · exact ⟨hne 'p' (by decide), notMem_padded hdigit⟩

theorem inputName_eq_member (type : FileNumber) (fff em : ℕ) :
    inputName type t.toCycleDate fff em = "ge".toList ++ memberName em ++ ".t".toList ++
      padded 2 t.hour ++ "z.pgrb2".toList ++ type.fileLetter ++ inputTail t.toCycleDate fff := by
  have hhour : sprintf0 2 t.toCycleDate.hh = padded 2 t.hour := rfl
  rw [inputName_eq, memberName, hhour]
  split_ifs <;> simp only [List.append_assoc, List.cons_append]

theorem inputTail_notMem {c : Char} (hc : c.isDigit = false) (hf : c ∉ ".0p50.f".toList)
    (d : CycleDate) (fff : ℕ) : c ∉ inputTail d fff := by
  have hlast : c ∉ "f".toList := fun h => hf (by simp_all)
  unfold inputTail
  split_ifs <;> rw [List.mem_append, not_or]
  · exact ⟨hlast, notMem_padded hc⟩
  · exact ⟨hf, notMem_padded hc⟩

theorem slash_notMem_inputName (type : FileNumber) (fff em : ℕ) :
    '/' ∉ inputName type t.toCycleDate fff em := by
  rw [inputName_eq_member]
  simp only [List.mem_append, not_or]
  exact ⟨⟨⟨⟨⟨⟨by decide, memberName_notMem (by decide) em⟩, by decide⟩,
    notMem_padded (by decide)⟩, by decide⟩, fileLetter_notMem (by decide) type⟩,
    inputTail_notMem (by decide) (by decide) _ fff⟩

theorem getFilename_eq (directory : Str) (type : FileNumber) (fff em : ℕ) :
    getFilename directory t (memberName em) fff type =
      t.strftime directory ++ '/' :: inputName type t.toCycleDate fff em := by
  have hname : getFilename directory t (memberName em) fff type =
      t.strftime (directory ++ "/ge".toList ++ memberName em ++ ".t%Hz.pgrb2".toList ++
        type.fileLetter ++ inputTail t.toCycleDate fff) := by
    rw [getFilename, inputTail, t.before_upgrade_eq]
    split_ifs <;> simp only [List.append_assoc]
  rw [hname, inputName_eq_member]
  exact strftime_filename t directory type (memberName_notMem (by decide) em)
    (inputTail_notMem (by decide) (by decide) _ fff)

theorem basename_getFilename (directory : Str) (type : FileNumber) (fff em : ℕ) :
    basename (getFilename directory t (memberName em) fff type) =
      inputName type t.toCycleDate fff em := by
  rw [getFilename_eq, basename_append _ (slash_notMem_inputName t type fff em)]

/-- A name put together from the local arrays, `old` where the directory compares as one from before
the upgrade. -/
def baseName (old : Bool) (modelEnsembleMember fileLetter : Str) (hh : ℤ) (fff : ℕ) : Str :=
  "ge".toList ++ modelEnsembleMember ++ ".t".toList ++ sprintf0 2 hh ++ "z.pgrb2".toList ++
    fileLetter ++ if old then "f".toList ++ padded 2 fff else ".0p50.f".toList ++ padded 3 fff

theorem inputName_eq_baseName (type : FileNumber) (d : CycleDate) (fff em : ℕ) :
    inputName type d fff em =
      baseName (beforeUpgrade d) (memberName em) type.fileLetter d.hh fff := by
  rw [inputName, baseName, memberName]
  split_ifs <;> simp only [List.append_assoc]

theorem slash_notMem_baseName (old : Bool) (em : ℕ) {letter : Str} (hletter : '/' ∉ letter)
    (hh : ℤ) (fff : ℕ) : '/' ∉ baseName old (memberName em) letter hh fff := by
  have hhour : '/' ∉ sprintf0 2 hh := notMem_sprintf0 (by decide) (by decide)
  have htail : '/' ∉
      if old then "f".toList ++ padded 2 fff else ".0p50.f".toList ++ padded 3 fff := by
    split <;> rw [List.mem_append, not_or] <;> exact ⟨by decide, notMem_padded (by decide)⟩
  simp only [baseName, List.mem_append, not_or]
  exact ⟨⟨⟨⟨⟨⟨by decide, memberName_notMem (by decide) em⟩, by decide⟩, hhour⟩, by decide⟩,
    hletter⟩, htail⟩

theorem basename_inputPath (path directory : Str) (em : ℕ) {letter : Str} (hletter : '/' ∉ letter)
    (hh : ℤ) (fff : ℕ) : basename (inputPath path directory (memberName em) letter hh fff) =
      baseName (directory < "2020092312".toList) (memberName em) letter hh fff := by
  have hsplit : inputPath path directory (memberName em) letter hh fff =
      (path ++ "/".toList ++ directory) ++ '/' ::
        baseName (directory < "2020092312".toList) (memberName em) letter hh fff := by
    have hge : "/ge".toList = '/' :: "ge".toList := rfl
    simp only [inputPath, baseName, hge, decide_eq_true_eq]
    split_ifs <;> simp only [List.append_assoc, List.cons_append]
  rw [hsplit, basename_append _ (slash_notMem_baseName _ em hletter hh fff)]

theorem baseName_old_inj {old old' : Bool} {member letter : Str} {hh : ℤ} {fff : ℕ}
    (h : baseName old member letter hh fff = baseName old' member letter hh fff) : old = old' := by
  have htail := List.append_cancel_left h
  cases old <;> cases old'
  · rfl
  · cases htail
  · cases htail
  · rfl

/-- Where the terminator does no harm to the base names: where nothing is read again, in the
directory without a change in how it compares, behind the letter of the file type, and anywhere
else if the call still ends with the name that the arguments give. -/
def Harmless (naming : InputNaming) : Prop :=
  match naming.overwritten with
  | .unused => True
  | .directoryString i =>
    decide ((dateString t.toCycleDate).take i < "2020092312".toList) = beforeUpgrade t.toCycleDate
  | .fileLetter i => i ≠ 0
  | .elsewhere outcome => ∀ type, ∀ em < getNMembers t.toCycleDate, ∀ fff ∈ forecastHours,
      (outcome type t.toCycleDate fff em).map basename = some (inputName type t.toCycleDate fff em)

theorem harmless_iff {naming : InputNaming} : Harmless t naming ↔
    ∀ type, ∀ em < getNMembers t.toCycleDate, ∀ fff ∈ forecastHours,
      (generateInputFilename naming type t.toCycleDate fff em).map basename =
        some (inputName type t.toCycleDate fff em) := by
  obtain ⟨path, overwritten⟩ := naming
  have hslash : ∀ type : FileNumber, '/' ∉ type.fileLetter := fileLetter_notMem (by decide)
  have hmembers : 0 < getNMembers t.toCycleDate := by
    rw [getNMembers]
    split_ifs <;> decide
  have hhour : 0 ∈ forecastHours := by decide
  cases overwritten with
  | unused =>
    refine iff_of_true trivial fun type em _ fff _ => ?_
    show some (basename (inputPath path _ (memberName em) _ _ _)) = _
    rw [basename_inputPath _ _ _ (hslash type), inputName_eq_baseName]
    rfl
  | directoryString i =>
    have hname : ∀ type fff em, (generateInputFilename ⟨path, .directoryString i⟩ type
        t.toCycleDate fff em).map basename = some (baseName
          ((dateString t.toCycleDate).take i < "2020092312".toList) (memberName em)
          type.fileLetter t.toCycleDate.hh fff) := fun type fff em =>
      congrArg some (basename_inputPath _ _ _ (hslash type) _ _)
    simp only [hname, inputName_eq_baseName]
    constructor
    · intro hsame type em _ fff _
      rw [show decide _ = beforeUpgrade t.toCycleDate from hsame]
    · intro h
      exact baseName_old_inj (Option.some.inj (h .aFile 0 hmembers 0 hhour))
  | fileLetter i =>
    have hname : ∀ (type : FileNumber) fff em, (generateInputFilename ⟨path, .fileLetter i⟩ type
        t.toCycleDate fff em).map basename = some (baseName (beforeUpgrade t.toCycleDate)
          (memberName em) (type.fileLetter.take i) t.toCycleDate.hh fff) := fun type fff em =>
      congrArg some (basename_inputPath _ _ _ (fun hm => hslash type (List.mem_of_mem_take hm)) _ _)
    simp only [hname, inputName_eq_baseName]
    constructor
    · intro hi type em _ fff _
      have hletter : type.fileLetter.take i = type.fileLetter := by
        have hlength : type.fileLetter.length = 1 := by cases type <;> rfl
        exact List.take_of_length_le (hlength ▸ Nat.one_le_iff_ne_zero.mpr hi)
      rw [hletter]
    · rintro h rfl
      have hlost := List.append_cancel_left
        (List.append_cancel_right (Option.some.inj (h .aFile 0 hmembers 0 hhour)))
      cases hlost
  | elsewhere outcome => exact Iff.rfl

theorem getMembers_eq :
    getMembers t = (List.range (getNMembers t.toCycleDate)).map memberName := by
  rw [getMembers, getNMembers, t.before_upgrade_eq]
  rfl

theorem mem_pythonForecastHours {fff : ℕ} : fff ∈ pythonForecastHours ↔ fff ∈ forecastHours := by
  rw [show pythonForecastHours = forecastHours by decide +kernel]

theorem mem_basenames (directory : FileNumber → Str) {name : Str} :
    name ∈ ([FileNumber.aFile, .bFile].flatMap fun gribType => (getMembers t).flatMap fun member =>
        pythonForecastHours.map fun forecastHour =>
          getFilename (directory gribType) t member forecastHour gribType).map basename ↔
      ∃ type, ∃ em < getNMembers t.toCycleDate, ∃ fff ∈ forecastHours,
        name = inputName type t.toCycleDate fff em := by
  have htype : ∀ type : FileNumber, type ∈ [FileNumber.aFile, .bFile] := by
    intro type
    cases type <;> decide
  simp only [List.mem_map, List.mem_flatMap, getMembers_eq, mem_pythonForecastHours, List.mem_range]
  constructor
  · rintro ⟨_, ⟨type, -, _, ⟨em, hem, rfl⟩, fff, hfff, rfl⟩, rfl⟩
    exact ⟨type, em, hem, fff, hfff, basename_getFilename t _ type fff em⟩
  · rintro ⟨type, em, hem, fff, hfff, rfl⟩
    exact ⟨_, ⟨type, htype type, _, ⟨em, hem, rfl⟩, fff, hfff, rfl⟩,
      basename_getFilename t _ type fff em⟩

/-- The digits at the end of a name are the last group. -/
theorem find_gefsTailForms {d : CycleDate} {fff : ℕ} (hfff : fff < 1000) :
    (gefsTailForms.find? fun f =>
        endsAt true (literal f.1 ++ List.replicate f.2 .digit) (inputTail d fff)).map
      (fun f => ((inputTail d fff).drop f.1.length).take f.2) =
      some (if beforeUpgrade d then padded 2 fff else padded 3 fff) := by
  have hdigit : ∀ w, ∀ c ∈ padded w fff, c.isDigit = true := fun w c hc => isDigit_of_mem_padded hc
  rw [inputTail]
  split_ifs
  · have hall := hdigit 2
    rcases padded_two_length hfff with h2 | h3
    · obtain ⟨a, b, hab⟩ := List.length_eq_two.mp h2
      rw [hab] at hall ⊢
      have ha := hall a (by simp)
      have hb := hall b (by simp)
      simp [gefsTailForms, endsAt, reads, literal, Atom.accepts, atEnd, List.replicate, ha, hb]
    · obtain ⟨a, b, c, habc⟩ := List.length_eq_three.mp h3
      rw [habc] at hall ⊢
      have ha := hall a (by simp)
      have hb := hall b (by simp)
      have hc := hall c (by simp)
      simp [gefsTailForms, endsAt, reads, literal, Atom.accepts, atEnd, List.replicate, ha, hb, hc]
  · have hall := hdigit 3
    obtain ⟨a, b, c, habc⟩ := List.length_eq_three.mp (padded_length (by decide) hfff : _ = 3)
    rw [habc] at hall ⊢
    have ha := hall a (by simp)
    have hb := hall b (by simp)
    have hc := hall c (by simp)
    simp [gefsTailForms, endsAt, reads, literal, Atom.accepts, atEnd, List.replicate, ha, hb, hc]

theorem twoDigitHour_toCycleDate : TwoDigitHour t.toCycleDate :=
  ⟨padded_length (by decide) (by have := t.hour_lt; omega), fun _ hc => isDigit_of_mem_padded hc⟩

theorem gefsMatch_inputName {em fff : ℕ} (hem : em < 100) (hfff : fff < 1000) (type : FileNumber) :
    gefsMatch (inputName type t.toCycleDate fff em) = some
      { mem := padded 2 em
        cycle := padded 2 t.hour
        type := type.fileLetter
        fct := if beforeUpgrade t.toCycleDate then padded 2 fff else padded 3 fff } := by
  obtain ⟨m, n, hmn⟩ := List.length_eq_two.mp (padded_length (by decide) hem : _ = 2)
  obtain ⟨h, k, hhk⟩ := List.length_eq_two.mp (twoDigitHour_toCycleDate t).1
  have hhk' : padded 2 t.hour = [h, k] := hhk
  have hgroups : parseMem (inputName type t.toCycleDate fff em) = padded 2 em ∧
      ((inputName type t.toCycleDate fff em).drop 7).take 2 = padded 2 t.hour ∧
      parseType (inputName type t.toCycleDate fff em) = type.fileLetter := by
    rw [parseMem, parseType, inputName_eq, hmn, hhk, hhk']
    cases type <;> exact ⟨rfl, rfl, rfl⟩
  obtain ⟨f, hfind, hfct⟩ := Option.map_eq_some_iff.mp
    (find_gefsTailForms (d := t.toCycleDate) hfff)
  simp only [gefsMatch, reads_gefsHead_inputName (twoDigitHour_toCycleDate t) type fff hem, hfind,
    Option.map_some, hgroups, hfct]

/-- The three languages agree: on the number of members and of grid points, on the names of the
input files, and on what the names say. -/
structure InputsAgree (naming : InputNaming) (directory sourceDir : Str) : Prop where
  counts : getNMembers t.toCycleDate = perlGetNMembers t.cycle ∧
    (getMembers t).length = perlGetNMembers t.cycle ∧
    getNPoints t.toCycleDate = getQcNumPoints t.cycle
  names : ∀ name, (name ∈ (getLinkFilenames directory t (getMembers t)).map basename ↔
      name ∈ (getSourceFilenames sourceDir t (getMembers t)).map basename) ∧
    (name ∈ (getLinkFilenames directory t (getMembers t)).map basename ↔
      ∃ type, ∃ em < getNMembers t.toCycleDate, ∃ fff ∈ forecastHours, ∃ path,
        generateInputFilename naming type t.toCycleDate fff em = some path ∧ name = basename path)
  captured : ∀ type, ∀ em < getNMembers t.toCycleDate, ∀ fff ∈ forecastHours, ∀ path,
    generateInputFilename naming type t.toCycleDate fff em = some path →
      ∃ g, gefsMatch (basename path) = some g ∧
        Nat.ofDigitChars 10 g.mem 0 = em ∧ Nat.ofDigitChars 10 g.cycle 0 = t.hour ∧
        g.type = type.fileLetter ∧ Nat.ofDigitChars 10 g.fct 0 = fff

variable {t}

theorem captured_inputName (type : FileNumber) {em fff : ℕ} (hem : em < getNMembers t.toCycleDate)
    (hfff : fff ∈ forecastHours) : ∃ g, gefsMatch (inputName type t.toCycleDate fff em) = some g ∧
      Nat.ofDigitChars 10 g.mem 0 = em ∧ Nat.ofDigitChars 10 g.cycle 0 = t.hour ∧
      g.type = type.fileLetter ∧ Nat.ofDigitChars 10 g.fct 0 = fff := by
  refine ⟨_, gefsMatch_inputName t (hem.trans (getNMembers_lt t)) (lt_of_mem_forecastHours hfff)
    type, ofDigitChars_padded 2 em, ofDigitChars_padded 2 t.hour, rfl, ?_⟩
  show Nat.ofDigitChars 10 (if _ then _ else _) 0 = fff
  split_ifs <;> exact ofDigitChars_padded _ fff

/-- Names that are the right ones as a set, and tell what they were built from, are right one by
one. -/
theorem InputsAgree.harmless {naming : InputNaming} {directory sourceDir : Str}
    (h : InputsAgree t naming directory sourceDir) : Harmless t naming := by
  rw [harmless_iff]
  intro type em hem fff hfff
  have hlink := (mem_basenames t fun _ => directory).mpr
    ⟨type, em, hem, fff, hfff, rfl⟩
  obtain ⟨type', em', hem', fff', hfff', path, hpath, hname⟩ := (h.names _).2.mp hlink
  obtain ⟨g, hg, hmem, -, htype, hfct⟩ := captured_inputName type hem hfff
  obtain ⟨g', hg', hmem', -, htype', hfct'⟩ := h.captured type' em' hem' fff' hfff' path hpath
  rw [← hname, hg] at hg'
  obtain rfl := Option.some.inj hg'
  have hsame : type = type' := by
    have hletter := htype.symm.trans htype'
    cases type <;> cases type' <;> first | rfl | exact absurd hletter (by decide)
  rw [hsame, ← hmem, ← hfct, hmem', hfct', hpath, Option.map_some, ← hname, hsame, ← hmem, ← hfct,
    hmem', hfct']

/-- The three languages agree on the input of a cycle exactly when the terminator that is written
past `modelEnsembleMember` does no harm to the names. -/
theorem linkInput_agrees_iff (t : Datetime) (naming : InputNaming) (directory sourceDir : Str) :
    InputsAgree t naming directory sourceDir ↔ Harmless t naming := by
  refine ⟨InputsAgree.harmless, fun h => ?_⟩
  rw [harmless_iff] at h
  refine ⟨counts_agree t, fun name => ⟨(mem_basenames t _).trans (mem_basenames t _).symm, ?_⟩, ?_⟩
  · refine (mem_basenames t _).trans ⟨?_, ?_⟩
    · rintro ⟨type, em, hem, fff, hfff, rfl⟩
      obtain ⟨path, hpath, hname⟩ := Option.map_eq_some_iff.mp (h type em hem fff hfff)
      exact ⟨type, em, hem, fff, hfff, path, hpath, hname.symm⟩
    · rintro ⟨type, em, hem, fff, hfff, path, hpath, rfl⟩
      have hname := h type em hem fff hfff
      rw [hpath, Option.map_some] at hname
      exact ⟨type, em, hem, fff, hfff, Option.some.inj hname⟩
  · intro type em hem fff hfff path hpath
    have hname := h type em hem fff hfff
    rw [hpath, Option.map_some] at hname
    rw [Option.some.inj hname]
    exact captured_inputName type hem hfff

end Names

/-- The first cycle of 2021. -/
def newYearTime : Datetime where
  year := 2021
  month := 1
  day := 1
  hour := 0
  year_pos := by decide
  year_le := by decide
  isDate := ⟨by decide, by decide, by decide, by decide⟩
  hour_lt := by decide

/-- With the first byte of `directoryString` overwritten, the program opens names of the time before
the upgrade. -/
theorem linkInput_disagrees : ¬ InputsAgree newYearTime ⟨"in".toList, .directoryString 0⟩
    "in/2021010100".toList "com".toList := by
  intro h
  have hsame : decide ((dateString newYearTime.toCycleDate).take 0 < "2020092312".toList) =
      beforeUpgrade newYearTime.toCycleDate := h.harmless
  exact absurd hsame (by decide +kernel)

end Tigge
