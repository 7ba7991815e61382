import Tigge.Names

/-! The local arrays of `util.c` and the strings that are formatted or copied into them. -/

namespace Tigge
open Lib

/-- Of a text that is not read past its digits, the number is no wider than the text. -/
theorem atoi_bounds {s : Str} {w : ℕ} (hs : s.length ≤ w) :
    -10 ^ (w - 1) < atoi s ∧ atoi s < 10 ^ w := by
  have hdigits : ∀ {t : Str} {k : ℕ}, t.length ≤ k →
      Nat.ofDigitChars 10 (t.takeWhile Char.isDigit) 0 < 10 ^ k := by
    intro t k ht
    have hlt : Nat.ofDigitChars 10 (t.takeWhile Char.isDigit) 0 <
        10 ^ (t.takeWhile Char.isDigit).length := ofDigitChars_lt fun c hc => List.mem_takeWhile_imp hc
    exact hlt.trans_le (Nat.pow_le_pow_right (by decide)
      ((List.takeWhile_prefix _).length_le.trans ht))
  have hpos : (0 : ℤ) < 10 ^ (w - 1) := by positivity
  have hwide : (10 : ℤ) ^ (w - 1) ≤ 10 ^ w := pow_le_pow_right₀ (by decide) (Nat.sub_le w 1)
  have hdrop : (s.dropWhile isspace).length ≤ w := (List.dropWhile_suffix _).length_le.trans hs
  unfold atoi
  split
  · next t ht =>
    rw [ht, List.length_cons] at hdrop
    have hlt : (Nat.ofDigitChars 10 (t.takeWhile Char.isDigit) 0 : ℤ) < 10 ^ (w - 1) := by
      exact_mod_cast hdigits (Nat.le_sub_one_of_lt hdrop)
    constructor <;> omega
  · next t ht =>
    rw [ht, List.length_cons] at hdrop
    have hlt : (Nat.ofDigitChars 10 (t.takeWhile Char.isDigit) 0 : ℤ) < 10 ^ w := by
      exact_mod_cast hdigits (Nat.le_of_succ_le hdrop)
    constructor <;> omega
  · have hlt : (Nat.ofDigitChars 10 ((s.dropWhile isspace).takeWhile Char.isDigit) 0 : ℤ) <
        10 ^ w := by
      exact_mod_cast hdigits hdrop
    constructor <;> omega

/-- `get_gen_proc_id`. -/
def getGenProcId (d : CycleDate) : ℕ := if beforeUpgrade d then 80 else 107

/-- The local arrays of `generateInputFilename`, of `generateFileName`, and of `get_n_lat` and the
three functions like it. -/
inductive LocalArray
  | directoryString
  | modelEnsembleMember
  | fileLetter
  | date
  | tt
  | ll
  | ssss
  | nnn
  | llll
  | dateString
  deriving DecidableEq

namespace LocalArray

/-- The size in its declaration. -/
def size : LocalArray → ℕ
  | directoryString => 12
  | modelEnsembleMember => 3
  | fileLetter => 3
  | date => 15
  | tt => 3
  | ll => 3
  | ssss => 5
  | nnn => 4
  | llll => 5
  | dateString => 12

/-- What `sprintf` or `strcpy` puts there, less the terminator. -/
def text (variableName : TiggeVariable) (fileNumber : FileNumber) (d : CycleDate) (fff em : ℕ) :
    LocalArray → Str
  | directoryString => Tigge.dateString d
  | modelEnsembleMember => if em = 0 then 'c' :: padded 2 em else 'p' :: padded 2 em
  | fileLetter => fileNumber.fileLetter
  | date => Tigge.dateString d ++ "0000".toList
  | tt => if em = 0 then "cf".toList else "pf".toList
  | ll => if variableName = .potentialTemperature then "pv".toList else "sl".toList
  | ssss => padded 4 fff
  | nnn => padded 3 em
  | llll => if variableName = .potentialTemperature then "0002".toList else "0000".toList
  | dateString => Tigge.dateString d

/-- The text and its terminator have room in the array. -/
def Fits (variableName : TiggeVariable) (fileNumber : FileNumber) (d : CycleDate) (fff em : ℕ)
    (b : LocalArray) : Prop := (b.text variableName fileNumber d fff em).length + 1 ≤ b.size

end LocalArray

section Texts
variable (variableName : TiggeVariable) (fileNumber : FileNumber) (d : CycleDate) (fff em : ℕ)
open LocalArray

/-- The names are put together from the arrays. -/
theorem generateFileName_text : generateFileName variableName d fff em =
    ['_'].intercalate ["z_tigge_c".toList, "kwbc".toList,
      date.text variableName fileNumber d fff em, "glob".toList, "prod".toList,
      tt.text variableName fileNumber d fff em, ll.text variableName fileNumber d fff em,
      ssss.text variableName fileNumber d fff em, nnn.text variableName fileNumber d fff em,
      llll.text variableName fileNumber d fff em, variableName.shortName] ++ ".grib".toList := rfl

theorem generateInputFilename_text (newFileNamePrefix : Str) :
    generateInputFilename ⟨newFileNamePrefix, .unused⟩ fileNumber d fff em =
      some (if directoryString.text variableName fileNumber d fff em < "2020092312".toList then
        newFileNamePrefix ++ "/".toList ++ directoryString.text variableName fileNumber d fff em ++
          "/ge".toList ++ modelEnsembleMember.text variableName fileNumber d fff em ++
          ".t".toList ++ sprintf0 2 d.hh ++ "z.pgrb2".toList ++
          fileLetter.text variableName fileNumber d fff em ++ "f".toList ++ padded 2 fff
      else
        newFileNamePrefix ++ "/".toList ++ directoryString.text variableName fileNumber d fff em ++
          "/ge".toList ++ modelEnsembleMember.text variableName fileNumber d fff em ++
          ".t".toList ++ sprintf0 2 d.hh ++ "z.pgrb2".toList ++
          fileLetter.text variableName fileNumber d fff em ++ ".0p50.f".toList ++ padded 3 fff) := by
  rfl

theorem counts_text : (getNLat d, getNLon d, getNMembers d, getGenProcId d) =
    if LocalArray.dateString.text variableName fileNumber d fff em < "2020092312".toList then
      (181, 360, 21, 80)
    else (361, 720, 31, 107) := by
  change _ = if dateString d < "2020092312".toList then _ else _
  unfold getNLat getNLon getNMembers getGenProcId beforeUpgrade
  simp only [decide_eq_true_eq]
  split_ifs <;> rfl

end Texts

theorem length_dateString {arg : Str} {d : CycleDate} (hd : parseDate arg = some d) :
    (dateString d).length = 10 := by
  have hfield : ∀ {w : ℕ} (s : Str), 0 < w → (sprintf0 w (atoi (s.take w))).length = w := by
    intro w s hw
    obtain ⟨hlo, hhi⟩ := atoi_bounds (List.length_take_le w s)
    exact length_sprintf0 hw hlo hhi
  unfold parseDate at hd
  split_ifs at hd
  obtain rfl := Option.some.inj hd
  unfold dateString
  rw [List.length_append, List.length_append, List.length_append, hfield _ (by decide),
    hfield _ (by decide), hfield _ (by decide), hfield _ (by decide)]

section Sizes
variable {arg : Str} {d : CycleDate} {fff em : ℕ}

theorem lt_of_lt_getNMembers (hem : em < getNMembers d) : em < 31 := by
  unfold getNMembers at hem
  split_ifs at hem
  · exact hem.trans (by decide)
  · exact hem

theorem fits_iff (hd : parseDate arg = some d) (hem : em < getNMembers d)
    (hfff : fff ∈ forecastHours) (variableName : TiggeVariable) (fileNumber : FileNumber)
    (b : LocalArray) :
    b.Fits variableName fileNumber d fff em ↔ b ≠ .modelEnsembleMember := by
  have hdate := length_dateString hd
  have hmember : em < 31 := lt_of_lt_getNMembers hem
  have hem2 : (padded 2 em).length = 2 := padded_length (by decide) (by omega)
  have hem3 : (padded 3 em).length = 3 := padded_length (by decide) (by omega)
  have hfff4 : (padded 4 fff).length = 4 :=
    padded_length (by decide) ((lt_of_mem_forecastHours hfff).trans (by decide))
  unfold LocalArray.Fits
  cases b with
  | modelEnsembleMember =>
    -- the letter and two digits leave no room for the terminator
    refine iff_of_false ?_ fun h => h rfl
    unfold LocalArray.text LocalArray.size
    split_ifs <;> simp [hem2]
  | directoryString => exact iff_of_true (by simp [LocalArray.text, LocalArray.size, hdate]) (by decide)
  | dateString => exact iff_of_true (by simp [LocalArray.text, LocalArray.size, hdate]) (by decide)
  | date => exact iff_of_true (by simp [LocalArray.text, LocalArray.size, hdate]) (by decide)
  | ssss => exact iff_of_true (by simp [LocalArray.text, LocalArray.size, hfff4]) (by decide)
  | nnn => exact iff_of_true (by simp [LocalArray.text, LocalArray.size, hem3]) (by decide)
  | fileLetter =>
    refine iff_of_true ?_ (by decide)
    cases fileNumber <;> simp [LocalArray.text, LocalArray.size, FileNumber.fileLetter]
  | tt =>
    refine iff_of_true ?_ (by decide)
    unfold LocalArray.text LocalArray.size
    split_ifs <;> simp
  | ll =>
    refine iff_of_true ?_ (by decide)
    unfold LocalArray.text LocalArray.size
    split_ifs <;> simp
  | llll =>
    refine iff_of_true ?_ (by decide)
    unfold LocalArray.text LocalArray.size
    split_ifs <;> simp

/-- No name is put together within all arrays, and only one of them is too small. -/
theorem localArrays_overrun (hd : parseDate arg = some d) (hem : em < getNMembers d)
    (hfff : fff ∈ forecastHours) (variableName : TiggeVariable) (fileNumber : FileNumber) :
    (¬ ∀ b : LocalArray, b.Fits variableName fileNumber d fff em) ∧
      ∀ b : LocalArray, b.Fits variableName fileNumber d fff em ↔ b ≠ .modelEnsembleMember := by
  have hfits := fits_iff hd hem hfff variableName fileNumber
  exact ⟨fun hall => (hfits .modelEnsembleMember).mp (hall _) rfl, hfits⟩

theorem localArrays_overrun_control :
    (¬ ∀ b : LocalArray, b.Fits .soilMoisture .aFile ⟨2021, 1, 1, 0⟩ 0 0) ∧
      ∀ b : LocalArray, b.Fits .soilMoisture .aFile ⟨2021, 1, 1, 0⟩ 0 0 ↔
        b ≠ .modelEnsembleMember := by
  have hd : parseDate "2021010100".toList = some ⟨2021, 1, 1, 0⟩ := by decide
  exact localArrays_overrun hd (by decide) (by decide) _ _

/-- `ncdcTigge 2021010100`: `c00` and its terminator are four characters, in an array of three. -/
theorem control_member_overruns : parseDate "2021010100".toList = some ⟨2021, 1, 1, 0⟩ ∧
    0 < getNMembers ⟨2021, 1, 1, 0⟩ ∧ 0 ∈ forecastHours ∧
      ¬ ∀ b : LocalArray, b.Fits .soilMoisture .aFile ⟨2021, 1, 1, 0⟩ 0 0 := by
  refine ⟨by decide, by decide, by decide, fun hall => ?_⟩
  exact absurd (hall .modelEnsembleMember) (by unfold LocalArray.Fits; decide)

end Sizes
end Tigge
