import Tigge.Lib.Tokens
import Tigge.Queue

/-! The cycle on the command line and the names of the files read and written for it. -/

namespace Tigge
open Lib TiggeVariable

structure CycleDate where
  yyyy : ℤ
  mm : ℤ
  dd : ℤ
  hh : ℤ
  deriving DecidableEq

def isspace (c : Char) : Bool := c = ' ' || (9 ≤ c.toNat && c.toNat ≤ 13)

def atoi (s : Str) : ℤ :=
  match s.dropWhile isspace with
  | '-' :: t => -(Nat.ofDigitChars 10 (t.takeWhile Char.isDigit) 0 : ℤ)
  | '+' :: t => Nat.ofDigitChars 10 (t.takeWhile Char.isDigit) 0
  | t => Nat.ofDigitChars 10 (t.takeWhile Char.isDigit) 0

/-- `argv[1]` cut into its four fields. Only the length is checked. -/
def parseDate (arg : Str) : Option CycleDate :=
  if arg.length ≠ 10 then none
  else some
    { yyyy := atoi (arg.take 4)
      mm := atoi ((arg.drop 4).take 2)
      dd := atoi ((arg.drop 6).take 2)
      hh := atoi ((arg.drop 8).take 2) }

/-- `%04d%02d%02d%02d`. -/
def dateString (d : CycleDate) : Str :=
  sprintf0 4 d.yyyy ++ sprintf0 2 d.mm ++ sprintf0 2 d.dd ++ sprintf0 2 d.hh

/-- `strcmp(dateString, "2020092312") < 0`. -/
def beforeUpgrade (d : CycleDate) : Bool := dateString d < "2020092312".toList

def getNLat (d : CycleDate) : ℕ := if beforeUpgrade d then 181 else 361

def getNLon (d : CycleDate) : ℕ := if beforeUpgrade d then 360 else 720

def getNPoints (d : CycleDate) : ℕ := getNLat d * getNLon d

def getNMembers (d : CycleDate) : ℕ := if beforeUpgrade d then 21 else 31

def generateFileName (variableName : TiggeVariable) (d : CycleDate) (fff em : ℕ) : Str :=
  let tt := if em = 0 then "cf".toList else "pf".toList
  let ll := if variableName = potentialTemperature then "pv".toList else "sl".toList
  let llll := if variableName = potentialTemperature then "0002".toList else "0000".toList
  ['_'].intercalate ["z_tigge_c".toList, "kwbc".toList, dateString d ++ "0000".toList,
    "glob".toList, "prod".toList, tt, ll, padded 4 fff, padded 3 em, llll,
    variableName.shortName] ++ ".grib".toList

inductive FileNumber
  | aFile
  | bFile
  deriving DecidableEq

def FileNumber.fileLetter : FileNumber → Str
  | .aFile => "a".toList
  | .bFile => "b".toList

/-- `sprintf` writes four bytes to `modelEnsembleMember[3]`. What the terminator overwrites is up to
the layout of the stack: nothing that is read again, a byte of another local array, or something
else, whatever then comes of the call. -/
inductive Overwritten
  | unused
  | directoryString (i : ℕ)
  | fileLetter (i : ℕ)
  | elsewhere (outcome : FileNumber → CycleDate → ℕ → ℕ → Option Str)

/-- What the names of the input files depend on besides the arguments: `TIGGE_INPUT`, and the stack
of `generateInputFilename`. -/
structure InputNaming where
  newFileNamePrefix : Str
  overwritten : Overwritten

/-- The last two `sprintf` of `generateInputFilename`. -/
def inputPath (newFileNamePrefix directoryString modelEnsembleMember fileLetter : Str) (hh : ℤ)
    (fff : ℕ) : Str :=
  let stem := newFileNamePrefix ++ "/".toList ++ directoryString ++ "/ge".toList ++
    modelEnsembleMember ++ ".t".toList ++ sprintf0 2 hh ++ "z.pgrb2".toList ++ fileLetter
  if directoryString < "2020092312".toList then stem ++ "f".toList ++ padded 2 fff
  else stem ++ ".0p50.f".toList ++ padded 3 fff

/-- `none` when the call does not return. -/
def generateInputFilename (naming : InputNaming) (fileNumber : FileNumber) (d : CycleDate)
    (fff em : ℕ) : Option Str :=
  let modelEnsembleMember := if em = 0 then 'c' :: padded 2 em else 'p' :: padded 2 em
  match naming.overwritten with
  | .unused => some (inputPath naming.newFileNamePrefix (dateString d) modelEnsembleMember
      fileNumber.fileLetter d.hh fff)
  | .directoryString i => some (inputPath naming.newFileNamePrefix ((dateString d).take i)
      modelEnsembleMember fileNumber.fileLetter d.hh fff)
  | .fileLetter i => some (inputPath naming.newFileNamePrefix (dateString d) modelEnsembleMember
      (fileNumber.fileLetter.take i) d.hh fff)
  | .elsewhere outcome => outcome fileNumber d fff em

/-- The Perl `get_n_members`, which compares the ten digits as a number. -/
def perlGetNMembers (cycle : Str) : ℕ :=
  if Nat.ofDigitChars 10 cycle 0 ≥ 2020092312 then 31 else 21

theorem perlGetNMembers_le (cycle : Str) : perlGetNMembers cycle ≤ 31 := by
  unfold perlGetNMembers
  split_ifs <;> decide

def FCT_HOURS : ℕ := 384

def FCT_INC : ℕ := 6

def tiggeVarCodes : List Str :=
  ["pt".toList, "sf".toList, "sm".toList, "st".toList, "ttr".toList, "slhf".toList, "ssr".toList,
    "str".toList, "sshf".toList, "tcw".toList, "tp".toList]

def expectedVarCount (cycle : Str) : ℕ := perlGetNMembers cycle * (FCT_HOURS / FCT_INC + 1)

/-- `{0,6,...,384}`. -/
def forecastHours : List ℕ := (List.range (FCT_HOURS / FCT_INC + 1)).map (· * FCT_INC)

theorem nodup_forecastHours : forecastHours.Nodup :=
  List.nodup_range.map fun _ _ h => Nat.eq_of_mul_eq_mul_right (by decide) h

theorem lt_of_mem_forecastHours {fff : ℕ} (h : fff ∈ forecastHours) : fff < 1000 := by
  obtain ⟨k, hk, rfl⟩ := List.mem_map.mp h
  have hk' : k < 65 := List.mem_range.mp hk
  show k * 6 < 1000
  omega

/-- The number of files that `qcOutput` wants for a cycle. -/
def expectedCycleCount (cycle : Str) : ℕ := expectedVarCount cycle * tiggeVarCodes.length

/-- `m/^\d{4}[0-1]\d[0-3]\d[0-2]\d$/`, on ten characters. -/
def isDtg (cycle : Str) : Bool :=
  match cycle with
  | [y1, y2, y3, y4, m1, m2, d1, d2, h1, h2] =>
    [y1, y2, y3, y4, m2, d2, h2].all Char.isDigit && (m1 = '0' || m1 = '1') &&
      (d1 = '0' || d1 = '1' || d1 = '2' || d1 = '3') && (h1 = '0' || h1 = '1' || h1 = '2')
  | _ => false

theorem isDtg_digits {cycle : Str} (h : isDtg cycle) :
    cycle.length = 10 ∧ ∀ c ∈ cycle, c.isDigit := by
  unfold isDtg at h
  split at h
  · simp only [List.all_cons, List.all_nil, Bool.and_true, Bool.and_eq_true, Bool.or_eq_true,
      decide_eq_true_eq] at h
    obtain ⟨⟨⟨⟨hy1, hy2, hy3, hy4, hm2, hd2, hh2⟩, hm⟩, hd⟩, hh⟩ := h
    refine ⟨rfl, ?_⟩
    simp only [List.mem_cons, List.not_mem_nil, or_false, forall_eq_or_imp, forall_eq]
    refine ⟨hy1, hy2, hy3, hy4, ?_, hm2, ?_, hd2, ?_, hh2⟩
    · rcases hm with rfl | rfl <;> rfl
    · rcases hd with ((rfl | rfl) | rfl) | rfl <;> rfl
    · rcases hh with (rfl | rfl) | rfl <;> rfl
  · exact absurd h Bool.false_ne_true

theorem underscore_notMem_dateString (d : CycleDate) : '_' ∉ dateString d := by
  simp only [dateString, List.mem_append, not_or]
  refine ⟨⟨⟨?_, ?_⟩, ?_⟩, ?_⟩ <;> exact notMem_sprintf0 (by decide) (by decide)

/-- The name split at its underscores. -/
def nameTokens (v : TiggeVariable) (d : CycleDate) (fff em : ℕ) : List Str :=
  ["z".toList, "tigge".toList, "c".toList, "kwbc".toList, dateString d ++ "0000".toList,
    "glob".toList, "prod".toList, if em = 0 then "cf".toList else "pf".toList,
    if v = potentialTemperature then "pv".toList else "sl".toList, padded 4 fff, padded 3 em,
    if v = potentialTemperature then "0002".toList else "0000".toList,
    v.shortName ++ ".grib".toList]

theorem generateFileName_eq (v : TiggeVariable) (d : CycleDate) (fff em : ℕ) :
    generateFileName v d fff em = ['_'].intercalate (nameTokens v d fff em) := by
  simp [generateFileName, nameTokens, List.intercalate]

theorem underscore_notMem_nameTokens (v : TiggeVariable) (d : CycleDate) (fff em : ℕ) :
    ∀ t ∈ nameTokens v d fff em, '_' ∉ t := by
  have hv : '_' ∉ v.shortName ++ ".grib".toList := by cases v <;> decide
  have hd : '_' ∉ dateString d ++ "0000".toList := by
    rw [List.mem_append, not_or]
    exact ⟨underscore_notMem_dateString d, by decide⟩
  have hf : ∀ w n, '_' ∉ padded w n := fun w n => notMem_padded (by decide)
  simp only [nameTokens, List.mem_cons, List.not_mem_nil, or_false, forall_eq_or_imp, forall_eq]
  refine ⟨by decide, by decide, by decide, by decide, hd, by decide, by decide, ?_, ?_, hf _ _,
    hf _ _, ?_, hv⟩ <;> split_ifs <;> decide

theorem generateFileName_injective {d : CycleDate} {v w : TiggeVariable} {f g e m : ℕ}
    (h : generateFileName v d f e = generateFileName w d g m) : v = w ∧ f = g ∧ e = m := by
  rw [generateFileName_eq, generateFileName_eq] at h
  have ht := intercalate_inj (underscore_notMem_nameTokens v d f e)
    (underscore_notMem_nameTokens w d g m) (List.cons_ne_nil _ _) (List.cons_ne_nil _ _) h
  simp only [nameTokens, List.cons.injEq, and_true, true_and] at ht
  obtain ⟨_, _, hf, he, _, hv⟩ := ht
  exact ⟨shortName_injective (List.append_cancel_right hv), padded_injective 4 hf,
    padded_injective 3 he⟩

theorem atoi_of_digits {s : Str} (hs : ∀ c ∈ s, c.isDigit) :
    atoi s = (Nat.ofDigitChars 10 s 0 : ℕ) := by
  have htake : s.takeWhile Char.isDigit = s := List.takeWhile_eq_self_iff.mpr hs
  have hdrop : s.dropWhile isspace = s := by
    cases s with
    | nil => rfl
    | cons c t =>
      have hc := digit_bounds (hs c List.mem_cons_self)
      have hne : c ≠ ' ' := by rintro rfl; revert hc; decide
      rw [List.dropWhile_cons_of_neg]
      simp only [isspace, hne, decide_false, Bool.false_or, Bool.and_eq_true, decide_eq_true_eq,
        not_and]
      omega
  rw [atoi, hdrop]
  split
  · next t => exact absurd (hs _ List.mem_cons_self) (by decide)
  · next t => exact absurd (hs _ List.mem_cons_self) (by decide)
  · rw [htake]

theorem sprintf0_atoi {s : Str} (h0 : s ≠ []) (hs : ∀ c ∈ s, c.isDigit) :
    sprintf0 s.length (atoi s) = s := by
  rw [atoi_of_digits hs, sprintf0_natCast]
  exact padded_ofDigitChars h0 hs

theorem dateString_parseDate {cycle : Str} (hl : cycle.length = 10)
    (hs : ∀ c ∈ cycle, c.isDigit) {d : CycleDate} (h : parseDate cycle = some d) :
    dateString d = cycle ∧ sprintf0 2 d.hh = (cycle.drop 8).take 2 := by
  rw [parseDate, if_neg (by omega), Option.some.injEq] at h
  subst h
  have hfield : ∀ i w, 0 < w → i + w ≤ 10 → sprintf0 w (atoi ((cycle.drop i).take w)) =
      (cycle.drop i).take w := by
    intro i w hw hi
    have hlen : ((cycle.drop i).take w).length = w := by
      rw [List.length_take, List.length_drop]
      omega
    nth_rewrite 1 [← hlen]
    exact sprintf0_atoi (List.ne_nil_of_length_pos (by omega)) fun c hc =>
      hs c (List.mem_of_mem_drop (List.mem_of_mem_take hc))
  have h0 := hfield 0 4 (by omega) (by omega)
  rw [List.drop_zero] at h0
  refine ⟨?_, hfield 8 2 (by omega) (by omega)⟩
  simp only [dateString]
  rw [h0, hfield 4 2 (by omega) (by omega), hfield 6 2 (by omega) (by omega),
    hfield 8 2 (by omega) (by omega)]
  calc cycle.take 4 ++ (cycle.drop 4).take 2 ++ (cycle.drop 6).take 2 ++ (cycle.drop 8).take 2
      = cycle.take 10 := by
        rw [List.take_add (i := 8) (j := 2), List.take_add (i := 6) (j := 2),
          List.take_add (i := 4) (j := 2)]
    _ = cycle := List.take_of_length_le hl.le

theorem getNMembers_eq_perl {cycle : Str} (hl : cycle.length = 10)
    (hs : ∀ c ∈ cycle, c.isDigit) {d : CycleDate} (h : parseDate cycle = some d) :
    getNMembers d = perlGetNMembers cycle := by
  have hiff : dateString d < "2020092312".toList ↔ Nat.ofDigitChars 10 cycle 0 < 2020092312 := by
    have hu : Nat.ofDigitChars 10 "2020092312".toList 0 = 2020092312 := by decide +kernel
    have hd : ∀ c ∈ "2020092312".toList, c.isDigit := by simp
    rw [(dateString_parseDate hl hs h).1,
      lt_iff_ofDigitChars_lt cycle "2020092312".toList hs hd (by rw [hl]; rfl), hu]
  by_cases hlt : Nat.ofDigitChars 10 cycle 0 < 2020092312
  · rw [perlGetNMembers, if_neg (by omega), getNMembers, beforeUpgrade, if_pos]
    exact decide_eq_true (hiff.mpr hlt)
  · rw [perlGetNMembers, if_pos (by omega), getNMembers, beforeUpgrade, if_neg]
    exact fun hd => hlt (hiff.mp (of_decide_eq_true hd))

end Tigge
