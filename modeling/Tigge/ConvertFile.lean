import Tigge.Lib.LastWrite
import Tigge.Conversion
import Tigge.FilteredMessages
import Tigge.CheckedRecords

/-! `convertFile` of run_ncep_convert.pl: grib_filter, tigge_check and tigge_split on a file of
input, the split files that they leave in the output directory beside `convert.log`, and what of
them a run archives. -/

namespace Tigge
open Lib

inductive StringKey
  | origin | model | expver | type | levtype | tigge_short_name

inductive LongKey
  | date | time | endStep | number | level

/-- The keys as tigge_split reads them, many of them from the definitions; `none` is an error. -/
structure SplitKeys where
  sget : GribMessage → StringKey → Option Str
  get : GribMessage → LongKey → Option ℤ

/-- The values in `wmo_name`. -/
structure WmoName where
  origin : Str
  date : ℤ
  time : ℤ
  model : Str
  expver : Str
  type : Str
  levtype : Str
  endStep : ℤ
  number : ℤ
  level : ℤ
  tiggeName : Str
  deriving DecidableEq

namespace WmoName

def tokens (n : WmoName) : List Str :=
  ["z".toList, "tigge".toList, "c".toList, n.origin,
    sprintf0 8 n.date ++ sprintf0 4 n.time ++ "00".toList, n.model, n.expver, n.type, n.levtype,
    sprintf0 4 n.endStep, sprintf0 3 n.number, sprintf0 4 n.level, n.tiggeName ++ ".grib".toList]

/-- `z_tigge_c_%s_%08ld%04ld00_%s_%s_%s_%s_%04ld_%03ld_%04ld_%s.grib`. -/
def text (n : WmoName) : Str := ['_'].intercalate n.tokens

/-- Strings without the separator, and a time of four digits. -/
structure Plain (n : WmoName) : Prop where
  strings : ∀ s ∈ [n.origin, n.model, n.expver, n.type, n.levtype, n.tiggeName], '_' ∉ s
  time_nonneg : 0 ≤ n.time
  time_lt : n.time < 10 ^ 4

end WmoName

/-- The keys that `split` reads before it opens a file. -/
def splitName (keys : SplitKeys) (h : GribMessage) : Option WmoName := do
  let type ← keys.sget h .type
  let levtype ← keys.sget h .levtype
  let number ← if type = "fc".toList then some 0 else keys.get h .number
  let level ← if levtype = "sfc".toList then some 0 else keys.get h .level
  return {
    origin := ← keys.sget h .origin
    date := ← keys.get h .date
    time := ← keys.get h .time
    model := ← keys.sget h .model
    expver := ← keys.sget h .expver
    type := type
    levtype := if levtype = "sfc".toList then "sl".toList else levtype
    endStep := ← keys.get h .endStep
    number := number
    level := level
    tiggeName := ← keys.sget h .tigge_short_name }

/-- tigge_split on the messages of a file: what it leaves, and whether it got through them. With
`-u` it exits at a file that exists already. -/
def tiggeSplit (keys : SplitKeys) (unique : Bool) :
    List GribMessage → Directory GribMessage → Directory GribMessage × Bool
  | [], out => (out, true)
  | h :: file, out =>
    match splitName keys h with
    | none => (out, false)
    | some n =>
      if unique && decide (n.text ∈ out) then (out, false)
      else tiggeSplit keys unique file (out.insert n.text [.whole h])

/-- The messages without an error that tigge_check writes to the file of `-g`: where a check
crashes, those before it. -/
def writtenGood (R : Rounding) (gaussianGrid : TiggeCheck.Checker Unit)
    (file : List GribMessage) : List GribMessage :=
  (file.takeWhile fun m => (TiggeCheck.errors R gaussianGrid m).isSome).filter fun m =>
    TiggeCheck.errors R gaussianGrid m = some 0

/-- The whole messages in the file of `-g` when tigge_check has ended. Of a check that crashes
only so many had left the buffer of the stream. -/
def goodFile (R : Rounding) (gaussianGrid : TiggeCheck.Checker Unit)
    (flushed : List GribMessage → ℕ) (file : List GribMessage) : List GribMessage :=
  match TiggeCheck.validate R gaussianGrid file with
  | some (good, _) => good
  | none =>
    let good := writtenGood R gaussianGrid file
    good.take (flushed good)

/-- `convertFile` on a file that is there. The exit statuses of the tools are not looked at. -/
def convertFile (names : ShortNames) (R : Rounding) (gaussianGrid : TiggeCheck.Checker Unit)
    (flushed : List GribMessage → ℕ) (keys : SplitKeys) (file : List GribMessage)
    (out : Directory GribMessage) : Directory GribMessage :=
  (tiggeSplit keys false (goodFile R gaussianGrid flushed (gribFilter names file).1) out).1

/-- The loop over the input files, in an output directory that has been emptied. -/
def convertFiles (names : ShortNames) (R : Rounding) (gaussianGrid : TiggeCheck.Checker Unit)
    (flushed : List GribMessage → ℕ) (keys : SplitKeys) (files : List (List GribMessage)) :
    Directory GribMessage :=
  files.foldl (fun out file => convertFile names R gaussianGrid flushed keys file out) ∅

/-- run_ncep_convert from the input files of a cycle to its end. -/
def runNcepConvert [Sized GribMessage] (names : ShortNames) (R : Rounding)
    (gaussianGrid : TiggeCheck.Checker Unit) (flushed : List GribMessage → ℕ) (keys : SplitKeys)
    (io : ConversionIo) (cyc : Str) (files : List (List GribMessage))
    (archiveStash : Option (ArchiveStash GribMessage)) : Conversion GribMessage :=
  finishConversion io cyc ⟨convertFiles names R gaussianGrid flushed keys files, archiveStash⟩

section Split
variable {keys : SplitKeys} {h : GribMessage} {n : WmoName} {file : List GribMessage}
  {out : Directory GribMessage}

/-- The messages that tigge_split writes: those before one whose keys cannot be read. -/
def namedMessages (keys : SplitKeys) : List GribMessage → List (WmoName × GribMessage)
  | [] => []
  | h :: file =>
    match splitName keys h with
    | none => []
    | some n => (n, h) :: namedMessages keys file

theorem namedMessages_none (hname : splitName keys h = none) :
    namedMessages keys (h :: file) = [] := by
  rw [namedMessages, hname]

theorem namedMessages_some (hname : splitName keys h = some n) :
    namedMessages keys (h :: file) = (n, h) :: namedMessages keys file := by
  rw [namedMessages, hname]

theorem namedMessages_isPrefix {good : List GribMessage} (h : good <+: file) :
    namedMessages keys good <+: namedMessages keys file := by
  induction good generalizing file with
  | nil => exact List.nil_prefix
  | cons m good ih =>
    cases file with
    | nil => exact absurd (List.prefix_nil.mp h) (List.cons_ne_nil _ _)
    | cons m' file =>
      obtain ⟨rfl, hrest⟩ := List.cons_prefix_cons.mp h
      cases hname : splitName keys m with
      | none => rw [namedMessages_none hname, namedMessages_none hname]
      | some n =>
        rw [namedMessages_some hname, namedMessages_some hname]
        exact List.cons_prefix_cons.mpr ⟨rfl, ih hrest⟩

/-- The writes of `fopen` and `fwrite`. -/
def fileWrites (l : List (WmoName × GribMessage)) : List (Str × List (Chunk GribMessage)) :=
  l.map fun x => (x.1.text, [.whole x.2])

theorem tiggeSplit_writes :
    (tiggeSplit keys false file out).1 = writeAll (fileWrites (namedMessages keys file)) out := by
  induction file generalizing out with
  | nil => rfl
  | cons h file ih =>
    cases hname : splitName keys h with
    | none =>
      rw [namedMessages_none hname, tiggeSplit, hname]
      rfl
    | some n =>
      rw [namedMessages_some hname, tiggeSplit, hname]
      exact ih

/-- With `-u` no file is replaced, and a run that gets through has every message in its file. -/
theorem tiggeSplit_unique {w : Str} {cs : List (Chunk GribMessage)} :
    (out.lookup w = some cs → (tiggeSplit keys true file out).1.lookup w = some cs) ∧
      ((tiggeSplit keys true file out).2 = true →
        ∀ m ∈ file, ∃ n, splitName keys m = some n ∧
          (tiggeSplit keys true file out).1.lookup n.text = some [.whole m]) := by
  induction file generalizing out w cs with
  | nil => exact ⟨id, fun _ m hm => absurd hm List.not_mem_nil⟩
  | cons h file ih =>
    cases hname : splitName keys h with
    | none =>
      have hstop : tiggeSplit keys true (h :: file) out = (out, false) := by
        rw [tiggeSplit, hname]
      rw [hstop]
      exact ⟨id, fun hdone => absurd hdone Bool.false_ne_true⟩
    | some n =>
      by_cases hexists : n.text ∈ out
      · have hstop : tiggeSplit keys true (h :: file) out = (out, false) := by
          rw [tiggeSplit, hname]
          exact if_pos (decide_eq_true hexists)
        rw [hstop]
        exact ⟨id, fun hdone => absurd hdone Bool.false_ne_true⟩
      · have hnext : tiggeSplit keys true (h :: file) out =
            tiggeSplit keys true file (out.insert n.text [.whole h]) := by
          rw [tiggeSplit, hname]
          exact if_neg fun hdecide => hexists (of_decide_eq_true hdecide)
        rw [hnext]
        have hkeep {w : Str} {cs : List (Chunk GribMessage)}
            (hw : (out.insert n.text [.whole h]).lookup w = some cs) :=
          (@ih (out.insert n.text [.whole h]) w cs).1 hw
        constructor
        · intro hw
          refine hkeep ?_
          rw [AList.lookup_insert_ne, hw]
          rintro rfl
          exact hexists (AList.lookup_isSome.mp (hw ▸ rfl))
        · intro hdone m hm
          rcases List.mem_cons.mp hm with rfl | hm
          · exact ⟨n, hname, hkeep (AList.lookup_insert _)⟩
          · exact (@ih (out.insert n.text [.whole h]) w cs).2 hdone m hm

theorem sprintf0_injective (w : ℕ) : Function.Injective (sprintf0 w) := by
  have hsign : ∀ a b, padded w a ≠ '-' :: padded (w - 1) (b + 1) := by
    intro a b hab
    have hminus : '-' ∈ padded w a := hab ▸ List.mem_cons_self
    exact notMem_padded (by decide) hminus
  intro a b hab
  cases a with
  | ofNat a =>
    cases b with
    | ofNat b => exact congrArg Int.ofNat (padded_injective w hab)
    | negSucc b => exact absurd hab (hsign a b)
  | negSucc a =>
    cases b with
    | ofNat b => exact absurd hab.symm (hsign b a)
    | negSucc b =>
      have hsucc := padded_injective (w - 1) (List.cons.inj hab).2
      exact congrArg Int.negSucc (Nat.succ.inj hsucc)

theorem WmoName.Plain.notMem_tokens (hn : n.Plain) : ∀ t ∈ n.tokens, '_' ∉ t := by
  have hnumber : ∀ w z, '_' ∉ sprintf0 w z := fun w z => notMem_sprintf0 (by decide) (by decide)
  have hstrings := hn.strings
  simp only [List.mem_cons, List.not_mem_nil, or_false, forall_eq_or_imp, forall_eq] at hstrings
  obtain ⟨horigin, hmodel, hexpver, htype, hlevtype, hname⟩ := hstrings
  simp only [WmoName.tokens, List.mem_cons, List.not_mem_nil, or_false, forall_eq_or_imp,
    forall_eq]
  refine ⟨by decide, by decide, by decide, horigin, ?_, hmodel, hexpver, htype, hlevtype,
    hnumber _ _, hnumber _ _, hnumber _ _, ?_⟩
  · simp only [List.mem_append, not_or]
    exact ⟨⟨hnumber _ _, hnumber _ _⟩, by decide⟩
  · rw [List.mem_append, not_or]
    exact ⟨hname, by decide⟩

/-- The name of a split file determines the values in it. -/
theorem WmoName.Plain.text_injective {a b : WmoName} (ha : a.Plain) (hb : b.Plain)
    (hab : a.text = b.text) : a = b := by
  have htokens := intercalate_inj ha.notMem_tokens hb.notMem_tokens (List.cons_ne_nil _ _)
    (List.cons_ne_nil _ _) hab
  simp only [WmoName.tokens, List.cons.injEq, true_and, and_true] at htokens
  obtain ⟨horigin, hdatetime, hmodel, hexpver, htype, hlevtype, hend, hnumber, hlevel, hname⟩ :=
    htokens
  have htime : (sprintf0 4 a.time).length = (sprintf0 4 b.time).length := by
    have hlow : ∀ z : ℤ, 0 ≤ z → (-10 ^ (4 - 1) : ℤ) < z := fun z hz => by omega
    rw [length_sprintf0 (by decide) (hlow _ ha.time_nonneg) ha.time_lt,
      length_sprintf0 (by decide) (hlow _ hb.time_nonneg) hb.time_lt]
  obtain ⟨hd, ht⟩ := List.append_inj' (List.append_cancel_right hdatetime) htime
  obtain ⟨_, _, _, _, _, _, _, _, _, _, _⟩ := a
  obtain ⟨_, _, _, _, _, _, _, _, _, _, _⟩ := b
  simp only [WmoName.mk.injEq]
  exact ⟨horigin, sprintf0_injective 8 hd, sprintf0_injective 4 ht, hmodel, hexpver, htype,
    hlevtype, sprintf0_injective 4 hend, sprintf0_injective 3 hnumber,
    sprintf0_injective 4 hlevel, List.append_cancel_right hname⟩

/-- A split file is among `*.grib`. -/
theorem gribGlob_text : gribGlob n.text = true := by
  have htokens : n.tokens = n.tokens.dropLast ++ [n.tiggeName ++ ".grib".toList] := rfl
  rw [gribGlob, Bool.and_eq_true, List.isSuffixOf_iff_suffix]
  constructor
  · simp [WmoName.text, WmoName.tokens, List.intercalate]
  · rw [WmoName.text, htokens, intercalate_append (by simp [WmoName.tokens])
      (List.cons_ne_nil _ _), intercalate_singleton]
    exact ⟨['_'].intercalate n.tokens.dropLast ++ '_' :: n.tiggeName, by simp⟩

end Split

section Run
variable {names : ShortNames} {R : Rounding} {gaussianGrid : TiggeCheck.Checker Unit}
  {flushed : List GribMessage → ℕ} {keys : SplitKeys}

theorem goodFile_of_isSome {file : List GribMessage}
    (h : ∀ m ∈ file, (TiggeCheck.errors R gaussianGrid m).isSome) :
    goodFile R gaussianGrid flushed file =
      file.filter fun m => TiggeCheck.errors R gaussianGrid m = some 0 := by
  obtain ⟨count, hvalidate⟩ := TiggeCheck.validate_good.mpr ⟨h, rfl⟩
  rw [goodFile, hvalidate]

theorem goodFile_of_crash {file : List GribMessage}
    (h : ¬ ∀ m ∈ file, (TiggeCheck.errors R gaussianGrid m).isSome) :
    goodFile R gaussianGrid flushed file = (writtenGood R gaussianGrid file).take
      (flushed (writtenGood R gaussianGrid file)) := by
  cases hvalidate : TiggeCheck.validate R gaussianGrid file with
  | none => rw [goodFile, hvalidate]
  | some result => exact absurd (TiggeCheck.validate_good.mp ⟨result.2, hvalidate⟩).1 h

/-- A crash costs messages at the end only. -/
theorem goodFile_isPrefix (flushed : List GribMessage → ℕ) (file : List GribMessage) :
    goodFile R gaussianGrid flushed file <+:
      file.filter fun m => TiggeCheck.errors R gaussianGrid m = some 0 := by
  by_cases h : ∀ m ∈ file, (TiggeCheck.errors R gaussianGrid m).isSome
  · rw [goodFile_of_isSome h]
  · rw [goodFile_of_crash h]
    exact (List.take_prefix _ _).trans ((List.takeWhile_prefix _).filter _)

/-- tigge_check gets through what grib_filter writes for a file. -/
def Checks (names : ShortNames) (R : Rounding) (gaussianGrid : TiggeCheck.Checker Unit)
    (file : List GribMessage) : Prop :=
  ∀ m ∈ (gribFilter names file).1, (TiggeCheck.errors R gaussianGrid m).isSome

/-- The messages that grib_filter writes for a file and tigge_check counts no error of. -/
def errorFree (names : ShortNames) (R : Rounding) (gaussianGrid : TiggeCheck.Checker Unit)
    (file : List GribMessage) : List GribMessage :=
  (gribFilter names file).1.filter fun m => TiggeCheck.errors R gaussianGrid m = some 0

/-- The messages that come out of a file, with the names they are split to. -/
def splitMessages (names : ShortNames) (R : Rounding) (gaussianGrid : TiggeCheck.Checker Unit)
    (flushed : List GribMessage → ℕ) (keys : SplitKeys) (file : List GribMessage) :
    List (WmoName × GribMessage) :=
  namedMessages keys (goodFile R gaussianGrid flushed (gribFilter names file).1)

/-- The messages without an error come out of a file in their order, up to one whose keys cannot be
read, and all of these where no check crashes. -/
theorem splitMessages_errorFree (flushed : List GribMessage → ℕ) (file : List GribMessage) :
    splitMessages names R gaussianGrid flushed keys file <+:
        namedMessages keys (errorFree names R gaussianGrid file) ∧
      (Checks names R gaussianGrid file → splitMessages names R gaussianGrid flushed keys file =
        namedMessages keys (errorFree names R gaussianGrid file)) :=
  ⟨namedMessages_isPrefix (goodFile_isPrefix flushed _),
    fun hchecks => congrArg _ (goodFile_of_isSome hchecks)⟩

variable {files : List (List GribMessage)}

/-- The run writes what comes out of its files, in turn. -/
theorem convertFiles_eq : convertFiles names R gaussianGrid flushed keys files =
    writeAll (fileWrites (files.flatMap (splitMessages names R gaussianGrid flushed keys))) ∅ := by
  have hrun : ∀ start : Directory GribMessage,
      files.foldl (fun out file => convertFile names R gaussianGrid flushed keys file out) start =
        writeAll (fileWrites (files.flatMap (splitMessages names R gaussianGrid flushed keys)))
          start := by
    induction files with
    | nil => exact fun _ => rfl
    | cons file files ih =>
      intro start
      rw [List.foldl_cons, ih, List.flatMap_cons, fileWrites, fileWrites, List.map_append,
        writeAll_append, convertFile, tiggeSplit_writes]
      rfl
  exact hrun ∅

/-- No two different messages agree in the values that name them. -/
def DistinctNames (names : ShortNames) (R : Rounding) (gaussianGrid : TiggeCheck.Checker Unit)
    (flushed : List GribMessage → ℕ) (keys : SplitKeys) (files : List (List GribMessage)) : Prop :=
  ∀ file ∈ files, ∀ file' ∈ files, ∀ x ∈ splitMessages names R gaussianGrid flushed keys file,
    ∀ y ∈ splitMessages names R gaussianGrid flushed keys file', x.1 = y.1 → x.2 = y.2

theorem keeps_iff_distinct
    (hplain : ∀ file ∈ files, ∀ x ∈ splitMessages names R gaussianGrid flushed keys file,
      x.1.Plain) :
    (∀ file ∈ files, ∀ x ∈ splitMessages names R gaussianGrid flushed keys file,
        (convertFiles names R gaussianGrid flushed keys files).lookup x.1.text =
          some [.whole x.2]) ↔
      DistinctNames names R gaussianGrid flushed keys files := by
  rw [convertFiles_eq]
  have hkept := @writeAll_kept_iff _ _ _
    (fileWrites (files.flatMap (splitMessages names R gaussianGrid flushed keys))) ∅
  rw [fileWrites] at hkept
  simp only [List.forall_mem_map, List.mem_flatMap, forall_exists_index, and_imp] at hkept
  constructor
  · intro hall file hfile file' hfile' x hx y hy hxy
    have hwhole := hkept.mp (fun z g hg hz => hall g hg z hz) x file hfile hx y file' hfile' hy
      (congrArg WmoName.text hxy)
    exact Chunk.whole.inj (List.cons.inj hwhole).1
  · intro hsame file hfile x hx
    refine hkept.mpr ?_ x file hfile hx
    intro x file hfile hx y file' hfile' hy hxy
    rw [hsame file hfile file' hfile' x hx y hy
      ((hplain file hfile x hx).text_injective (hplain file' hfile' y hy) hxy)]

/-- What the loop over the input files leaves. Out of a file come the messages without an error, up
to a crash of tigge_check or keys that cannot be read. The directory holds no other split files,
and it holds each of these messages under its name just when no two different ones agree in the
values that name them. -/
theorem convertFiles_keeps_iff (flushed : List GribMessage → ℕ) (files : List (List GribMessage))
    (hplain : ∀ file ∈ files, ∀ x ∈ splitMessages names R gaussianGrid flushed keys file,
      x.1.Plain) :
    (∀ file ∈ files, splitMessages names R gaussianGrid flushed keys file <+:
        namedMessages keys (errorFree names R gaussianGrid file) ∧
      (Checks names R gaussianGrid file → splitMessages names R gaussianGrid flushed keys file =
        namedMessages keys (errorFree names R gaussianGrid file))) ∧
    (∀ w cs, (convertFiles names R gaussianGrid flushed keys files).lookup w = some cs →
      ∃ file ∈ files, ∃ x ∈ splitMessages names R gaussianGrid flushed keys file,
        x.1.text = w ∧ [.whole x.2] = cs) ∧
    ((∀ file ∈ files, ∀ x ∈ splitMessages names R gaussianGrid flushed keys file,
        (convertFiles names R gaussianGrid flushed keys files).lookup x.1.text =
          some [.whole x.2]) ↔
      DistinctNames names R gaussianGrid flushed keys files) := by
  refine ⟨fun file _ => splitMessages_errorFree flushed file, fun w cs hw => ?_,
    keeps_iff_distinct hplain⟩
  rw [convertFiles_eq] at hw
  rcases lookup_writeAll_eq_some hw with hwrite | hnone
  · obtain ⟨x, hx, hxw⟩ := List.mem_map.mp hwrite
    obtain ⟨file, hfile, hx⟩ := List.mem_flatMap.mp hx
    obtain ⟨hw, hcs⟩ := Prod.mk.inj hxw
    exact ⟨file, hfile, x, hx, hw, hcs⟩
  · rw [AList.lookup_empty] at hnone
    cases hnone

end Run

section SurfaceTemperature

/-- What the rules make of the surface temperature of a member. -/
def skinTemperature (em : ℕ) : GribMessage :=
  let rules := FilterRules.settingRules
  match (rules.exec (filterMeaning kwbcNames) (surfaceTemperature em)).result with
  | .ok m' => m'
  | .error _ => surfaceTemperature em

/-- The keys of the message, where it does not need the definitions for them. -/
def surfaceTemperatureKeys : SplitKeys where
  sget _
    | .origin => some "kwbc".toList
    | .model => some "glob".toList
    | .expver => some "prod".toList
    | .type => some "pf".toList
    | .levtype => some "sfc".toList
    | .tigge_short_name => some "skt".toList
  get m
    | .date => (TiggeCheck.readDate m).toOption.map Prod.fst
    | .time => (m.getLong .hour).toOption.map fun hour => 100 * hour
    | .endStep => m.getEndStep.toOption.map Prod.fst
    | .number => (m.getLong .perturbationNumber).toOption
    | .level => some 0

def surfaceTemperatureName (em : ℕ) : WmoName :=
  ⟨"kwbc".toList, 20210101, 0, "glob".toList, "prod".toList, "pf".toList, "sl".toList, 0, em, 0,
    "skt".toList⟩

example : (surfaceTemperatureName 1).text =
    "z_tigge_c_kwbc_20210101000000_glob_prod_pf_sl_0000_001_0000_skt.grib".toList := by decide

theorem plain_surfaceTemperatureName (em : ℕ) : (surfaceTemperatureName em).Plain where
  strings := (by decide : ∀ s ∈ ["kwbc".toList, "glob".toList, "prod".toList, "pf".toList,
    "sl".toList, "skt".toList], '_' ∉ s)
  time_nonneg := le_rfl
  time_lt := (by decide : (0 : ℤ) < 10 ^ 4)

variable {em : ℕ}

theorem gribFilter_surfaceTemperature (hem : em = 1 ∨ em = 2) :
    gribFilter kwbcNames [surfaceTemperature em] = ([skinTemperature em], none) := by
  have hselected : selected kwbcNames (skinTemperature em) = true := by
    rcases hem with rfl | rfl <;> decide +kernel
  have hresult : (FilterRules.settingRules.exec (filterMeaning kwbcNames)
      (surfaceTemperature em)).result = .ok (skinTemperature em) := rfl
  rw [gribFilter_cons_ok [] hresult, if_pos hselected]
  rfl

theorem errors_skinTemperature (hem : em = 1 ∨ em = 2) (R : Rounding)
    (gaussianGrid : TiggeCheck.Checker Unit) :
    TiggeCheck.errors R gaussianGrid (skinTemperature em) = some 0 := by
  have hheader : Header (skinTemperature em) ⟨2021, 1, 1, 0⟩ em := by
    rcases hem with rfl | rfl <;> constructor <;> decide +kernel
  have hsteps : HasSteps (skinTemperature em) 0 0 := by
    constructor <;> first | rfl | decide
  have hmatch : (TiggeCheck.bestMatch (TiggeCheck.readings (skinTemperature em))).map
      TiggeCheck.Parameter.checks = some [.pointInTime, .predefinedLevel] := by
    rcases hem with rfl | rfl <;> decide +kernel
  have hlevel : ((TiggeCheck.surfaceConditions false false true).all fun c =>
      c.met (skinTemperature em)) = true := by
    rcases hem with rfl | rfl <;> decide +kernel
  have hmembers : em < getNMembers ⟨2021, 1, 1, 0⟩ := by
    rcases hem with rfl | rfl <;> decide +kernel
  have hparameter : TiggeCheck.Reports (skinTemperature em) (TiggeCheck.checkParameter R) () 0 :=
    reports_checkParameter hmatch ((reports_pointInTime hheader hsteps rfl hmembers).andThen
      ((TiggeCheck.reports_checkAll hlevel).andThen (TiggeCheck.Reports.pure _ ())))
  have hpoints : (skinTemperature em).getLong .numberOfDataPoints =
      .ok (getNPoints ⟨2021, 1, 1, 0⟩) := by
    rcases hem with rfl | rfl <;> decide +kernel
  have hversion : (skinTemperature em).getLong .tablesVersion = .ok 5 := rfl
  have hmap : (skinTemperature em).getLong .bitMapIndicator = .ok 255 := rfl
  have hverify : TiggeCheck.Reports (skinTemperature em) (TiggeCheck.verify R gaussianGrid) () 0 :=
    reports_verify hheader isCycle_2021 hsteps hversion (by decide) hmap hpoints hpoints rfl
      hparameter
  rw [TiggeCheck.errors, StateT.run, hverify 0]
  rfl

theorem splitMessages_surfaceTemperature (hem : em = 1 ∨ em = 2)
    (flushed : List GribMessage → ℕ) :
    splitMessages kwbcNames binary64 (pure ()) flushed surfaceTemperatureKeys
      [surfaceTemperature em] = [(surfaceTemperatureName em, skinTemperature em)] := by
  have herrors := errors_skinTemperature hem binary64 (pure ())
  have hname : splitName surfaceTemperatureKeys (skinTemperature em) =
      some (surfaceTemperatureName em) := by
    rcases hem with rfl | rfl <;> decide +kernel
  have hgood : goodFile binary64 (pure ()) flushed [skinTemperature em] = [skinTemperature em] := by
    rw [goodFile_of_isSome (List.forall_mem_singleton.mpr (herrors ▸ rfl)),
      List.filter_cons, if_pos (decide_eq_true herrors), List.filter_nil]
  rw [splitMessages, gribFilter_surfaceTemperature hem, hgood, namedMessages_some hname]
  rfl

/-- The temperatures of two members, each in a file of its own. -/
def surfaceFiles : List (List GribMessage) := [[surfaceTemperature 1], [surfaceTemperature 2]]

theorem mem_splitMessages_surfaceFiles {flushed : List GribMessage → ℕ} {file : List GribMessage}
    (hfile : file ∈ surfaceFiles) {x : WmoName × GribMessage}
    (hx : x ∈ splitMessages kwbcNames binary64 (pure ()) flushed surfaceTemperatureKeys file) :
    ∃ em, x = (surfaceTemperatureName em, skinTemperature em) := by
  have hem : ∀ em, em = 1 ∨ em = 2 → x ∈ splitMessages kwbcNames binary64 (pure ()) flushed
      surfaceTemperatureKeys [surfaceTemperature em] →
        ∃ em, x = (surfaceTemperatureName em, skinTemperature em) := by
    intro em hem hx
    rw [splitMessages_surfaceTemperature hem, List.mem_singleton] at hx
    exact ⟨em, hx⟩
  rcases List.mem_cons.mp hfile with rfl | hfile
  · exact hem 1 (.inl rfl) hx
  · rw [List.mem_singleton.mp hfile] at hx
    exact hem 2 (.inr rfl) hx

theorem plain_surfaceFiles {flushed : List GribMessage → ℕ} : ∀ file ∈ surfaceFiles,
    ∀ x ∈ splitMessages kwbcNames binary64 (pure ()) flushed surfaceTemperatureKeys file,
      x.1.Plain := by
  intro file hfile x hx
  obtain ⟨em, rfl⟩ := mem_splitMessages_surfaceFiles hfile hx
  exact plain_surfaceTemperatureName em

theorem distinct_surfaceFiles {flushed : List GribMessage → ℕ} :
    DistinctNames kwbcNames binary64 (pure ()) flushed surfaceTemperatureKeys surfaceFiles := by
  intro file hfile file' hfile' x hx y hy hxy
  obtain ⟨em, rfl⟩ := mem_splitMessages_surfaceFiles hfile hx
  obtain ⟨em', rfl⟩ := mem_splitMessages_surfaceFiles hfile' hy
  have hnumber : (em : ℤ) = em' := congrArg WmoName.number hxy
  rw [Nat.cast_inj.mp hnumber]

theorem mem_splitMessages_surfaceTemperature {em : ℕ} (hem : em = 1 ∨ em = 2)
    (flushed : List GribMessage → ℕ) : (surfaceTemperatureName em, skinTemperature em) ∈
      splitMessages kwbcNames binary64 (pure ()) flushed surfaceTemperatureKeys
        [surfaceTemperature em] := by
  rw [splitMessages_surfaceTemperature hem]
  exact List.mem_singleton.mpr rfl

/-- Both temperatures are in the directory, under their names. -/
theorem convertFiles_keeps_surfaceFiles :
    (convertFiles kwbcNames binary64 (pure ()) (fun _ => 0) surfaceTemperatureKeys
        surfaceFiles).lookup (surfaceTemperatureName 1).text =
          some [.whole (skinTemperature 1)] ∧
      (convertFiles kwbcNames binary64 (pure ()) (fun _ => 0) surfaceTemperatureKeys
        surfaceFiles).lookup (surfaceTemperatureName 2).text =
          some [.whole (skinTemperature 2)] := by
  have hkept := (convertFiles_keeps_iff (fun _ => 0) surfaceFiles plain_surfaceFiles).2.2.mpr
    distinct_surfaceFiles
  constructor
  · exact hkept [surfaceTemperature 1] List.mem_cons_self
      (surfaceTemperatureName 1, skinTemperature 1)
      (mem_splitMessages_surfaceTemperature (.inl rfl) _)
  · exact hkept [surfaceTemperature 2] (List.mem_cons_of_mem _ List.mem_cons_self)
      (surfaceTemperatureName 2, skinTemperature 2)
      (mem_splitMessages_surfaceTemperature (.inr rfl) _)

end SurfaceTemperature

end Tigge
