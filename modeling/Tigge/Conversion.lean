import Tigge.MergeOutcomes

/-! `run_ncep_convert.pl` from the output QC to its end: the converted files are merged, moved or
packed, and what is left in the stash is deleted. -/

namespace Tigge
open Lib Lib.Directory
variable {α : Type*} [Sized α]

/-- An entry of `%qcList`: a variable of a level type, with its levels and hours. -/
structure QcEntry where
  lv : Level
  param : Str
  levels : List ℕ
  hours : List ℕ

/-- `map { $FCT_INC * $_ } 0 .. ($FCT_HOURS/$FCT_INC)`. -/
def everyHour : List ℕ := (List.range (FCT_HOURS / FCT_INC + 1)).map (FCT_INC * ·)

def pressureLevels : List ℕ := [200, 250, 300, 500, 700, 850, 925, 1000]

/-- `%qcList`; the order of its keys does not matter. -/
def qcList : List QcEntry :=
  [⟨.pl, "gh".toList, [50, 200, 250, 300, 500, 700, 850, 925, 1000], everyHour⟩,
    ⟨.pl, "q".toList, pressureLevels, everyHour⟩, ⟨.pl, "t".toList, pressureLevels, everyHour⟩,
    ⟨.pl, "u".toList, pressureLevels, everyHour⟩, ⟨.pl, "v".toList, pressureLevels, everyHour⟩,
    ⟨.pt, "pv".toList, [320], everyHour⟩,
    ⟨.pv, "u".toList, [2], everyHour⟩, ⟨.pv, "v".toList, [2], everyHour⟩,
    ⟨.sl, "10u".toList, [0], everyHour⟩, ⟨.sl, "10v".toList, [0], everyHour⟩,
    ⟨.sl, "2d".toList, [0], everyHour⟩, ⟨.sl, "2t".toList, [0], everyHour⟩,
    ⟨.sl, "cape".toList, [0], everyHour⟩, ⟨.sl, "cin".toList, [0], everyHour⟩,
    ⟨.sl, "lsm".toList, [0], everyHour⟩, ⟨.sl, "msl".toList, [0], everyHour⟩,
    ⟨.sl, "orog".toList, [0], [0]⟩, ⟨.sl, "skt".toList, [0], everyHour⟩,
    ⟨.sl, "sp".toList, [0], everyHour⟩, ⟨.sl, "mn2t6".toList, [0], everyHour.tail⟩,
    ⟨.sl, "mx2t6".toList, [0], everyHour.tail⟩]

/-- `$matcher`, under `/i`. -/
def qcMatcher (member : ℕ) (e : QcEntry) (level hour : ℕ) : Pattern where
  anchored := false
  head := caseless "z_tigge_c_kwbc_".toList ++ List.replicate 14 .any ++ caseless "_".toList ++
    List.replicate 4 .any ++
    caseless ("_prod_".toList ++ forecastKind member ++ '_' :: e.lv.code ++ '_' :: padded 4 hour ++
      '_' :: padded 3 member ++ '_' :: padded 4 level ++ '_' :: e.param) ++
    .any :: caseless "grib".toList
  tail := none
  closed := false

/-- `@tarList`: the file of each matcher that matches one file of the stash. -/
def qcTarList (cyc : Str) (theOutput : List Str) : List Str :=
  (List.range (perlGetNMembers cyc)).flatMap fun member => qcList.flatMap fun e =>
    e.levels.flatMap fun level => e.hours.flatMap fun hour =>
      match theOutput.filter (qcMatcher member e level hour).found with
      | [f] => [f]
      | _ => []

/-- What `*.grib` expands to. -/
def gribGlob (f : Str) : Bool := f.head? ≠ some '.' && ".grib".toList.isSuffixOf f

/-- `mv $from/*.grib $to`. -/
def moveGribs (source target : Directory α) : Directory α :=
  (source.keys.filter gribGlob).foldl (fun d f => d.insert f (source.content f)) target

/-- `$TIGGE_OUTPUT/archive`: the directory of the cycle, and its master tar. -/
structure ArchiveStash (α : Type*) where
  outputArchive : Option (Directory α)
  tarArchiveUnit : Option (List (Str × List (Chunk α)))

structure Conversion (α : Type*) where
  stash : Directory α
  archiveStash : Option (ArchiveStash α)

/-- Which operations succeed. -/
structure ConversionIo where
  mkdirArchiveStash : Bool
  merge : MergeIo
  mkdirOutputArchive : Bool
  chdirStash : Bool

/-- The archive directory, made if it is missing. -/
def ConversionIo.archiveStash (io : ConversionIo) (c : Conversion α) : Option (ArchiveStash α) :=
  c.archiveStash.or (if io.mkdirArchiveStash then some ⟨none, none⟩ else none)

/-- The directory of the cycle, made if it is missing. -/
def ConversionIo.outputArchive (io : ConversionIo) (archive : ArchiveStash α) :
    Option (Directory α) :=
  archive.outputArchive.or (if io.mkdirOutputArchive then some ∅ else none)

/-- The names to pack are listed before the files are merged. -/
def qcOutput2 (io : ConversionIo) (cyc : Str) (c : Conversion α) : Conversion α :=
  if !cyclePattern.found cyc then c
  else match io.archiveStash c with
    | none => c
    | some archive =>
      let tarList := qcTarList cyc (c.stash.keys.filter gribPattern.found)
      if archive.tarArchiveUnit.isSome then { c with archiveStash := some archive }
      else
        let merged := (mergeRecords io.merge cyc c.stash).2
        match io.outputArchive archive with
        | none =>
          if io.chdirStash then
            ⟨merged, some { archive with
              tarArchiveUnit := some (tarList.filterMap fun f =>
                (merged.lookup f).map fun cs => (f, cs)) }⟩
          else ⟨merged, some archive⟩
        | some cycleDir =>
          ⟨merged, some { archive with outputArchive := some (moveGribs merged cycleDir) }⟩

/-- The end of the script: whatever `qcOutput2` returned, the stash is emptied. -/
def finishConversion (io : ConversionIo) (cyc : Str) (c : Conversion α) : Conversion α :=
  { qcOutput2 io cyc c with stash := ∅ }

/-- The record is in a file of the cycle's archive directory or in its master tar. -/
def Conversion.Archived (c : Conversion α) (a : α) : Prop :=
  ∃ archive, c.archiveStash = some archive ∧
    ((∃ d, archive.outputArchive = some d ∧ ∃ f, .whole a ∈ d.content f) ∨
      ∃ tar, archive.tarArchiveUnit = some tar ∧ ∃ f ∈ tar, .whole a ∈ f.2)

/-- No record that the stash holds in a `.grib` file is lost. -/
def Conversion.Keeps (io : ConversionIo) (cyc : Str) (c : Conversion α) : Prop :=
  ∀ f a, gribGlob f = true → .whole a ∈ c.stash.content f →
    (finishConversion io cyc c).Archived a

omit [Sized α] in
theorem lookup_moveGribs {source target : Directory α} {f : Str} (hf : gribGlob f = true)
    (hmem : f ∈ source) : (moveGribs source target).content f = source.content f := by
  have hinsert : ∀ (l : List Str) (d : Directory α), f ∈ l ∨ d.content f = source.content f →
      (l.foldl (fun d f => d.insert f (source.content f)) d).content f = source.content f := by
    intro l
    induction l with
    | nil => exact fun d h => h.resolve_left List.not_mem_nil
    | cons g l ih =>
      intro d h
      rw [List.foldl_cons]
      apply ih
      by_cases hg : f = g
      · subst hg
        exact .inr (content_eq_of_lookup (AList.lookup_insert d))
      · rw [content_congr (AList.lookup_insert_ne hg)]
        exact h.imp_left fun h => (List.mem_cons.mp h).resolve_left hg
  exact hinsert _ _ (.inl (List.mem_filter.mpr ⟨AList.mem_keys.mp hmem, hf⟩))

section Cycle
variable {cyc : Str} (hl : cyc.length = 10) (hs : ∀ c ∈ cyc, c.isDigit)

theorem gribGlob_conglomerateName (mb : ℕ) (lv : Level) :
    gribGlob (conglomerateName cyc mb lv) = true := by
  rw [gribGlob, Bool.and_eq_true, List.isSuffixOf_iff_suffix]
  exact ⟨rfl, grib_suffix_conglomerateName cyc mb lv⟩

include hl in
theorem length_conglomerateName {mb : ℕ} (hmb : mb < 1000) (lv : Level) :
    (conglomerateName cyc mb lv).length = 54 := by
  have hmb3 : (padded 3 mb).length = 3 := padded_length (by decide) hmb
  simp [conglomerateName, conglomerateTokens, List.intercalate, hl, hmb3, length_forecastKind,
    length_code]

theorem le_length_padded (w m : ℕ) : w ≤ (padded w m).length := by
  rw [padded, List.leftpad, List.length_append, List.length_replicate]
  omega

theorem length_of_qcMatcher {member level hour : ℕ} {e : QcEntry} {f : Str}
    (h : (qcMatcher member e level hour).found f = true) : 64 ≤ f.length := by
  obtain ⟨pre, u, v, rfl, hu, -⟩ := found_iff_of_tail_none.mp h
  have hlength := List.Forall₂.length_eq hu
  have hhour := le_length_padded 4 hour
  have hmember := le_length_padded 3 member
  have hlevel := le_length_padded 4 level
  simp only [caseless, List.length_append, List.length_map, List.length_replicate,
    List.length_cons, length_forecastKind, length_code] at hlength
  simp only [List.length_append]
  have h1 : "z_tigge_c_kwbc_".toList.length = 15 := rfl
  have h2 : "_prod_".toList.length = 6 := rfl
  have h3 : "grib".toList.length = 4 := rfl
  omega

theorem found_of_mem_qcTarList {theOutput : List Str} {f : Str} (h : f ∈ qcTarList cyc theOutput) :
    ∃ member e level hour, (qcMatcher member e level hour).found f = true := by
  simp only [qcTarList, List.mem_flatMap] at h
  obtain ⟨member, -, e, -, level, -, hour, -, hf⟩ := h
  refine ⟨member, e, level, hour, ?_⟩
  split at hf
  next g hg =>
    obtain rfl := List.mem_singleton.mp hf
    have hmem : f ∈ theOutput.filter (qcMatcher member e level hour).found := by
      rw [hg]
      exact List.mem_singleton_self f
    exact (List.mem_filter.mp hmem).2
  next => cases hf

include hl hs

/-- Whatever `mergeRecords` returns, a record is in a `.grib` file afterwards. -/
theorem exists_mem_mergeRecords (io : MergeIo) {d : Directory α} {f : Str} {x : Chunk α}
    (hf : gribGlob f = true) (hx : x ∈ d.content f) :
    ∃ g ∈ (mergeRecords io cyc d).2, gribGlob g = true ∧
      x ∈ (mergeRecords io cyc d).2.content g := by
  rw [mergeRecords_eq hl hs]
  split_ifs
  · have htarget : ∀ p ∈ passesOver cyc d (mergeKeys cyc), gribGlob p.target = true := by
      intro p hp
      obtain ⟨k, -, rfl⟩ := List.mem_map.mp hp
      exact gribGlob_conglomerateName k.1 k.2
    have hclear : Clear (passesOver cyc d (mergeKeys cyc)) := clear_passesOver hl hs d _
    obtain ⟨g, hg, hxg⟩ := exists_mem_runPlan io.pass (fun p hp => hclear p hp p hp) hx
    refine ⟨g, mem_of_mem_content hxg, ?_, hxg⟩
    rcases hg with rfl | ⟨p, hp, rfl⟩
    · exact hf
    · exact htarget p hp
  · exact ⟨f, mem_of_mem_content hx, hf, hx⟩

open Classical in
theorem lookup_mergeRecords_of_listed (io : MergeIo) (d : Directory α) {theOutput : List Str}
    {g : Str} (hg : g ∈ qcTarList cyc theOutput) :
    (mergeRecords io cyc d).2.lookup g = if MergedAway io cyc d g then none else d.lookup g := by
  refine lookup_mergeRecords hl hs io d fun k hk hgk => ?_
  obtain ⟨member, e, level, hour, hfound⟩ := found_of_mem_qcTarList hg
  have hlong := length_of_qcMatcher hfound
  have hmb : k.1 < 1000 :=
    ((mem_mergeKeys.mp hk).trans_le (perlGetNMembers_le cyc)).trans (by decide)
  rw [hgk, length_conglomerateName hl hmb k.2] at hlong
  exact absurd hlong (by decide)

end Cycle

/-- The directory of the cycle is there to move the files to, or the record is in a listed file
that the merge leaves for the tar. -/
def Conversion.Saved (io : ConversionIo) (cyc : Str) (c : Conversion α) (a : α) : Prop :=
  ∃ archive, io.archiveStash c = some archive ∧
    ((io.outputArchive archive).isSome ∨ io.chdirStash = true ∧
      ∃ f ∈ qcTarList cyc (c.stash.keys.filter gribPattern.found),
        ¬ MergedAway io.merge cyc c.stash f ∧ .whole a ∈ c.stash.content f)

/-- No master tar exists for the cycle. -/
def Conversion.Unpacked (c : Conversion α) : Prop :=
  ∀ archive, c.archiveStash = some archive → archive.tarArchiveUnit = none

omit [Sized α] in
theorem Conversion.Unpacked.tarArchiveUnit {c : Conversion α} (h : c.Unpacked) {io : ConversionIo}
    {archive : ArchiveStash α} (ha : io.archiveStash c = some archive) :
    archive.tarArchiveUnit = none := by
  rw [ConversionIo.archiveStash, Option.or_eq_some_iff] at ha
  rcases ha with ha | ⟨-, ha⟩
  · exact h archive ha
  · split_ifs at ha
    obtain rfl := Option.some.inj ha
    rfl

omit [Sized α] in
theorem archived_iff_packed {archive : ArchiveStash α} (h : archive.outputArchive = none)
    {stash : Directory α} {a : α} : Conversion.Archived ⟨stash, some archive⟩ a ↔
      ∃ tar, archive.tarArchiveUnit = some tar ∧ ∃ f ∈ tar, .whole a ∈ f.2 := by
  constructor
  · rintro ⟨archive', harchive, ⟨d, hd, -⟩ | htar⟩
    · obtain rfl := Option.some.inj harchive
      rw [h] at hd
      cases hd
    · obtain rfl := Option.some.inj harchive
      exact htar
  · exact fun htar => ⟨archive, rfl, .inr htar⟩

section Cycle
variable {cyc : Str} (hl : cyc.length = 10) (hs : ∀ c ∈ cyc, c.isDigit)
include hl hs

theorem packed_iff (io : MergeIo) (d : Directory α) {theOutput : List Str} {a : α} :
    (∃ f ∈ (qcTarList cyc theOutput).filterMap fun f =>
        ((mergeRecords io cyc d).2.lookup f).map fun cs => (f, cs), .whole a ∈ f.2) ↔
      ∃ f ∈ qcTarList cyc theOutput, ¬ MergedAway io cyc d f ∧ .whole a ∈ d.content f := by
  classical
  constructor
  · rintro ⟨g, hg, hrecord⟩
    obtain ⟨name, hname, hg⟩ := List.mem_filterMap.mp hg
    obtain ⟨cs, hcs, rfl⟩ := Option.map_eq_some_iff.mp hg
    have hmerged := lookup_mergeRecords_of_listed hl hs io d hname
    rw [hcs] at hmerged
    split_ifs at hmerged with haway
    exact ⟨name, hname, haway, (content_eq_of_lookup hmerged.symm).symm ▸ hrecord⟩
  · rintro ⟨name, hname, haway, hrecord⟩
    have hmerged := lookup_mergeRecords_of_listed hl hs io d hname
    rw [if_neg haway] at hmerged
    obtain ⟨cs, hcs⟩ := Option.isSome_iff_exists.mp
      (AList.lookup_isSome.mpr (mem_of_mem_content hrecord))
    rw [content_eq_of_lookup hcs] at hrecord
    refine ⟨(name, cs), List.mem_filterMap.mpr ⟨name, hname, ?_⟩, hrecord⟩
    rw [hmerged, hcs]
    rfl

theorem archived_iff_saved (io : ConversionIo) {c : Conversion α} (hc : c.Unpacked) {f : Str}
    {a : α} (hf : gribGlob f = true) (ha : .whole a ∈ c.stash.content f) :
    (finishConversion io cyc c).Archived a ↔ c.Saved io cyc a := by
  rw [finishConversion, qcOutput2, cyclePattern_found hl hs]
  simp only [Bool.not_true, Bool.false_eq_true, if_false]
  cases harchive : io.archiveStash c with
  | none =>
    -- `qcOutput2` returns -2, and nothing has been archived before
    have hnone : c.archiveStash = none := (Option.or_eq_none_iff.mp harchive).1
    constructor
    · rintro ⟨archive, h, -⟩
      rw [hnone] at h
      cases h
    · rintro ⟨archive, h, -⟩
      rw [harchive] at h
      cases h
  | some archive =>
    have htar := hc.tarArchiveUnit harchive
    simp only [htar, Option.isSome_none, Bool.false_eq_true, if_false]
    cases hdir : io.outputArchive archive with
    | some cycleDir =>
      -- whatever the merge has done, all `.grib` files are moved
      refine iff_of_true ?_ ⟨archive, harchive, .inl (by rw [hdir]; rfl)⟩
      obtain ⟨g, hg, hglob, hrecord⟩ := exists_mem_mergeRecords hl hs io.merge hf ha
      exact ⟨_, rfl, .inl ⟨_, rfl, g, (lookup_moveGribs hglob hg).symm ▸ hrecord⟩⟩
    | none =>
      have hnodir : archive.outputArchive = none := (Option.or_eq_none_iff.mp hdir).1
      have hsaved : c.Saved io cyc a ↔ io.chdirStash = true ∧
          ∃ f ∈ qcTarList cyc (c.stash.keys.filter gribPattern.found),
            ¬ MergedAway io.merge cyc c.stash f ∧ .whole a ∈ c.stash.content f := by
        constructor
        · rintro ⟨archive', harchive', h⟩
          obtain rfl := Option.some.inj (harchive.symm.trans harchive')
          exact h.resolve_left (by simp [hdir])
        · exact fun h => ⟨archive, harchive, .inr h⟩
      rw [hsaved]
      by_cases hchdir : io.chdirStash = true
      · rw [if_pos hchdir, and_iff_right hchdir, ← packed_iff hl hs]
        refine (archived_iff_packed ?_).trans ?_
        · exact hnodir
        · simp only [Option.some.injEq, exists_eq_left']
      · rw [if_neg hchdir]
        refine iff_of_false ?_ fun h => hchdir h.1
        rw [archived_iff_packed hnodir, htar]
        rintro ⟨tar, h, -⟩
        cases h

end Cycle

/-- Temperature at two metres of the first perturbed member, six hours into a cycle. -/
def temperatureRecord : OutputName (perlGetNMembers "2021010100".toList) :=
  { soilRecord with
    param := "2t".toList
    em_lt := soilRecord_em_lt
    llll_lt := soilRecord_llll_lt
    param_isAlphanum := by simp }

def temperatureName : Str := temperatureRecord.fileName "2021010100".toList

/-- A stash with this one file, and an archive directory in which nothing is yet. -/
def temperatureConversion : Conversion UInt8 :=
  ⟨AList.singleton temperatureName [.whole 71, .whole 82], some ⟨none, none⟩⟩

theorem temperatureConversion_unpacked : temperatureConversion.Unpacked := by
  rintro archive h
  obtain rfl := Option.some.inj h
  rfl

theorem eq_temperatureName {f : Str} (h : f ∈ temperatureConversion.stash) :
    f = temperatureName := List.mem_singleton.mp (AList.mem_keys.mp h)

end Tigge
