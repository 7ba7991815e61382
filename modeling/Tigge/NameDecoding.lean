import Tigge.Delivery

/-! The names of the output files read back, by the parts that `archiveOutput` takes and by the
patterns of `mergeRecords`. -/

namespace Tigge
open Lib

/-- Each field of the date keeps to the width in which it is printed. -/
structure CycleDate.FourDigitYear (d : CycleDate) : Prop where
  yyyy : 0 ≤ d.yyyy ∧ d.yyyy < 10 ^ 4
  mm : 0 ≤ d.mm ∧ d.mm < 10 ^ 2
  dd : 0 ≤ d.dd ∧ d.dd < 10 ^ 2
  hh : 0 ≤ d.hh ∧ d.hh < 10 ^ 2

section Fields
variable {w : ℕ} {y z : ℤ}

theorem length_field (hw : 0 < w) (h : 0 ≤ z ∧ z < 10 ^ w) : (sprintf0 w z).length = w := by
  have hpos : (0 : ℤ) < 10 ^ (w - 1) := by positivity
  exact length_sprintf0 hw (by omega) h.2

theorem isDigit_of_mem_field (h : 0 ≤ z) {c : Char} (hc : c ∈ sprintf0 w z) : c.isDigit = true := by
  obtain ⟨n, rfl⟩ := Int.eq_ofNat_of_zero_le h
  exact isDigit_of_mem_padded hc

theorem field_inj (hy : 0 ≤ y) (hz : 0 ≤ z) (h : sprintf0 w y = sprintf0 w z) : y = z := by
  obtain ⟨m, rfl⟩ := Int.eq_ofNat_of_zero_le hy
  obtain ⟨n, rfl⟩ := Int.eq_ofNat_of_zero_le hz
  exact congrArg Nat.cast (padded_injective w h)

end Fields

section Dates
variable {d d' : CycleDate}

theorem CycleDate.FourDigitYear.length_dateString (hd : d.FourDigitYear) :
    (dateString d).length = 10 := by
  unfold dateString
  rw [List.length_append, List.length_append, List.length_append,
    length_field (by decide) hd.yyyy, length_field (by decide) hd.mm,
    length_field (by decide) hd.dd, length_field (by decide) hd.hh]

theorem CycleDate.FourDigitYear.isDigit (hd : d.FourDigitYear) :
    ∀ c ∈ dateString d, c.isDigit = true := by
  intro c hc
  simp only [dateString, List.mem_append] at hc
  rcases hc with ((hc | hc) | hc) | hc
  · exact isDigit_of_mem_field hd.yyyy.1 hc
  · exact isDigit_of_mem_field hd.mm.1 hc
  · exact isDigit_of_mem_field hd.dd.1 hc
  · exact isDigit_of_mem_field hd.hh.1 hc

/-- Fields of one width are read off from the end. -/
theorem dateString_inj (hd : d.FourDigitYear) (hd' : d'.FourDigitYear)
    (h : dateString d = dateString d') : d = d' := by
  have hwidth : ∀ {w : ℕ} {y z : ℤ} {u v : Str}, 0 < w → 0 ≤ y ∧ y < 10 ^ w → 0 ≤ z ∧ z < 10 ^ w →
      u ++ sprintf0 w y = v ++ sprintf0 w z → u = v ∧ y = z := by
    intro w y z u v hw hy hz heq
    obtain ⟨huv, hyz⟩ := List.append_inj' heq ((length_field hw hy).trans (length_field hw hz).symm)
    exact ⟨huv, field_inj hy.1 hz.1 hyz⟩
  unfold dateString at h
  obtain ⟨h, hhh⟩ := hwidth (by decide) hd.hh hd'.hh h
  obtain ⟨h, hdd⟩ := hwidth (by decide) hd.dd hd'.dd h
  obtain ⟨h, hmm⟩ := hwidth (by decide) hd.mm hd'.mm h
  have hyyyy := field_inj hd.yyyy.1 hd'.yyyy.1 h
  cases d
  cases d'
  exact CycleDate.mk.injEq .. ▸ ⟨hyyyy, hmm, hdd, hhh⟩

end Dates

section Decoding
variable {d d' : CycleDate} {fff em : ℕ} (v : TiggeVariable)

/-- The two separators split a name into the fields that were put together. -/
theorem splitOnP_generateFileName (hd : d.FourDigitYear) :
    (generateFileName v d fff em).splitOnP (fun c => c = '_' || c = '.') =
      (nameTokens v d fff em).dropLast ++ [v.shortName, "grib".toList] := by
  have hdate : ∀ c ∈ dateString d ++ "0000".toList, c.isDigit = true := by
    intro c hc
    rcases List.mem_append.mp hc with hc | hc
    · exact hd.isDigit c hc
    · have hzero : ∀ c ∈ "0000".toList, c.isDigit = true := by simp
      exact hzero c hc
  have hnumber : ∀ w n, ∀ c ∈ padded w n, (decide (c = '_') || decide (c = '.')) = false :=
    fun w n => isPart_of_digits fun c hc => isDigit_of_mem_padded hc
  have hshort : ∀ c ∈ v.shortName, (decide (c = '_') || decide (c = '.')) = false := by
    cases v <;> simp [TiggeVariable.shortName]
  have htokens : ∀ t ∈ (nameTokens v d fff em).dropLast, ∀ c ∈ t,
      (decide (c = '_') || decide (c = '.')) = false := by
    simp only [nameTokens, List.dropLast_cons_cons, List.dropLast_singleton, List.mem_cons,
      List.not_mem_nil, or_false, forall_eq_or_imp, forall_eq]
    refine ⟨by simp, by simp, by simp, by simp, isPart_of_digits hdate, by simp, by simp, ?_, ?_,
      hnumber _ _, hnumber _ _, ?_⟩ <;> split_ifs <;> simp
  rw [generateFileName_split, splitOnP_intercalate_append rfl (by simp [nameTokens]) htokens]
  have hlast : v.shortName ++ ".grib".toList = v.shortName ++ '.' :: "grib".toList := rfl
  rw [hlast, List.splitOnP_append_cons_of_forall_mem hshort '.' rfl]
  rfl

theorem part_generateFileName (hd : d.FourDigitYear) :
    part (generateFileName v d fff em) 4 = dateString d ++ "0000".toList := by
  unfold part
  rw [splitOnP_generateFileName v hd]
  rfl

theorem mergePattern_found_generateFileName (hd : d.FourDigitYear) (hfff : fff < 10 ^ 4)
    (hem : em < 10 ^ 3) (lv : Level) {mb : ℕ} (hmb : mb < 10 ^ 3) :
    (mergePattern lv mb).found (generateFileName v d fff em) = true ↔
      lv = levelType v ∧ mb = em := by
  obtain ⟨o, ho, hlv, ho_em⟩ := exists_outputName v d hfff hem
  rw [← ho, mergePattern_found_fileName hd.length_dateString hd.isDigit le_rfl o hmb, hlv, ho_em]
  exact and_congr eq_comm eq_comm

theorem generateFileName_inj {w : TiggeVariable} {g m : ℕ} (hd : d.FourDigitYear)
    (hd' : d'.FourDigitYear) (h : generateFileName v d fff em = generateFileName w d' g m) :
    v = w ∧ d = d' ∧ fff = g ∧ em = m := by
  have hdate : part (generateFileName v d fff em) 4 = dateString d ++ "0000".toList :=
    part_generateFileName v hd
  rw [h, part_generateFileName w hd'] at hdate
  obtain rfl := dateString_inj hd' hd (List.append_cancel_right hdate)
  obtain ⟨hv, hfff, hem⟩ := generateFileName_injective h
  exact ⟨hv, rfl, hfff, hem⟩

/-- The formatter and both decoders agree. -/
theorem generateFileName_decodes (hd : d.FourDigitYear) (hfff : fff < 10 ^ 4)
    (hem : em < 10 ^ 3) :
    (((generateFileName v d fff em).splitOnP fun c => c = '_' || c = '.').length = 14 ∧
      (dateString d).length = 10 ∧ dateString d <+: part (generateFileName v d fff em) 4) ∧
    (∀ lv : Level, ∀ mb < 10 ^ 3,
      (mergePattern lv mb).found (generateFileName v d fff em) = true ↔
        lv = levelType v ∧ mb = em) ∧
    ∀ (w : TiggeVariable) (d' : CycleDate) (g m : ℕ), d'.FourDigitYear →
      generateFileName v d fff em = generateFileName w d' g m →
        v = w ∧ d = d' ∧ fff = g ∧ em = m := by
  refine ⟨⟨?_, hd.length_dateString, ?_⟩, ?_, ?_⟩
  · rw [splitOnP_generateFileName v hd]
    rfl
  · rw [part_generateFileName v hd]
    exact List.prefix_append ..
  · intro lv mb hmb
    exact mergePattern_found_generateFileName v hd hfff hem lv hmb
  · intro w d' g m hd' h
    exact generateFileName_inj v hd hd' h

theorem generateFileName_decodes_control :
    (((generateFileName .potentialTemperature ⟨2021, 1, 1, 0⟩ 6 0).splitOnP
        fun c => c = '_' || c = '.').length = 14 ∧ (dateString ⟨2021, 1, 1, 0⟩).length = 10 ∧
      dateString ⟨2021, 1, 1, 0⟩ <+:
        part (generateFileName .potentialTemperature ⟨2021, 1, 1, 0⟩ 6 0) 4) ∧
    (∀ lv : Level, ∀ mb < 10 ^ 3, (mergePattern lv mb).found
      (generateFileName .potentialTemperature ⟨2021, 1, 1, 0⟩ 6 0) = true ↔
        lv = levelType .potentialTemperature ∧ mb = 0) ∧
    ∀ (w : TiggeVariable) (d' : CycleDate) (g m : ℕ), d'.FourDigitYear →
      generateFileName .potentialTemperature ⟨2021, 1, 1, 0⟩ 6 0 = generateFileName w d' g m →
        .potentialTemperature = w ∧ ⟨2021, 1, 1, 0⟩ = d' ∧ 6 = g ∧ 0 = m :=
  generateFileName_decodes .potentialTemperature ⟨by decide, by decide, by decide, by decide⟩
    (by decide) (by decide)

end Decoding
end Tigge
