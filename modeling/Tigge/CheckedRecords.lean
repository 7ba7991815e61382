import Tigge.TiggeCheck
import Tigge.WrittenRecords

/-! The verdict of tigge_check on the records that the generators write. -/

namespace Tigge
open Lib TiggeVariable Setting TiggeCheck

/-- What every record says of its cycle, its member and its grid. -/
structure Header (m : GribMessage) (d : CycleDate) (em : ℕ) : Prop where
  editionNumber : m.getLong .editionNumber = .ok 2
  reserved : m.gribIsMissing .reserved = true
  localTablesVersion : m.getLong .localTablesVersion = .ok 0
  significanceOfReferenceTime : m.getLong .significanceOfReferenceTime = .ok 1
  year : m.getLong .year = .ok d.yyyy
  month : m.getLong .month = .ok d.mm
  day : m.getLong .day = .ok d.dd
  hour : m.getLong .hour = .ok d.hh
  minute : m.getLong .minute = .ok 0
  second : m.getLong .second = .ok 0
  productionStatus : m.getLong .productionStatusOfProcessedData = .ok 4
  typeOfProcessedData : m.getLong .typeOfProcessedData = .ok (if em = 0 then 3 else 4)
  sourceOfGridDefinition : m.getLong .sourceOfGridDefinition = .ok 0
  numberOfOctects : m.getLong .numberOfOctectsForNumberOfPoints = .ok 0
  interpretation : m.getLong .interpretationOfNumberOfPoints = .ok 0
  gridDefinitionTemplateNumber : m.getLong .gridDefinitionTemplateNumber = .ok 0
  Ni : m.getLong .Ni = .ok (getNLon d)
  Nj : m.getLong .Nj = .ok (getNLat d)
  basicAngle : m.getLong .basicAngleOfTheInitialProductionDomain = .ok 0
  subdivisions : m.getLong .subdivisionsOfBasicAngle = .ok gribMissingLong
  subdivisions_missing : m.gribIsMissing .subdivisionsOfBasicAngle = true
  latitudeOfFirst : m.getLong .latitudeOfFirstGridPoint = .ok 90000000
  longitudeOfFirst : m.getLong .longitudeOfFirstGridPoint = .ok 0
  flags : m.getLong .resolutionAndComponentFlags = .ok 48
  latitudeOfLast : m.getLong .latitudeOfLastGridPoint = .ok (-90000000)
  longitudeOfLast : m.getLong .longitudeOfLastGridPoint = .ok (360000000 - lonInc d)
  iDirectionIncrement : m.getLong .iDirectionIncrement = .ok (lonInc d)
  jDirectionIncrement : m.getLong .jDirectionIncrement = .ok (latInc d)
  scanningMode : m.getLong .scanningMode = .ok 0
  perturbationNumber : m.getLong .perturbationNumber = .ok em
  members : m.getLong .numberOfForecastsInEnsemble = .ok (getNMembers d)
  typeOfOriginalFieldValues : m.getLong .typeOfOriginalFieldValues = .ok 0

def headerKeys : List GribKey :=
  [.editionNumber, .reserved, .localTablesVersion, .significanceOfReferenceTime, .year, .month,
    .day, .hour, .minute, .second, .productionStatusOfProcessedData, .typeOfProcessedData,
    .sourceOfGridDefinition, .numberOfOctectsForNumberOfPoints, .interpretationOfNumberOfPoints,
    .gridDefinitionTemplateNumber, .Ni, .Nj, .basicAngleOfTheInitialProductionDomain,
    .subdivisionsOfBasicAngle, .latitudeOfFirstGridPoint, .longitudeOfFirstGridPoint,
    .resolutionAndComponentFlags, .latitudeOfLastGridPoint, .longitudeOfLastGridPoint,
    .iDirectionIncrement, .jDirectionIncrement, .scanningMode, .perturbationNumber,
    .numberOfForecastsInEnsemble, .typeOfOriginalFieldValues]

theorem Header.congr {m m' : GribMessage} {d : CycleDate} {em : ℕ} (h : Header m d em)
    (hkeys : ∀ k ∈ headerKeys, m' k = m k) : Header m' d em := by
  have hread : ∀ k ∈ headerKeys, m'.getLong k = m.getLong k :=
    fun k hk => GribMessage.getLong_congr (hkeys k hk)
  have hmissing : ∀ k ∈ headerKeys, m'.gribIsMissing k = m.gribIsMissing k := by
    intro k hk
    simp only [GribMessage.gribIsMissing, GribMessage.isMissing, hkeys k hk]
  exact {
    editionNumber := (hread _ (by decide)).trans h.editionNumber
    reserved := (hmissing _ (by decide)).trans h.reserved
    localTablesVersion := (hread _ (by decide)).trans h.localTablesVersion
    significanceOfReferenceTime := (hread _ (by decide)).trans h.significanceOfReferenceTime
    year := (hread _ (by decide)).trans h.year
    month := (hread _ (by decide)).trans h.month
    day := (hread _ (by decide)).trans h.day
    hour := (hread _ (by decide)).trans h.hour
    minute := (hread _ (by decide)).trans h.minute
    second := (hread _ (by decide)).trans h.second
    productionStatus := (hread _ (by decide)).trans h.productionStatus
    typeOfProcessedData := (hread _ (by decide)).trans h.typeOfProcessedData
    sourceOfGridDefinition := (hread _ (by decide)).trans h.sourceOfGridDefinition
    numberOfOctects := (hread _ (by decide)).trans h.numberOfOctects
    interpretation := (hread _ (by decide)).trans h.interpretation
    gridDefinitionTemplateNumber := (hread _ (by decide)).trans h.gridDefinitionTemplateNumber
    Ni := (hread _ (by decide)).trans h.Ni
    Nj := (hread _ (by decide)).trans h.Nj
    basicAngle := (hread _ (by decide)).trans h.basicAngle
    subdivisions := (hread _ (by decide)).trans h.subdivisions
    subdivisions_missing := (hmissing _ (by decide)).trans h.subdivisions_missing
    latitudeOfFirst := (hread _ (by decide)).trans h.latitudeOfFirst
    longitudeOfFirst := (hread _ (by decide)).trans h.longitudeOfFirst
    flags := (hread _ (by decide)).trans h.flags
    latitudeOfLast := (hread _ (by decide)).trans h.latitudeOfLast
    longitudeOfLast := (hread _ (by decide)).trans h.longitudeOfLast
    iDirectionIncrement := (hread _ (by decide)).trans h.iDirectionIncrement
    jDirectionIncrement := (hread _ (by decide)).trans h.jDirectionIncrement
    scanningMode := (hread _ (by decide)).trans h.scanningMode
    perturbationNumber := (hread _ (by decide)).trans h.perturbationNumber
    members := (hread _ (by decide)).trans h.members
    typeOfOriginalFieldValues := (hread _ (by decide)).trans h.typeOfOriginalFieldValues }

section NewRecord
variable {d : CycleDate} {fff em : ℕ} {R : Rounding}

theorem gribIsMissing_message {V : KeyValues} {k : GribKey} {v : ℤ} (h : V k = some v) :
    V.message.gribIsMissing k =
      (k.coding.canBeMissing && decide (k.coding.octetsOf v = k.coding.allOnes)) := by
  simp only [GribMessage.gribIsMissing, GribMessage.isMissing, KeyValues.message_some h,
    Option.some.injEq]

/-- The numbers of the grid that a cycle has. -/
theorem grid_numbers (d : CycleDate) :
    getNLat d = 181 ∧ getNLon d = 360 ∧ latInc d = 1000000 ∧ lonInc d = 1000000 ∧
        getNMembers d = 21 ∨
      getNLat d = 361 ∧ getNLon d = 720 ∧ latInc d = 500000 ∧ lonInc d = 500000 ∧
        getNMembers d = 31 := by
  simp only [getNLat, getNLon, latInc, lonInc, getNMembers]
  cases beforeUpgrade d with
  | true => exact .inl (by decide)
  | false => exact .inr (by decide)

theorem newGribRecord_header (hd : Storable d.time) (hem : em < 2 ^ 8) :
    Header (newGribRecordValues R d fff em).message d em := by
  obtain ⟨V, hV⟩ : ∃ V, V = newGribRecordValues R d fff em := ⟨_, rfl⟩
  have hread : ∀ {k : GribKey} {v : ℤ}, newGribRecordValues R d fff em k = some v →
      k.coding.Represents v → V.message.getLong k = .ok v := by
    intro k v h
    rw [← hV] at h
    exact KeyValues.getLong_message h
  have htype : GribKey.typeOfProcessedData.coding.Represents (if em = 0 then 3 else 4) := by
    split <;> decide
  have hgrid : GribKey.Ni.coding.Represents (getNLon d) ∧
      GribKey.Nj.coding.Represents (getNLat d) ∧
      GribKey.longitudeOfLastGridPoint.coding.Represents (360000000 - lonInc d) ∧
      GribKey.iDirectionIncrement.coding.Represents (lonInc d) ∧
      GribKey.jDirectionIncrement.coding.Represents (latInc d) ∧
      GribKey.numberOfForecastsInEnsemble.coding.Represents (getNMembers d) := by
    rcases grid_numbers d with ⟨hlat, hlon, hlatInc, hlonInc, hmembers⟩ |
        ⟨hlat, hlon, hlatInc, hlonInc, hmembers⟩ <;>
      rw [hlat, hlon, hlatInc, hlonInc, hmembers] <;> decide
  rw [← hV]
  exact {
    editionNumber := hread rfl (by decide)
    reserved := by
      rw [hV]
      exact (gribIsMissing_message (v := gribMissingLong) rfl).trans rfl
    localTablesVersion := hread rfl (by decide)
    significanceOfReferenceTime := hread rfl (by decide)
    year := hread rfl (represents_unsigned rfl rfl hd.year.1 hd.year.2)
    month := hread rfl (represents_unsigned rfl rfl hd.month.1 hd.month.2)
    day := hread rfl (represents_unsigned rfl rfl hd.day.1 hd.day.2)
    hour := hread rfl (represents_unsigned rfl rfl hd.hour.1 hd.hour.2)
    minute := hread rfl (by decide)
    second := hread rfl (by decide)
    productionStatus := hread rfl (by decide)
    typeOfProcessedData := hread rfl htype
    sourceOfGridDefinition := hread rfl (by decide)
    numberOfOctects := hread rfl (by decide)
    interpretation := hread rfl (by decide)
    gridDefinitionTemplateNumber := hread rfl (by decide)
    Ni := hread rfl hgrid.1
    Nj := hread rfl hgrid.2.1
    basicAngle := hread rfl (by decide)
    subdivisions := hread rfl (by decide)
    subdivisions_missing := by
      rw [hV]
      exact (gribIsMissing_message (v := gribMissingLong) rfl).trans rfl
    latitudeOfFirst := hread rfl (by decide)
    longitudeOfFirst := hread rfl (by decide)
    flags := hread rfl (by decide)
    latitudeOfLast := hread rfl (by decide)
    longitudeOfLast := hread rfl hgrid.2.2.1
    iDirectionIncrement := hread rfl hgrid.2.2.2.1
    jDirectionIncrement := hread rfl hgrid.2.2.2.2.1
    scanningMode := hread rfl (by decide)
    perturbationNumber := hread rfl
      (represents_unsigned rfl rfl (Int.natCast_nonneg _) (by exact_mod_cast hem))
    members := hread rfl hgrid.2.2.2.2.2
    typeOfOriginalFieldValues := hread rfl (by decide) }

end NewRecord

section Grid
variable {R : Rounding} {m : GribMessage} {d : CycleDate} {em : ℕ}

/-- A number of millionths of a degree as a double, where it is one of halves of a degree. -/
theorem inDegrees_of_halves (h : Header m d em) {k : GribKey} {n : ℤ} (hn : |n| ≤ 2 ^ 53)
    (hk : m.getLong k = .ok (500000 * n)) (hne : 500000 * n ≠ gribMissingLong) :
    inDegrees R m k = .ok (n / 2) := by
  have hkeys : gridKeys.mapM m.getLong = .ok [90000000, 0, -90000000, 360000000 - lonInc d,
      lonInc d, latInc d] := by
    simp only [gridKeys, List.mapM_cons, List.mapM_nil, h.latitudeOfFirst, h.longitudeOfFirst,
      h.latitudeOfLast, h.longitudeOfLast, h.iDirectionIncrement, h.jDirectionIncrement, bind,
      Except.bind]
    rfl
  have hhalf : R.fl (n / 2) = n / 2 := by
    have hfixes := R.fixes n 1 hn (by norm_num)
    rwa [pow_one] at hfixes
  have hquotient : ((500000 * n : ℤ) : ℚ) / (1000000 : ℤ) = n / 2 := by
    push_cast
    ring
  simp only [inDegrees, h.basicAngle, h.subdivisions, hkeys, hk, bind, Except.bind, true_or,
    if_true, if_neg hne, hquotient, hhalf, Int.cast_one, mul_one]
  rfl

theorem incrementInDegrees_of_halves (h : Header m d em) {k : GribKey} {n : ℤ} {bit : ℕ}
    (hbit : (48 : ℤ) / 2 ^ bit % 2 ≠ 0) (hn : |n| ≤ 2 ^ 53)
    (hk : m.getLong k = .ok (500000 * n)) (hne : 500000 * n ≠ gribMissingLong) :
    incrementInDegrees R m k bit = .ok (n / 2) := by
  simp only [incrementInDegrees, GribKey.flagbit, h.flags, bind, Except.bind]
  exact (if_neg hbit).trans (inDegrees_of_halves h hn hk hne)

theorem fl_tolerance (R : Rounding) : 0 < R.fl (1 / 10 ^ 10) := by
  have hfl := R.le_fl (x := 1 / 10 ^ 10) (m := 1) (k := 34) (by norm_num) (by norm_num)
    (by norm_num)
  exact lt_of_lt_of_le (by norm_num) hfl

/-- The smallest area of a field that counts as global. -/
theorem fl_globe (R : Rounding) : R.fl (360 * 180 * R.fl (95 / 100)) ≤ 61763 := by
  have hpart := R.fl_le (x := 95 / 100) (m := 61) (k := 6) (by norm_num) (by norm_num)
    (by norm_num)
  have hglobe := R.fl_le (x := 360 * 180 * R.fl (95 / 100)) (m := 61763) (k := 0) (by norm_num)
    (by norm_num) (by push_cast at hpart ⊢; linarith)
  simpa using hglobe

/-- A global grid of whole or half degrees. -/
theorem reports_checkExtents {s meridian parallel : ℤ} (hs : s = 1 ∨ s = 2)
    (hmeridian : s * (meridian - 1) = 360) (hparallel : s * parallel = 720) :
    Reports m (checkExtents R ⟨90000000, -90000000, 90, -90⟩
      ⟨0, 360000000 - 500000 * s, 0, (720 - s) / 2⟩ meridian parallel (500000 * s) (500000 * s)
        (s / 2) (s / 2)) () 0 := by
  have hpos : (s : ℚ) ≠ 0 := by
    rcases hs with rfl | rfl <;> norm_num
  have hne : 500000 * s ≠ 0 := by omega
  have hmeridianQ : (s : ℚ) * (meridian - 1) = 360 := by exact_mod_cast hmeridian
  have hparallelQ : (s : ℚ) * parallel = 720 := by exact_mod_cast hparallel
  have hheight : R.fl (90 - -90) = 180 := by
    have hfl := R.fl_int (n := 180) (by norm_num)
    norm_num at hfl ⊢
    exact hfl
  have hwidth : R.fl ((720 - s) / 2 - 0) = (720 - s) / 2 := by
    have hfl := R.fixes (720 - s) 1 (by rcases hs with rfl | rfl <;> norm_num) (by norm_num)
    rw [sub_zero]
    push_cast at hfl
    rwa [pow_one] at hfl
  have hsteps : ∀ n : ℤ, 0 ≤ n → n ≤ 1000 → R.fl (R.fl (R.fl n + 1) - (n + 1 : ℤ)) = 0 := by
    intro n hn hn'
    rw [R.fl_int (by rw [abs_le]; omega)]
    have hsum := R.fl_int (n := n + 1) (by rw [abs_le]; omega)
    push_cast at hsum ⊢
    rw [hsum, sub_self]
    simpa using R.fl_int (n := 0) (by norm_num)
  have hdown : (90000000 - -90000000 : ℤ).tdiv (500000 * s) = meridian - 1 := by
    rw [show (90000000 - -90000000 : ℤ) = 500000 * s * (meridian - 1) by
      linear_combination -500000 * hmeridian, Int.mul_tdiv_cancel_left _ hne]
  have halong : (360000000 - 500000 * s - 0).tdiv (500000 * s) = parallel - 1 := by
    rw [show 360000000 - 500000 * s - 0 = 500000 * s * (parallel - 1) by
      linear_combination -500000 * hparallel, Int.mul_tdiv_cancel_left _ hne]
  have hcolumns : ((720 - s) / 2 / (s / 2) : ℚ) = (parallel - 1 : ℤ) := by
    push_cast
    field_simp
    linarith
  have hrows : (180 / (s / 2) : ℚ) = (meridian - 1 : ℤ) := by
    push_cast
    field_simp
    linarith
  have hbounds : 0 ≤ parallel - 1 ∧ parallel - 1 ≤ 1000 ∧ 0 ≤ meridian - 1 ∧
      meridian - 1 ≤ 1000 := by
    rcases hs with rfl | rfl <;> omega
  have hwest := hsteps (parallel - 1) hbounds.1 hbounds.2.1
  have hnorth := hsteps (meridian - 1) hbounds.2.2.1 hbounds.2.2.2
  have harea : R.fl (180 * ((720 - s) / 2)) = 90 * (720 - s) := by
    have hfl := R.fl_int (n := 90 * (720 - s)) (by rw [abs_le]; omega)
    push_cast at hfl
    rw [← hfl]
    congr 1
    ring
  have htolerance := fl_tolerance R
  have hglobe := fl_globe R
  have hsQ : (1 : ℚ) ≤ s ∧ (s : ℚ) ≤ 2 := by
    exact_mod_cast (show 1 ≤ s ∧ s ≤ 2 by omega)
  rw [sub_add_cancel] at hwest hnorth
  simp only [checkExtents, hheight, hwidth, hrows, hcolumns, harea]
  refine (Reports.check ?_).andThen ((Reports.check ?_).andThen ((Reports.check ?_).andThen
    ((Reports.check ?_).andThen ((Reports.check ?_).andThen ((Reports.check ?_).andThen
      ((Reports.divide hne).andThen ((Reports.check ?_).andThen ((Reports.check ?_).andThen
        ((Reports.divide hne).andThen ((Reports.check ?_).andThen ((Reports.check ?_).andThen
          ((Reports.check ?_).andThen (Reports.check ?_)))))))))))))
  · rfl
  · exact decide_eq_true (by omega)
  · exact decide_eq_true (by omega)
  · rfl
  · rfl
  · rfl
  · rw [halong]
    exact decide_eq_true (by omega)
  · rw [hwest, abs_zero]
    exact decide_eq_true htolerance
  · rw [hdown]
    exact decide_eq_true (by omega)
  · rw [hnorth, abs_zero]
    exact decide_eq_true htolerance
  · exact decide_eq_true (by linarith)
  · exact decide_eq_true (by linarith)

theorem reports_checkSubdivisions (h : Header m d em) : Reports m checkSubdivisions () 0 := by
  have hzero : (Condition.eq .basicAngleOfTheInitialProductionDomain 0).met m = true :=
    decide_eq_true h.basicAngle
  refine (Condition.met_holds hzero).andThen (reports_checkAll ?_)
  simp only [List.all_cons, List.all_nil, Condition.met, h.subdivisions_missing, Bool.and_self]

theorem reports_checkBasicAngle (h : Header m d em) : Reports m checkBasicAngle () 0 := by
  have hmissing := reports_missing (m := m) .subdivisionsOfBasicAngle
  rw [h.subdivisions_missing] at hmissing
  refine hmissing.andThen (reports_checkAll ?_)
  simp only [List.all_cons, List.all_nil, Condition.met, h.basicAngle, decide_true, Bool.and_self]

theorem gridConditions_met (h : Header m d em) :
    (gridConditions.all fun c => c.met m) = true := by
  simp only [gridConditions, List.all_cons, List.all_nil, Condition.met, h.flags, h.numberOfOctects,
    h.interpretation]
  rfl

theorem reports_flagbit {k : GribKey} {flags : ℤ} (bit : ℕ) (h : m.getLong k = .ok flags) :
    Reports m (TiggeCheck.get (k.flagbit bit)) (flags / 2 ^ bit % 2) 0 := by
  apply Reports.get
  simp only [GribKey.flagbit, h]
  rfl

theorem reports_latlonGrid (h : Header m d em)
    (hpoints : m.getLong .numberOfDataPoints = .ok (getNPoints d)) :
    Reports m (latlonGrid R) () 0 := by
  obtain ⟨s, hs, hlatInc, hlonInc, hlat, hlon⟩ : ∃ s : ℤ, (s = 1 ∨ s = 2) ∧
      latInc d = 500000 * s ∧ lonInc d = 500000 * s ∧ s * ((getNLat d : ℤ) - 1) = 360 ∧
        s * (getNLon d : ℤ) = 720 := by
    rcases grid_numbers d with ⟨hlat, hlon, hlatInc, hlonInc, -⟩ |
        ⟨hlat, hlon, hlatInc, hlonInc, -⟩
    · exact ⟨2, .inr rfl, hlatInc, hlonInc, by rw [hlat]; rfl, by rw [hlon]; rfl⟩
    · exact ⟨1, .inl rfl, hlatInc, hlonInc, by rw [hlat]; rfl, by rw [hlon]; rfl⟩
  have hne : 500000 * s ≠ gribMissingLong := by
    rcases hs with rfl | rfl <;> decide
  have hlarge : |s| ≤ 2 ^ 53 := by
    rcases hs with rfl | rfl <;> norm_num
  have hnorth := inDegrees_of_halves (R := R) h (k := .latitudeOfFirstGridPoint) (n := 180)
    (by norm_num) h.latitudeOfFirst (by decide)
  have hsouth := inDegrees_of_halves (R := R) h (k := .latitudeOfLastGridPoint) (n := -180)
    (by norm_num) (h.latitudeOfLast.trans (congrArg Except.ok (by norm_num))) (by decide)
  have hwest := inDegrees_of_halves (R := R) h (k := .longitudeOfFirstGridPoint) (n := 0)
    (by norm_num) h.longitudeOfFirst (by decide)
  have heast := inDegrees_of_halves (R := R) h (k := .longitudeOfLastGridPoint) (n := 720 - s)
    (by rcases hs with rfl | rfl <;> norm_num)
    (h.longitudeOfLast.trans (congrArg Except.ok (by rw [hlonInc]; ring)))
    (by rcases hs with rfl | rfl <;> decide)
  have hns : incrementInDegrees R m .jDirectionIncrement 4 = .ok (s / 2) :=
    incrementInDegrees_of_halves h (by decide) hlarge
    (h.jDirectionIncrement.trans (congrArg Except.ok hlatInc)) hne
  have hwe : incrementInDegrees R m .iDirectionIncrement 5 = .ok (s / 2) :=
    incrementInDegrees_of_halves h (by decide) hlarge
    (h.iDirectionIncrement.trans (congrArg Except.ok hlonInc)) hne
  refine (Reports.read hpoints).andThen ((Reports.read h.Nj).andThen
    ((Reports.read h.Ni).andThen ((Reports.read h.latitudeOfFirst).andThen
      ((Reports.read h.latitudeOfLast).andThen ((Reports.read h.longitudeOfFirst).andThen
        ((Reports.read h.longitudeOfLast).andThen ((Reports.read h.jDirectionIncrement).andThen
          ((Reports.read h.iDirectionIncrement).andThen ?_))))))))
  refine (Reports.dget hnorth).andThen ((Reports.dget hsouth).andThen
    ((Reports.dget hwest).andThen ((Reports.dget heast).andThen ((Reports.dget hns).andThen
      ((Reports.dget hwe).andThen ?_)))))
  refine (reports_checkSubdivisions h).andThen ((reports_checkBasicAngle h).andThen
    ((Reports.check ?_).andThen ((reports_checkAll (gridConditions_met h)).andThen
      ((reports_flagbit 7 h.scanningMode).andThen
        ((reports_flagbit 6 h.scanningMode).andThen ?_)))))
  · exact decide_eq_true (by rw [getNPoints, Nat.cast_mul])
  · have hextents := reports_checkExtents (R := R) (m := m) hs hlat hlon
    show Reports m (checkExtents R ⟨90000000, -90000000, (180 : ℤ) / 2, (-180 : ℤ) / 2⟩
      ⟨0, 360000000 - lonInc d, (0 : ℤ) / 2, (720 - s : ℤ) / 2⟩ (getNLat d) (getNLon d) (latInc d)
        (lonInc d) (s / 2) (s / 2)) () 0
    rw [hlatInc, hlonInc, show ((180 : ℤ) : ℚ) / 2 = 90 by norm_num,
      show ((-180 : ℤ) : ℚ) / 2 = -90 by norm_num, show ((0 : ℤ) : ℚ) / 2 = 0 by norm_num,
      Int.cast_sub, Int.cast_ofNat]
    exact hextents

end Grid

section Products
variable {R : Rounding} {m : GribMessage} {d : CycleDate} {em : ℕ}

theorem reports_checkDate (h : Header m d em) (hd : IsCycle d) : Reports m checkDate () 0 := by
  have hyear := hd.year_nonneg
  have hmonth := hd.date.month_pos
  have hmonth' := hd.date.month_le
  have hday := hd.date.day_pos
  have hday' := hd.date.day_le.trans (monthLength_pos _ _).2
  have hdate : readDate m = .ok (d.yyyy * 10000 + d.mm * 100 + d.dd, m) := by
    simp only [readDate, h.year, h.month, h.day, bind, Except.bind]
    rfl
  have hrest : (d.yyyy * 10000 + d.mm * 100 + d.dd).tmod 10000 = d.mm * 100 + d.dd := by
    rw [Int.tmod_eq_emod_of_nonneg (by omega)]
    omega
  refine (Reports.get hdate).andThen ((Reports.read h.year).andThen ((Reports.check ?_).andThen
    ((Reports.read h.month).andThen ((Reports.check ?_).andThen ((Reports.read h.day).andThen
      (Reports.check ?_))))))
  · rw [Int.tdiv_eq_ediv_of_nonneg (by omega)]
    exact decide_eq_true (by omega)
  · rw [hrest, Int.tdiv_eq_ediv_of_nonneg (by omega)]
    exact decide_eq_true (by omega)
  · rw [Int.tmod_eq_emod_of_nonneg (by omega)]
    exact decide_eq_true (by omega)

/-- The steps that a handle has, in hours, every six of them. -/
structure HasSteps (m : GribMessage) (first last : ℤ) : Prop where
  startStep : m.getStartStep = .ok (first, m)
  endStep : m.getEndStep = .ok (last, m)
  forecastTime : m.getLong .forecastTime = .ok first
  unit : m.getLong .indicatorOfUnitOfTimeRange = .ok 1
  first_nonneg : 0 ≤ first
  first_dvd : first % 6 = 0
  last_nonneg : 0 ≤ last
  last_dvd : last % 6 = 0
  last_le : last ≤ 720

variable {first last : ℤ}

theorem reports_checkSteps (h : HasSteps m first last) : Reports m checkSteps () 0 := by
  refine (Reports.get h.endStep).andThen ((Reports.check ?_).andThen
    ((Reports.get h.startStep).andThen ((Reports.check ?_).andThen
      ((Reports.get h.endStep).andThen (Reports.check ?_)))))
  · rw [Int.tmod_eq_emod_of_nonneg h.last_nonneg]
    exact decide_eq_true h.last_dvd
  · exact decide_eq_true h.first_nonneg
  · exact decide_eq_true h.last_le

theorem reports_everySixHours (hsteps : HasSteps m first last) :
    Reports m everySixHours () 0 := by
  refine (Reports.read hsteps.unit).andThen ((reports_checkAll ?_).andThen
    ((Reports.read hsteps.forecastTime).andThen (Reports.check ?_)))
  · simp only [List.all_cons, List.all_nil, Condition.met, hsteps.unit, decide_true, Bool.and_self]
  · rw [Int.tmod_eq_emod_of_nonneg hsteps.first_nonneg]
    exact decide_eq_true hsteps.first_dvd

theorem reports_pointInTime (h : Header m d em) (hsteps : HasSteps m first last)
    (htemplate : m.getLong .productDefinitionTemplateNumber = .ok 1) (hem : em < getNMembers d) :
    Reports m pointInTime () 0 := by
  have hmembers : (getNMembers d : ℤ) ≠ 0 := by omega
  refine (Reports.read h.typeOfProcessedData).andThen ?_
  by_cases hcontrol : em = 0
  · rw [if_pos hcontrol]
    refine (reports_checkAll ?_).andThen (reports_everySixHours hsteps)
    simp only [List.all_cons, List.all_nil, Condition.met, htemplate, h.perturbationNumber,
      h.members, hcontrol, Except.toOption, Option.any_some]
    simpa using hmembers
  · rw [if_neg hcontrol]
    have hperturbed : (em : ℤ) ≠ 0 := by omega
    refine (reports_checkAll ?_).andThen ((Reports.read h.members).andThen
      ((reports_checkAll ?_).andThen (reports_everySixHours hsteps)))
    · simp only [List.all_cons, List.all_nil, Condition.met, htemplate, h.perturbationNumber,
        h.members, Except.toOption, Option.any_some]
      simpa using ⟨hcontrol, hem.ne_bot⟩
    · simp only [List.all_cons, List.all_nil, Condition.met, h.perturbationNumber,
        Except.toOption, Option.any_some, Bool.and_true]
      exact decide_eq_true (by omega)

/-- What a handle says of a time range that is counted in hours. -/
structure HasTimeRange (m : GribMessage) (length : ℤ) : Prop where
  template : m.getLong .productDefinitionTemplateNumber = .ok 11
  length : m.getLong .lengthOfTimeRange = .ok length
  units : m.getLong .indicatorOfUnitForTimeRange = .ok 1
  number : m.getLong .numberOfTimeRange = .ok 1
  missing : m.getLong .numberOfMissingInStatisticalProcess = .ok 0
  typeOfIncrement : m.getLong .typeOfTimeIncrement = .ok 2
  increment : m.getLong .timeIncrement = .ok 0
  minute : m.getLong .minuteOfEndOfOverallTimeInterval = .ok 0
  second : m.getLong .secondOfEndOfOverallTimeInterval = .ok 0

theorem reports_checkTimeRange {length : ℤ} (hsteps : HasSteps m first last)
    (hrange : HasTimeRange m length) (hlast : length + first = last) :
    Reports m checkTimeRange () 0 := by
  have hunit : Reports m unitHours 1 0 := by
    refine (Reports.read hrange.units).andThen ((Reports.read hrange.units).andThen
      ((reports_checkAll ?_).andThen (Reports.pure m 1)))
    simp only [List.all_cons, List.all_nil, Condition.met, hrange.units, decide_true,
      Bool.and_self]
  refine (reports_everySixHours hsteps).andThen ((reports_checkAll ?_).andThen
    ((Reports.get hsteps.endStep).andThen ((Reports.check ?_).andThen
      ((Reports.get hsteps.endStep).andThen ((Reports.check ?_).andThen
        (hunit.andThen ((Reports.read hrange.length).andThen
          ((Reports.get hsteps.startStep).andThen ((Reports.get hsteps.endStep).andThen
            (Reports.check ?_))))))))))
  · simp only [List.all_cons, List.all_nil, Condition.met, hrange.number, hrange.missing,
      hrange.typeOfIncrement, hrange.increment, hrange.minute, hrange.second, decide_true,
      Bool.and_self]
  · rw [Int.tmod_eq_emod_of_nonneg hsteps.last_nonneg]
    exact decide_eq_true hsteps.last_dvd
  · exact decide_eq_true (by have := hsteps.last_le; omega)
  · exact decide_eq_true (by simpa using hlast)

theorem reports_statisticalProcess {length : ℤ} (h : Header m d em)
    (hsteps : HasSteps m first last) (hrange : HasTimeRange m length)
    (hlast : length + first = last) : Reports m statisticalProcess () 0 := by
  have htemplate :
      ([Condition.eq .productDefinitionTemplateNumber 11].all fun c => c.met m) = true := by
    simp only [List.all_cons, List.all_nil, Condition.met, hrange.template, decide_true,
      Bool.and_self]
  have hchecks := (reports_checkAll htemplate).andThen (f := fun _ => checkTimeRange)
    (reports_checkTimeRange hsteps hrange hlast)
  refine (Reports.read h.typeOfProcessedData).andThen ?_
  by_cases hcontrol : em = 0
  · rw [if_pos hcontrol]
    exact hchecks
  · rw [if_neg hcontrol]
    exact hchecks

/-- A time range that does not begin with the forecast is an error. -/
theorem reports_fromStart {length : ℤ} (h : Header m d em) (hsteps : HasSteps m first last)
    (hrange : HasTimeRange m length) (hlast : length + first = last) :
    Reports m fromStart () (if first = 0 then 0 else 1) := by
  refine (Reports.get hsteps.endStep).andThen ((reports_statisticalProcess h hsteps hrange
    hlast).andThen ((Reports.get hsteps.startStep).andThen ?_))
  by_cases hfirst : first = 0
  · rw [if_pos hfirst]
    exact Reports.check (decide_eq_true hfirst)
  · rw [if_neg hfirst]
    exact Reports.check_false (decide_eq_false hfirst)

theorem reports_checkValues (h : Header m d em) {bitMapIndicator values points : ℤ}
    (hmap : m.getLong .bitMapIndicator = .ok bitMapIndicator)
    (hvalues : m.getLong .numberOfValues = .ok values)
    (hpoints : m.getLong .numberOfDataPoints = .ok points)
    (hcount : if bitMapIndicator = 255 then values = points else values ≤ points) :
    Reports m checkValues () 0 := by
  have hwhole : Reports m (Condition.eq .bitMapIndicator 255).holds
      (decide (bitMapIndicator = 255)) 0 := (Reports.read hmap).andThen (Reports.pure m _)
  refine hwhole.andThen ((Reports.read hvalues).andThen ((Reports.read hpoints).andThen
    ((Reports.check ?_).andThen (reports_checkAll ?_))))
  · by_cases hfull : bitMapIndicator = 255
    · rw [if_pos hfull] at hcount
      rw [if_pos (decide_eq_true hfull)]
      exact decide_eq_true hcount
    · rw [if_neg hfull] at hcount
      rw [decide_eq_false hfull, if_neg Bool.false_ne_true]
      exact decide_eq_true hcount
  · simp only [List.all_cons, List.all_nil, Condition.met, h.typeOfOriginalFieldValues,
      decide_true, Bool.and_self]

/-- The checks of the parameter decide. -/
theorem reports_verify (h : Header m d em) (hd : IsCycle d) (hsteps : HasSteps m first last)
    {version bitMapIndicator values : ℤ} (hversion : m.getLong .tablesVersion = .ok version)
    (hversion' : 4 ≤ version) (hmap : m.getLong .bitMapIndicator = .ok bitMapIndicator)
    (hvalues : m.getLong .numberOfValues = .ok values)
    (hpoints : m.getLong .numberOfDataPoints = .ok (getNPoints d))
    (hcount : if bitMapIndicator = 255 then values = getNPoints d else values ≤ getNPoints d)
    {gaussianGrid : Checker Unit} {k : ℕ} (hparameter : Reports m (checkParameter R) () k) :
    Reports m (verify R gaussianGrid) () k := by
  have hhour : d.hh ∈ [(0 : ℤ), 6, 12, 18] := by
    simpa only [List.mem_cons, List.not_mem_nil, or_false] using hd.synoptic
  have htype : (if em = 0 then 3 else 4 : ℤ) ∈ [(2 : ℤ), 3, 4] := by
    split <;> decide
  refine (reports_checkAll ?_).andThen (hparameter.bind (l := 0) ((reports_checkAll ?_).andThen
    ((reports_checkDate h hd).andThen ((reports_checkAll ?_).andThen
      ((reports_checkSteps hsteps).andThen ((reports_checkAll ?_).andThen
        ((Reports.read h.gridDefinitionTemplateNumber).andThen
          ((reports_latlonGrid h hpoints).andThen
            (reports_checkValues h hmap hvalues hpoints hcount)))))))))
  · simp only [List.all_cons, List.all_nil, Condition.met, h.editionNumber, h.reserved, decide_true,
      Bool.true_or, Bool.and_self]
  · simp only [List.all_cons, List.all_nil, Condition.met, hversion, h.localTablesVersion,
      h.significanceOfReferenceTime, Except.toOption, Option.any_some, hversion', decide_true,
      Bool.and_self]
  · simp only [List.all_cons, List.all_nil, Condition.met, h.hour, h.minute, h.second,
      h.productionStatus, Except.toOption, Option.any_some, hhour, decide_true, Bool.and_true,
      Bool.true_and]
    rfl
  · simp only [List.all_cons, List.all_nil, Condition.met, h.typeOfProcessedData,
      h.sourceOfGridDefinition, Except.toOption, Option.any_some, htype, decide_true,
      Bool.and_self]

end Products

section Variables

/-- The keys that tell the variables apart. -/
def describe (discipline category number template : ℤ) (first second : ℤ × ℤ × ℤ)
    (process : Option ℤ) (bitMap : ℤ) : KeyValues
  | .productionStatusOfProcessedData => some 4
  | .discipline => some discipline
  | .parameterCategory => some category
  | .parameterNumber => some number
  | .productDefinitionTemplateNumber => some template
  | .typeOfFirstFixedSurface => some first.1
  | .scaleFactorOfFirstFixedSurface => some first.2.1
  | .scaledValueOfFirstFixedSurface => some first.2.2
  | .typeOfSecondFixedSurface => some second.1
  | .scaleFactorOfSecondFixedSurface => some second.2.1
  | .scaledValueOfSecondFixedSurface => some second.2.2
  | .typeOfStatisticalProcessing => process
  | .bitMapIndicator => some bitMap
  | _ => none

def describedKeys : List GribKey :=
  [.productionStatusOfProcessedData, .discipline, .parameterCategory, .parameterNumber,
    .productDefinitionTemplateNumber, .typeOfFirstFixedSurface, .scaleFactorOfFirstFixedSurface,
    .scaledValueOfFirstFixedSurface, .typeOfSecondFixedSurface, .scaleFactorOfSecondFixedSurface,
    .scaledValueOfSecondFixedSurface, .typeOfStatisticalProcessing, .bitMapIndicator]

def noValue (surface : ℤ) : ℤ × ℤ × ℤ := (surface, gribMissingLong, gribMissingLong)

/-- What the generator of a variable sets. -/
def TiggeVariable.described : TiggeVariable → KeyValues
  | potentialTemperature => describe 0 0 2 1 (109, 9, 2000) (noValue 255) none 0
  | soilMoisture => describe 2 0 22 1 (106, 0, 0) (106, 1, 2) none 0
  | soilTemperature => describe 2 0 2 1 (106, 0, 0) (106, 1, 2) none 0
  | totalColumnWater => describe 0 1 51 1 (1, 255, 4294967295) (8, 255, 4294967295) none 255
  | snowFallWaterEquivalent | timeIntegratedSnowFallWaterEquivalent =>
    describe 0 1 53 11 (noValue 1) (noValue 255) (some 1) 255
  | timeIntegratedOutgoingLongWaveRadiation =>
    describe 0 5 5 11 (noValue 8) (noValue 255) (some 1) 255
  | timeIntegratedSurfaceLatentHeatFlux =>
    describe 0 0 10 11 (noValue 1) (noValue 255) (some 1) 255
  | timeIntegratedSurfaceNetSolarRadiation =>
    describe 0 4 9 11 (noValue 1) (noValue 255) (some 1) 255
  | timeIntegratedSurfaceNetThermalRadiation =>
    describe 0 5 5 11 (noValue 1) (noValue 255) (some 1) 255
  | timeIntegratedSurfaceSensibleHeatFlux =>
    describe 0 0 11 11 (noValue 1) (noValue 255) (some 1) 255
  | totalPrecipitation => describe 0 1 52 11 (noValue 1) (noValue 255) (some 1) 255
  | testVariable | testVariableTi => fun _ => none

/-- What grib_api reads of it: all ones are a missing value. -/
def TiggeVariable.readings : TiggeVariable → Readings
  | totalColumnWater => describe 0 1 51 1 (noValue 1) (noValue 8) none 255
  | v => v.described

def TiggeVariable.isGenerated : TiggeVariable → Bool
  | testVariable | testVariableTi => false
  | _ => true

def TiggeVariable.checks : TiggeVariable → List CheckProc
  | potentialTemperature => [.pointInTime, .givenLevel, .potentialVorticityLevel]
  | soilMoisture => [.pointInTime, .givenThickness, .hasBitmap]
  | soilTemperature => [.pointInTime, .givenThickness]
  | totalColumnWater => [.pointInTime, .predefinedThickness]
  | _ => [.fromStart, .predefinedLevel]

theorem described_readings {v : TiggeVariable} (hv : v.isGenerated) :
    (describedKeys.all fun k => readings v.described.message k = v.readings k) = true := by
  cases v with
  | testVariable | testVariableTi => cases hv
  | _ => decide +kernel

theorem bestMatch_readings {v : TiggeVariable} (hv : v.isGenerated) :
    (bestMatch v.readings).map Parameter.checks = some v.checks := by
  cases v with
  | testVariable | testVariableTi => cases hv
  | _ => decide +kernel

/-- The conditions on the surfaces and on the bit map of a variable. -/
def TiggeVariable.conditions (v : TiggeVariable) : List Condition :=
  match v with
  | potentialTemperature => surfaceConditions true false true
  | soilMoisture => surfaceConditions true true false ++ [Condition.eq .bitMapIndicator 0]
  | soilTemperature => surfaceConditions true true false
  | totalColumnWater => surfaceConditions false false false
  | _ => surfaceConditions false false true

theorem described_conditions {v : TiggeVariable} (hv : v.isGenerated) :
    (v.conditions.all fun c => c.met v.described.message) = true := by
  cases v with
  | testVariable | testVariableTi => cases hv
  | _ => decide +kernel

variable {R : Rounding} {d : CycleDate} {tmEnd : Dt}

theorem generator_described (R : Rounding) (d : CycleDate) (tmEnd : Dt) (fff em : ℕ)
    {v : TiggeVariable} (hv : v.isGenerated) :
    (describedKeys.all fun k => decide ((generatorSettings d tmEnd fff v).foldl
      (KeyValues.after R) (newGribRecordValues R d fff em) k = v.described k)) = true := by
  cases v with
  | testVariable | testVariableTi => cases hv
  | _ => rfl

/-- The keys of a record in a table without the number of its values. -/
theorem recordValues_of_ne {o : Output (getNPoints d)} {k : GribKey}
    (h : k ∉ [GribKey.numberOfValues, .numberOfDataPoints]) :
    recordValues R d tmEnd o k = (generatorSettings d tmEnd o.fff o.varName).foldl
      (KeyValues.after R) (newGribRecordValues R d o.fff o.em) k := by
  simp only [List.mem_cons, List.not_mem_nil, or_false, not_or] at h
  exact (if_neg h.2).trans (if_neg h.1)

variable {o : Output (getNPoints d)}

theorem record_described (hv : o.varName.isGenerated) {k : GribKey} (hk : k ∈ describedKeys) :
    (recordValues R d tmEnd o).message k = o.varName.described.message k := by
  have hne : ∀ k ∈ describedKeys, k ∉ [GribKey.numberOfValues, .numberOfDataPoints] := by decide
  have hgenerator := List.all_eq_true.mp
    (generator_described R d tmEnd o.fff o.em hv) k hk
  rw [KeyValues.message, recordValues_of_ne (hne k hk), of_decide_eq_true hgenerator]
  rfl

theorem record_header (hd : IsCycle d) (hem : o.em < 2 ^ 8) :
    Header (recordValues R d tmEnd o).message d o.em := by
  have hnew : Header (newGribRecordValues R d o.fff o.em).message d o.em :=
    newGribRecord_header hd.storable hem
  apply hnew.congr
  intro k hk
  have hne : ∀ k ∈ headerKeys, k ∉ [GribKey.numberOfValues, .numberOfDataPoints] := by decide
  have hthere : (headerKeys.all fun k => (newGribRecordValues R d o.fff o.em k).isSome) = true :=
    rfl
  have hkeeps : (headerKeys.all fun k =>
      (generatorSettings d tmEnd o.fff o.varName).all (Setting.keeps k)) = true := by
    cases o.varName <;> rfl
  obtain ⟨v, hv⟩ := Option.isSome_iff_exists.mp (List.all_eq_true.mp hthere k hk)
  rw [KeyValues.message, recordValues_of_ne (hne k hk),
    Setting.foldl_keeps (List.all_eq_true.mp hkeeps k hk) hv, KeyValues.message_some hv]
  rfl

/-- The number of values and of points. -/
theorem record_counts (hgrid : getNPoints d < 2 ^ 32) : ∃ bitMapIndicator values : ℤ,
    (recordValues R d tmEnd o).message.getLong .bitMapIndicator = .ok bitMapIndicator ∧
    (recordValues R d tmEnd o).message.getLong .numberOfValues = .ok values ∧
    (recordValues R d tmEnd o).message.getLong .numberOfDataPoints = .ok (getNPoints d) ∧
    if bitMapIndicator = 255 then values = getNPoints d else values ≤ getNPoints d := by
  obtain ⟨bitMapIndicator, hmap, hbyte⟩ := generator_bitMap R d tmEnd o.fff o.em
    o.varName
  have hle := presentValues_le o.values
  have hmap' : recordValues R d tmEnd o .bitMapIndicator = some bitMapIndicator :=
    (recordValues_of_ne (by decide)).trans hmap
  have hvalues : recordValues R d tmEnd o .numberOfValues = some
      (if bitMapIndicator = 0 then (presentValues o.values : ℤ) else getNPoints d) := by
    simp only [recordValues, KeyValues.after, KeyValues.value_of hmap]
    rfl
  refine ⟨bitMapIndicator, _, KeyValues.getLong_message hmap' ?_,
    KeyValues.getLong_message hvalues ?_,
    KeyValues.getLong_message (v := (getNPoints d : ℤ)) rfl ?_, ?_⟩
  · rcases hbyte with rfl | rfl <;> decide
  · apply represents_unsigned rfl rfl
    · split <;> exact Int.natCast_nonneg _
    · split
      · exact_mod_cast hle.trans_lt hgrid
      · exact_mod_cast hgrid
  · exact represents_unsigned rfl rfl (Int.natCast_nonneg _) (by exact_mod_cast hgrid)
  · rcases hbyte with rfl | rfl
    · exact_mod_cast hle
    · rfl

theorem parameters_keys : ∀ p ∈ parameters, ∀ e ∈ p.pairs, e.1 ∈ describedKeys := by
  decide +kernel

/-- Only the keys that tell the variables apart decide which parameter matches. -/
theorem bestMatch_congr {r r' : Readings} (h : ∀ k ∈ describedKeys, r k = r' k) :
    bestMatch r = bestMatch r' := by
  have hmatches : ∀ p ∈ parameters, p.matches r = p.matches r' := by
    intro p hp
    have hpairs : (p.pairs.all fun e => decide (r e.1 = some e.2)) =
        p.pairs.all fun e => decide (r' e.1 = some e.2) := by
      rw [Bool.eq_iff_iff, List.all_eq_true, List.all_eq_true]
      refine forall₂_congr fun e he => ?_
      rw [h e.1 (parameters_keys p hp e he)]
    rw [Parameter.matches, Parameter.matches, isGlob, isGlob, h _ (by decide), hpairs]
  unfold bestMatch
  congr 1
  apply List.foldl_ext
  intro best p hp
  rw [hmatches p hp]

theorem record_bestMatch (hv : o.varName.isGenerated) :
    (bestMatch (TiggeCheck.readings (recordValues R d tmEnd o).message)).map Parameter.checks =
      some o.varName.checks := by
  rw [← bestMatch_readings hv]
  congr 1
  apply bestMatch_congr
  intro k hk
  rw [TiggeCheck.readings, GribMessage.getLong_congr (record_described hv hk)]
  exact of_decide_eq_true (List.all_eq_true.mp (described_readings hv) k hk)

theorem reports_checkParameter {m : GribMessage} {checks : List CheckProc}
    (h : (bestMatch (TiggeCheck.readings m)).map Parameter.checks = some checks) {k : ℕ}
    (hchecks : Reports m (checks.forM fun c => c.run R) () k) :
    Reports m (checkParameter R) () k := by
  obtain ⟨p, hp, rfl⟩ := Option.map_eq_some_iff.mp h
  intro n
  show checkMatch R (bestMatch (TiggeCheck.readings m)) (m, n) = _
  rw [hp]
  exact hchecks n

/-- A condition looks at one key. -/
def conditionKey : Condition → GribKey
  | .eq what _ | .ne what _ | .ge what _ | .le what _ | .bit what _ _ | .missing what
  | .given what | .oneOf what _ | .missingOr what _ => what

theorem met_congr {m m' : GribMessage} {c : Condition}
    (h : m' (conditionKey c) = m (conditionKey c)) : c.met m' = c.met m := by
  have hread := GribMessage.getLong_congr h
  have hmissing : m'.gribIsMissing (conditionKey c) = m.gribIsMissing (conditionKey c) := by
    simp only [GribMessage.gribIsMissing, GribMessage.isMissing, h]
  cases c <;> simp only [conditionKey] at hread hmissing <;>
    simp only [Condition.met, hread, hmissing]

theorem record_conditions (hv : o.varName.isGenerated) {conditions : List Condition}
    (h : conditions ⊆ o.varName.conditions) :
    Reports (recordValues R d tmEnd o).message (checkAll conditions) () 0 := by
  apply reports_checkAll
  rw [List.all_eq_true]
  intro c hc
  have hkeys : ∀ c ∈ o.varName.conditions, conditionKey c ∈ describedKeys := by
    cases o.varName <;> decide
  rw [met_congr (record_described hv (hkeys c (h hc)))]
  exact List.all_eq_true.mp (described_conditions hv) c (h hc)

/-- The first step of a record for a forecast hour, and the last one. -/
def TiggeVariable.steps (fff : ℕ) : TiggeVariable → ℤ × ℤ
  | potentialTemperature | soilMoisture | soilTemperature | totalColumnWater => (fff, fff)
  | snowFallWaterEquivalent => (fff, fff + 6)
  | _ => (0, fff)

/-- The variables at a point in time. -/
def TiggeVariable.isPoint : TiggeVariable → Bool
  | potentialTemperature | soilMoisture | soilTemperature | totalColumnWater => true
  | _ => false

theorem record_point (hv : o.varName.isPoint) (hfff : o.fff < 2 ^ 16) :
    (recordValues R d tmEnd o).InHours o.fff ∧
      recordValues R d tmEnd o .lengthOfTimeRange = none := by
  obtain ⟨v, fff, em, values⟩ := o
  cases v with
  | potentialTemperature | soilMoisture | soilTemperature | totalColumnWater =>
    exact ⟨⟨rfl, rfl, rfl, by omega, by omega⟩, rfl⟩
  | _ => cases hv

/-- A time range in a table. -/
structure IntervalValues (V : KeyValues) (first length : ℤ) : Prop where
  hours : V.InHours first
  range : V.TimeRange length
  missing : V .numberOfMissingInStatisticalProcess = some 0
  increment : V .timeIncrement = some 0
  minute : V .minuteOfEndOfOverallTimeInterval = some 0
  second : V .secondOfEndOfOverallTimeInterval = some 0

/-- A time range after its two steps were set. -/
theorem interval_steps {V : KeyValues} {f l first last : ℤ} {t : GribDateTime} {r : Dt}
    (h : V.InHours f) (hrange : V.TimeRange l) (htime : V.HasTime t)
    (hmissing : V .numberOfMissingInStatisticalProcess = some 0)
    (hincrement : V .timeIncrement = some 0) (hfirst : 0 ≤ first) (hle : first ≤ last)
    (hlt : last < 2 ^ 32) (hend : endOfInterval R t last 3600 = r.time) :
    IntervalValues ([startStep first, endStep last].foldl (KeyValues.after R) V) first
      (last - first) := by
  have hafter : V.after R (.startStep first) = (V.set .lengthOfTimeRange
      (if 0 < l - (first - f) then l - (first - f) else 0)).set .forecastTime first := by
    simp only [KeyValues.after, hrange.lengthOfTimeRange, KeyValues.value_of h.forecastTime]
  rw [List.foldl_cons, List.foldl_cons, List.foldl_nil, hafter]
  obtain ⟨W, hW⟩ : ∃ W : KeyValues, W = (V.set .lengthOfTimeRange
      (if 0 < l - (first - f) then l - (first - f) else 0)).set .forecastTime first := ⟨_, rfl⟩
  have hreference : W.time = t := by
    simp only [hW, KeyValues.time, KeyValues.value, KeyValues.set, reduceCtorEq, if_false,
      htime.year, htime.month, htime.day, htime.hour, htime.minute, htime.second,
      Option.getD_some]
  have hforecast : W.value .forecastTime = first := by
    rw [hW]
    rfl
  have hlast : W.after R (.endStep last) =
      (W.setEnd r.time).set .lengthOfTimeRange (last - first) := by
    rw [KeyValues.after, hreference, hforecast, hend]
  rw [← hW, hlast]
  have hkeep : ∀ k ∉ GribKey.lengthOfTimeRange :: .forecastTime :: GribMessage.endOfIntervalKeys,
      (W.setEnd r.time).set .lengthOfTimeRange (last - first) k = V k := by
    intro k hk
    simp only [GribMessage.endOfIntervalKeys, List.mem_cons, List.not_mem_nil, or_false,
      not_or] at hk
    obtain ⟨hlength, hstep, hyear, hmonth, hday, hhour, hminute, hsecond⟩ := hk
    simp only [hW, KeyValues.setEnd, KeyValues.set, if_neg hlength, if_neg hstep, if_neg hyear,
      if_neg hmonth, if_neg hday, if_neg hhour, if_neg hminute, if_neg hsecond]
  exact {
    hours := ⟨(hkeep _ (by decide)).trans h.coded, (hkeep _ (by decide)).trans h.units, by
      rw [hW]; rfl, hfirst, hle.trans_lt hlt⟩
    range := ⟨rfl, ⟨by omega, by omega⟩, (hkeep _ (by decide)).trans hrange.units,
      (hkeep _ (by decide)).trans hrange.number, (hkeep _ (by decide)).trans hrange.increment⟩
    missing := (hkeep _ (by decide)).trans hmissing
    increment := (hkeep _ (by decide)).trans hincrement
    minute := rfl
    second := rfl }

theorem IntervalValues.setLength {V : KeyValues} {first length v : ℤ} (hv : v = length)
    (h : IntervalValues V first length) :
    IntervalValues ([long .lengthOfTimeRange v].foldl (KeyValues.after R) V) first length where
  hours := ⟨h.hours.coded, h.hours.units, h.hours.forecastTime, h.hours.range⟩
  range := ⟨congrArg some hv, h.range.bounds, h.range.units, h.range.number, h.range.increment⟩
  missing := h.missing
  increment := h.increment
  minute := h.minute
  second := h.second

section Intervals
variable {fff em : ℕ} (hd : IsCycle d) (hfff : fff < 2 ^ 16)
include hd hfff

/-- A time range whose steps are set from the start to the forecast hour. -/
theorem interval_fromStart {V : KeyValues} {f : ℤ} (hhours : V.InHours f)
    (hrange : V.TimeRange fff) (htime : V.HasTime d.time)
    (hmissing : V .numberOfMissingInStatisticalProcess = some 0)
    (hincrement : V .timeIncrement = some 0) :
    IntervalValues ([startStep 0, endStep fff].foldl (KeyValues.after R) V) 0 (fff - 0) := by
  obtain ⟨n, hn⟩ := hd.end_time R hfff
  obtain ⟨r, -, hr, -⟩ := hn n le_rfl
  exact interval_steps hhours hrange htime hmissing hincrement le_rfl (by omega) (by omega) hr

theorem flux_interval (category number surface : ℤ) :
    IntervalValues ((fluxSettings category number surface tmEnd fff).foldl (KeyValues.after R)
      (newGribRecordValues R d fff em)) 0 (fff - 0) := by
  rw [fluxSettings, List.foldl_append]
  exact interval_fromStart hd hfff (f := fff) ⟨rfl, rfl, rfl, by omega, by omega⟩
    ⟨rfl, ⟨by omega, by omega⟩, rfl, rfl, rfl⟩ ⟨rfl, rfl, rfl, rfl, rfl, rfl⟩ rfl rfl

theorem precipitation_interval :
    IntervalValues ((precipitationSettings d fff).foldl (KeyValues.after R)
      (newGribRecordValues R d fff em)) 0 (fff - 0) := by
  rw [precipitationSettings, List.foldl_append]
  exact interval_fromStart hd hfff (f := fff) ⟨rfl, rfl, rfl, by omega, by omega⟩
    ⟨rfl, ⟨by omega, by omega⟩, rfl, rfl, rfl⟩ ⟨rfl, rfl, rfl, rfl, rfl, rfl⟩ rfl rfl

/-- The length of the range is set once more in the end. -/
theorem snowFall_interval :
    IntervalValues ((snowFallSettings tmEnd fff).foldl (KeyValues.after R)
      (newGribRecordValues R d fff em)) 0 (fff - 0) := by
  rw [snowFallSettings, List.foldl_append, List.foldl_append]
  apply IntervalValues.setLength (sub_zero _).symm
  exact interval_fromStart hd hfff (f := 0) ⟨rfl, rfl, rfl, by omega, by omega⟩
    ⟨rfl, ⟨by omega, by omega⟩, rfl, rfl, rfl⟩ ⟨rfl, rfl, rfl, rfl, rfl, rfl⟩ rfl rfl

omit hd in
theorem sixHourSnowFall_interval :
    IntervalValues ((sixHourSnowFallSettings tmEnd fff).foldl (KeyValues.after R)
      (newGribRecordValues R d fff em)) fff 6 :=
  ⟨⟨rfl, rfl, rfl, by omega, by omega⟩, ⟨rfl, by decide, rfl, rfl, rfl⟩, rfl, rfl, rfl, rfl⟩

/-- The time ranges of the generators. -/
theorem generator_interval {v : TiggeVariable} (hv : v.isGenerated) (hpoint : v.isPoint = false) :
    ∃ length, IntervalValues ((generatorSettings d tmEnd fff v).foldl (KeyValues.after R)
        (newGribRecordValues R d fff em)) (v.steps fff).1 length ∧
      length + (v.steps fff).1 = (v.steps fff).2 := by
  cases v with
  | potentialTemperature | soilMoisture | soilTemperature | totalColumnWater => cases hpoint
  | testVariable | testVariableTi => cases hv
  | snowFallWaterEquivalent => exact ⟨6, sixHourSnowFall_interval hfff, add_comm _ _⟩
  | timeIntegratedSnowFallWaterEquivalent =>
    exact ⟨fff - 0, snowFall_interval hd hfff, sub_add_cancel _ _⟩
  | totalPrecipitation => exact ⟨fff - 0, precipitation_interval hd hfff, sub_add_cancel _ _⟩
  | timeIntegratedOutgoingLongWaveRadiation | timeIntegratedSurfaceLatentHeatFlux
  | timeIntegratedSurfaceNetSolarRadiation | timeIntegratedSurfaceNetThermalRadiation
  | timeIntegratedSurfaceSensibleHeatFlux =>
    exact ⟨fff - 0, flux_interval hd hfff _ _ _, sub_add_cancel _ _⟩

end Intervals

theorem record_interval (hd : IsCycle d) (hfff : o.fff < 2 ^ 16) (hv : o.varName.isGenerated)
    (hpoint : o.varName.isPoint = false) :
    ∃ length, IntervalValues (recordValues R d tmEnd o) (o.varName.steps o.fff).1 length ∧
      length + (o.varName.steps o.fff).1 = (o.varName.steps o.fff).2 := by
  obtain ⟨length, h, hlength⟩ := @generator_interval R d tmEnd o.fff o.em hd hfff _ hv hpoint
  refine ⟨length, ?_, hlength⟩
  exact {
    hours := ⟨(recordValues_of_ne (by decide)).trans h.hours.coded,
      (recordValues_of_ne (by decide)).trans h.hours.units,
      (recordValues_of_ne (by decide)).trans h.hours.forecastTime, h.hours.range⟩
    range := ⟨(recordValues_of_ne (by decide)).trans h.range.lengthOfTimeRange, h.range.bounds,
      (recordValues_of_ne (by decide)).trans h.range.units,
      (recordValues_of_ne (by decide)).trans h.range.number,
      (recordValues_of_ne (by decide)).trans h.range.increment⟩
    missing := (recordValues_of_ne (by decide)).trans h.missing
    increment := (recordValues_of_ne (by decide)).trans h.increment
    minute := (recordValues_of_ne (by decide)).trans h.minute
    second := (recordValues_of_ne (by decide)).trans h.second }

end Variables

end Tigge
