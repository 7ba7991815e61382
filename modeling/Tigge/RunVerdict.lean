import Tigge.CheckedRecords
import Tigge.Coverage
import Tigge.QcOutput

/-! The verdict of tigge_check on the records of a run, and what output QC makes of it. -/

namespace Tigge
open Lib TiggeVariable Setting TiggeCheck

section Verdict
variable {R : Rounding} {d : CycleDate} {tmEnd : Dt} {o : Output (getNPoints d)}
  {m : GribMessage}

theorem members_lt {em : ℕ} (hem : em < getNMembers d) : em < 2 ^ 8 := by
  rcases grid_numbers d with h | h <;> omega

theorem TiggeVariable.steps_point {v : TiggeVariable} (hpoint : v.isPoint) (fff : ℕ) :
    v.steps fff = ((fff : ℤ), (fff : ℤ)) := by
  cases v with
  | potentialTemperature | soilMoisture | soilTemperature | totalColumnWater => rfl
  | _ => cases hpoint

theorem TiggeVariable.steps_bounds (v : TiggeVariable) {fff : ℕ} (hfff : fff ≤ 714)
    (hsix : fff % 6 = 0) : 0 ≤ (v.steps fff).1 ∧ (v.steps fff).1 % 6 = 0 ∧
      0 ≤ (v.steps fff).2 ∧ (v.steps fff).2 % 6 = 0 ∧ (v.steps fff).2 ≤ 720 := by
  cases v <;> simp only [TiggeVariable.steps] <;> omega

theorem record_hasSteps (hd : IsCycle d) (hv : o.varName.isGenerated) (hfff : o.fff ≤ 714)
    (hsix : o.fff % 6 = 0) : HasSteps (recordValues R d tmEnd o).message
      (o.varName.steps o.fff).1 (o.varName.steps o.fff).2 := by
  obtain ⟨hfirst, hfirst', hlast, hlast', hle⟩ := o.varName.steps_bounds hfff hsix
  obtain ⟨hhours, hend⟩ : (recordValues R d tmEnd o).InHours (o.varName.steps o.fff).1 ∧
      (recordValues R d tmEnd o).message.getEndStep =
        .ok ((o.varName.steps o.fff).2, (recordValues R d tmEnd o).message) := by
    cases hpoint : o.varName.isPoint with
    | true =>
      obtain ⟨hhours, hnone⟩ := @record_point R d tmEnd o hpoint (by omega)
      rw [TiggeVariable.steps_point hpoint]
      exact ⟨hhours, getEndStep_point hhours hnone⟩
    | false =>
      obtain ⟨length, h, hlength⟩ := @record_interval R d tmEnd o hd (by omega) hv hpoint
      rw [← hlength, add_comm length]
      exact ⟨h.hours, getEndStep_range h.hours h.range⟩
  exact {
    startStep := getStartStep_message hhours
    endStep := hend
    forecastTime := KeyValues.getLong_message hhours.forecastTime
      (represents_unsigned rfl rfl hhours.range.1 hhours.range.2)
    unit := KeyValues.getLong_message hhours.coded (by decide)
    first_nonneg := hfirst
    first_dvd := hfirst'
    last_nonneg := hlast
    last_dvd := hlast'
    last_le := hle }

theorem described_template {v : TiggeVariable} (hv : v.isGenerated) :
    v.described.message.getLong .productDefinitionTemplateNumber =
      .ok (if v.isPoint then 1 else 11) := by
  cases v with
  | testVariable | testVariableTi => cases hv
  | _ => rfl

theorem record_template (hv : o.varName.isGenerated) :
    (recordValues R d tmEnd o).message.getLong .productDefinitionTemplateNumber =
      .ok (if o.varName.isPoint then 1 else 11) := by
  rw [GribMessage.getLong_congr (record_described hv (by decide)), described_template hv]

theorem record_hasTimeRange (hv : o.varName.isGenerated) (hpoint : o.varName.isPoint = false)
    {first length : ℤ} (h : IntervalValues (recordValues R d tmEnd o) first length) :
    HasTimeRange (recordValues R d tmEnd o).message length where
  template := by rw [record_template hv, hpoint]; rfl
  length := KeyValues.getLong_message h.range.lengthOfTimeRange
    (represents_unsigned rfl rfl h.range.bounds.1 h.range.bounds.2)
  units := KeyValues.getLong_message h.range.units (by decide)
  number := KeyValues.getLong_message h.range.number (by decide)
  missing := KeyValues.getLong_message h.missing (by decide)
  typeOfIncrement := KeyValues.getLong_message h.range.increment (by decide)
  increment := KeyValues.getLong_message h.increment (by decide)
  minute := KeyValues.getLong_message h.minute (by decide)
  second := KeyValues.getLong_message h.second (by decide)

theorem record_version : ∃ version : ℤ,
    (recordValues R d tmEnd o).message.getLong .tablesVersion = .ok version ∧ 4 ≤ version := by
  have hset : ∀ v, ∃ version : ℤ, (generatorSettings d tmEnd o.fff v).foldl
      (KeyValues.after R) (newGribRecordValues R d o.fff o.em) .tablesVersion = some version ∧
        (version = 4 ∨ version = 5) := by
    intro v
    cases v with
    | totalPrecipitation => exact ⟨5, of_decide_eq_true rfl, .inr rfl⟩
    | _ => exact ⟨4, of_decide_eq_true rfl, .inl rfl⟩
  obtain ⟨version, hversion, hvalue⟩ := hset o.varName
  refine ⟨version, KeyValues.getLong_message ((recordValues_of_ne (by decide)).trans hversion) ?_,
    by omega⟩
  rcases hvalue with rfl | rfl <;> decide

/-- Two units of potential vorticity, as 2000 with a scale factor of 9. -/
theorem readLevel_potentialVorticity (htype : m.getLong .typeOfFirstFixedSurface = .ok 109)
    (hscale : m.getLong .scaleFactorOfFirstFixedSurface = .ok 9)
    (hvalue : m.getLong .scaledValueOfFirstFixedSurface = .ok 2000) :
    readLevel R m = .ok (2, m) := by
  have htenth : ∀ n : ℤ, |n| ≤ 2 ^ 53 → R.fl (10 * n / 10) = n := by
    intro n hn
    rw [mul_div_cancel_left₀ _ (by norm_num), R.fl_int hn]
  have hscaled : (fun v => R.fl (v / 10))^[3] ((2000 : ℤ) : ℚ) = 2 := by
    simp only [Function.iterate_succ, Function.iterate_zero, Function.comp, id]
    rw [show ((2000 : ℤ) : ℚ) = 10 * (200 : ℤ) by norm_num, htenth 200 (by norm_num),
      show ((200 : ℤ) : ℚ) = 10 * (20 : ℤ) by norm_num, htenth 20 (by norm_num),
      show ((20 : ℤ) : ℚ) = 10 * (2 : ℤ) by norm_num, htenth 2 (by norm_num)]
    rfl
  have hround : truncate (R.fl (2 + 1 / 2)) = 2 := by
    have hhalf := R.fixes 5 1 (by norm_num) (by norm_num)
    norm_num at hhalf ⊢
    rw [hhalf]
    exact truncate_eq (by norm_num) (by norm_num) (by norm_num)
  simp only [readLevel, htype, hscale, hvalue, bind, Except.bind]
  rw [if_neg (by decide), show (if True then (9 : ℤ) - 6 else 9) = 3 from rfl,
    if_neg (show ¬ (109 : ℤ) = 100 by decide), if_neg (show ¬ (9 : ℤ) = gribMissingLong by decide),
    if_neg (show ¬ (3 : ℤ) < 0 by decide), show (3 : ℤ).natAbs = 3 from rfl, hscaled, hround]
  rfl

theorem reports_pointChecks {v : TiggeVariable} (hpoint : v.isPoint)
    (htime : Reports m pointInTime () 0)
    (hconditions : ∀ {conditions}, conditions ⊆ v.conditions →
      Reports m (checkAll conditions) () 0)
    (hlevel : v = potentialTemperature → readLevel R m = .ok (2, m)) :
    Reports m (v.checks.forM fun c => c.run R) () 0 := by
  have hall := hconditions (List.Subset.refl _)
  cases v with
  | potentialTemperature =>
    have hcheck : Reports m (checkLevel R [2]) () 0 :=
      (Reports.get (hlevel rfl)).andThen (Reports.check rfl)
    exact htime.andThen (hall.andThen (hcheck.andThen (Reports.pure m ())))
  | soilMoisture =>
    have hthickness := hconditions (List.subset_append_left _ _)
    have hbitmap := hconditions (List.subset_append_right _ _)
    exact htime.andThen (hthickness.andThen (hbitmap.andThen (Reports.pure m ())))
  | soilTemperature => exact htime.andThen (hall.andThen (Reports.pure m ()))
  | totalColumnWater => exact htime.andThen (hall.andThen (Reports.pure m ()))
  | _ => cases hpoint

theorem reports_intervalChecks {v : TiggeVariable} (hpoint : v.isPoint = false) {k : ℕ}
    (htime : Reports m fromStart () k)
    (hconditions : Reports m (checkAll v.conditions) () 0) :
    Reports m (v.checks.forM fun c => c.run R) () k := by
  have hchecks : v.checks = [.fromStart, .predefinedLevel] ∧
      v.conditions = surfaceConditions false false true := by
    cases v with
    | potentialTemperature | soilMoisture | soilTemperature | totalColumnWater => cases hpoint
    | _ => exact ⟨rfl, rfl⟩
  rw [hchecks.2] at hconditions
  rw [hchecks.1]
  have hlevel : Reports m ([CheckProc.predefinedLevel].forM fun c => c.run R) () 0 :=
    hconditions.andThen (Reports.pure m ())
  exact htime.bind (f := fun _ => [CheckProc.predefinedLevel].forM fun c => c.run R) hlevel

/-- The snow of the six hours after a forecast hour does not fall from the start. -/
def startsLate {n : ℕ} (o : Output n) : Bool := o.varName = snowFallWaterEquivalent ∧ o.fff ≠ 0

def expectedErrors {n : ℕ} (o : Output n) : ℕ := if startsLate o then 1 else 0

theorem reports_recordChecks (hd : IsCycle d) (hv : o.varName.isGenerated) (hfff : o.fff ≤ 714)
    (hsix : o.fff % 6 = 0) (hem : o.em < getNMembers d) :
    Reports (recordValues R d tmEnd o).message (o.varName.checks.forM fun c => c.run R) ()
      (expectedErrors o) := by
  have hbyte := members_lt hem
  have hheader : Header (recordValues R d tmEnd o).message d o.em := record_header hd hbyte
  have hsteps := @record_hasSteps R d tmEnd o hd hv hfff hsix
  have htemplate := @record_template R d tmEnd o hv
  cases hpoint : o.varName.isPoint with
  | true =>
    have hnone : expectedErrors o = 0 := by
      rw [expectedErrors, startsLate, if_neg]
      rintro hlate
      rw [(of_decide_eq_true hlate).1] at hpoint
      cases hpoint
    rw [hnone]
    rw [hpoint] at htemplate
    refine reports_pointChecks hpoint (reports_pointInTime hheader hsteps htemplate hem)
      (record_conditions hv) fun hlevel => ?_
    have hread : ∀ k ∈ describedKeys, (recordValues R d tmEnd o).message.getLong k =
        potentialTemperature.described.message.getLong k := by
      intro k hk
      rw [GribMessage.getLong_congr (record_described hv hk), hlevel]
    exact readLevel_potentialVorticity (hread _ (by decide)) (hread _ (by decide))
      (hread _ (by decide))
  | false =>
    obtain ⟨length, h, hlength⟩ := @record_interval R d tmEnd o hd (by omega) hv hpoint
    have hstart := reports_fromStart hheader hsteps (record_hasTimeRange hv hpoint h) hlength
    have herrors : (if (o.varName.steps o.fff).1 = 0 then 0 else 1) = expectedErrors o := by
      rw [expectedErrors, startsLate]
      generalize o.varName = v at hpoint hv
      cases v with
      | snowFallWaterEquivalent => simp [TiggeVariable.steps]
      | potentialTemperature | soilMoisture | soilTemperature | totalColumnWater => cases hpoint
      | _ => simp [TiggeVariable.steps]
    rw [herrors] at hstart
    exact reports_intervalChecks hpoint hstart (record_conditions hv (List.Subset.refl _))

theorem record_errors (hd : IsCycle d) (hv : o.varName.isGenerated) (hfff : o.fff ≤ 714)
    (hsix : o.fff % 6 = 0) (hem : o.em < getNMembers d) (gaussianGrid : Checker Unit) :
    errors R gaussianGrid (recordValues R d tmEnd o).message = some (expectedErrors o) := by
  have hbyte := members_lt hem
  have hgrid : getNPoints d < 2 ^ 32 := by
    rw [getNPoints]
    rcases grid_numbers d with ⟨hlat, hlon, -⟩ | ⟨hlat, hlon, -⟩ <;> rw [hlat, hlon] <;> norm_num
  obtain ⟨version, hversion, hversion'⟩ := @record_version R d tmEnd o
  obtain ⟨bitMapIndicator, values, hmap, hvalues, hpoints, hcount⟩ :=
    @record_counts R d tmEnd o hgrid
  have hparameter : Reports (recordValues R d tmEnd o).message (checkParameter R) ()
      (expectedErrors o) :=
    reports_checkParameter (record_bestMatch hv) (reports_recordChecks hd hv hfff hsix hem)
  have hverify : Reports (recordValues R d tmEnd o).message (verify R gaussianGrid) ()
      (expectedErrors o) :=
    reports_verify (record_header hd hbyte) hd (record_hasSteps hd hv hfff hsix) hversion hversion'
      hmap hvalues hpoints hcount hparameter
  rw [errors]
  show ((verify R gaussianGrid) (_, 0)).map _ = _
  rw [hverify 0, Option.map_some, Nat.zero_add]

/-- tigge_check finds nothing wrong with a record, but for the snow that falls in the six hours
after a forecast hour: its time range does not begin with the forecast. -/
theorem writtenRecord_tiggeCheck (R : Rounding) (gaussianGrid : Checker Unit) {d : CycleDate}
    {tmEnd : Dt} {o : Output (getNPoints d)} (hd : IsCycle d) (hv : o.varName.isGenerated)
    (hfff : o.fff ≤ 714) (hsix : o.fff % 6 = 0) (hem : o.em < getNMembers d)
    (hend : Storable tmEnd.time) : ∃ m, writtenRecord R d tmEnd o = .ok m ∧
      errors R gaussianGrid m =
        some (if startsLate o then 1 else 0) := by
  exact ⟨_, writtenRecord_eq hd (by omega) (members_lt hem) hend,
    record_errors hd hv hfff hsix hem gaussianGrid⟩

theorem writtenRecord_tiggeCheck_leap_day : ∃ m,
    writtenRecord binary64 ⟨2020, 2, 28, 18⟩ ⟨2020, 2, 29, 6, 0⟩
        ⟨snowFallWaterEquivalent, 6, 0, fun _ => 0⟩ = .ok m ∧
      errors binary64 (pure ()) m = some 1 := by
  have hcycle : IsCycle ⟨2020, 2, 28, 18⟩ := ⟨⟨by decide, by decide, by decide, by decide⟩,
    by decide, by decide, .inr (.inr (.inr rfl))⟩
  have hend : Storable (Dt.time ⟨2020, 2, 29, 6, 0⟩) :=
    ⟨by decide, by decide, by decide, by decide, by decide, by decide⟩
  exact writtenRecord_tiggeCheck binary64 (pure ()) hcycle rfl (by decide) rfl (by decide) hend

theorem sum_expectedErrors {n : ℕ} (outputs : List (Output n)) :
    (outputs.map expectedErrors).sum = outputs.countP startsLate := by
  induction outputs with
  | nil => rfl
  | cons o outputs ih =>
    rw [List.map_cons, List.sum_cons, List.countP_cons, ih, expectedErrors, add_comm]

section Files
variable {n : ℕ} {gaussianGrid : Checker Unit} {record : Output n → GribMessage}
  {outputs : List (Output n)}

theorem mapM_errors
    (h : ∀ o ∈ outputs, errors R gaussianGrid (record o) = some (expectedErrors o)) :
    (outputs.map record).mapM (errors R gaussianGrid) = some (outputs.map expectedErrors) := by
  rw [mapM_eq_some_iff, List.map_map, List.map_map]
  exact List.map_congr_left h

/-- The verdict on a file with the records of some outputs. -/
theorem validate_records
    (h : ∀ o ∈ outputs, errors R gaussianGrid (record o) = some (expectedErrors o)) :
    validate R gaussianGrid (outputs.map record) =
      some ((outputs.filter fun o => !startsLate o).map record,
        if outputs = [] then 1 else outputs.countP startsLate) := by
  have hgood : ∀ o : Output n, decide (expectedErrors o = 0) = !startsLate o := by
    intro o
    rw [expectedErrors]
    cases startsLate o <;> rfl
  rw [validate, mapM_errors h]
  simp only [Option.bind_eq_bind, Option.bind_some, List.zip_map', List.filter_map, List.map_map,
    Function.comp_def, hgood, sum_expectedErrors, List.map_eq_nil_iff]
  rfl

end Files

end Verdict

section Run
variable {d : CycleDate} {api : GribApi (getNPoints d)} {naming : InputNaming}
  {contents : Str → Option (List (GribRecord (getNPoints d)))} {q : ProcessQueue}

/-- The outputs of a run are for the products of the queue, the forecast hours and the members. -/
theorem main_written (h : Available (ncepSource api naming d contents) q (getNMembers d))
    {o : Output (getNPoints d)} (ho : o ∈ (main d api naming contents q).written) :
    requested q o.varName ∧ o.varName.isGenerated ∧ o.fff ≤ 714 ∧ o.fff % 6 = 0 ∧
      o.em < getNMembers d := by
  have hkey : outputKey o ∈ (List.range (getNMembers d)).flatMap (memberKeys q) := by
    rw [← (main_keys h).1]
    exact List.mem_map_of_mem ho
  obtain ⟨hq, hproduct, hem, hour, hlt, hfff⟩ := mem_run_keys.mp hkey
  have hgenerated : ∀ v ∈ products, v.isGenerated := by decide
  have hhours : hoursPerMember = 65 := by rw [hoursPerMember]; rfl
  exact ⟨hq, hgenerated _ hproduct, by omega, by omega, hem⟩

/-- The ends that `timeAdd` finds for the records of a run, which the keys hold. -/
theorem exists_ends (hd : IsCycle d)
    (h : Available (ncepSource api naming d contents) q (getNMembers d)) :
    ∃ ends : Output (getNPoints d) → Dt, ∀ o ∈ (main d api naming contents q).written,
      (∃ n, timeAdd n (tmInit d) (tmEnd o.fff) = some (ends o)) ∧ Storable (ends o).time := by
  have hends : ∀ o : Output (getNPoints d), ∃ r, o ∈ (main d api naming contents q).written →
      (∃ n, timeAdd n (tmInit d) (tmEnd o.fff) = some r) ∧ Storable r.time := by
    intro o
    by_cases ho : o ∈ (main d api naming contents q).written
    · obtain ⟨-, -, hfff, -, -⟩ := main_written h ho
      obtain ⟨n, hn⟩ := hd.end_time binary64 (show o.fff < 2 ^ 16 by omega)
      obtain ⟨r, hadd, -, hr⟩ := hn n le_rfl
      exact ⟨r, fun _ => ⟨⟨n, hadd⟩, hr⟩⟩
    · exact ⟨tmInit d, fun h => absurd h ho⟩
  choose ends hends using hends
  exact ⟨ends, hends⟩

/-- tigge_check accepts the records of a run but those that do not begin with the forecast, which
the default queue does not ask for. -/
theorem main_tiggeCheck (R : Rounding) (gaussianGrid : Checker Unit) (hd : IsCycle d)
    (h : Available (ncepSource api naming d contents) q (getNMembers d))
    (ends : Output (getNPoints d) → Dt)
    (hends : ∀ o ∈ (main d api naming contents q).written, Storable (ends o).time) :
    ∃ record : Output (getNPoints d) → GribMessage,
      (∀ o ∈ (main d api naming contents q).written,
        writtenRecord R d (ends o) o = .ok (record o)) ∧
      validate R gaussianGrid ((main d api naming contents q).written.map record) =
        some (((main d api naming contents q).written.filter
            fun o => !startsLate o).map record,
          if (main d api naming contents q).written = [] then 1
          else (main d api naming contents q).written.countP startsLate) ∧
      (q = fillQueueWithDefault →
        validate R gaussianGrid ((main d api naming contents q).written.map record) =
          some ((main d api naming contents q).written.map record, 0)) := by
  let record (o : Output (getNPoints d)) : GribMessage := (recordValues R d (ends o) o).message
  have herrors : ∀ o ∈ (main d api naming contents q).written,
      errors R gaussianGrid (record o) = some (expectedErrors o) := by
    intro o ho
    obtain ⟨-, hv, hfff, hsix, hem⟩ := main_written h ho
    exact record_errors hd hv hfff hsix hem gaussianGrid
  have hverdict := validate_records herrors
  refine ⟨record, fun o ho => ?_, hverdict, fun hq => ?_⟩
  · obtain ⟨-, -, hfff, -, hem⟩ := main_written h ho
    exact writtenRecord_eq hd (by omega) (members_lt hem) (hends o ho)
  · have hstart : ∀ o ∈ (main d api naming contents q).written,
        startsLate o = false := by
      intro o ho
      have hrequested := (main_written h ho).1
      rw [hq, requested_default] at hrequested
      exact decide_eq_false fun hlate => hrequested hlate.1
    have hnonempty : (main d api naming contents q).written ≠ [] := by
      intro hnil
      have hlength := congrArg List.length (main_keys h).1
      rw [hq, length_default_keys, List.length_map, ← hq, hnil] at hlength
      have hmembers := grid_numbers d
      simp only [List.length_nil] at hlength
      omega
    rw [hverdict, if_neg hnonempty, List.countP_eq_zero.mpr fun o ho => by rw [hstart o ho]; decide,
      List.filter_eq_self.mpr fun o ho => by rw [hstart o ho]; rfl]

/-- The first cycle of 2021 with the default queue. -/
theorem main_tiggeCheck_2021 : ∃ record : Output (getNPoints ⟨2021, 1, 1, 0⟩) → GribMessage,
    validate binary64 (pure ()) ((main ⟨2021, 1, 1, 0⟩ plainApi plainNaming
        (fun _ => some (recordsOf searchedKeys)) fillQueueWithDefault).written.map record) =
      some ((main ⟨2021, 1, 1, 0⟩ plainApi plainNaming (fun _ => some (recordsOf searchedKeys))
        fillQueueWithDefault).written.map record, 0) := by
  have h := @available_of_searchedKeys (getNPoints ⟨2021, 1, 1, 0⟩) plainApi ⟨2021, 1, 1, 0⟩
    fillQueueWithDefault (getNMembers ⟨2021, 1, 1, 0⟩)
  obtain ⟨ends, hends⟩ := exists_ends isCycle_2021 h
  obtain ⟨record, -, -, hdefault⟩ := main_tiggeCheck binary64 (pure ()) isCycle_2021 h ends
    fun o ho => (hends o ho).2
  exact ⟨record, hdefault rfl⟩

end Run

section OutputQc

/-- The record in an output file. A later output replaces an earlier one of the same name. -/
def recordIn (R : Rounding) (d : CycleDate) (ends : Output (getNPoints d) → Dt)
    (outputs : List (Output (getNPoints d))) (f : Str) : Option GribMessage := do
  let o ← outputs.reverse.find? fun o => o.fileName d = f
  (writtenRecord R d (ends o) o).toOption

/-- `@checkErrors` stays empty: tigge_check prints nothing about any file of a variable. -/
def tiggeCheckSilent (R : Rounding) (gaussianGrid : Checker Unit) (cycle : Str) (names : List Str)
    (record : Str → Option GribMessage) : Bool :=
  tiggeVarCodes.all fun tVar =>
    ((cycleFileList cycle names).filter (varPattern tVar).found).all fun f =>
      (record f).any fun m => (validate R gaussianGrid [m]).map Prod.snd = some 0

variable {d : CycleDate} {api : GribApi (getNPoints d)} {naming : InputNaming}
  {contents : Str → Option (List (GribRecord (getNPoints d)))} {q : ProcessQueue} {cycle : Str}

theorem recordIn_eq {R : Rounding} {ends : Output (getNPoints d) → Dt}
    {outputs : List (Output (getNPoints d))} {f : Str}
    (hf : f ∈ outputs.map (Output.fileName d)) : ∃ o ∈ outputs, o.fileName d = f ∧
      recordIn R d ends outputs f = (writtenRecord R d (ends o) o).toOption := by
  obtain ⟨o, ho, hname⟩ := List.mem_map.mp hf
  cases hfind : outputs.reverse.find? fun o => o.fileName d = f with
  | none =>
    have hnone := List.find?_eq_none.mp hfind o (List.mem_reverse.mpr ho)
    exact absurd (decide_eq_true hname) hnone
  | some o' =>
    refine ⟨o', List.mem_reverse.mp (List.mem_of_find?_eq_some hfind),
      by simpa using List.find?_some hfind, ?_⟩
    rw [recordIn, hfind]
    rfl

/-- The files of a run that output QC counts. -/
theorem countsPass_main (hcycle : isDtg cycle) (hparse : parseDate cycle = some d)
    (h : Available (ncepSource api naming d contents) q (getNMembers d))
    (hq : ∀ v ∈ countedVariables, requested q v) :
    (∀ f ∈ (main d api naming contents q).written.map (Output.fileName d),
        IsProgramFile cycle d f) ∧
      countsPass cycle
        ((main d api naming contents q).written.map (Output.fileName d)) := by
  obtain ⟨hl, hs⟩ := isDtg_digits hcycle
  have hmembers := getNMembers_eq_perl hl hs hparse
  have hhours : ∀ fff, fff ∈ forecastHours ↔ ∃ hour < hoursPerMember, fff = 6 * hour := by
    intro fff
    have hcount : hoursPerMember = FCT_HOURS / FCT_INC + 1 := by rw [hoursPerMember]; rfl
    simp only [forecastHours, List.mem_map, List.mem_range, hcount, FCT_INC, mul_comm, eq_comm]
  have hprogram : ∀ f ∈ (main d api naming contents q).written.map (Output.fileName d),
      IsProgramFile cycle d f := by
    intro f hf
    obtain ⟨v, -, -, hour, hlt, em, hem, rfl⟩ := (mem_main_fileNames h).mp hf
    exact ⟨v, mem_variableFiles.mpr ⟨_, (hhours _).mpr ⟨hour, hlt, rfl⟩, em, hmembers ▸ hem, rfl⟩⟩
  refine ⟨hprogram, countsPass_of_required hl hs (dateString_parseDate hl hs hparse).1
    (nodup_main_fileNames h) (fun f hf => hprogram f (mem_of_mem_cycleFileList hf)) ?_⟩
  intro f hf
  obtain ⟨v, hv, hfile⟩ := List.mem_flatMap.mp hf
  obtain ⟨fff, hfff, em, hem, rfl⟩ := mem_variableFiles.mp hfile
  obtain ⟨hour, hlt, rfl⟩ := (hhours fff).mp hfff
  have hproduct : ∀ v ∈ countedVariables, v ∈ products := by decide
  exact (mem_main_fileNames h).mpr ⟨v, hproduct v hv, hq v hv, hour, hlt, em, hmembers ▸ hem, rfl⟩

/-- Output QC passes the files of a run that found every record and was asked for every variable
that is counted, whatever else it was asked for. -/
theorem main_passesQcOutput (R : Rounding) (gaussianGrid : Checker Unit) (hcycle : isDtg cycle)
    (hparse : parseDate cycle = some d) (hd : IsCycle d)
    (h : Available (ncepSource api naming d contents) q (getNMembers d))
    (hq : ∀ v ∈ countedVariables, requested q v) (ends : Output (getNPoints d) → Dt)
    (hends : ∀ o ∈ (main d api naming contents q).written, Storable (ends o).time) :
    qcOutput ⟨true, tiggeCheckSilent R gaussianGrid cycle
        ((main d api naming contents q).written.map (Output.fileName d))
        (recordIn R d ends (main d api naming contents q).written), true⟩ cycle false
      ((main d api naming contents q).written.map (Output.fileName d)) = true := by
  obtain ⟨hprogram, hcount⟩ := countsPass_main hcycle hparse h hq
  have hsilent : tiggeCheckSilent R gaussianGrid cycle
      ((main d api naming contents q).written.map (Output.fileName d))
      (recordIn R d ends (main d api naming contents q).written) = true := by
    refine List.all_eq_true.mpr fun tVar htVar => List.all_eq_true.mpr fun f hf => ?_
    obtain ⟨v, rfl⟩ := exists_shortName_of_mem htVar
    have hfile := mem_filter_varPattern
      (fun f hf => hprogram f (mem_of_mem_cycleFileList hf)) hf
    obtain ⟨fff, -, em, -, rfl⟩ := mem_variableFiles.mp hfile
    obtain ⟨o, ho, hname, hrecord⟩ := @recordIn_eq d R ends _ _
      (mem_of_mem_cycleFileList (List.mem_filter.mp hf).1)
    obtain ⟨-, hv, hfff, hsix, hem⟩ := main_written h ho
    have hstart : startsLate o = false := by
      have hcounted : ∀ v ∈ countedVariables, v ≠ snowFallWaterEquivalent := by decide
      have hvar := (generateFileName_injective hname).1
      exact decide_eq_false fun hlate =>
        hcounted v (mem_countedVariables.mpr htVar) (hvar ▸ hlate.1)
    have herrors : ∀ o' ∈ [o], errors R gaussianGrid (recordValues R d (ends o') o').message =
        some (expectedErrors o') := by
      intro o' ho'
      rw [List.mem_singleton.mp ho']
      exact record_errors hd hv hfff hsix hem gaussianGrid
    have hverdict := validate_records herrors
    rw [List.countP_cons, hstart] at hverdict
    rw [hrecord, writtenRecord_eq hd (by omega) (members_lt hem) (hends o ho)]
    exact decide_eq_true (congrArg (Option.map Prod.snd) hverdict)
  rw [qcOutput, hcycle, hcount, hsilent]
  rfl

theorem main_passesQcOutput_2021 : ∃ ends : Output (getNPoints ⟨2021, 1, 1, 0⟩) → Dt,
    (∀ o ∈ (main ⟨2021, 1, 1, 0⟩ plainApi plainNaming (fun _ => some (recordsOf searchedKeys))
        fillQueueWithDefault).written,
      ∃ n, timeAdd n (tmInit ⟨2021, 1, 1, 0⟩) (tmEnd o.fff) = some (ends o)) ∧
    qcOutput ⟨true, tiggeCheckSilent binary64 (pure ()) "2021010100".toList
        ((main ⟨2021, 1, 1, 0⟩ plainApi plainNaming (fun _ => some (recordsOf searchedKeys))
          fillQueueWithDefault).written.map (Output.fileName ⟨2021, 1, 1, 0⟩))
        (recordIn binary64 ⟨2021, 1, 1, 0⟩ ends
          (main ⟨2021, 1, 1, 0⟩ plainApi plainNaming (fun _ => some (recordsOf searchedKeys))
            fillQueueWithDefault).written), true⟩ "2021010100".toList false
      ((main ⟨2021, 1, 1, 0⟩ plainApi plainNaming (fun _ => some (recordsOf searchedKeys))
        fillQueueWithDefault).written.map (Output.fileName ⟨2021, 1, 1, 0⟩)) = true := by
  have h := @available_of_searchedKeys (getNPoints ⟨2021, 1, 1, 0⟩) plainApi ⟨2021, 1, 1, 0⟩
    fillQueueWithDefault (getNMembers ⟨2021, 1, 1, 0⟩)
  obtain ⟨ends, hends⟩ := exists_ends isCycle_2021 h
  exact ⟨ends, fun o ho => (hends o ho).1, main_passesQcOutput binary64 (pure ()) (by decide)
    (by decide) isCycle_2021 h (by decide) ends fun o ho => (hends o ho).2⟩

end OutputQc

end Tigge
