import Tigge.FilteredMessages

/-! When grib_filter converts a whole file of the centre kwbc. -/

namespace Tigge

open FilterRules GribMessage

/-- The keys that every message of an ensemble on a latitude and longitude grid codes and the rules
set or read. -/
def presentKeys : List GribKey :=
  [.centre, .productionStatusOfProcessedData, .subdivisionsOfBasicAngle, .localTablesVersion,
    .tablesVersion, .numberOfForecastsInEnsemble, .discipline, .parameterCategory,
    .parameterNumber, .typeOfFirstFixedSurface, .scaleFactorOfFirstFixedSurface,
    .scaledValueOfFirstFixedSurface, .typeOfSecondFixedSurface, .scaleFactorOfSecondFixedSurface,
    .scaledValueOfSecondFixedSurface]

/-- The names of the centre kwbc stand first in the table. -/
def ShortNames.OfKwbc (names : ShortNames) : Prop :=
  ∀ name ∈ appliedNames, conceptGet (names.concepts 7) name = conceptGet kwbcConcepts name

theorem ShortNames.OfKwbc.describeParameters {names : ShortNames} (hnames : names.OfKwbc) :
    names.DescribeParameters := by
  intro name hname c hc e he
  apply kwbcConcepts_describe name hname e
  rw [← hnames name hname, hc]
  exact he

/-- What the rules need of a message: edition 2, a number of members that has a successor, and for
the extremes of temperature at 2 m the key of a statistical product. -/
structure Convertible (m : GribMessage) : Prop where
  edition : m.getLong .editionNumber = .ok 2
  members : m.getLong .numberOfForecastsInEnsemble ≠ .ok 255
  statistical : (isParameter 0 5 103).holds m = true ∨ (isParameter 0 4 103).holds m = true →
    (m .typeOfStatisticalProcessing).isSome

section Completion

variable {names : ShortNames} {m m' : GribMessage}

theorem gribSetValues_present {values : List (ConceptKey × ℤ)} {k : GribKey}
    (h : gribSetValues m values = .ok m') :
    ((m k).isSome → (m' k).isSome) ∧ ∀ e ∈ values, e.1 = .coded k → (m k).isSome := by
  induction values generalizing m with
  | nil =>
    cases h
    exact ⟨fun h => h, fun e he => absurd he List.not_mem_nil⟩
  | cons e values ih =>
    obtain ⟨key | _, v⟩ := e
    · simp only [gribSetValues] at h
      split at h
      · cases h
      · rename_i m₁ hset
        obtain ⟨hkeep, hlater⟩ := ih h
        refine ⟨fun hk => hkeep (setLong_present hset hk), fun e he hkey => ?_⟩
        by_cases heq : k = key
        · exact heq ▸ (GribMessage.setLong_cases hset).1
        · rcases List.mem_cons.mp he with rfl | he
          · cases hkey
            exact absurd rfl heq
          · exact setLong_frame hset heq ▸ hlater e he hkey
    · cases h

theorem run_present {a : FilterAction} {out : List FilterOutput} {k : GribKey} (ha : a.isSetting)
    (h : (filterMeaning names).run a m = .ok (m', out)) (hk : (m k).isSome) : (m' k).isSome := by
  cases a with
  | set name c =>
    obtain ⟨-, v, -, hset⟩ := run_set h
    exact setLong_present hset hk
  | setTiggeShortName value =>
    obtain ⟨-, centre, -, happly⟩ := run_setTiggeShortName h
    simp only [gribConceptApply] at happly
    split at happly
    · cases happly
    · exact (gribSetValues_present happly).1 hk
  | assert c =>
    obtain ⟨-, rfl, -⟩ := run_assert h
    exact hk
  | print text => cases ha
  | write => cases ha

theorem setLong_ok {k : GribKey} {v : ℤ} (hk : (m k).isSome)
    (hv : (k.coding.pack v).toBool = true) : ∃ m', m.setLong k v = .ok m' := by
  cases hraw : k.coding.pack v with
  | error e =>
    rw [hraw] at hv
    cases hv
  | ok raw => exact ⟨_, GribMessage.setLong_of_pack hk hraw⟩

theorem gribSetValues_ok {values : List (ConceptKey × ℤ)}
    (h : ∀ e ∈ values, ∃ k, e.1 = .coded k ∧ (m k).isSome ∧ (k.coding.pack e.2).toBool = true) :
    ∃ m', gribSetValues m values = .ok m' := by
  induction values generalizing m with
  | nil => exact ⟨m, rfl⟩
  | cons e values ih =>
    obtain ⟨key, v⟩ := e
    obtain ⟨k, hkey, hk, hv⟩ := h (key, v) List.mem_cons_self
    dsimp only at hkey hv
    subst hkey
    obtain ⟨m₁, hset⟩ := setLong_ok hk hv
    simp only [gribSetValues, hset]
    apply ih
    intro e he
    obtain ⟨k', hkey', hk', hv'⟩ := h e (List.mem_cons_of_mem _ he)
    exact ⟨k', hkey', setLong_present hset hk', hv'⟩

theorem run_set_ok {name : GribKey} {c : GribExpression} {v : ℤ} (hname : (m name).isSome)
    (hc : c.evaluateLong m = .ok v) (hv : (name.coding.pack v).toBool = true) :
    ∃ m', (filterMeaning names).run (.set name c) m = .ok (m', []) := by
  obtain ⟨m', hset⟩ := setLong_ok hname hv
  obtain ⟨raw, hraw⟩ := Option.isSome_iff_exists.mp hname
  refine ⟨m', ?_⟩
  simp only [filterMeaning, hraw, hc, hset]

/-- The state of the rules after the header. -/
structure Prepared (m : GribMessage) : Prop where
  centre : m.getLong .centre = .ok 7
  status : m.getLong .productionStatusOfProcessedData = .ok 4
  present : ∀ k ∈ presentKeys, (m k).isSome

/-- What a setting of parameters keeps of a prepared message. -/
theorem Prepared.of_run (hm : Prepared m) (hnames : names.OfKwbc) {a : FilterAction}
    {out : List FilterOutput} (ha : a.isSetting) (hkeys : ∀ k ∈ a.mightSet, k ∈ parameterKeys)
    (h : (filterMeaning names).run a m = .ok (m', out)) : Prepared m' where
  centre := by
    have hkeep := run_frame hnames.describeParameters hm.centre (k := .centre) ha h fun hk =>
      absurd (hkeys _ hk) (by decide)
    exact (GribMessage.getLong_congr hkeep).trans hm.centre
  status := by
    have hkeep := run_frame hnames.describeParameters hm.centre
      (k := .productionStatusOfProcessedData) ha h fun hk => absurd (hkeys _ hk) (by decide)
    exact (GribMessage.getLong_congr hkeep).trans hm.status
  present := fun k hk => run_present ha h (hm.present k hk)

/-- A value of a name fits its key, which is present in every message or, for the extremes, in a
statistical one. -/
def fits (name : String) (e : ConceptKey × ℤ) : Bool :=
  match e.1 with
  | .isTigge => false
  | .coded k => (k.coding.pack e.2).toBool &&
    (k ∈ presentKeys || k = .typeOfStatisticalProcessing && name ∈ ["mn2t6", "mx2t6"])

theorem kwbcConcepts_fit : ∀ name ∈ appliedNames,
    (conceptGet kwbcConcepts name).map (fun c => c.conditions.all (fits name)) = some true := by
  decide

theorem run_setTiggeShortName_ok (hnames : names.OfKwbc) (hm : Prepared m) {name : String}
    (hname : name ∈ appliedNames) (hstatistical : name ∈ ["mn2t6", "mx2t6"] →
      (m .typeOfStatisticalProcessing).isSome) :
    ∃ m', (filterMeaning names).run (.setTiggeShortName name) m = .ok (m', []) := by
  have hfit := kwbcConcepts_fit name hname
  rw [← hnames name hname] at hfit
  obtain ⟨c, hc, hall⟩ := Option.map_eq_some_iff.mp hfit
  obtain ⟨m', hm'⟩ : ∃ m', gribSetValues m c.conditions = .ok m' := by
    apply gribSetValues_ok
    intro e he
    have hfits := List.all_eq_true.mp hall e he
    obtain ⟨k | _, v⟩ := e
    · simp only [fits, Bool.and_eq_true, Bool.or_eq_true, decide_eq_true_eq] at hfits
      obtain ⟨hpack, hk | ⟨rfl, hext⟩⟩ := hfits
      · exact ⟨k, rfl, hm.present k hk, hpack⟩
      · exact ⟨_, rfl, hstatistical hext, hpack⟩
    · cases hfits
  have hstatus : hasTiggeShortName m = true := by
    rw [hasTiggeShortName, hm.status]
    rfl
  refine ⟨m', ?_⟩
  simp only [filterMeaning, hm.centre, hstatus, if_true, gribConceptApply, hc, hm']

/-- An action that no prepared message refuses. -/
def FilterAction.isPlain : FilterAction → Bool
  | .set k (.long v) => k ∈ presentKeys && k ∈ parameterKeys && (k.coding.pack v).toBool
  | .set k .missing => k ∈ presentKeys && k ∈ parameterKeys &&
    (k.coding.pack gribMissingLong).toBool
  | .setTiggeShortName name => name ∈ appliedNames && name ∉ ["mn2t6", "mx2t6"]
  | _ => false

theorem run_isPlain (hnames : names.OfKwbc)
    {a : FilterAction} (ha : a.isPlain) (hm : Prepared m) :
    ∃ m' out, (filterMeaning names).run a m = .ok (m', out) ∧ Prepared m' := by
  have hset : ∀ k c v, c.evaluateLong m = .ok v → k ∈ presentKeys → k ∈ parameterKeys →
      (k.coding.pack v).toBool = true →
        ∃ m' out, (filterMeaning names).run (.set k c) m = .ok (m', out) ∧ Prepared m' := by
    intro k c v hc hk hkeys hv
    obtain ⟨m', hrun⟩ := @run_set_ok names _ _ _ _ (hm.present k hk) hc hv
    refine ⟨m', [], hrun, hm.of_run hnames rfl (fun k' hk' => ?_) hrun⟩
    rw [List.mem_singleton.mp hk']
    exact hkeys
  cases a with
  | set k c =>
    cases c with
    | long v =>
      simp only [FilterAction.isPlain, Bool.and_eq_true, decide_eq_true_eq] at ha
      exact hset k _ v rfl ha.1.1 ha.1.2 ha.2
    | missing =>
      simp only [FilterAction.isPlain, Bool.and_eq_true, decide_eq_true_eq] at ha
      exact hset k _ gribMissingLong rfl ha.1.1 ha.1.2 ha.2
    | accessor name => cases ha
    | binop op left right => cases ha
  | setTiggeShortName name =>
    simp only [FilterAction.isPlain, Bool.and_eq_true, decide_eq_true_eq] at ha
    obtain ⟨m', hrun⟩ := run_setTiggeShortName_ok hnames hm ha.1 fun h => absurd h ha.2
    have hsetting : (FilterAction.setTiggeShortName name).isSetting := decide_eq_true ha.1
    exact ⟨m', [], hrun, hm.of_run hnames hsetting (fun k hk => hk) hrun⟩
  | assert c => cases ha
  | print text => cases ha
  | write => cases ha

theorem completes_isPlain (hnames : names.OfKwbc)
    {p : FilterRules} (hp : ∀ a ∈ p.occurring, a.isPlain) :
    Program.Completes (filterMeaning names) Prepared p Prepared := by
  apply Program.Completes.invariant (filterMeaning_test names)
  intro a ha s hs
  exact run_isPlain hnames (hp a ha) hs

/-- A rule for an extreme of temperature. -/
theorem completes_extreme (hnames : names.OfKwbc)
    {name : String} (hname : name ∈ ["mn2t6", "mx2t6"]) {c : GribExpression}
    {P : GribMessage → Prop} (hP : ∀ s, P s → Prepared s ∧
      (c.holds s = true → (s .typeOfStatisticalProcessing).isSome)) {Q : GribMessage → Prop}
    (hyes : ∀ s, Prepared s → (s .typeOfStatisticalProcessing).isSome → Q s)
    (hno : ∀ s, P s → c.holds s = false → Q s) :
    Program.Completes (filterMeaning names) P (ifThen c [.setTiggeShortName name]) Q := by
  have happlied : name ∈ appliedNames := by
    rcases List.mem_cons.mp hname with rfl | hname
    · decide
    · rw [List.mem_singleton.mp hname]
      decide
  apply Program.Completes.branch (fun s => filterMeaning_test names (.condition c) s) (Q := Q)
  · apply Program.Completes.command (Q := Q) _ Program.Completes.done
    rintro s ⟨hs, hholds⟩
    obtain ⟨hprepared, hstatistical⟩ := hP s hs
    have hkey := hstatistical hholds
    obtain ⟨m', hrun⟩ := run_setTiggeShortName_ok hnames hprepared happlied fun _ => hkey
    have hset : (FilterAction.setTiggeShortName name).isSetting := decide_eq_true happlied
    exact ⟨m', [], hrun, hyes m' (hprepared.of_run hnames hset (fun k hk => hk) hrun)
      (run_present hset hrun hkey)⟩
  · exact Program.Completes.done.mono (fun s hs => hno s hs.1 hs.2) fun _ hs => hs
  · exact Program.Completes.done

/-- The rules after the two for the extremes. -/
def plainRules : FilterRules :=
  .sequence [
    ifThen (isParameter 6 1 200) [.setTiggeShortName "tcc"],
    ifThen (isParameter 3 1 101) [.setTiggeShortName "msl"],
    convectiveRules 6,
    convectiveRules 7,
    ifThen (isParameter 0 0 1) [.setTiggeShortName "skt"],
    ifThen (isParameter 1 13 1) [.setTiggeShortName "sd"],
    ifThen (isParameter 1 8 1) [.setTiggeShortName "tp"]]

theorem settingRules_eq : settingRules = headerRules.append
    (((ifThen (isParameter 0 5 103) [.setTiggeShortName "mn2t6"]).append
      ((ifThen (isParameter 0 4 103) [.setTiggeShortName "mx2t6"]).append plainRules)).append
        (surfaceRules.append .done)) := rfl

theorem plainRules_isPlain : ∀ a ∈ plainRules.occurring, a.isPlain = true := by
  decide

theorem surfaceRules_isPlain : ∀ a ∈ (surfaceRules.append .done).occurring, a.isPlain = true := by
  decide

/-- The rules after the header complete on a message whose extremes are statistical. -/
theorem completes_laterRules (hnames : names.OfKwbc) :
    Program.Completes (filterMeaning names) (fun s => Prepared s ∧
      ((isParameter 0 5 103).holds s = true ∨ (isParameter 0 4 103).holds s = true →
        (s .typeOfStatisticalProcessing).isSome))
      (((ifThen (isParameter 0 5 103) [.setTiggeShortName "mn2t6"]).append
        ((ifThen (isParameter 0 4 103) [.setTiggeShortName "mx2t6"]).append plainRules)).append
          (surfaceRules.append .done)) Prepared := by
  refine Program.Completes.append (Q := Prepared) ?_
    (completes_isPlain hnames surfaceRules_isPlain)
  refine (completes_extreme hnames (by decide)
    (fun s hs => ⟨hs.1, fun h => hs.2 (.inl h)⟩)
    (Q := fun s => Prepared s ∧ ((isParameter 0 4 103).holds s = true →
      (s .typeOfStatisticalProcessing).isSome)) (fun s hs hkey => ⟨hs, fun _ => hkey⟩)
    fun s hs _ => ⟨hs.1, fun h => hs.2 (.inr h)⟩).append ?_
  exact (completes_extreme hnames (by decide) (fun s hs => hs) (Q := Prepared)
    (fun s hs _ => hs) fun s hs _ => hs.1).append
      (completes_isPlain hnames plainRules_isPlain)

/-- The keys of a message of an ensemble of the centre kwbc. -/
structure OfKwbc (m : GribMessage) : Prop where
  centre : m.getLong .centre = .ok 7
  present : ∀ k ∈ presentKeys, (m k).isSome

theorem completes_headerRules (hm : OfKwbc m) (hedition : m.getLong .editionNumber = .ok 2)
    (hmembers : m.getLong .numberOfForecastsInEnsemble ≠ .ok 255) :
    Program.Completes (filterMeaning names) (fun s => s = m) headerRules fun _ => True := by
  let Q : GribMessage → Prop := fun s => (∀ k ∈ presentKeys, (s k).isSome) ∧
    s .numberOfForecastsInEnsemble = m .numberOfForecastsInEnsemble
  have hset : ∀ k c v, k ∈ presentKeys → k ≠ .numberOfForecastsInEnsemble →
      (∀ s, c.evaluateLong s = .ok v) → (k.coding.pack v).toBool = true → ∀ s, Q s →
        ∃ s' out, (filterMeaning names).run (.set k c) s = .ok (s', out) ∧ Q s' := by
    intro k c v hk hne hc hv s hs
    obtain ⟨s', hrun⟩ := @run_set_ok names _ _ _ _ (hs.1 k hk) (hc s) hv
    obtain ⟨-, w, hw, hlong⟩ := run_set hrun
    exact ⟨s', [], hrun, fun k' hk' => setLong_present hlong (hs.1 k' hk'),
      (setLong_frame hlong hne.symm).trans hs.2⟩
  apply Program.Completes.command (Q := Q)
  · rintro s rfl
    have hholds := GribExpression.holds_isEq.mpr hedition
    refine ⟨s, [], ?_, hm.present, rfl⟩
    rw [GribExpression.holds] at hholds
    cases hv : GribExpression.evaluateLong s (isEq GribKey.editionNumber 2) with
    | error e =>
      rw [hv] at hholds
      cases hholds
    | ok v =>
      rw [hv] at hholds
      simp only [filterMeaning, hv]
      exact if_neg (of_decide_eq_true hholds)
  apply Program.Completes.command (Q := Q) (hset _ _ 4 (by decide) (by decide) (fun _ => rfl) rfl)
  apply Program.Completes.command (Q := Q)
    (hset _ _ gribMissingLong (by decide) (by decide) (fun _ => rfl) rfl)
  apply Program.Completes.command (Q := Q) (hset _ _ 0 (by decide) (by decide) (fun _ => rfl) rfl)
  apply Program.Completes.command (Q := Q) (hset _ _ 5 (by decide) (by decide) (fun _ => rfl) rfl)
  apply Program.Completes.command (Q := fun _ => True) _ Program.Completes.done
  intro s hs
  obtain ⟨raw, hraw⟩ := Option.isSome_iff_exists.mp
    (hs.1 .numberOfForecastsInEnsemble (by decide))
  have hget := GribMessage.getLong_of_eq hraw
  have hmget := GribMessage.getLong_of_eq (hs.2 ▸ hraw)
  rw [Coding.unpack_unsigned rfl rfl] at hget hmget
  have hlt := raw.isLt
  have hsize : GribKey.numberOfForecastsInEnsemble.coding.size = 256 := rfl
  have hne : raw.val ≠ 255 := by
    intro h
    rw [h] at hmget
    exact hmembers hmget
  have hrange : GribKey.numberOfForecastsInEnsemble.coding.Represents ((raw.val : ℤ) + 1) :=
    .inr ⟨⟨by omega, by omega⟩, fun h => by cases h.1⟩
  obtain ⟨raw', hpack, -⟩ := (Coding.unpack_pack_iff (GribKey.coding_wellFormed _) _).mpr hrange
  obtain ⟨s', hrun⟩ := @run_set_ok names s _ (.binop .add
    (.accessor .numberOfForecastsInEnsemble) (.long 1)) _ (by rw [hraw]; rfl)
    (by simp only [GribExpression.evaluateLong, hget]; rfl)
    (show (GribKey.numberOfForecastsInEnsemble.coding.pack ((raw.val : ℤ) + 1)).toBool = true by
      rw [hpack]; rfl)
  exact ⟨s', [], hrun, trivial⟩

theorem kwbcConcepts_statistical : ∀ name ∈ ["mn2t6", "mx2t6"],
    (conceptGet kwbcConcepts name).map (fun c => c.conditions.any fun e =>
      e.1 = .coded .typeOfStatisticalProcessing) = some true := by
  decide

/-- A rule for an extreme that completes has found the key of a statistical product. -/
theorem statistical_of_extreme (hnames : names.OfKwbc) (hcentre : m.getLong .centre = .ok 7)
    {name : String} (hname : name ∈ ["mn2t6", "mx2t6"]) {c : GribExpression} (hc : c.holds m = true)
    (h : ((ifThen c [.setTiggeShortName name]).exec (filterMeaning names) m).result = .ok m') :
    (m .typeOfStatisticalProcessing).isSome := by
  rw [exec_ifThen, if_pos hc] at h
  obtain ⟨m₁, out, hrun, -⟩ := Program.exec_command_result _ h
  obtain ⟨-, centre, hcentre', happly⟩ := run_setTiggeShortName hrun
  rw [hcentre] at hcentre'
  cases hcentre'
  have happlied : name ∈ appliedNames := by
    rcases List.mem_cons.mp hname with rfl | hname
    · decide
    · rw [List.mem_singleton.mp hname]
      decide
  have hany := kwbcConcepts_statistical name hname
  rw [← hnames name happlied] at hany
  obtain ⟨v, hv, hany⟩ := Option.map_eq_some_iff.mp hany
  obtain ⟨e, he, hkey⟩ := List.any_eq_true.mp hany
  simp only [gribConceptApply, hv] at happly
  exact (gribSetValues_present happly).2 e he (of_decide_eq_true hkey)

theorem isParameter_congr {s : GribMessage} {category number surface : ℤ}
    (hcategory : s .parameterCategory = m .parameterCategory)
    (hnumber : s .parameterNumber = m .parameterNumber)
    (hsurface : s .typeOfFirstFixedSurface = m .typeOfFirstFixedSurface)
    (hdiscipline : s .discipline = m .discipline) :
    (isParameter category number surface).holds s =
      (isParameter category number surface).holds m := by
  rw [Bool.eq_iff_iff]
  simp only [isParameter, GribExpression.holds_both, GribExpression.holds_isEq,
    GribMessage.getLong_congr hcategory, GribMessage.getLong_congr hnumber,
    GribMessage.getLong_congr hsurface, GribMessage.getLong_congr hdiscipline]

/-- What the header leaves of a message. -/
theorem headerRules_frame (hnames : names.OfKwbc) (hm : m.getLong .centre = .ok 7)
    (h : (headerRules.exec (filterMeaning names) m).result = .ok m') :
    m' .centre = m .centre ∧ (∀ category number surface,
      (isParameter category number surface).holds m' =
        (isParameter category number surface).holds m) ∧
      m' .typeOfStatisticalProcessing = m .typeOfStatisticalProcessing := by
  have hkeep : ∀ k, (∀ a ∈ headerRules.occurring,
      a.isSetting ∧ .centre ∉ a.mightSet ∧ k ∉ a.mightSet) → m' k = m k := fun k hk =>
    ((settings_frame hnames.describeParameters hk (m k) m ⟨hm, rfl⟩).2 m' h).2
  refine ⟨hkeep _ (by decide), fun category number surface => ?_, hkeep _ (by decide)⟩
  exact isParameter_congr (hkeep _ (by decide)) (hkeep _ (by decide)) (hkeep _ (by decide))
    (hkeep _ (by decide))

theorem settingRules_completes_iff (hnames : names.OfKwbc)
    (hm : OfKwbc m) :
    (∃ m', (settingRules.exec (filterMeaning names) m).result = .ok m') ↔ Convertible m := by
  constructor
  · rintro ⟨m', h⟩
    have hconverted := converted_of_settingRules hnames.describeParameters hm.centre h
    rw [settingRules_eq] at h
    obtain ⟨m₁, hheader, hlater⟩ := Program.exec_append_result _ h
    obtain ⟨hcentre, hparameter, hstatistical⟩ := headerRules_frame hnames hm.centre hheader
    obtain ⟨m₂, hlater, -⟩ := Program.exec_append_result _ hlater
    obtain ⟨m₃, hmin, hlater⟩ := Program.exec_append_result _ hlater
    obtain ⟨m₄, hmax, -⟩ := Program.exec_append_result _ hlater
    have hcentre₁ : m₁.getLong .centre = .ok 7 :=
      (GribMessage.getLong_congr hcentre).trans hm.centre
    refine ⟨hconverted.edition, fun h255 => ?_, fun hextreme => ?_⟩
    · obtain ⟨n, hn, hn'⟩ := hconverted.members
      rw [h255] at hn
      cases hn
      cases hraw : m' .numberOfForecastsInEnsemble with
      | none =>
        rw [GribMessage.getLong, hraw] at hn'
        cases hn'
      | some raw =>
        rw [GribMessage.getLong_of_eq hraw, Coding.unpack_unsigned rfl rfl] at hn'
        have hlt := raw.isLt
        have hsize : GribKey.numberOfForecastsInEnsemble.coding.size = 256 := rfl
        have hval := Except.ok.inj hn'
        omega
    · rw [← hstatistical]
      by_cases hfirst : (isParameter 0 5 103).holds m = true
      · exact statistical_of_extreme hnames hcentre₁ (by decide)
          ((hparameter 0 5 103).trans hfirst) hmin
      · have hsecond := hextreme.resolve_left hfirst
        rw [exec_ifThen, hparameter, if_neg hfirst] at hmin
        cases hmin
        exact statistical_of_extreme hnames hcentre₁ (by decide)
          ((hparameter 0 4 103).trans hsecond) hmax
  · intro hconvertible
    obtain ⟨m₁, hheader, -⟩ := @completes_headerRules names m hm hconvertible.edition
      hconvertible.members m rfl
    obtain ⟨hcentre, hparameter, hstatistical⟩ := headerRules_frame hnames hm.centre hheader
    have hprepared : Prepared m₁ := by
      refine ⟨(GribMessage.getLong_congr hcentre).trans hm.centre, (headerRules_result hheader).2.1,
        fun k hk => ?_⟩
      have hpresent : Program.Triple (filterMeaning names) (fun s => (s k).isSome) headerRules
          (fun s => (s k).isSome) fun _ => True := by
        apply Program.Triple.invariant
        intro a ha s hs s' out hrun
        exact ⟨run_present ((by decide : ∀ a ∈ headerRules.occurring, a.isSetting) a ha) hrun hs,
          fun _ _ => trivial⟩
      exact (hpresent m (hm.present k hk)).2 m₁ hheader
    obtain ⟨m', hlater, -⟩ := completes_laterRules hnames m₁ ⟨hprepared, by
      rw [hparameter, hparameter, hstatistical]
      exact hconvertible.statistical⟩
    refine ⟨m', ?_⟩
    rw [settingRules_eq, Program.exec_append, Execution.andThen_ok hheader]
    exact hlater

/-- grib_filter reaches the end of a file of the centre kwbc exactly when it can convert every
message. -/
theorem gribFilter_completes_iff (hnames : names.OfKwbc)
    {file : List GribMessage} (hfile : ∀ m ∈ file, OfKwbc m) :
    (gribFilter names file).2 = none ↔ ∀ m ∈ file, Convertible m := by
  induction file with
  | nil => exact iff_of_true rfl fun m hm => absurd hm List.not_mem_nil
  | cons m file ih =>
    have hm := settingRules_completes_iff hnames (hfile m List.mem_cons_self)
    rw [List.forall_mem_cons, ← hm]
    cases h : (settingRules.exec (filterMeaning names) m).result with
    | error e =>
      rw [gribFilter_cons_error file h]
      exact iff_of_false (by rintro ⟨⟩) (by rintro ⟨⟨m', hm'⟩, -⟩; cases hm')
    | ok m' =>
      rw [gribFilter_cons_ok file h, ih fun m hm => hfile m (List.mem_cons_of_mem _ hm)]
      exact ⟨fun h => ⟨⟨m', rfl⟩, h⟩, fun h => h.2⟩

end Completion

theorem ofKwbc_surfaceTemperature (em : ℕ) : OfKwbc (surfaceTemperature em) where
  centre := rfl
  present := List.all_eq_true.mp
    (rfl : (presentKeys.all fun k => (surfaceTemperature em k).isSome) = true)

theorem gribFilter_completes_surfaceTemperature :
    (gribFilter kwbcNames [surfaceTemperature 1, surfaceTemperature 2]).2 = none ↔
      ∀ m ∈ [surfaceTemperature 1, surfaceTemperature 2], Convertible m := by
  apply gribFilter_completes_iff
  · exact fun name _ => rfl
  · exact List.forall_mem_cons.mpr ⟨ofKwbc_surfaceTemperature 1,
      List.forall_mem_singleton.mpr (ofKwbc_surfaceTemperature 2)⟩

end Tigge
