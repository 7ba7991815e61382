import Tigge.GribFilter

/-! What grib_filter writes for a message under the rules of the conversion. -/

namespace Tigge

namespace GribExpression

theorem evaluateLong_error {m : GribMessage} {c : GribExpression} {e : GribError}
    (h : c.evaluateLong m = .error e) : e = .notFound := by
  induction c with
  | long v => cases h
  | accessor name =>
    simp only [evaluateLong, GribMessage.getLong] at h
    split at h <;> cases h
    rfl
  | missing => cases h
  | binop op left right ihl ihr =>
    simp only [evaluateLong] at h
    split at h
    · rename_i e' he'
      cases h
      exact ihl he'
    · split at h
      · rename_i e' he'
        cases h
        exact ihr he'
      · cases h

/-- An `if` takes a condition that cannot be evaluated as false. -/
def holds (m : GribMessage) (c : GribExpression) : Bool :=
  match c.evaluateLong m with
  | .error _ => false
  | .ok v => v ≠ 0

theorem holds_isEq {m : GribMessage} {k : GribKey} {v : ℤ} :
    (FilterRules.isEq k v).holds m = true ↔ m.getLong k = .ok v := by
  simp only [holds, FilterRules.isEq, evaluateLong]
  cases m.getLong k with
  | error e => simp
  | ok w =>
    simp only [GribOp.apply, ne_eq, ite_eq_right_iff, one_ne_zero, imp_false, not_not,
      decide_eq_true_eq, Except.ok.injEq]

theorem holds_isNe {m : GribMessage} {k : GribKey} {v : ℤ} :
    (FilterRules.isNe k v).holds m = true ↔ ∃ w, m.getLong k = .ok w ∧ w ≠ v := by
  simp only [holds, FilterRules.isNe, evaluateLong]
  cases m.getLong k with
  | error e => simp
  | ok w =>
    simp only [GribOp.apply, ne_eq, ite_eq_left_iff, one_ne_zero, imp_false, not_not,
      decide_eq_true_eq, Except.ok.injEq, exists_eq_left']

theorem holds_both {m : GribMessage} {c c' : GribExpression} :
    (FilterRules.both c c').holds m = true ↔ c.holds m = true ∧ c'.holds m = true := by
  simp only [holds, FilterRules.both, evaluateLong]
  cases c.evaluateLong m with
  | error e => simp
  | ok v =>
    cases c'.evaluateLong m with
    | error e => simp
    | ok w => simp [GribOp.apply]

end GribExpression

def FilterTest.holds (names : ShortNames) (m : GribMessage) : FilterTest → Bool
  | condition expression => expression.holds m
  | case value => tiggeShortName names m = some value

theorem filterMeaning_test (names : ShortNames) (t : FilterTest) (m : GribMessage) :
    (filterMeaning names).test t m = .ok (t.holds names m) := by
  cases t with
  | case value => rfl
  | condition expression =>
    simp only [filterMeaning, FilterTest.holds, GribExpression.holds]
    cases h : expression.evaluateLong m with
    | error e => rw [GribExpression.evaluateLong_error h]
    | ok v => rfl

namespace FilterRules

/-- The names that the rules set. -/
def appliedNames : List String := ["mn2t6", "mx2t6", "tcc", "msl", "skt", "sd", "tp"]

/-- The keys of a parameter. -/
def parameterKeys : List GribKey :=
  [.discipline, .parameterCategory, .parameterNumber, .typeOfFirstFixedSurface,
    .scaleFactorOfFirstFixedSurface, .scaledValueOfFirstFixedSurface, .typeOfSecondFixedSurface,
    .scaleFactorOfSecondFixedSurface, .scaledValueOfSecondFixedSurface,
    .typeOfStatisticalProcessing]

end FilterRules

open FilterRules GribMessage

/-- The values of the centre kwbc for the names that the rules set describe a parameter only. -/
def ShortNames.DescribeParameters (names : ShortNames) : Prop :=
  ∀ name ∈ appliedNames, ∀ c, conceptGet (names.concepts 7) name = some c →
    ∀ e ∈ c.conditions, ∃ k ∈ parameterKeys, e.1 = .coded k

namespace FilterAction

/-- The keys that an action may set. -/
def mightSet : FilterAction → List GribKey
  | set name _ => [name]
  | setTiggeShortName _ => parameterKeys
  | _ => []

/-- An action without output, of the names that the rules set. -/
def isSetting : FilterAction → Bool
  | set _ _ => true
  | setTiggeShortName value => value ∈ appliedNames
  | assert _ => true
  | print _ => false
  | write => false

end FilterAction

section Settings

variable {names : ShortNames} {m m' : GribMessage} {k : GribKey}

theorem gribSetValues_frame {values : List (ConceptKey × ℤ)} (h : gribSetValues m values = .ok m')
    (hk : ∀ e ∈ values, e.1 ≠ .coded k) : m' k = m k := by
  induction values generalizing m with
  | nil =>
    cases h
    rfl
  | cons e values ih =>
    obtain ⟨name | _, v⟩ := e
    · simp only [gribSetValues] at h
      split at h
      · cases h
      · rename_i m₁ hset
        have hne : k ≠ name := by
          rintro rfl
          exact hk (.coded k, v) List.mem_cons_self rfl
        rw [ih h fun e he => hk e (List.mem_cons_of_mem _ he), setLong_frame hset hne]
    · cases h

theorem run_set {name : GribKey} {c : GribExpression} {out : List FilterOutput}
    (h : (filterMeaning names).run (.set name c) m = .ok (m', out)) :
    out = [] ∧ ∃ v, c.evaluateLong m = .ok v ∧ m.setLong name v = .ok m' := by
  simp only [filterMeaning] at h
  split at h
  · cases h
  · split at h
    · cases h
    · rename_i v hv
      split at h
      · cases h
      · rename_i m₁ hset
        cases h
        exact ⟨rfl, v, hv, hset⟩

theorem run_setTiggeShortName {value : String} {out : List FilterOutput}
    (h : (filterMeaning names).run (.setTiggeShortName value) m = .ok (m', out)) :
    out = [] ∧ ∃ centre, m.getLong .centre = .ok centre ∧
      gribConceptApply (names.concepts centre) value m = .ok m' := by
  simp only [filterMeaning] at h
  split at h
  · cases h
  · rename_i centre hcentre
    split at h
    · split at h
      · cases h
      · rename_i m₁ happly
        cases h
        exact ⟨rfl, centre, hcentre, happly⟩
    · cases h

theorem run_assert {c : GribExpression} {out : List FilterOutput}
    (h : (filterMeaning names).run (.assert c) m = .ok (m', out)) :
    out = [] ∧ m' = m ∧ c.holds m = true := by
  simp only [filterMeaning] at h
  split at h
  · cases h
  · rename_i v hv
    split at h
    · cases h
    · rename_i hne
      cases h
      refine ⟨rfl, rfl, ?_⟩
      simpa [GribExpression.holds, hv] using hne

theorem run_isSetting {a : FilterAction} {out : List FilterOutput} (ha : a.isSetting)
    (h : (filterMeaning names).run a m = .ok (m', out)) : out = [] := by
  cases a with
  | set name c => exact (run_set h).1
  | setTiggeShortName value => exact (run_setTiggeShortName h).1
  | assert c => exact (run_assert h).1
  | print text => cases ha
  | write => cases ha

theorem run_frame (hnames : names.DescribeParameters) (hcentre : m.getLong .centre = .ok 7)
    {a : FilterAction} {out : List FilterOutput} (ha : a.isSetting)
    (h : (filterMeaning names).run a m = .ok (m', out)) (hk : k ∉ a.mightSet) : m' k = m k := by
  cases a with
  | set name c =>
    obtain ⟨-, v, -, hset⟩ := run_set h
    exact setLong_frame hset fun he => hk (he ▸ List.mem_singleton.mpr rfl)
  | setTiggeShortName value =>
    obtain ⟨-, centre, hcentre', happly⟩ := run_setTiggeShortName h
    rw [hcentre] at hcentre'
    cases hcentre'
    have hvalue : value ∈ appliedNames := by simpa [FilterAction.isSetting] using ha
    simp only [gribConceptApply] at happly
    split at happly
    · cases happly
    · rename_i c hc
      apply gribSetValues_frame happly
      rintro e he hek
      obtain ⟨k', hk', hek'⟩ := hnames value hvalue c hc e he
      rw [hek] at hek'
      cases hek'
      exact hk hk'
  | assert c =>
    obtain ⟨-, rfl, -⟩ := run_assert h
    rfl
  | print text => cases ha
  | write => cases ha

theorem settings_centre (hnames : names.DescribeParameters) {p : FilterRules}
    (hp : ∀ a ∈ p.occurring, a.isSetting ∧ .centre ∉ a.mightSet) :
    Program.Triple (filterMeaning names) (fun s => s.getLong .centre = .ok 7) p
      (fun s => s.getLong .centre = .ok 7) fun _ => True := by
  apply Program.Triple.invariant
  intro a ha s hs s' out h
  obtain ⟨hset, hcentre⟩ := hp a ha
  exact ⟨(GribMessage.getLong_congr (run_frame hnames hs hset h hcentre)).trans hs,
    fun _ _ => trivial⟩

/-- No output and no other key: settings only do what they say. -/
theorem settings_frame (hnames : names.DescribeParameters) {p : FilterRules}
    (hp : ∀ a ∈ p.occurring, a.isSetting ∧ .centre ∉ a.mightSet ∧ k ∉ a.mightSet)
    (value : Option k.coding.Octets) :
    Program.Triple (filterMeaning names) (fun s => s.getLong .centre = .ok 7 ∧ s k = value) p
      (fun s => s.getLong .centre = .ok 7 ∧ s k = value) fun _ => False := by
  apply Program.Triple.invariant
  rintro a ha s ⟨hcentre, hs⟩ s' out h
  obtain ⟨hset, hc, hk⟩ := hp a ha
  refine ⟨⟨?_, (run_frame hnames hcentre hset h hk).trans hs⟩, ?_⟩
  · exact (GribMessage.getLong_congr (run_frame hnames hcentre hset h hc)).trans hcentre
  · rw [run_isSetting hset h]
    exact fun o ho => absurd ho List.not_mem_nil

theorem settings_silent {p : FilterRules} (hp : ∀ a ∈ p.occurring, a.isSetting) :
    (p.exec (filterMeaning names) m).emitted = [] := by
  have h : Program.Triple (filterMeaning names) (fun _ => True) p (fun _ => True)
      fun _ => False := by
    apply Program.Triple.invariant
    intro a ha s _ s' out h
    rw [run_isSetting (hp a ha) h]
    exact ⟨trivial, fun o ho => absurd ho List.not_mem_nil⟩
  exact List.eq_nil_iff_forall_not_mem.mpr (h m trivial).1

/-- The settings of the header, one after the other. -/
theorem headerRules_result (h : (headerRules.exec (filterMeaning names) m).result = .ok m') :
    m.getLong .editionNumber = .ok 2 ∧
      m'.getLong .productionStatusOfProcessedData = .ok 4 ∧
      m'.isMissing .subdivisionsOfBasicAngle = true ∧
      m'.getLong .localTablesVersion = .ok 0 ∧ m'.getLong .tablesVersion = .ok 5 ∧
      ∃ n, m.getLong .numberOfForecastsInEnsemble = .ok n ∧
        m'.getLong .numberOfForecastsInEnsemble = .ok (n + 1) := by
  obtain ⟨m₀, out, hassert, h₁⟩ := Program.exec_command_result _ h
  obtain ⟨-, rfl, hedition⟩ := run_assert hassert
  obtain ⟨m₁, out₁, hstatus, h₂⟩ := Program.exec_command_result _ h₁
  obtain ⟨-, v₁, hv₁, hstatus⟩ := run_set hstatus
  obtain ⟨m₂, out₂, hangle, h₃⟩ := Program.exec_command_result _ h₂
  obtain ⟨-, v₂, hv₂, hangle⟩ := run_set hangle
  obtain ⟨m₃, out₃, hlocal, h₄⟩ := Program.exec_command_result _ h₃
  obtain ⟨-, v₃, hv₃, hlocal⟩ := run_set hlocal
  obtain ⟨m₄, out₄, htables, h₅⟩ := Program.exec_command_result _ h₄
  obtain ⟨-, v₄, hv₄, htables⟩ := run_set htables
  obtain ⟨m₅, out₅, hmembers, h₆⟩ := Program.exec_command_result _ h₅
  obtain ⟨-, v₅, hv₅, hmembers⟩ := run_set hmembers
  cases h₆
  cases hv₁
  cases hv₂
  cases hv₃
  cases hv₄
  have hframe : m₄ .numberOfForecastsInEnsemble = m₀ .numberOfForecastsInEnsemble := by
    rw [setLong_frame htables (by decide), setLong_frame hlocal (by decide),
      setLong_frame hangle (by decide), setLong_frame hstatus (by decide)]
  refine ⟨GribExpression.holds_isEq.mp hedition, ?_, ?_, ?_, ?_, ?_⟩
  · rw [getLong_frame hmembers (by decide), getLong_frame htables (by decide),
      getLong_frame hlocal (by decide), getLong_frame hangle (by decide)]
    exact setLong_getLong hstatus (by decide)
  · rw [GribMessage.isMissing, setLong_frame hmembers (by decide),
      setLong_frame htables (by decide), setLong_frame hlocal (by decide)]
    exact setLong_missing hangle rfl
  · rw [getLong_frame hmembers (by decide), getLong_frame htables (by decide)]
    exact setLong_getLong hlocal (by decide)
  · rw [getLong_frame hmembers (by decide)]
    exact setLong_getLong htables (by decide)
  · have hget := GribMessage.getLong_congr (k := .numberOfForecastsInEnsemble) hframe
    simp only [GribExpression.evaluateLong, hget] at hv₅
    cases hraw : m₀ .numberOfForecastsInEnsemble with
    | none =>
      rw [GribMessage.getLong, hraw] at hv₅
      cases hv₅
    | some raw =>
      have hn := GribMessage.getLong_of_eq hraw
      rw [Coding.unpack_unsigned rfl rfl] at hn
      rw [hn] at hv₅
      cases hv₅
      replace hmembers : m₄.setLong .numberOfForecastsInEnsemble ((raw.val : ℤ) + 1) = .ok m' :=
        hmembers
      obtain ⟨-, raw', hpack, -⟩ := GribMessage.setLong_cases hmembers
      have hlow := raw.isLt
      have hsize : GribKey.numberOfForecastsInEnsemble.coding.size = 256 := rfl
      have hmarker : (raw.val : ℤ) + 1 ≠ gribMissingLong := by
        rw [gribMissingLong]
        omega
      have hlt := Coding.pack_lt hpack rfl rfl (by decide) (by omega) hmarker
      have hrange : GribKey.numberOfForecastsInEnsemble.coding.InRange ((raw.val : ℤ) + 1) :=
        ⟨by omega, hlt⟩
      exact ⟨raw.val, hn, setLong_getLong hmembers (.inr ⟨hrange, fun h => by cases h.1⟩)⟩

/-- Two keys are missing wherever the key `t` has one of the values. -/
def MissingIf (t k k' : GribKey) (values : List ℤ) (m : GribMessage) : Prop :=
  ∀ v ∈ values, m.getLong t = .ok v → m.isMissing k = true ∧ m.isMissing k' = true

theorem triple_missingIf {t k k' : GribKey} {v : ℤ} (hne : k ≠ k')
    (hk : k.coding.pack gribMissingLong = .ok k.coding.allOnes)
    (hk' : k'.coding.pack gribMissingLong = .ok k'.coding.allOnes) (values : List ℤ) :
    Program.Triple (filterMeaning names) (MissingIf t k k' values)
      (ifThen (isEq t v) [.set k .missing, .set k' .missing]) (MissingIf t k k' (v :: values))
      fun _ => True := by
  apply Program.Triple.branch (Q := MissingIf t k k' (v :: values))
  · -- both keys are set, whatever the values of `t`
    apply Program.Triple.command (Q := fun s => s.isMissing k = true)
    · intro s _ s' out h
      obtain ⟨-, w, hw, hset⟩ := run_set h
      cases hw
      exact ⟨setLong_missing hset hk, fun _ _ => trivial⟩
    · apply Program.Triple.command (Q := MissingIf t k k' (v :: values)) _ Program.Triple.done
      intro s hs s' out h
      obtain ⟨-, w, hw, hset⟩ := run_set h
      cases hw
      refine ⟨fun _ _ _ => ⟨?_, setLong_missing hset hk'⟩, fun _ _ => trivial⟩
      rw [GribMessage.isMissing, setLong_frame hset hne]
      exact hs
  · apply Program.Triple.done.consequence fun s hs => ?_
    · exact fun s hs => hs
    · intro w hw hget
      rcases List.mem_cons.mp hw with rfl | hw
      · have htest := hs.2
        rw [filterMeaning_test] at htest
        have hholds : (isEq t w).holds s = true := GribExpression.holds_isEq.mpr hget
        rw [FilterTest.holds, hholds] at htest
        cases htest
      · exact hs.1 w hw hget
  · exact Program.Triple.done

theorem triple_missingIf_frame (hnames : names.DescribeParameters) {t k k' : GribKey}
    {p : FilterRules} (hp : ∀ a ∈ p.occurring, a.isSetting ∧ .centre ∉ a.mightSet ∧
      t ∉ a.mightSet ∧ k ∉ a.mightSet ∧ k' ∉ a.mightSet) (values : List ℤ) :
    Program.Triple (filterMeaning names)
      (fun s => s.getLong .centre = .ok 7 ∧ MissingIf t k k' values s) p
      (fun s => s.getLong .centre = .ok 7 ∧ MissingIf t k k' values s) fun _ => True := by
  apply Program.Triple.invariant
  rintro a ha s ⟨hcentre, hs⟩ s' out h
  obtain ⟨hset, hc, ht, hk, hk'⟩ := hp a ha
  have hcentre' := (GribMessage.getLong_congr (run_frame hnames hcentre hset h hc)).trans hcentre
  refine ⟨⟨hcentre', fun v hv hget => ?_⟩, fun _ _ => trivial⟩
  rw [GribMessage.getLong_congr (run_frame hnames hcentre hset h ht)] at hget
  rw [GribMessage.isMissing, GribMessage.isMissing, run_frame hnames hcentre hset h hk,
    run_frame hnames hcentre hset h hk']
  exact hs v hv hget

theorem surfaceRules_triple (hnames : names.DescribeParameters) :
    Program.Triple (filterMeaning names) (fun s => s.getLong .centre = .ok 7) surfaceRules
      (fun s => MissingIf .typeOfSecondFixedSurface .scaledValueOfSecondFixedSurface
          .scaleFactorOfSecondFixedSurface [8, 255] s ∧
        MissingIf .typeOfFirstFixedSurface .scaledValueOfFirstFixedSurface
          .scaleFactorOfFirstFixedSurface [101, 1] s) fun _ => True := by
  have hfirst := fun v values => @triple_missingIf names .typeOfFirstFixedSurface
    .scaledValueOfFirstFixedSurface .scaleFactorOfFirstFixedSurface v (by decide) rfl rfl values
  have hsecond := fun v values => @triple_missingIf names .typeOfSecondFixedSurface
    .scaledValueOfSecondFixedSurface .scaleFactorOfSecondFixedSurface v (by decide) rfl rfl values
  have hcentre := fun v k k' (h : ∀ a ∈ (Program.block
      [.set k .missing, .set k' .missing] : FilterRules).occurring ++ [] ++ [],
      a.isSetting ∧ .centre ∉ a.mightSet) =>
    settings_centre hnames (p := ifThen (isEq .typeOfSecondFixedSurface v)
      [.set k .missing, .set k' .missing]) h
  have hothers : ∀ a ∈ (Program.block firstSurfaceMissing : FilterRules).occurring ++ [] ++ [],
      a.isSetting ∧ .centre ∉ a.mightSet ∧ .typeOfSecondFixedSurface ∉ a.mightSet ∧
        .scaledValueOfSecondFixedSurface ∉ a.mightSet ∧
          .scaleFactorOfSecondFixedSurface ∉ a.mightSet := by decide
  have hkept := fun v => triple_missingIf_frame hnames
    (p := ifThen (isEq .typeOfFirstFixedSurface v) firstSurfaceMissing) hothers [8, 255]
  refine Program.Triple.append (((hcentre 255 _ _ (by decide)).and (hsecond 255 [])).consequence
    (fun _ h => ⟨h, fun v hv => by cases hv⟩) fun _ h => h) ?_
  refine ((hcentre 8 _ _ (by decide)).and (hsecond 8 [255])).append ?_
  refine (((hkept 1).and (hfirst 1 [])).consequence
    (fun _ h => ⟨h, fun v hv => by cases hv⟩) fun _ h => h).append ?_
  exact (((hkept 101).and (hfirst 101 [1])).append Program.Triple.done).consequence
    (fun _ h => h) fun _ h => ⟨h.1.2, h.2⟩

/-- The keys that the rules may change. -/
def convertedKeys : List GribKey :=
  [.productionStatusOfProcessedData, .subdivisionsOfBasicAngle, .localTablesVersion,
    .tablesVersion, .numberOfForecastsInEnsemble] ++ parameterKeys

/-- What the settings make of a message. -/
structure Converted (m m' : GribMessage) : Prop where
  edition : m.getLong .editionNumber = .ok 2
  status : m'.getLong .productionStatusOfProcessedData = .ok 4
  basicAngle : m'.isMissing .subdivisionsOfBasicAngle = true
  localTables : m'.getLong .localTablesVersion = .ok 0
  tables : m'.getLong .tablesVersion = .ok 5
  members : ∃ n, m.getLong .numberOfForecastsInEnsemble = .ok n ∧
    m'.getLong .numberOfForecastsInEnsemble = .ok (n + 1)
  firstSurface : MissingIf .typeOfFirstFixedSurface .scaledValueOfFirstFixedSurface
    .scaleFactorOfFirstFixedSurface [101, 1] m'
  secondSurface : MissingIf .typeOfSecondFixedSurface .scaledValueOfSecondFixedSurface
    .scaleFactorOfSecondFixedSurface [8, 255] m'
  others : ∀ k ∉ convertedKeys, m' k = m k

theorem settingRules_settings : ∀ a ∈ settingRules.occurring, a.isSetting = true := by
  decide

theorem settingRules_keys : ∀ a ∈ settingRules.occurring, ∀ k ∈ a.mightSet, k ∈ convertedKeys := by
  decide

theorem laterRules_keys : ∀ a ∈ (Program.sequence [parameterRules, surfaceRules]).occurring,
    a.isSetting ∧ ∀ k ∈ a.mightSet, k ∈ parameterKeys := by
  decide

theorem converted_of_settingRules (hnames : names.DescribeParameters)
    (hcentre : m.getLong .centre = .ok 7)
    (h : (settingRules.exec (filterMeaning names) m).result = .ok m') : Converted m m' := by
  obtain ⟨m₁, hheader, hlater⟩ := Program.exec_append_result _ h
  obtain ⟨hedition, hstatus, hangle, hlocal, htables, hmembers⟩ := headerRules_result hheader
  have hcentre₁ : m₁.getLong .centre = .ok 7 :=
    (settings_centre hnames (by decide) m hcentre).2 m₁ hheader
  have hkeep : ∀ k ∉ parameterKeys, m' k = m₁ k := by
    intro k hk
    refine ((settings_frame hnames (fun a ha => ?_) (m₁ k) m₁ ⟨hcentre₁, rfl⟩).2 m' hlater).2
    obtain ⟨hset, hkeys⟩ := laterRules_keys a ha
    exact ⟨hset, fun hmem => absurd (hkeys _ hmem) (by decide), fun hmem => hk (hkeys k hmem)⟩
  have hget : ∀ k ∉ parameterKeys, m'.getLong k = m₁.getLong k := fun k hk =>
    GribMessage.getLong_congr (hkeep k hk)
  obtain ⟨m₂, hparameter, hsurface⟩ := Program.exec_append_result _ hlater
  have hcentre₂ : m₂.getLong .centre = .ok 7 :=
    (settings_centre hnames (by decide) m₁ hcentre₁).2 m₂ hparameter
  obtain ⟨hsecond, hfirst⟩ :=
    ((surfaceRules_triple hnames).append Program.Triple.done m₂ hcentre₂).2 m' hsurface
  exact {
    edition := hedition
    status := (hget _ (by decide)).trans hstatus
    basicAngle := by rw [GribMessage.isMissing, hkeep _ (by decide)]; exact hangle
    localTables := (hget _ (by decide)).trans hlocal
    tables := (hget _ (by decide)).trans htables
    members := by rw [hget _ (by decide)]; exact hmembers
    firstSurface := hfirst
    secondSurface := hsecond
    others := by
      intro k hk
      refine ((settings_frame hnames (fun a ha => ?_) (m k) m ⟨hcentre, rfl⟩).2 m' h).2
      exact ⟨settingRules_settings a ha, fun hmem => absurd (settingRules_keys a ha _ hmem)
        (by decide), fun hmem => hk (settingRules_keys a ha k hmem)⟩ }

end Settings

section Writing

variable (names : ShortNames) (m : GribMessage)

theorem exec_ifThen (c : GribExpression) (actions : List FilterAction) :
    (ifThen c actions).exec (filterMeaning names) m =
      if c.holds m then (Program.block actions : FilterRules).exec (filterMeaning names) m
      else ⟨[], .ok m⟩ := by
  rw [ifThen, Program.exec_branch_of_test _ (filterMeaning_test names _ m),
    Program.exec_andThen_done, FilterTest.holds]
  split
  · rfl
  · rfl

/-- What is written of a message under a condition, which it leaves as it is. -/
structure WritesIf (p : FilterRules) (b : Bool) : Prop where
  result : (p.exec (filterMeaning names) m).result = .ok m
  written : writtenMessages (p.exec (filterMeaning names) m).emitted = if b then [m] else []

variable {names m}

theorem WritesIf.write : WritesIf names m (.block [.write]) true := ⟨rfl, rfl⟩

theorem WritesIf.print (text : String) : WritesIf names m (.block [.print text]) false := ⟨rfl, rfl⟩

theorem WritesIf.ifThen (c : GribExpression) :
    WritesIf names m (ifThen c [.write]) (c.holds m) := by
  cases h : c.holds m with
  | true =>
    constructor
    · rw [exec_ifThen, if_pos h]
      rfl
    · rw [exec_ifThen, if_pos h]
      rfl
  | false =>
    constructor
    · rw [exec_ifThen, if_neg (by rw [h]; decide)]
    · rw [exec_ifThen, if_neg (by rw [h]; decide)]
      rfl

theorem WritesIf.branch {c : GribExpression} {yes no : FilterRules} {b b' : Bool}
    (hyes : WritesIf names m yes b) (hno : WritesIf names m no b') :
    WritesIf names m (.branch (.condition c) yes no .done) (if c.holds m then b else b') := by
  have hexec : (Program.branch (.condition c) yes no .done : FilterRules).exec
      (filterMeaning names) m = (if c.holds m then yes else no).exec (filterMeaning names) m := by
    rw [Program.exec_branch_of_test _ (filterMeaning_test names _ m), Program.exec_andThen_done]
    rfl
  constructor
  · rw [hexec]
    split
    · exact hyes.result
    · exact hno.result
  · rw [hexec]
    split
    · exact hyes.written
    · exact hno.written

/-- The messages that the `switch` writes. -/
def selected (names : ShortNames) (m : GribMessage) : Bool :=
  if tiggeShortName names m ∈ ignoredCases.map (fun c => some c.1) then false
  else if tiggeShortName names m = some "t" then
    (both (both (isNe .typeOfFirstFixedSurface 1) (isNe .typeOfFirstFixedSurface 103))
      (isNe .scaledValueOfFirstFixedSurface 5000)).holds m
  else if tiggeShortName names m = some "orog" then (isEq .forecastTime 0).holds m
  else if (both (isEq .typeOfFirstFixedSurface 100)
      (isEq .scaledValueOfFirstFixedSurface 5000)).holds m then
    (both (isEq .parameterCategory 3) (isEq .parameterNumber 5)).holds m
  else true

/-- The block that the `switch` runs. -/
theorem writesIf_switch :
    WritesIf names m (((writingCases.find? fun c => c.1.holds names m).map Prod.snd).getD
      defaultCase) (selected names m) := by
  rw [writingCases, List.find?_append, List.find?_map, selected]
  by_cases hignored : tiggeShortName names m ∈ ignoredCases.map fun c => some c.1
  · rw [if_pos hignored]
    obtain ⟨c, hc, hname⟩ := List.mem_map.mp hignored
    have hsome : (ignoredCases.find? ((fun c => c.1.holds names m) ∘ ignore)).isSome := by
      rw [List.find?_isSome]
      exact ⟨c, hc, by simpa [ignore, FilterTest.holds] using hname.symm⟩
    obtain ⟨c', hc'⟩ := Option.isSome_iff_exists.mp hsome
    rw [hc']
    exact WritesIf.print c'.2
  · rw [if_neg hignored]
    have hnone : ignoredCases.find? ((fun c => c.1.holds names m) ∘ ignore) = none := by
      rw [List.find?_eq_none]
      intro c hc hholds
      refine hignored (List.mem_map.mpr ⟨c, hc, ?_⟩)
      exact (of_decide_eq_true hholds).symm
    rw [hnone, Option.map_none, Option.none_or, List.find?_cons]
    by_cases ht : tiggeShortName names m = some "t"
    · rw [if_pos ht, FilterTest.holds, decide_eq_true ht]
      exact WritesIf.ifThen _
    · rw [if_neg ht, FilterTest.holds, decide_eq_false ht, List.find?_cons]
      by_cases horog : tiggeShortName names m = some "orog"
      · rw [if_pos horog, FilterTest.holds, decide_eq_true horog]
        exact WritesIf.ifThen _
      · rw [if_neg horog, FilterTest.holds, decide_eq_false horog]
        have hinner : WritesIf names m (.branch (.condition (both (isEq .parameterCategory 3)
            (isEq .parameterNumber 5))) (.block [.write])
              (.block [.print "EXCEPTION  no 50 mb except HGT"]) .done)
            ((both (isEq .parameterCategory 3) (isEq .parameterNumber 5)).holds m) := by
          have h := @WritesIf.branch names m (both (isEq .parameterCategory 3)
            (isEq .parameterNumber 5)) _ _ _ _ WritesIf.write
            (WritesIf.print "EXCEPTION  no 50 mb except HGT")
          simpa using h
        exact WritesIf.branch hinner WritesIf.write

theorem writesIf_writingRules : WritesIf names m writingRules (selected names m) := by
  have hselect := Program.exec_select (filterMeaning names) writingCases
    (fun c _ => filterMeaning_test names c.1 m) defaultCase
  constructor
  · rw [writingRules, hselect]
    exact writesIf_switch.result
  · rw [writingRules, hselect]
    exact writesIf_switch.written

/-- Which messages the `switch` writes: no record that the C program makes, temperatures neither at
the surface, at 2 m nor at 50 hPa, the orography once, and of 50 hPa only the height. -/
structure Selected (names : ShortNames) (m : GribMessage) : Prop where
  notGenerated : ∀ c ∈ ignoredCases, tiggeShortName names m ≠ some c.1
  temperature : tiggeShortName names m = some "t" →
    ∃ level value, m.getLong .typeOfFirstFixedSurface = .ok level ∧ level ≠ 1 ∧ level ≠ 103 ∧
      m.getLong .scaledValueOfFirstFixedSurface = .ok value ∧ value ≠ 5000
  orography : tiggeShortName names m = some "orog" → m.getLong .forecastTime = .ok 0
  height : tiggeShortName names m ≠ some "t" → tiggeShortName names m ≠ some "orog" →
    m.getLong .typeOfFirstFixedSurface = .ok 100 →
      m.getLong .scaledValueOfFirstFixedSurface = .ok 5000 →
        m.getLong .parameterCategory = .ok 3 ∧ m.getLong .parameterNumber = .ok 5

theorem selected_iff : selected names m = true ↔ Selected names m := by
  have hgenerated : tiggeShortName names m ∈ ignoredCases.map (fun c => some c.1) ↔
      ∃ c ∈ ignoredCases, tiggeShortName names m = some c.1 := by
    rw [List.mem_map]
    exact exists_congr fun c => and_congr_right fun _ => eq_comm
  unfold selected
  by_cases hignored : tiggeShortName names m ∈ ignoredCases.map fun c => some c.1
  · rw [if_pos hignored]
    obtain ⟨c, hc, hname⟩ := hgenerated.mp hignored
    exact iff_of_false (by decide) fun h => h.notGenerated c hc hname
  · rw [if_neg hignored]
    have hnot : ∀ c ∈ ignoredCases, tiggeShortName names m ≠ some c.1 := fun c hc hname =>
      hignored (hgenerated.mpr ⟨c, hc, hname⟩)
    by_cases ht : tiggeShortName names m = some "t"
    · have horog : tiggeShortName names m ≠ some "orog" := by
        rw [ht]
        decide
      rw [if_pos ht, GribExpression.holds_both, GribExpression.holds_both,
        GribExpression.holds_isNe, GribExpression.holds_isNe, GribExpression.holds_isNe]
      constructor
      · rintro ⟨⟨⟨level, hlevel, hne⟩, level', hlevel', hne'⟩, value, hvalue, hne''⟩
        have heq : level' = level := by
          rw [hlevel] at hlevel'
          exact (Except.ok.inj hlevel').symm
        exact ⟨hnot, fun _ => ⟨level, value, hlevel, hne, heq ▸ hne', hvalue, hne''⟩,
          fun h => absurd h horog, fun h => absurd ht h⟩
      · intro h
        obtain ⟨level, value, hlevel, hne, hne', hvalue, hne''⟩ := h.temperature ht
        exact ⟨⟨⟨level, hlevel, hne⟩, level, hlevel, hne'⟩, value, hvalue, hne''⟩
    · rw [if_neg ht]
      by_cases horog : tiggeShortName names m = some "orog"
      · rw [if_pos horog, GribExpression.holds_isEq]
        exact ⟨fun h => ⟨hnot, fun h' => absurd h' ht, fun _ => h, fun _ h' => absurd horog h'⟩,
          fun h => h.orography horog⟩
      · rw [if_neg horog]
        have hfifty : (both (isEq .typeOfFirstFixedSurface 100)
            (isEq .scaledValueOfFirstFixedSurface 5000)).holds m = true ↔
            m.getLong .typeOfFirstFixedSurface = .ok 100 ∧
              m.getLong .scaledValueOfFirstFixedSurface = .ok 5000 := by
          rw [GribExpression.holds_both, GribExpression.holds_isEq, GribExpression.holds_isEq]
        split
        · rename_i hpressure
          rw [GribExpression.holds_both, GribExpression.holds_isEq, GribExpression.holds_isEq]
          obtain ⟨hlevel, hvalue⟩ := hfifty.mp hpressure
          exact ⟨fun h => ⟨hnot, fun h' => absurd h' ht, fun h' => absurd h' horog,
            fun _ _ _ _ => h⟩, fun h => h.height ht horog hlevel hvalue⟩
        · rename_i hpressure
          exact iff_of_true rfl ⟨hnot, fun h' => absurd h' ht, fun h' => absurd h' horog,
            fun _ _ hlevel hvalue => absurd (hfifty.mpr ⟨hlevel, hvalue⟩) hpressure⟩

instance (names : ShortNames) : DecidablePred (Selected names) := fun _ =>
  decidable_of_iff _ selected_iff

/-- The settings say nothing and the `switch` changes nothing. -/
theorem gribFilterRules_result :
    (gribFilterRules.exec (filterMeaning names) m).result =
      (settingRules.exec (filterMeaning names) m).result ∧
    writtenMessages (gribFilterRules.exec (filterMeaning names) m).emitted =
      match (settingRules.exec (filterMeaning names) m).result with
      | .error _ => []
      | .ok m' => if selected names m' then [m'] else [] := by
  have hsilent : (settingRules.exec (filterMeaning names) m).emitted = [] :=
    settings_silent settingRules_settings
  rw [gribFilterRules, Program.exec_append]
  cases h : (settingRules.exec (filterMeaning names) m).result with
  | error e =>
    rw [Execution.andThen_error h, hsilent]
    exact ⟨rfl, rfl⟩
  | ok m' =>
    have hwriting : WritesIf names m' writingRules (selected names m') := writesIf_writingRules
    rw [Execution.andThen_ok h, hsilent]
    exact ⟨hwriting.result, hwriting.written⟩

theorem gribFilter_cons_error {e : GribError} (file : List GribMessage)
    (h : (settingRules.exec (filterMeaning names) m).result = .error e) :
    gribFilter names (m :: file) = ([], some e) := by
  obtain ⟨hresult, hwritten⟩ := @gribFilterRules_result names m
  rw [h] at hresult hwritten
  simp only [gribFilter, hresult, hwritten]

theorem gribFilter_cons_ok {m' : GribMessage} (file : List GribMessage)
    (h : (settingRules.exec (filterMeaning names) m).result = .ok m') :
    gribFilter names (m :: file) =
      ((if selected names m' then [m'] else []) ++ (gribFilter names file).1,
        (gribFilter names file).2) := by
  obtain ⟨hresult, hwritten⟩ := @gribFilterRules_result names m
  rw [h] at hresult hwritten
  simp only [gribFilter, hresult, hwritten]

end Writing

/-- What `shortName.def` of the centre kwbc and of grib_api say of the names that the rules set. -/
def kwbcConcepts : List ConceptValue :=
  [⟨"tcc", [(.coded .discipline, 0), (.coded .parameterCategory, 6), (.coded .parameterNumber, 1)]⟩,
    ⟨"tp", [(.coded .discipline, 0), (.coded .parameterCategory, 1), (.coded .parameterNumber, 8)]⟩,
    ⟨"sd", [(.coded .discipline, 0), (.coded .parameterCategory, 1),
      (.coded .parameterNumber, 11)]⟩,
    ⟨"mx2t6", [(.coded .discipline, 0), (.coded .parameterCategory, 0),
      (.coded .parameterNumber, 0), (.coded .typeOfFirstFixedSurface, 103),
      (.coded .typeOfStatisticalProcessing, 2), (.coded .scaleFactorOfFirstFixedSurface, 0),
      (.coded .scaledValueOfFirstFixedSurface, 2)]⟩,
    ⟨"mn2t6", [(.coded .discipline, 0), (.coded .parameterCategory, 0),
      (.coded .parameterNumber, 0), (.coded .typeOfStatisticalProcessing, 3),
      (.coded .typeOfFirstFixedSurface, 103), (.coded .scaleFactorOfFirstFixedSurface, 0),
      (.coded .scaledValueOfFirstFixedSurface, 2)]⟩,
    ⟨"msl", [(.coded .discipline, 0), (.coded .parameterCategory, 3), (.coded .parameterNumber, 0),
      (.coded .typeOfFirstFixedSurface, 101)]⟩,
    ⟨"skt", [(.coded .discipline, 0), (.coded .parameterCategory, 0), (.coded .parameterNumber, 17),
      (.coded .typeOfFirstFixedSurface, 1)]⟩]

theorem kwbcConcepts_describe : ∀ name ∈ appliedNames,
    ∀ e ∈ ((conceptGet kwbcConcepts name).map ConceptValue.conditions).getD [],
      ∃ k ∈ parameterKeys, e.1 = .coded k := by
  decide

def kwbcNames : ShortNames := ⟨fun _ => kwbcConcepts, []⟩

/-- The temperature at the surface at the start of the first cycle of 2021, as the member `em`
comes in. -/
def surfaceTemperature (em : ℕ) : GribMessage := fun k =>
  let values : Option ℤ := match k with
    | .reserved => some 65535
    | .editionNumber => some 2
    | .centre => some 7
    | .tablesVersion => some 2
    | .year => some 2021
    | .localTablesVersion | .significanceOfReferenceTime | .month | .day
    | .productDefinitionTemplateNumber | .indicatorOfUnitOfTimeRange | .stepUnits
    | .typeOfFirstFixedSurface => some 1
    | .subCentre | .discipline | .hour | .minute | .second | .productionStatusOfProcessedData
    | .sourceOfGridDefinition | .numberOfOctectsForNumberOfPoints
    | .interpretationOfNumberOfPoints | .gridDefinitionTemplateNumber
    | .basicAngleOfTheInitialProductionDomain | .subdivisionsOfBasicAngle
    | .longitudeOfFirstGridPoint | .scanningMode | .parameterCategory | .parameterNumber
    | .forecastTime | .scaleFactorOfFirstFixedSurface | .scaledValueOfFirstFixedSurface
    | .scaleFactorOfSecondFixedSurface | .scaledValueOfSecondFixedSurface
    | .dataRepresentationTemplateNumber | .typeOfOriginalFieldValues => some 0
    | .typeOfProcessedData => some (if em = 0 then 3 else 4)
    | .numberOfDataPoints | .numberOfValues => some 259920
    | .Ni => some 720
    | .Nj => some 361
    | .latitudeOfFirstGridPoint => some 90000000
    | .resolutionAndComponentFlags => some 48
    | .latitudeOfLastGridPoint => some (-90000000)
    | .longitudeOfLastGridPoint => some 359500000
    | .iDirectionIncrement | .jDirectionIncrement => some 500000
    | .generatingProcessIdentifier => some 107
    | .typeOfSecondFixedSurface | .bitMapIndicator => some 255
    | .typeOfEnsembleForecast => some 3
    | .perturbationNumber => some em
    | .numberOfForecastsInEnsemble => some 30
    | _ => none
  values.map k.coding.encode

end Tigge
