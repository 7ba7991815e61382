import Tigge.StepRange

/-! The calls with which a program fills a new handle, and the table of values that they leave. -/

namespace Tigge
open Lib

/-- The product definition templates of the handles. -/
inductive ProductTemplate
  | point
  | ensemblePoint
  | ensembleInterval
  deriving DecidableEq

def ProductTemplate.number : ProductTemplate → ℤ
  | point => 0
  | ensemblePoint => 1
  | ensembleInterval => 11

/-- What becomes of a key when a section is made anew: its octets are copied, it is left out, or it
has a default, for a key that was not there before or for every key. -/
inductive Remake
  | kept
  | removed
  | keptOr (default : ℤ)
  | fresh (default : ℤ)

/-- A key that is there stays as it is. -/
def Remake.isKept : Remake → Bool
  | kept => true
  | keptOr _ => true
  | _ => false

/-- The declarations of a template that is read again with the values of the old one. -/
def ProductTemplate.remake (t : ProductTemplate) : GribKey → Remake
  | .productDefinitionTemplateNumber => .fresh t.number
  | .stepUnits => .fresh 1
  | .typeOfFirstFixedSurface => .fresh 0
  | .typeOfSecondFixedSurface => .fresh 255
  | .scaleFactorOfFirstFixedSurface | .scaledValueOfFirstFixedSurface
  | .scaleFactorOfSecondFixedSurface | .scaledValueOfSecondFixedSurface => .fresh gribMissingLong
  | .typeOfEnsembleForecast => if t = point then .removed else .keptOr 255
  | .perturbationNumber | .numberOfForecastsInEnsemble =>
    if t = point then .removed else .keptOr 0
  | .numberOfTimeRange | .indicatorOfUnitForTimeRange =>
    if t = ensembleInterval then .keptOr 1 else .removed
  | .typeOfTimeIncrement => if t = ensembleInterval then .keptOr 2 else .removed
  | .indicatorOfUnitForTimeIncrement => if t = ensembleInterval then .keptOr 255 else .removed
  | .yearOfEndOfOverallTimeInterval | .monthOfEndOfOverallTimeInterval
  | .dayOfEndOfOverallTimeInterval | .hourOfEndOfOverallTimeInterval
  | .minuteOfEndOfOverallTimeInterval | .secondOfEndOfOverallTimeInterval
  | .numberOfMissingInStatisticalProcess | .typeOfStatisticalProcessing | .lengthOfTimeRange
  | .timeIncrement => if t = ensembleInterval then .keptOr 0 else .removed
  | _ => .kept

/-- The keys that only the packing of JPEG 2000 has. -/
def jpegRemake : GribKey → Remake
  | .dataRepresentationTemplateNumber => .fresh 40
  | .other "typeOfCompressionUsed" 1 => .keptOr 0
  | .other "targetCompressionRatio" 1 => .keptOr 255
  | _ => .kept

/-- The octets of a value that `pack_long` accepts. -/
def Coding.octetsOf (c : Coding) (v : ℤ) : c.Octets :=
  c.encode (if c.canBeMissing ∧ v = gribMissingLong then c.missing else v)

/-- A value of the length of its key, or one that stands for a missing one. -/
def Coding.accepts (c : Coding) (v : ℤ) : Bool :=
  c.signed || (0 ≤ v && v < c.size) || v = gribMissingLong

def GribMessage.remake (m : GribMessage) (f : GribKey → Remake) : GribMessage := fun k =>
  match f k with
  | .kept => m k
  | .removed => none
  | .keptOr default => some ((m k).getD (k.coding.octetsOf default))
  | .fresh default => some (k.coding.octetsOf default)

/-- A template with the same number is not read again. -/
def GribMessage.setProductTemplate (m : GribMessage) (t : ProductTemplate) :
    Except GribError GribMessage :=
  match m .productDefinitionTemplateNumber with
  | none => .error .notFound
  | some raw =>
    if raw = GribKey.productDefinitionTemplateNumber.coding.octetsOf t.number then .ok m
    else .ok (m.remake t.remake)

/-- The keys that `grib_set_double_array` sets with the values of a field: their number, and the
number of those that are not missing where a bit map applies. -/
def GribMessage.setValues (m : GribMessage) (count present : ℕ) : Except GribError GribMessage := do
  let bitMapIndicator ← m.getLong .bitMapIndicator
  let m' ← m.setLong .numberOfValues (if bitMapIndicator = 0 then present else count)
  m'.setLong .numberOfDataPoints count

/-- A call on a handle. The keys of `long` and `missing` choose no template. -/
inductive Setting
  | long (k : GribKey) (v : ℤ)
  | missing (k : GribKey)
  | productTemplate (t : ProductTemplate)
  | jpegPacking
  | startStep (v : ℤ)
  | endStep (v : ℤ)
  | values (count present : ℕ)

def Setting.apply (R : Rounding) (m : GribMessage) : Setting → Except GribError GribMessage
  | long k v => m.setLong k v
  | missing k => m.setMissing k
  | productTemplate t => m.setProductTemplate t
  | jpegPacking => .ok (m.remake jpegRemake)
  | startStep v => m.setStartStep v
  | endStep v => m.setEndStep R v
  | values count present => m.setValues count present

/-- `GRIB_CHECK` exits at the first call that fails. -/
def applySettings (R : Rounding) (m : GribMessage) (settings : List Setting) :
    Except GribError GribMessage :=
  settings.foldlM (Setting.apply R) m

/-- The value that each key was set to last. -/
abbrev KeyValues := GribKey → Option ℤ

namespace KeyValues

def set (V : KeyValues) (k : GribKey) (v : ℤ) : KeyValues := fun k' =>
  if k' = k then some v else V k'

def remake (V : KeyValues) (f : GribKey → Remake) : KeyValues := fun k =>
  match f k with
  | .kept => V k
  | .removed => none
  | .keptOr default => some ((V k).getD default)
  | .fresh default => some default

/-- The message of a table of values. -/
def message (V : KeyValues) : GribMessage := fun k => (V k).map k.coding.octetsOf

variable {V : KeyValues} {k : GribKey} {v : ℤ}

theorem message_some (h : V k = some v) : V.message k = some (k.coding.octetsOf v) := by
  rw [message, h, Option.map_some]

theorem message_set : (V.set k v).message = Function.update V.message k (k.coding.octetsOf v) := by
  funext k'
  by_cases h : k' = k
  · subst h
    rw [Function.update_self, message_some (if_pos rfl)]
  · rw [Function.update_of_ne h, message, set, if_neg h, message]

theorem message_remake (f : GribKey → Remake) : (V.remake f).message = V.message.remake f := by
  funext k
  simp only [message, remake, GribMessage.remake]
  cases f k with
  | kept => rfl
  | removed => rfl
  | keptOr default => cases V k <;> rfl
  | fresh default => rfl

end KeyValues

/-- A value that fits into the octets of its key. -/
theorem Coding.accepts_of_lt {c : Coding} {v : ℤ} (hv : 0 ≤ v) (hlt : v < c.size) :
    c.accepts v = true := by
  simp [accepts, hv, hlt]

theorem Coding.octetsOf_of_pack {c : Coding} {v : ℤ} {raw : c.Octets} (h : c.pack v = .ok raw) :
    raw = c.octetsOf v := by
  unfold pack at h
  extract_lets value at h
  split at h
  · cases h
  · exact (Except.ok.inj h).symm

theorem Coding.pack_of_accepts {c : Coding} {v : ℤ} (h : c.accepts v = true) :
    c.pack v = .ok (c.octetsOf v) := by
  simp only [accepts, Bool.or_eq_true, Bool.and_eq_true, decide_eq_true_eq] at h
  simp only [pack, octetsOf]
  rw [if_neg]
  rintro ⟨hsigned, hmarker, -, hrange⟩
  by_cases hmissing : c.canBeMissing = true ∧ v = gribMissingLong
  · rw [if_pos hmissing, Coding.missing, hsigned, if_neg Bool.false_ne_true] at hrange
    have hpos := c.size_pos
    omega
  · rw [if_neg hmissing] at hmarker hrange
    rcases h with (h | h) | h
    · rw [hsigned] at h
      cases h
    · omega
    · exact hmarker h

namespace KeyValues
variable {V : KeyValues} {k : GribKey} {v : ℤ}

theorem setLong_message (hk : (V k).isSome) (hv : k.coding.accepts v = true) :
    V.message.setLong k v = .ok (V.set k v).message := by
  have hkey : (V.message k).isSome := by
    rw [message, Option.isSome_map]
    exact hk
  rw [GribMessage.setLong_of_pack hkey (Coding.pack_of_accepts hv), message_set]

theorem getLong_message (h : V k = some v) (hv : k.coding.Represents v) :
    V.message.getLong k = .ok v := by
  rw [GribMessage.getLong_of_eq (message_some h)]
  obtain ⟨raw, hpack, hread⟩ := (Coding.unpack_pack_iff k.coding_wellFormed v).mpr hv
  rw [← Coding.octetsOf_of_pack hpack, hread]

theorem isSome_set (V : KeyValues) (k : GribKey) (v : ℤ) {k' : GribKey} (h : (V k').isSome) :
    ((V.set k v) k').isSome := by
  rw [set]
  split
  · rfl
  · exact h

/-- The value `v` of a key that is not there counts as zero. -/
def value (V : KeyValues) (k : GribKey) : ℤ := (V k).getD 0

/-- The reference time. -/
def time (V : KeyValues) : GribDateTime :=
  ⟨V.value .year, V.value .month, V.value .day, V.value .hour, V.value .minute, V.value .second⟩

def setEnd (V : KeyValues) (t : GribDateTime) : KeyValues :=
  (((((V.set .yearOfEndOfOverallTimeInterval t.year).set .monthOfEndOfOverallTimeInterval
    t.month).set .dayOfEndOfOverallTimeInterval t.day).set .hourOfEndOfOverallTimeInterval
    t.hour).set .minuteOfEndOfOverallTimeInterval t.minute).set
    .secondOfEndOfOverallTimeInterval t.second

/-- The table after a call, where the steps and time ranges are counted in hours. -/
def after (R : Rounding) (V : KeyValues) : Setting → KeyValues
  | .long k v => V.set k v
  | .missing k => V.set k gribMissingLong
  | .productTemplate t =>
    if V.value .productDefinitionTemplateNumber = t.number then V else V.remake t.remake
  | .jpegPacking => V.remake jpegRemake
  | .startStep v =>
    match V .lengthOfTimeRange with
    | none => V.set .forecastTime v
    | some length =>
      let shorter := length - (v - V.value .forecastTime)
      (V.set .lengthOfTimeRange (if 0 < shorter then shorter else 0)).set .forecastTime v
  | .endStep v =>
    (V.setEnd (endOfInterval R V.time v 3600)).set .lengthOfTimeRange (v - V.value .forecastTime)
  | .values count present =>
    (V.set .numberOfValues (if V.value .bitMapIndicator = 0 then present else count)).set
      .numberOfDataPoints count

end KeyValues

namespace Setting

/-- The key of a call that sets one is there. -/
def present (V : KeyValues) : Setting → Bool
  | long k _ => (V k).isSome
  | missing k => (V k).isSome
  | _ => false

/-- The key of a call that sets one takes the value. -/
def accepted : Setting → Bool
  | long k v => k.coding.accepts v
  | missing k => k.coding.canBeMissing
  | _ => false

theorem accepts_marker (c : Coding) : c.accepts gribMissingLong = true := by
  simp [Coding.accepts]

theorem apply_message {R : Rounding} {V : KeyValues} {s : Setting} (hpresent : s.present V = true)
    (haccepted : s.accepted = true) : s.apply R V.message = .ok (V.after R s).message := by
  cases s with
  | long k v => exact KeyValues.setLong_message hpresent haccepted
  | missing k =>
    obtain ⟨v, hv⟩ := Option.isSome_iff_exists.mp hpresent
    have hcan : k.coding.canBeMissing = true := haccepted
    show V.message.setMissing k = _
    rw [GribMessage.setMissing, KeyValues.message_some hv]
    exact (if_pos hcan).trans (KeyValues.setLong_message hpresent (accepts_marker _))
  | productTemplate t => cases hpresent
  | jpegPacking => cases hpresent
  | startStep v => cases hpresent
  | endStep v => cases hpresent
  | values count present => cases hpresent

/-- A call that sets a key leaves every key there. -/
theorem isSome_after {R : Rounding} {V : KeyValues} {s : Setting} (h : s.present V = true)
    {k : GribKey} (hk : (V k).isSome) : (V.after R s k).isSome := by
  cases s with
  | long k' v => exact V.isSome_set k' v hk
  | missing k' => exact V.isSome_set k' gribMissingLong hk
  | productTemplate t => cases h
  | jpegPacking => cases h
  | startStep v => cases h
  | endStep v => cases h
  | values count present => cases h

/-- A call leaves a key that is there as it was. -/
def keeps (k : GribKey) : Setting → Bool
  | long k' _ => k ≠ k'
  | missing k' => k ≠ k'
  | productTemplate t => (t.remake k).isKept
  | jpegPacking => (jpegRemake k).isKept
  | startStep _ => k ∉ [GribKey.lengthOfTimeRange, .forecastTime]
  | endStep _ => k ∉ GribKey.lengthOfTimeRange :: GribMessage.endOfIntervalKeys
  | values _ _ => k ∉ [GribKey.numberOfValues, .numberOfDataPoints]

theorem remake_keeps {V : KeyValues} {f : GribKey → Remake} {k : GribKey} {v : ℤ}
    (h : (f k).isKept = true) (hk : V k = some v) : V.remake f k = some v := by
  rw [KeyValues.remake]
  cases hf : f k with
  | kept => exact hk
  | removed => rw [hf] at h; cases h
  | keptOr default => exact congrArg some (by rw [hk, Option.getD_some])
  | fresh default => rw [hf] at h; cases h

theorem after_keeps {R : Rounding} {V : KeyValues} {k : GribKey} {v : ℤ} {s : Setting}
    (h : s.keeps k = true) (hk : V k = some v) : V.after R s k = some v := by
  cases s with
  | long k' v' => exact (if_neg (of_decide_eq_true h)).trans hk
  | missing k' => exact (if_neg (of_decide_eq_true h)).trans hk
  | productTemplate t =>
    rw [KeyValues.after]
    split
    · exact hk
    · exact remake_keeps h hk
  | jpegPacking => exact remake_keeps h hk
  | startStep v' =>
    have hne := of_decide_eq_true h
    simp only [List.mem_cons, List.not_mem_nil, or_false, not_or] at hne
    rw [KeyValues.after]
    cases V .lengthOfTimeRange with
    | none => exact (if_neg hne.2).trans hk
    | some length => exact ((if_neg hne.2).trans (if_neg hne.1)).trans hk
  | endStep v' =>
    have hne := of_decide_eq_true h
    simp only [GribMessage.endOfIntervalKeys, List.mem_cons, List.not_mem_nil, or_false,
      not_or] at hne
    obtain ⟨hlength, hyear, hmonth, hday, hhour, hminute, hsecond⟩ := hne
    simp only [KeyValues.after, KeyValues.setEnd, KeyValues.set, if_neg hlength, if_neg hyear,
      if_neg hmonth, if_neg hday, if_neg hhour, if_neg hminute, if_neg hsecond, hk]
  | values count present =>
    have hne := of_decide_eq_true h
    simp only [List.mem_cons, List.not_mem_nil, or_false, not_or] at hne
    exact ((if_neg hne.2).trans (if_neg hne.1)).trans hk

theorem foldl_keeps {R : Rounding} {k : GribKey} {settings : List Setting}
    (h : settings.all (Setting.keeps k) = true) {V : KeyValues} {v : ℤ} (hk : V k = some v) :
    settings.foldl (KeyValues.after R) V k = some v := by
  induction settings generalizing V with
  | nil => exact hk
  | cons s settings ih =>
    rw [List.all_cons, Bool.and_eq_true] at h
    exact ih h.2 (after_keeps h.1 hk)

theorem present_after {R : Rounding} {V : KeyValues} {s s' : Setting} (h' : s'.present V = true)
    (h : s.present V = true) : s.present (V.after R s') = true := by
  cases s with
  | long k v => exact isSome_after (s := s') h' (k := k) h
  | missing k => exact isSome_after (s := s') h' (k := k) h
  | productTemplate t => cases h
  | jpegPacking => cases h
  | startStep v => cases h
  | endStep v => cases h
  | values count present => cases h

end Setting

section Runs
variable {R : Rounding} {V : KeyValues}

/-- A list of calls succeeds, with the table that they leave. -/
def Runs (R : Rounding) (V : KeyValues) (settings : List Setting) : Prop :=
  applySettings R V.message settings = .ok (settings.foldl (KeyValues.after R) V).message

namespace Runs

theorem append {l l' : List Setting} (h : Runs R V l)
    (h' : Runs R (l.foldl (KeyValues.after R) V) l') : Runs R V (l ++ l') := by
  rw [Runs] at h h'
  rw [Runs, applySettings, List.foldlM_append, List.foldl_append]
  show (applySettings R V.message l >>= fun m' => applySettings R m' l') = _
  rw [h]
  exact h'

theorem single {s : Setting} (h : s.apply R V.message = .ok (V.after R s).message) :
    Runs R V [s] := by
  show (s.apply R V.message >>= pure) = _
  rw [h]
  rfl

/-- Calls that set keys which are there to values which these take. -/
theorem plain {settings : List Setting}
    (hpresent : (settings.all fun s => s.present V) = true)
    (haccepted : settings.all Setting.accepted = true) : Runs R V settings := by
  induction settings generalizing V with
  | nil => rfl
  | cons s settings ih =>
    rw [List.all_cons, Bool.and_eq_true] at hpresent haccepted
    apply (single (Setting.apply_message hpresent.1 haccepted.1)).append
    apply ih _ haccepted.2
    rw [List.all_eq_true]
    exact fun s' hs' => Setting.present_after hpresent.1 (List.all_eq_true.mp hpresent.2 s' hs')

theorem productTemplate {t : ProductTemplate} (t' : ProductTemplate)
    (h : V .productDefinitionTemplateNumber = some t'.number) :
    Runs R V [.productTemplate t] := by
  apply single
  have hiff : GribKey.productDefinitionTemplateNumber.coding.octetsOf t'.number =
      GribKey.productDefinitionTemplateNumber.coding.octetsOf t.number ↔ t'.number = t.number := by
    cases t <;> cases t' <;> decide
  have hvalue : V.value .productDefinitionTemplateNumber = t'.number := by
    rw [KeyValues.value, h, Option.getD_some]
  show V.message.setProductTemplate t = _
  rw [GribMessage.setProductTemplate, KeyValues.message_some h, KeyValues.after, hvalue]
  show (if _ then _ else _) = _
  by_cases ht : t'.number = t.number
  · rw [if_pos (hiff.mpr ht), if_pos ht]
  · rw [if_neg (mt hiff.mp ht), if_neg ht, KeyValues.message_remake]

theorem jpegPacking : Runs R V [.jpegPacking] :=
  single (congrArg Except.ok (KeyValues.message_remake jpegRemake).symm)

end Runs

theorem represents_unsigned {k : GribKey} (hsigned : k.coding.signed = false)
    (hmissing : k.coding.canBeMissing = false) {v : ℤ} (hv : 0 ≤ v) (hlt : v < k.coding.size) :
    k.coding.Represents v := by
  refine .inr ⟨?_, fun h => ?_⟩
  · rw [Coding.InRange, hsigned, if_neg Bool.false_ne_true]
    exact ⟨hv, hlt⟩
  · rw [hmissing] at h
    cases h.1

/-- The steps are coded in hours. -/
structure KeyValues.InHours (V : KeyValues) (step : ℤ) : Prop where
  coded : V .indicatorOfUnitOfTimeRange = some 1
  units : V .stepUnits = some 1
  forecastTime : V .forecastTime = some step
  range : 0 ≤ step ∧ step < 2 ^ 32

/-- A time range in hours. -/
structure KeyValues.TimeRange (V : KeyValues) (length : ℤ) : Prop where
  lengthOfTimeRange : V .lengthOfTimeRange = some length
  bounds : 0 ≤ length ∧ length < 2 ^ 32
  units : V .indicatorOfUnitForTimeRange = some 1
  number : V .numberOfTimeRange = some 1
  increment : V .typeOfTimeIncrement = some 2

theorem getStartStep_message {f : ℤ} (h : V.InHours f) :
    V.message.getStartStep = .ok (f, V.message) := by
  have hcoded := KeyValues.getLong_message h.coded (by decide)
  have hunits := KeyValues.getLong_message h.units (by decide)
  have hstep := KeyValues.getLong_message h.forecastTime
    (represents_unsigned rfl rfl h.range.1 h.range.2)
  simp only [GribMessage.getStartStep, hcoded, hunits, hstep, bind, Except.bind, if_true]
  rfl

theorem isStatistical_message : V.message.isStatistical = (V .lengthOfTimeRange).isSome :=
  Option.isSome_map ..

theorem getEndStep_point {f : ℤ} (h : V.InHours f) (hpoint : V .lengthOfTimeRange = none) :
    V.message.getEndStep = .ok (f, V.message) := by
  simp only [GribMessage.getEndStep, getStartStep_message h, isStatistical_message, hpoint,
    bind, Except.bind]
  rfl

theorem getEndStep_range {f l : ℤ} (h : V.InHours f) (hrange : V.TimeRange l) :
    V.message.getEndStep = .ok (f + l, V.message) := by
  have hunit := KeyValues.getLong_message h.units (by decide)
  have hcoded := KeyValues.getLong_message hrange.units (by decide)
  have hlength := KeyValues.getLong_message hrange.lengthOfTimeRange
    (represents_unsigned rfl rfl hrange.bounds.1 hrange.bounds.2)
  have hincrement := KeyValues.getLong_message hrange.increment (by decide)
  have hnumber := KeyValues.getLong_message hrange.number (by decide)
  have hrangeEnd : V.message.endOfOneTimeRange = .ok (f + l, V.message) := by
    simp only [GribMessage.endOfOneTimeRange, getStartStep_message h, hunit, hcoded, hlength,
      hincrement, GribMessage.convertTimeRange_same, bind, Except.bind]
    rfl
  simp only [GribMessage.getEndStep, getStartStep_message h, isStatistical_message,
    hrange.lengthOfTimeRange, hnumber, hrangeEnd, Option.isSome_some, if_true, bind, Except.bind]

theorem codeStep_message {f v : ℤ} (h : V.InHours f) :
    V.message.setStartStep v = (V.message.shortenTimeRange v 1 f >>= fun m' =>
      m'.setLong .forecastTime v) := by
  have hcoded := KeyValues.getLong_message h.coded (by decide)
  have hunits := KeyValues.getLong_message h.units (by decide)
  simp only [GribMessage.setStartStep, hcoded, hunits, GribMessage.oldStep, getStartStep_message h,
    GribMessage.codeStep, bind, Except.bind, if_true]

/-- A start step of a product at a point in time. -/
theorem setStartStep_message {f v : ℤ} (h : V.InHours f) (hpoint : V .lengthOfTimeRange = none)
    (hv : 0 ≤ v ∧ v < 2 ^ 32) :
    V.message.setStartStep v = .ok (V.set .forecastTime v).message := by
  rw [codeStep_message h, GribMessage.shortenTimeRange, isStatistical_message, hpoint]
  exact KeyValues.setLong_message (by rw [h.forecastTime]; rfl) (Coding.accepts_of_lt hv.1 hv.2)

/-- A start step of a time range, which ends where it did. -/
theorem setStartStep_range {f l v : ℤ} (h : V.InHours f) (hrange : V.TimeRange l)
    (hv : 0 ≤ v ∧ v < 2 ^ 32) (hend : l - (v - f) < 2 ^ 32) :
    V.message.setStartStep v = .ok ((V.set .lengthOfTimeRange
      (if 0 < l - (v - f) then l - (v - f) else 0)).set .forecastTime v).message := by
  have hunits := KeyValues.getLong_message hrange.units (by decide)
  have hlength := KeyValues.getLong_message hrange.lengthOfTimeRange
    (represents_unsigned rfl rfl hrange.bounds.1 hrange.bounds.2)
  rw [codeStep_message h, GribMessage.shortenTimeRange, isStatistical_message,
    hrange.lengthOfTimeRange]
  simp only [Option.isSome_some, if_true, hunits, hlength, bind, Except.bind]
  rw [KeyValues.setLong_message (by rw [hrange.lengthOfTimeRange]; rfl) (Coding.accepts_of_lt _ _)]
  · refine KeyValues.setLong_message (k := .forecastTime) ?_ (Coding.accepts_of_lt hv.1 hv.2)
    exact KeyValues.isSome_set _ _ _ (by rw [h.forecastTime]; rfl)
  · split <;> omega
  · show _ < (2 ^ 32 : ℤ)
    split <;> omega

/-- A time that fits into the keys of a message. -/
structure Storable (t : GribDateTime) : Prop where
  year : 0 ≤ t.year ∧ t.year < 2 ^ 16
  month : 0 ≤ t.month ∧ t.month < 2 ^ 8
  day : 0 ≤ t.day ∧ t.day < 2 ^ 8
  hour : 0 ≤ t.hour ∧ t.hour < 2 ^ 8
  minute : 0 ≤ t.minute ∧ t.minute < 2 ^ 8
  second : 0 ≤ t.second ∧ t.second < 2 ^ 8

/-- The keys of the reference time. -/
structure KeyValues.HasTime (V : KeyValues) (t : GribDateTime) : Prop where
  year : V .year = some t.year
  month : V .month = some t.month
  day : V .day = some t.day
  hour : V .hour = some t.hour
  minute : V .minute = some t.minute
  second : V .second = some t.second

theorem dateTime_message {t : GribDateTime} (h : V.HasTime t) (ht : Storable t) :
    V.message.dateTime = .ok t := by
  have hread : ∀ k v, k.coding = ⟨1, false, false⟩ → V k = some v → 0 ≤ v ∧ v < 2 ^ 8 →
      V.message.getLong k = .ok v := by
    intro k v hk hv hbounds
    apply KeyValues.getLong_message hv
    rw [hk]
    exact .inr ⟨hbounds, fun h => by cases h.1⟩
  have hyear := KeyValues.getLong_message h.year (represents_unsigned rfl rfl ht.year.1 ht.year.2)
  simp only [GribMessage.dateTime, hyear, hread _ _ rfl h.month ht.month,
    hread _ _ rfl h.day ht.day, hread _ _ rfl h.hour ht.hour, hread _ _ rfl h.minute ht.minute,
    hread _ _ rfl h.second ht.second, bind, Except.bind]
  rfl

def endOfIntervalSettings (t : GribDateTime) : List Setting :=
  [.long .yearOfEndOfOverallTimeInterval t.year, .long .monthOfEndOfOverallTimeInterval t.month,
    .long .dayOfEndOfOverallTimeInterval t.day, .long .hourOfEndOfOverallTimeInterval t.hour,
    .long .minuteOfEndOfOverallTimeInterval t.minute,
    .long .secondOfEndOfOverallTimeInterval t.second]

theorem endOfIntervalSettings_accepted {t : GribDateTime} (ht : Storable t) :
    (endOfIntervalSettings t).all Setting.accepted = true := by
  simp only [endOfIntervalSettings, List.all_cons, List.all_nil, Setting.accepted, Bool.and_true,
    Bool.and_eq_true]
  exact ⟨Coding.accepts_of_lt ht.year.1 ht.year.2, Coding.accepts_of_lt ht.month.1 ht.month.2,
    Coding.accepts_of_lt ht.day.1 ht.day.2, Coding.accepts_of_lt ht.hour.1 ht.hour.2,
    Coding.accepts_of_lt ht.minute.1 ht.minute.2, Coding.accepts_of_lt ht.second.1 ht.second.2⟩

theorem setEndOfInterval_eq (m : GribMessage) (t : GribDateTime) :
    m.setEndOfInterval t = applySettings R m (endOfIntervalSettings t) := by
  simp only [GribMessage.setEndOfInterval, applySettings, endOfIntervalSettings, List.foldlM_cons,
    List.foldlM_nil, Setting.apply, bind_pure]

theorem endOfIntervalSettings_present
    (hkeys : (GribMessage.endOfIntervalKeys.all fun k => (V k).isSome) = true) (t : GribDateTime) :
    ((endOfIntervalSettings t).all fun s => s.present V) = true := hkeys

theorem codeTimeRange_hours (m : GribMessage) (timeRange : ℤ) :
    m.codeTimeRange timeRange 1 1 = .ok (timeRange, m) := by
  have hmod : (timeRange * 3600).tmod 3600 = 0 := Int.mul_tmod_left ..
  have hdiv : (timeRange * 3600).tdiv 3600 = timeRange := Int.mul_tdiv_cancel _ (by decide)
  show (if (timeRange * 3600).tmod 3600 ≠ 0 then _ else _) = _
  rw [if_neg (not_not.mpr hmod)]
  exact congrArg (fun x => Except.ok (x, m)) hdiv

/-- The end step of a time range, with the end of the interval that comes of it. -/
theorem setEndStep_range {f l v : ℤ} {t : GribDateTime} (h : V.InHours f)
    (hrange : V.TimeRange l) (htime : V.HasTime t) (ht : Storable t)
    (hkeys : (GribMessage.endOfIntervalKeys.all fun k => (V k).isSome) = true)
    (hend : Storable (endOfInterval R t v 3600)) (hv : f ≤ v) (hlt : v < 2 ^ 32) :
    V.message.setEndStep R v = .ok ((V.setEnd (endOfInterval R t v 3600)).set
      .lengthOfTimeRange (v - f)).message := by
  have hunits := KeyValues.getLong_message h.units (by decide)
  have hrangeUnits := KeyValues.getLong_message hrange.units (by decide)
  have hincrement := KeyValues.getLong_message hrange.increment (by decide)
  rw [GribMessage.setEndStep, isStatistical_message, hrange.lengthOfTimeRange]
  simp only [Option.isSome_some, if_true, hunits, hrangeUnits, hincrement,
    dateTime_message htime ht, getStartStep_message h, bind, Except.bind]
  have hinterval : V.message.setEndOfInterval (endOfInterval R t v 3600) =
      .ok (V.setEnd (endOfInterval R t v 3600)).message := by
    rw [setEndOfInterval_eq (R := R)]
    exact Runs.plain (endOfIntervalSettings_present hkeys _) (endOfIntervalSettings_accepted hend)
  rw [if_neg (by omega), show u2s 1 = 3600 from rfl, hinterval]
  simp only [codeTimeRange_hours]
  rw [if_neg (by decide)]
  have hf := h.range
  refine KeyValues.setLong_message (k := .lengthOfTimeRange) ?_
    (Coding.accepts_of_lt (by omega) (show v - f < (2 ^ 32 : ℤ) by omega))
  show (V .lengthOfTimeRange).isSome = true
  rw [hrange.lengthOfTimeRange]
  rfl

theorem setValues_message {bitMapIndicator : ℤ} {count present : ℕ}
    (hmap : V .bitMapIndicator = some bitMapIndicator)
    (hbyte : 0 ≤ bitMapIndicator ∧ bitMapIndicator < 2 ^ 8) (hvalues : (V .numberOfValues).isSome)
    (hpoints : (V .numberOfDataPoints).isSome) (hpresent : present ≤ count)
    (hcount : count < 2 ^ 32) :
    V.message.setValues count present = .ok ((V.set .numberOfValues
      (if bitMapIndicator = 0 then present else count)).set .numberOfDataPoints count).message := by
  have hread := KeyValues.getLong_message hmap (represents_unsigned rfl rfl hbyte.1 hbyte.2)
  have hlt : (count : ℤ) < 2 ^ 32 := by exact_mod_cast hcount
  have hlt' : (present : ℤ) < 2 ^ 32 := by exact_mod_cast hpresent.trans_lt hcount
  have hset : (V.set .numberOfValues
      (if bitMapIndicator = 0 then present else count) .numberOfDataPoints).isSome := hpoints
  simp only [GribMessage.setValues, hread, bind, Except.bind]
  rw [KeyValues.setLong_message hvalues (Coding.accepts_of_lt _ _)]
  · exact KeyValues.setLong_message hset (Coding.accepts_of_lt (Int.natCast_nonneg _) hlt)
  · split <;> exact Int.natCast_nonneg _
  · split
    · exact hlt'
    · exact hlt

theorem KeyValues.value_of {k : GribKey} {v : ℤ} (h : V k = some v) : V.value k = v := by
  rw [value, h, Option.getD_some]

namespace Runs

theorem startStep {f v : ℤ} (h : V.InHours f) (hpoint : V .lengthOfTimeRange = none)
    (hv : 0 ≤ v ∧ v < 2 ^ 32) : Runs R V [.startStep v] := by
  apply single
  rw [KeyValues.after, hpoint]
  exact setStartStep_message h hpoint hv

theorem startStep_range {f l v : ℤ} (h : V.InHours f) (hrange : V.TimeRange l)
    (hv : 0 ≤ v ∧ v < 2 ^ 32) (hend : l - (v - f) < 2 ^ 32) : Runs R V [.startStep v] := by
  apply single
  rw [KeyValues.after, hrange.lengthOfTimeRange]
  simp only [KeyValues.value_of h.forecastTime]
  exact setStartStep_range h hrange hv hend

theorem endStep {f l v : ℤ} {t : GribDateTime} (h : V.InHours f) (hrange : V.TimeRange l)
    (htime : V.HasTime t) (ht : Storable t)
    (hkeys : (GribMessage.endOfIntervalKeys.all fun k => (V k).isSome) = true)
    (hend : Storable (endOfInterval R t v 3600)) (hv : f ≤ v) (hlt : v < 2 ^ 32) :
    Runs R V [.endStep v] := by
  apply single
  have hreference : V.time = t := by
    simp only [KeyValues.time, KeyValues.value_of htime.year, KeyValues.value_of htime.month,
      KeyValues.value_of htime.day, KeyValues.value_of htime.hour,
      KeyValues.value_of htime.minute, KeyValues.value_of htime.second]
  rw [KeyValues.after, KeyValues.value_of h.forecastTime, hreference]
  exact setEndStep_range h hrange htime ht hkeys hend hv hlt

/-- The two steps of a time range, which may have had others. -/
theorem steps {f l s v : ℤ} {t : GribDateTime} (h : V.InHours f) (hrange : V.TimeRange l)
    (htime : V.HasTime t) (ht : Storable t)
    (hkeys : (GribMessage.endOfIntervalKeys.all fun k => (V k).isSome) = true)
    (hs : 0 ≤ s) (hv : s ≤ v) (hlt : v < 2 ^ 32) (hlength : l - (s - f) < 2 ^ 32)
    (hend : Storable (endOfInterval R t v 3600)) : Runs R V [.startStep s, .endStep v] := by
  refine append (l := [.startStep s]) (startStep_range h hrange ⟨hs, hv.trans_lt hlt⟩ hlength) ?_
  have hafter : V.after R (.startStep s) = (V.set .lengthOfTimeRange
      (if 0 < l - (s - f) then l - (s - f) else 0)).set .forecastTime s := by
    simp only [KeyValues.after, hrange.lengthOfTimeRange, KeyValues.value_of h.forecastTime]
  show Runs R (V.after R (.startStep s)) _
  rw [hafter]
  apply endStep (f := s) (l := if 0 < l - (s - f) then l - (s - f) else 0) (t := t)
  · exact ⟨h.coded, h.units, rfl, hs, hv.trans_lt hlt⟩
  · refine ⟨rfl, ?_, hrange.units, hrange.number, hrange.increment⟩
    constructor <;> split <;> omega
  · exact ⟨htime.year, htime.month, htime.day, htime.hour, htime.minute, htime.second⟩
  · exact ht
  · exact hkeys
  · exact hend
  · exact hv
  · exact hlt

theorem values {bitMapIndicator : ℤ} {count present : ℕ}
    (hmap : V .bitMapIndicator = some bitMapIndicator)
    (hbyte : 0 ≤ bitMapIndicator ∧ bitMapIndicator < 2 ^ 8) (hvalues : (V .numberOfValues).isSome)
    (hpoints : (V .numberOfDataPoints).isSome) (hpresent : present ≤ count)
    (hcount : count < 2 ^ 32) : Runs R V [.values count present] := by
  apply single
  rw [KeyValues.after, KeyValues.value_of hmap]
  exact setValues_message hmap hbyte hvalues hpoints hpresent hcount

end Runs

end Runs

namespace GribMessage
variable {m m' : GribMessage}

/-- The end step of one time range, in units of fixed length, is read back after it was set, and the
start step stays. -/
theorem setEndStep_getEndStep {R : Rounding} {s v : ℤ} (hstatistical : m.isStatistical)
    (hstart : m.getStartStep = .ok (s, m)) (hranges : m.getLong .numberOfTimeRange = .ok 1)
    (hincrement : m.getLong .typeOfTimeIncrement ≠ .ok 1)
    (hcoded : ∀ u, m.getLong .indicatorOfUnitForTimeRange = .ok u → 0 < u2s2 u)
    (hunit : ∀ u, m.getLong .stepUnits = .ok u → 0 < u2s u ∧ (v - s) * u2s u < 2 ^ 32)
    (h : m.setEndStep R v = .ok m') :
    m'.getEndStep = .ok (v, m') ∧ m'.getStartStep = .ok (s, m') := by
  rw [setEndStep, if_pos hstatistical] at h
  obtain ⟨codedUnit, hcodedUnit, h⟩ := bind_eq_ok h
  obtain ⟨unit, hstepUnits, h⟩ := bind_eq_ok h
  obtain ⟨t, -, h⟩ := bind_eq_ok h
  rw [hstart] at h
  obtain ⟨inc, hinc, h⟩ := bind_eq_ok (show (m.getLong .typeOfTimeIncrement >>= _) = _ from h)
  split at h
  · cases h
  rename_i hnonneg
  obtain ⟨m₁, hinterval, h⟩ := bind_eq_ok h
  obtain ⟨coded, hrange, h⟩ := bind_eq_ok h
  have hne : inc ≠ 1 := fun heq => hincrement (heq ▸ hinc)
  rw [if_neg hne] at h
  have hframe : ∀ k, k ∉ endOfIntervalKeys → k ≠ .indicatorOfUnitForTimeRange →
      k ≠ .lengthOfTimeRange → m' k = m k := fun k h₁ h₂ h₃ => by
    rw [setLong_frame h h₃, codeTimeRange_frame hrange h₂, setEndOfInterval_frame hinterval h₁]
  obtain ⟨hpos, hlt⟩ := hunit unit hstepUnits
  obtain ⟨⟨hlow, hhigh⟩, u, hu, hconvert⟩ := codeTimeRange_spec hrange
    ((getLong_congr (setEndOfInterval_frame hinterval (by decide))).trans hcodedUnit)
    (hcoded codedUnit hcodedUnit) hpos (getLong_bounds hstepUnits rfl rfl) (not_lt.mp hnonneg)
  have hlength : m'.getLong .lengthOfTimeRange = .ok coded.1 :=
    setLong_getLong h (represents_unsigned rfl rfl hlow (hhigh.trans_lt hlt))
  have hstart' : m'.getStartStep = .ok (s, m') := by
    apply getStartStep_congr hstart
    intro k hk
    simp only [startStepKeys, List.mem_cons, List.not_mem_nil, or_false] at hk
    rcases hk with rfl | rfl | rfl <;> exact hframe _ (by decide) (by decide) (by decide)
  refine ⟨?_, hstart'⟩
  have hstatistical' : m'.isStatistical := setLong_present h (by
    rw [codeTimeRange_frame hrange (by decide), setEndOfInterval_frame hinterval (by decide)]
    exact hstatistical)
  have hranges' : m'.getLong .numberOfTimeRange = .ok 1 :=
    (getLong_congr (hframe _ (by decide) (by decide) (by decide))).trans hranges
  have hunits' : m'.getLong .stepUnits = .ok unit :=
    (getLong_congr (hframe _ (by decide) (by decide) (by decide))).trans hstepUnits
  have hcoded' : m'.getLong .indicatorOfUnitForTimeRange = .ok u :=
    (getLong_frame h (by decide)).trans hu
  have hinc' : m'.getLong .typeOfTimeIncrement = .ok inc :=
    (getLong_congr (hframe _ (by decide) (by decide) (by decide))).trans hinc
  have hend : m'.endOfOneTimeRange = .ok (v, m') := by
    simp only [endOfOneTimeRange, hstart', hunits', hcoded', hlength, hinc', bind, Except.bind,
      hconvert, if_neg hne]
    exact congrArg (fun x => Except.ok (x, m')) (by omega)
  simp only [getEndStep, hstart', hstatistical', hranges', bind, Except.bind, if_true, hend]

/-- The keys of a time range in hours. -/
def hourlyRange : KeyValues
  | .year => some 2020
  | .month => some 2
  | .day => some 28
  | .hour => some 18
  | .typeOfTimeIncrement => some 2
  | .indicatorOfUnitForTimeRange | .indicatorOfUnitOfTimeRange | .stepUnits
  | .numberOfTimeRange => some 1
  | _ => some 0

theorem setEndStep_getEndStep_leap_day :
    ∃ m', hourlyRange.message.setEndStep binary64 6 = .ok m' ∧
      m'.getEndStep = .ok (6, m') ∧ m'.getStartStep = .ok (0, m') := by
  have htime : hourlyRange.HasTime ⟨2020, 2, 28, 18, 0, 0⟩ := ⟨rfl, rfl, rfl, rfl, rfl, rfl⟩
  have hsteps : hourlyRange.InHours 0 := ⟨rfl, rfl, rfl, by decide⟩
  have hend : endOfInterval binary64 ⟨2020, 2, 28, 18, 0, 0⟩ 6 3600 = ⟨2020, 2, 29, 0, 0, 0⟩ :=
    endOfInterval_eq binary64
      ⟨⟨by decide, by decide, by decide, by decide⟩, by decide, by decide, by decide, by decide,
        by decide, by decide, by decide, by decide⟩
      ⟨⟨by decide, by decide, by decide, by decide⟩, by decide, by decide, by decide, by decide,
        by decide, by decide, by decide, by decide⟩ (by decide) (by decide) (by decide)
  have hset := setEndStep_range hsteps (l := 0) (by constructor <;> decide) htime
    (by constructor <;> decide) (by decide) (v := 6) (R := binary64)
    (by rw [hend]; constructor <;> decide) (by decide) (by decide)
  exact ⟨_, hset, setEndStep_getEndStep rfl (getStartStep_message hsteps) rfl (by decide)
    (fun u hu => by cases hu; decide) (fun u hu => by cases hu; decide) hset⟩

end GribMessage

end Tigge
